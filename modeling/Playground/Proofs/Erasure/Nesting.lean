import Mathlib.Data.List.Induction
import Playground.Proofs.Erasure.Tokens

/-!
# How brackets nest

The depth of a stream at an index is the number of brackets and substitutions open before
it. `Encloses` says of two brackets that they match and that everything between them lies
deeper. The partners that a `TokenStream` answers with are enclosing pairs, and the tail of a
template returns to the depth of its head (`nested_of_ofSource`).
-/

namespace Playground

/-- The number of open brackets after a token. -/
def BracketRole.depthAfter (depth : Nat) : BracketRole → Nat
  | .opens => depth + 1
  | .closes | .resumes false => depth - 1
  | .resumes true | .neutral => depth

/-- The number of brackets open before the token at an index. -/
def depthAt (tokens : List Token) (index : Nat) : Nat :=
  (tokens.take index).foldl (fun depth token => token.bracketRole.depthAfter depth) 0

/-- The texts of the brackets that match. -/
def bracketPairs : List (String × String) :=
  [("(", ")"), ("[", "]"), ("\x7b", "\x7d")]

/-- From `index` on the depth stays above a level up to `close`, which returns to it. -/
structure Returns (tokens : List Token) (level index close : Nat) : Prop where
  after : index ≤ close
  inside : ∀ between, index ≤ between → between ≤ close → level + 1 ≤ depthAt tokens between
  outside : depthAt tokens (close + 1) = level

/-- The bracket at `opening` is closed by the one at `close`. -/
structure Encloses (tokens : List Token) (opening close : Nat) : Prop where
  matching : ∃ token closer, tokens[opening]? = some token ∧ tokens[close]? = some closer ∧
    token.kind = .punctuator ∧ closer.kind = .punctuator ∧ (token.text, closer.text) ∈ bracketPairs
  returns : Returns tokens (depthAt tokens opening) (opening + 1) close

theorem depthAt_succ {tokens : List Token} {index : Nat} {token : Token}
    (found : tokens[index]? = some token) :
    depthAt tokens (index + 1) = token.bracketRole.depthAfter (depthAt tokens index) := by
  simp [depthAt, List.take_add_one, found]

theorem Returns.of_succ {tokens : List Token} {level index close : Nat}
    (returns : Returns tokens level (index + 1) close) (deeper : level + 1 ≤ depthAt tokens index) :
    Returns tokens level index close where
  after := Nat.le_of_succ_le returns.after
  outside := returns.outside
  inside between lower upper := by
    rcases Nat.eq_or_lt_of_le lower with rfl | later
    · exact deeper
    · exact returns.inside between later upper

/-! ## Pairing -/

theorem Token.bracketRole_eq_opens {token : Token} (opens : token.bracketRole = .opens) :
    token.kind = .punctuator ∨ token.kind = .templateHead := by
  unfold bracketRole at opens
  split at opens <;> simp_all

theorem Token.bracketRole_eq_closes {token : Token} (closes : token.bracketRole = .closes) :
    token.kind = .punctuator := by
  unfold bracketRole at closes
  split at closes <;> simp_all

theorem Token.bracketRole_eq_resumes {token : Token} {continues : Bool}
    (resumes : token.bracketRole = .resumes continues) :
    token.kind = .templateMiddle ∨ token.kind = .templateTail := by
  unfold bracketRole at resumes
  split at resumes
  · split at resumes
    · contradiction
    · split at resumes <;> contradiction
  all_goals simp_all

theorem Token.closer?_eq_some {token : Token} {text : String}
    (closer : token.closer? = some text) : (token.text, text) ∈ bracketPairs := by
  unfold closer? at closer
  split at closer
  · simp_all [bracketPairs]
  · split at closer
    · simp_all [bracketPairs]
    · split at closer <;> simp_all [bracketPairs]

/-- The parts of a template that open a substitution are not closed by brackets. -/
theorem Token.WellSpelled.closer?_eq_none {token : Token} (spelled : token.WellSpelled)
    (template : token.kind = .templateHead ∨ token.kind = .templateMiddle) :
    token.closer? = none := by
  cases closer : token.closer? with
  | none => rfl
  | some text =>
    exfalso
    have listed := Token.closer?_eq_some closer
    simp only [bracketPairs, List.mem_cons, Prod.mk.injEq, List.not_mem_nil, or_false] at listed
    rcases template with kind | kind <;>
      · simp only [WellSpelled, kind] at spelled
        rcases listed with ⟨opening, _⟩ | ⟨opening, _⟩ | ⟨opening, _⟩ <;>
          simp [opening] at spelled

/-- The bracket at `close` closes an open bracket below which `outer` brackets are open. -/
structure Resolves (tokens : List Token) (opener : Token) (outer index close : Nat) : Prop where
  closes : ∃ closer, tokens[close]? = some closer ∧ closer.kind = .punctuator ∧
    opener.closer? = some closer.text
  returns : Returns tokens outer index close

/-- Where a pair found from `index` on opens: among the tokens that were left, or at one of
the brackets open at `index`. -/
inductive PairOrigin (tokens : List Token) (opened : List IndexedToken) (index : Nat) :
    Nat × Nat → Prop where
  | later {opening close} (after : index ≤ opening) (encloses : Encloses tokens opening close) :
      PairOrigin tokens opened index (opening, close)
  | pending (inner : List IndexedToken) {entry outer close} (shape : opened = inner ++ entry :: outer)
      (resolves : Resolves tokens entry.token outer.length index close) :
      PairOrigin tokens opened index (entry.index, close)

section Origins

variable {tokens : List Token} {opened older : List IndexedToken} {index : Nat}
variable {pair : Nat × Nat} {token : Token}

/-- One token back, where further brackets were open. -/
theorem PairOrigin.of_succ (closed : List IndexedToken)
    (origin : PairOrigin tokens older (index + 1) pair)
    (depth : depthAt tokens index = (closed ++ older).length) :
    PairOrigin tokens (closed ++ older) index pair := by
  cases origin with
  | later after encloses => exact .later (Nat.le_of_succ_le after) encloses
  | @pending inner entry outer close shape resolves =>
    subst shape
    refine .pending (closed ++ inner) (List.append_assoc closed inner _).symm
      ⟨resolves.closes, resolves.returns.of_succ ?_⟩
    simp only [List.length_append, List.length_cons] at depth
    omega

/-- One token back, before a bracket was opened. -/
theorem PairOrigin.of_opened
    (origin : PairOrigin tokens (⟨index, token⟩ :: older) (index + 1) pair) :
    PairOrigin tokens older (index + 1) pair ∨
      ∃ close, pair = (index, close) ∧ Resolves tokens token older.length (index + 1) close := by
  cases origin with
  | later after encloses => exact .inl (.later after encloses)
  | @pending inner entry outer close shape resolves =>
    cases inner with
    | nil =>
      obtain ⟨rfl, rfl⟩ := List.cons.inj shape
      exact .inr ⟨close, rfl, resolves⟩
    | cons first inner =>
      exact .inl (.pending inner (List.cons.inj shape).2 resolves)

theorem Resolves.encloses {close : Nat}
    (resolves : Resolves tokens token (depthAt tokens index) (index + 1) close)
    (found : tokens[index]? = some token) (kind : token.kind = .punctuator) :
    Encloses tokens index close := by
  obtain ⟨⟨closer, foundCloser, closerKind, closes⟩, returns⟩ := resolves
  exact ⟨⟨token, closer, found, foundCloser, kind, closerKind, Token.closer?_eq_some closes⟩,
    returns⟩

/-- Pairing brackets yields enclosing pairs and pairs that close what was open. -/
theorem pairOrigin_of_pairBrackets (opened : List IndexedToken) {remaining : List Token}
    {pairs : List (Nat × Nat)} (spelled : ∀ token ∈ tokens, token.WellSpelled) (left : tokens.drop index = remaining)
    (depth : depthAt tokens index = opened.length)
    (paired : pairBrackets opened index remaining = .ok pairs) :
    ∀ pair ∈ pairs, PairOrigin tokens opened index pair := by
  induction remaining generalizing opened index pairs with
  | nil =>
    cases opened with
    | nil =>
      cases paired
      simp
    | cons => contradiction
  | cons token rest inductionHypothesis =>
    have found : tokens[index]? = some token := by
      rw [← List.head?_drop, left, List.head?_cons]
    have leftNext : tokens.drop (index + 1) = rest := by
      rw [← List.tail_drop, left, List.tail_cons]
    have wellSpelled := spelled token (List.mem_of_getElem? found)
    have depthNext := depthAt_succ found
    rw [depth] at depthNext
    simp only [pairBrackets] at paired
    cases role : token.bracketRole with
    | neutral =>
      simp only [role] at paired depthNext
      intro pair member
      exact (inductionHypothesis _ leftNext depthNext paired pair member).of_succ [] depth
    | opens =>
      simp only [role] at paired depthNext
      intro pair member
      have origin := inductionHypothesis (⟨index, token⟩ :: opened) leftNext depthNext
        paired pair member
      rcases origin.of_opened with older | ⟨close, rfl, resolves⟩
      · exact older.of_succ [] depth
      · have kind : token.kind = .punctuator := by
          rcases Token.bracketRole_eq_opens role with kind | head
          · exact kind
          · obtain ⟨closer, _, _, closes⟩ := resolves.closes
            simp [wellSpelled.closer?_eq_none (.inl head)] at closes
        rw [← depth] at resolves
        exact .later (Nat.le_refl index) (resolves.encloses found kind)
    | closes =>
      simp only [role] at paired depthNext
      cases opened with
      | nil => contradiction
      | cons innermost outer =>
        simp only at paired
        split at paired
        · contradiction
        · rename_i expected closer
          split at paired
          case isFalse => contradiction
          case isTrue matching =>
            obtain ⟨inner, pairedRest, result⟩ := bind_eq_ok_iff.mp paired
            cases result
            have depthOuter : depthAt tokens (index + 1) = outer.length := by
              simpa [BracketRole.depthAfter] using depthNext
            intro pair member
            rcases List.mem_cons.mp member with rfl | inRest
            · refine .pending [] rfl ⟨⟨token, found, ?_, ?_⟩, Nat.le_refl _, ?_, depthOuter⟩
              · exact Token.bracketRole_eq_closes role
              · rw [closer, matching]
              · intro between lower upper
                obtain rfl := Nat.le_antisymm upper lower
                exact Nat.le_of_eq depth.symm
            · exact (inductionHypothesis _ leftNext depthOuter pairedRest pair inRest).of_succ
                [innermost] depth
    | resumes continues =>
      simp only [role] at paired depthNext
      cases opened with
      | nil => contradiction
      | cons innermost outer =>
        simp only at paired
        split at paired
        case isFalse => contradiction
        case isTrue =>
          intro pair member
          cases continues with
          | false =>
            have depthOuter : depthAt tokens (index + 1) = outer.length := by
              simpa [BracketRole.depthAfter] using depthNext
            exact (inductionHypothesis _ leftNext depthOuter paired pair member).of_succ
              [innermost] depth
          | true =>
            have origin := inductionHypothesis (⟨index, token⟩ :: outer) leftNext
              depthNext paired pair member
            rcases origin.of_opened with older | ⟨close, rfl, resolves⟩
            · exact older.of_succ [innermost] depth
            · obtain ⟨closer, _, _, closes⟩ := resolves.closes
              have middle : token.kind = .templateMiddle := by
                rcases Token.bracketRole_eq_resumes role with middle | tail
                · exact middle
                · simp [Token.bracketRole, tail] at role
              simp [wellSpelled.closer?_eq_none (.inr middle)] at closes

/-- Paired brackets enclose what stands between them. -/
theorem encloses_of_pairBrackets {pairs : List (Nat × Nat)}
    (spelled : ∀ token ∈ tokens, token.WellSpelled) (paired : pairBrackets [] 0 tokens = .ok pairs) :
    ∀ pair ∈ pairs, Encloses tokens pair.1 pair.2 := by
  intro pair member
  cases pairOrigin_of_pairBrackets [] spelled List.drop_zero rfl paired pair member with
  | later _ encloses => exact encloses
  | pending inner shape _ => simp at shape

/-- The brackets open before each token of a paired list, and the pairs found after it. -/
structure OpenAt (tokens : List Token) (pairs : List (Nat × Nat)) (index : Nat)
    (opened : List IndexedToken) (following : List (Nat × Nat)) : Prop where
  paired : pairBrackets opened index (tokens.drop index) = .ok following
  subset : following ⊆ pairs
  depth : depthAt tokens index = opened.length
  spelled : ∀ entry ∈ opened, entry.token.WellSpelled

/-- What a token does to the brackets open before it. -/
theorem OpenAt.next {pairs following : List (Nat × Nat)}
    (spelled : ∀ token ∈ tokens, token.WellSpelled)
    (openAt : OpenAt tokens pairs index opened following) (found : tokens[index]? = some token) :
    match token.bracketRole with
    | .neutral => OpenAt tokens pairs (index + 1) opened following
    | .opens => OpenAt tokens pairs (index + 1) (⟨index, token⟩ :: opened) following
    | .closes => ∃ innermost outer rest, opened = innermost :: outer ∧
        innermost.token.closer? = some token.text ∧ (innermost.index, index) ∈ pairs ∧
          OpenAt tokens pairs (index + 1) outer rest
    | .resumes continues => ∃ innermost outer, opened = innermost :: outer ∧
        innermost.token.opensSubstitution = true ∧
          OpenAt tokens pairs (index + 1) (if continues then ⟨index, token⟩ :: outer else outer)
            following := by
  obtain ⟨paired, subset, depth, openSpelled⟩ := openAt
  obtain ⟨inside, rfl⟩ := List.getElem?_eq_some_iff.mp found
  have depthNext := depthAt_succ found
  have wellSpelled := spelled tokens[index] (List.getElem_mem inside)
  rw [List.drop_eq_getElem_cons inside] at paired
  simp only [pairBrackets] at paired
  rw [depth] at depthNext
  cases role : tokens[index].bracketRole with
  | neutral =>
    simp only [role] at paired depthNext ⊢
    exact ⟨paired, subset, depthNext, openSpelled⟩
  | opens =>
    simp only [role] at paired depthNext ⊢
    exact ⟨paired, subset, depthNext, List.forall_mem_cons.mpr ⟨wellSpelled, openSpelled⟩⟩
  | closes =>
    simp only [role] at paired depthNext ⊢
    cases opened with
    | nil => contradiction
    | cons innermost outer =>
      simp only at paired
      split at paired
      · contradiction
      · rename_i expected closer
        split at paired
        case isFalse => contradiction
        case isTrue matching =>
          obtain ⟨rest, pairedRest, result⟩ := bind_eq_ok_iff.mp paired
          cases result
          exact ⟨innermost, outer, rest, rfl, by rw [closer, matching], subset List.mem_cons_self,
            pairedRest, fun pair member => subset (List.mem_cons_of_mem _ member),
            by simpa [BracketRole.depthAfter] using depthNext,
            (List.forall_mem_cons.mp openSpelled).2⟩
  | resumes continues =>
    simp only [role] at paired depthNext ⊢
    cases opened with
    | nil => contradiction
    | cons innermost outer =>
      simp only at paired
      split at paired
      case isFalse => contradiction
      case isTrue opens =>
        have outerSpelled := (List.forall_mem_cons.mp openSpelled).2
        refine ⟨innermost, outer, rfl, opens, paired, subset, ?_, ?_⟩
        · cases continues <;> simpa [BracketRole.depthAfter] using depthNext
        · cases continues
          · exact outerSpelled
          · exact List.forall_mem_cons.mpr ⟨wellSpelled, outerSpelled⟩

theorem OpenAt.deeper {pairs following : List (Nat × Nat)} {inner outer : List IndexedToken}
    {entry : IndexedToken}
    (openAt : OpenAt tokens pairs index (inner ++ entry :: outer) following) :
    outer.length + 1 ≤ depthAt tokens index := by
  rw [openAt.depth, List.length_append, List.length_cons]
  omega

theorem exists_openAt {pairs : List (Nat × Nat)}
    (spelled : ∀ token ∈ tokens, token.WellSpelled) (paired : pairBrackets [] 0 tokens = .ok pairs)
    (bounded : index ≤ tokens.length) :
    ∃ opened following, OpenAt tokens pairs index opened following := by
  induction index with
  | zero => exact ⟨[], pairs, paired, List.Subset.refl _, rfl, by simp⟩
  | succ index inductionHypothesis =>
    obtain ⟨opened, following, openAt⟩ := inductionHypothesis (Nat.le_of_succ_le bounded)
    have next := openAt.next spelled (List.getElem?_eq_getElem bounded)
    cases role : tokens[index].bracketRole with
    | neutral | opens =>
      simp only [role] at next
      exact ⟨_, _, next⟩
    | closes =>
      simp only [role] at next
      obtain ⟨innermost, outer, rest, _, _, _, openNext⟩ := next
      exact ⟨outer, rest, openNext⟩
    | resumes continues =>
      simp only [role] at next
      obtain ⟨innermost, outer, _, _, openNext⟩ := next
      exact ⟨_, _, openNext⟩

end Origins

/-! ## Partners -/

/-- A table of partners holds nothing but the pairs. -/
theorem mem_of_partnerTable {size index partner : Nat} {pairs : List (Nat × Nat)}
    (found : (partnerTable size pairs)[index]? = some (some partner)) :
    (index, partner) ∈ pairs ∨ (partner, index) ∈ pairs := by
  unfold partnerTable at found
  induction pairs using List.reverseRecOn with
  | nil => simp [Array.getElem?_replicate] at found
  | append_singleton earlier last inductionHypothesis =>
    simp only [List.foldl_append, List.foldl_cons, List.foldl_nil,
      Array.getElem?_setIfInBounds] at found
    split at found
    case isTrue second =>
      split at found
      · cases found
        exact .inr (by simp [← second])
      · contradiction
    case isFalse =>
      split at found
      case isTrue first =>
        split at found
        · cases found
          exact .inl (by simp [← first])
        · contradiction
      case isFalse =>
        rcases inductionHypothesis found with forth | back
        · exact .inl (List.mem_append_left _ forth)
        · exact .inr (List.mem_append_left _ back)

/-- A span that returns to its level does so once. -/
theorem Returns.unique {tokens : List Token} {level index first second : Nat}
    (one : Returns tokens level index first) (other : Returns tokens level index second) :
    first = second := by
  rcases Nat.lt_trichotomy first second with earlier | same | later
  · have deeper := other.inside (first + 1) (Nat.le_succ_of_le one.after) earlier
    have level := one.outside
    omega
  · exact same
  · have deeper := one.inside (second + 1) (Nat.le_succ_of_le other.after) later
    have level := other.outside
    omega

/-- Pairs that enclose share no bracket. -/
theorem Encloses.disjoint {tokens : List Token} {first second : Nat × Nat}
    (one : Encloses tokens first.1 first.2) (other : Encloses tokens second.1 second.2)
    (shared : first.1 = second.1 ∨ first.1 = second.2 ∨ first.2 = second.1 ∨
      first.2 = second.2) : first = second := by
  obtain ⟨opening, close⟩ := first
  obtain ⟨otherOpening, otherClose⟩ := second
  have notBoth : ∀ pair ∈ bracketPairs, ∀ other ∈ bracketPairs, pair.1 ≠ other.2 := by
    decide
  obtain ⟨token, closer, found, foundCloser, _, _, listed⟩ := one.matching
  obtain ⟨otherToken, otherCloser, otherFound, otherFoundCloser, _, _, otherListed⟩ :=
    other.matching
  dsimp only at *
  rcases shared with rfl | rfl | rfl | rfl
  · rw [one.returns.unique other.returns]
  · rw [found] at otherFoundCloser
    exact absurd (congrArg Token.text (Option.some.inj otherFoundCloser)) (notBoth _ listed _ otherListed)
  · rw [foundCloser] at otherFound
    exact absurd (congrArg Token.text (Option.some.inj otherFound)).symm (notBoth _ otherListed _ listed)
  · have level := one.returns.outside
    have otherLevel := other.returns.outside
    rcases Nat.lt_trichotomy opening otherOpening with earlier | rfl | later
    · have deeper := one.returns.inside otherOpening earlier
        (Nat.le_of_succ_le other.returns.after)
      omega
    · rfl
    · have deeper := other.returns.inside opening later (Nat.le_of_succ_le one.returns.after)
      omega

theorem size_partnerTable (size : Nat) (pairs : List (Nat × Nat)) :
    (partnerTable size pairs).size = size := by
  unfold partnerTable
  induction pairs using List.reverseRecOn with
  | nil => simp
  | append_singleton earlier last inductionHypothesis => simp [inductionHypothesis]

/-- A table of partners sends an index where every pair that has the index sends it. -/
theorem partnerTable_of_mem {size index partner : Nat} {pairs : List (Nat × Nat)}
    (bounded : index < size) (proper : index ≠ partner)
    (only : ∀ pair ∈ pairs, index = pair.1 ∨ index = pair.2 →
      pair = (index, partner) ∨ pair = (partner, index))
    (member : (index, partner) ∈ pairs ∨ (partner, index) ∈ pairs) :
    (partnerTable size pairs)[index]? = some (some partner) := by
  induction pairs using List.reverseRecOn with
  | nil => simp at member
  | append_singleton earlier last inductionHypothesis =>
    have sizeEarlier := size_partnerTable size earlier
    unfold partnerTable at inductionHypothesis sizeEarlier ⊢
    simp only [List.foldl_append, List.foldl_cons, List.foldl_nil, Array.getElem?_setIfInBounds,
      Array.size_setIfInBounds, sizeEarlier]
    have here := only last (by simp)
    by_cases second : last.2 = index
    · rcases here (.inr second.symm) with rfl | rfl
      · exact absurd second.symm proper
      · simp [bounded]
    by_cases first : last.1 = index
    · rcases here (.inl first.symm) with rfl | rfl
      · simp [second, bounded]
      · exact absurd rfl second
    · rw [if_neg second, if_neg first]
      refine inductionHypothesis (fun pair inEarlier => only pair (by simp [inEarlier])) ?_
      simp only [List.mem_append, List.mem_singleton] at member
      rcases member with (inEarlier | rfl) | inEarlier | rfl
      · exact .inl inEarlier
      · exact absurd rfl first
      · exact .inr inEarlier
      · exact absurd rfl second

/-- The partner table of paired brackets holds the pairs. -/
theorem partnerTable_iff {tokens : List Token} {pairs : List (Nat × Nat)} {index partner : Nat}
    (spelled : ∀ token ∈ tokens, token.WellSpelled)
    (paired : pairBrackets [] 0 tokens = .ok pairs) :
    (partnerTable tokens.length pairs)[index]? = some (some partner) ↔
      (index, partner) ∈ pairs ∨ (partner, index) ∈ pairs := by
  have enclosing := encloses_of_pairBrackets spelled paired
  refine ⟨mem_of_partnerTable, fun member => ?_⟩
  have linked : ∃ pair ∈ pairs, (pair = (index, partner) ∨ pair = (partner, index)) := by
    rcases member with forth | back
    · exact ⟨_, forth, .inl rfl⟩
    · exact ⟨_, back, .inr rfl⟩
  obtain ⟨pair, inPairs, ends⟩ := linked
  have encloses := enclosing pair inPairs
  obtain ⟨_, _, _, foundClose, -⟩ := encloses.matching
  have before : pair.1 < pair.2 := encloses.returns.after
  have bounded := (List.getElem?_eq_some_iff.mp foundClose).1
  refine partnerTable_of_mem ?_ ?_ ?_ member
  · rcases ends with rfl | rfl
    · exact Nat.lt_trans before bounded
    · exact bounded
  · rcases ends with rfl | rfl
    · exact Nat.ne_of_lt before
    · exact Nat.ne_of_gt before
  · intro other inOthers shared
    have same := encloses.disjoint (enclosing other inOthers) (by
      rcases ends with rfl | rfl
      · exact shared.imp_right .inl
      · exact .inr (.inr shared))
    rwa [← same]

namespace TokenStream

/-- The number of brackets open before the token at an index. -/
def depth (stream : TokenStream) (index : Nat) : Nat :=
  depthAt stream.tokens.toList index

/-- The partners of a stream are the pairs of its brackets, and the tails of its templates
close them. -/
structure Nested (stream : TokenStream) : Prop where
  pairs : ∀ {opening close}, stream.closer? opening = some close →
    Encloses stream.tokens.toList opening close
  closers : ∀ {close token}, stream.get? close = some token → token.bracketRole = .closes →
    ∃ opening, stream.closer? opening = some close
  templates : ∀ {head}, stream.kind? head = some .templateHead →
    Returns stream.tokens.toList (stream.depth head) (head + 1) (stream.templateTail head)

/-- The search for the tail of an open template finds where the template closes. -/
theorem returns_of_templateTailFrom {stream : TokenStream} {pairs following : List (Nat × Nat)}
    {inner outer : List IndexedToken} {entry : IndexedToken} {index count : Nat}
    (spelled : ∀ token ∈ stream.tokens.toList, token.WellSpelled)
    (openAt : OpenAt stream.tokens.toList pairs index (inner ++ entry :: outer) following)
    (template : entry.token.opensSubstitution = true)
    (counted : inner.countP (·.token.opensSubstitution) = count) :
    Returns stream.tokens.toList outer.length index (stream.templateTailFrom index count) := by
  have found : ∀ {index : Nat}, index < stream.size → ∃ token,
      stream.tokens.toList[index]? = some token ∧ stream.kind? index = some token.kind := by
    intro index inside
    have shape : stream.tokens[index]? = some stream.tokens[index] := Array.getElem?_eq_getElem inside
    exact ⟨_, by rwa [Array.getElem?_toList], by rw [kind?, get?, shape, Option.map_some]⟩
  fun_induction stream.templateTailFrom index count generalizing inner entry following with
  | case1 index count inside kind inductionHypothesis =>
    obtain ⟨token, atIndex, sameKind⟩ := found inside
    have head : token.kind = .templateHead := Option.some.inj (sameKind.symm.trans kind)
    have role : token.bracketRole = .opens := by simp [Token.bracketRole, head]
    have opens : token.opensSubstitution = true := by simp [Token.opensSubstitution, head]
    have next := openAt.next spelled atIndex
    simp only [role] at next
    have returns := @inductionHypothesis following (⟨index, token⟩ :: inner) entry next template
      (by simp [opens, counted])
    exact returns.of_succ openAt.deeper
  | case2 index inside kind =>
    obtain ⟨token, atIndex, sameKind⟩ := found inside
    have tail : token.kind = .templateTail := Option.some.inj (sameKind.symm.trans kind)
    have role : token.bracketRole = .resumes false := by simp [Token.bracketRole, tail]
    have next := openAt.next spelled atIndex
    simp only [role] at next
    obtain ⟨innermost, below, shape, opens, openNext⟩ := next
    have none : inner = [] := by
      cases inner with
      | nil => rfl
      | cons first inner =>
        obtain ⟨rfl, _⟩ := List.cons.inj shape
        simp [opens] at counted
    subst none
    obtain ⟨rfl, rfl⟩ := List.cons.inj shape
    refine ⟨Nat.le_refl index, fun between lower upper => ?_, by simpa using openNext.depth⟩
    obtain rfl := Nat.le_antisymm upper lower
    exact openAt.deeper
  | case3 index count inside kind positive inductionHypothesis =>
    obtain ⟨token, atIndex, sameKind⟩ := found inside
    have tail : token.kind = .templateTail := Option.some.inj (sameKind.symm.trans kind)
    have role : token.bracketRole = .resumes false := by simp [Token.bracketRole, tail]
    have next := openAt.next spelled atIndex
    simp only [role] at next
    obtain ⟨innermost, below, shape, opens, openNext⟩ := next
    cases inner with
    | nil =>
      rw [List.countP_nil] at counted
      exact absurd counted.symm positive
    | cons first inner =>
      obtain ⟨rfl, rfl⟩ := List.cons.inj shape
      have one : inner.countP (·.token.opensSubstitution) + 1 = count := by
        simpa [opens] using counted
      exact (inductionHypothesis openNext template (by omega)).of_succ openAt.deeper
  | case4 index count inside notHead notTail inductionHypothesis =>
    obtain ⟨token, atIndex, sameKind⟩ := found inside
    rw [sameKind] at notHead notTail
    have next := openAt.next spelled atIndex
    cases role : token.bracketRole with
    | neutral =>
      simp only [role] at next
      exact (inductionHypothesis next template counted).of_succ openAt.deeper
    | opens =>
      simp only [role] at next
      have kind := (Token.bracketRole_eq_opens role).resolve_right fun head => notHead (by rw [head])
      have bracket : token.opensSubstitution = false := by simp [Token.opensSubstitution, kind]
      have returns := @inductionHypothesis following (⟨index, token⟩ :: inner) entry next template
        (by simpa [bracket] using counted)
      exact returns.of_succ openAt.deeper
    | closes =>
      simp only [role] at next
      obtain ⟨innermost, below, rest, shape, closes, _, openNext⟩ := next
      have bracket : innermost.token.opensSubstitution = false := by
        rw [Bool.eq_false_iff]
        intro opens
        have innermostSpelled := openAt.spelled innermost (by simp [shape])
        simp only [Token.opensSubstitution, Bool.or_eq_true, beq_iff_eq] at opens
        simp [innermostSpelled.closer?_eq_none opens] at closes
      cases inner with
      | nil =>
        obtain ⟨rfl, _⟩ := List.cons.inj shape
        simp [bracket] at template
      | cons first inner =>
        obtain ⟨rfl, rfl⟩ := List.cons.inj shape
        exact (inductionHypothesis openNext template (by simpa [bracket] using counted)).of_succ
          openAt.deeper
    | resumes continues =>
      simp only [role] at next
      obtain ⟨innermost, below, shape, opens, openNext⟩ := next
      have middle := (Token.bracketRole_eq_resumes role).resolve_right
        fun tail => notTail (by rw [tail])
      have continued : continues = true := by
        simp only [Token.bracketRole, middle] at role
        exact (BracketRole.resumes.inj role).symm
      subst continued
      have opensNext : token.opensSubstitution = true := by
        simp [Token.opensSubstitution, middle]
      cases inner with
      | nil =>
        obtain ⟨rfl, rfl⟩ := List.cons.inj shape
        have returns := @inductionHypothesis following [] ⟨index, token⟩ openNext opensNext counted
        exact returns.of_succ openAt.deeper
      | cons first inner =>
        obtain ⟨rfl, rfl⟩ := List.cons.inj shape
        have returns := @inductionHypothesis following (⟨index, token⟩ :: inner) entry openNext
          template (by simpa [opens, opensNext] using counted)
        exact returns.of_succ openAt.deeper
  | case5 index count outside =>
    have past : stream.tokens.toList.length ≤ index := by
      simpa [size] using outside
    have nothing := openAt.paired
    rw [List.drop_of_length_le past] at nothing
    cases inner with
    | nil | cons => contradiction

theorem nested_of_ofSource {source : List Char} {stream : TokenStream}
    (read : ofSource source = .ok stream) : stream.Nested := by
  obtain ⟨tokens, partners, tokenized, matched, rfl⟩ := ofSource_eq_ok_iff.mp read
  obtain ⟨pairs, paired, table⟩ := bind_eq_ok_iff.mp matched
  cases table
  have tiles : Tiles 0 source tokens := tiles_of_tokensFrom tokenized
  have spelled : ∀ token ∈ tokens, token.WellSpelled :=
    fun token member => (tiles.of_mem member).2.2.2
  have enclosing := encloses_of_pairBrackets spelled paired
  constructor
  · intro opening close found
    obtain ⟨partner, later⟩ := Option.filter_eq_some_iff.mp found
    have entry : (partnerTable tokens.length pairs)[opening]? = some (some close) := by
      simpa [partner?, Option.join_eq_some_iff] using partner
    rcases mem_of_partnerTable entry with forth | back
    · exact enclosing _ forth
    · have earlier := (enclosing _ back).returns.after
      have : opening < close := of_decide_eq_true later
      omega
  · intro close token found closes
    simp only [get?, List.getElem?_toArray] at found
    obtain ⟨opened, following, openAt⟩ :=
      exists_openAt spelled paired (Nat.le_of_lt (List.getElem?_eq_some_iff.mp found).1)
    have next := openAt.next spelled found
    simp only [closes] at next
    obtain ⟨innermost, outer, rest, _, _, member, _⟩ := next
    have before : innermost.index < close := (enclosing _ member).returns.after
    have entry := (partnerTable_iff spelled paired).mpr (.inl member)
    refine ⟨innermost.index, Option.filter_eq_some_iff.mpr ⟨?_, decide_eq_true before⟩⟩
    simpa [partner?, Option.join_eq_some_iff] using entry
  · intro head kind
    obtain ⟨token, found, same⟩ := Option.map_eq_some_iff.mp kind
    have atHead : tokens[head]? = some token := by
      simpa [get?] using found
    have role : token.bracketRole = .opens := by simp [Token.bracketRole, same]
    obtain ⟨opened, following, openAt⟩ :=
      exists_openAt spelled paired (Nat.le_of_lt (List.getElem?_eq_some_iff.mp atHead).1)
    have next := openAt.next spelled atHead
    simp only [role] at next
    have opens : token.opensSubstitution = true := by simp [Token.opensSubstitution, same]
    have returns := @returns_of_templateTailFrom
      ⟨source.toArray, tokens.toArray, partnerTable tokens.length pairs⟩ _ _ [] _ _ _ _ spelled next
      opens rfl
    rwa [← openAt.depth] at returns

/-- A bracket is closed by the bracket that matches it. -/
theorem Nested.is_close {stream : TokenStream} (nested : stream.Nested) {opening close : Nat}
    {text closing : String} (found : stream.closer? opening = some close)
    (opens : stream.is opening text = true) (matching : (text, closing) ∈ bracketPairs) :
    stream.is close closing = true := by
  obtain ⟨token, closer, foundToken, foundCloser, _, kind, listed⟩ := (nested.pairs found).matching
  have spelled : token.text = text := by
    simp only [is, get?, ← Array.getElem?_toList, foundToken] at opens
    simpa using (Bool.and_eq_true_iff.mp opens).2
  subst spelled
  have same : closer.text = closing := by
    simp only [bracketPairs, List.mem_cons, Prod.mk.injEq, List.not_mem_nil, or_false] at *
    grind
  simp [is, get?, ← Array.getElem?_toList, foundCloser, kind, same]

end TokenStream

end Playground
