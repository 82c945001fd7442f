import Playground.Proofs.Erasure.BracketMatching
import Playground.Proofs.Erasure.BracketStack
import Playground.Proofs.Erasure.Juxtaposition.Brackets
import Playground.Proofs.Erasure.Relocation.Basic
import Playground.Proofs.Erasure.Scanning

/-!
# Three trackers of one nesting

The tokenizer keeps a stack of two kinds of braces, the pairing a stack of open brackets, and the
search for the tail of a template a count. Before any token the braces are the open brackets without
those that are round or square, for as long as the pairing goes on (`TrackersAgree`). Where it has
succeeded, the tail that is found is the one that closes the template (`ClosesTemplate`).
-/

namespace Playground

/-! ## Braces and brackets -/

/-- A token that can be on the stack. -/
structure OnStack (entry : IndexedToken) : Prop where
  spelled : entry.token.WellSpelled
  opens : entry.token.bracketRole = .opens ∨ entry.token.bracketRole = .resumes true

section Braces

variable {index : Nat} {token : Token} {tokens : List Token} {scanner after : Scanner}
  {opened next : List IndexedToken}

theorem StackStep.onStack (step : StackStep index token opened next) (spelled : token.WellSpelled)
    (onStack : ∀ entry ∈ opened, OnStack entry) : ∀ entry ∈ next, OnStack entry := by
  cases step with
  | neutral => exact onStack
  | opens role => exact List.forall_mem_cons.mpr ⟨⟨spelled, .inl role⟩, onStack⟩
  | closes | ends => exact (List.forall_mem_cons.mp onStack).2
  | continues role =>
    exact List.forall_mem_cons.mpr ⟨⟨spelled, .inr role⟩, (List.forall_mem_cons.mp onStack).2⟩

/-- A token does the same to the braces and to the braces on the stack. -/
theorem StackStep.braces_eq (step : StackStep index token opened next)
    (onStack : ∀ entry ∈ opened, OnStack entry) :
    token.bracesAfter (openBraces opened) = openBraces next := by
  cases step with
  | neutral role => exact bracesAfter_of_neutral role _
  | opens role => rw [bracesAfter_of_opens role, openBraces_cons]
  | closes role closer =>
    have spelled := (List.forall_mem_cons.mp onStack).1.spelled
    rw [openBraces_cons, bracesAfter_of_closes role spelled closer]
  | continues role opens =>
    rw [openBraces_cons, bracesAfter_of_resumes role opens, if_pos rfl, openBraces_cons]
  | ends role opens =>
    rw [openBraces_cons, bracesAfter_of_resumes role opens]
    rfl

theorem ScanStep.braces_eq (taken : ScanStep scanner token after) :
    token.WellSpelled ∧ after.braces = token.bracesAfter scanner.braces := by
  cases taken with
  | intro gap found =>
    exact ⟨wellSpelled_of_scanToken found _ _, braces_of_scanToken found _ _⟩

/-- The tokenizer and the pairing keep the same braces, for as long as the pairing goes on. -/
theorem ScanSteps.braces_eq (steps : ScanSteps scanner tokens after)
    (reached : stackThrough opened index tokens = .ok next)
    (agree : scanner.braces = openBraces opened) (onStack : ∀ entry ∈ opened, OnStack entry) :
    after.braces = openBraces next ∧ ∀ entry ∈ next, OnStack entry := by
  induction steps generalizing opened index with
  | refl =>
    cases reached
    exact ⟨agree, onStack⟩
  | step taken _ inductionHypothesis =>
    obtain ⟨between, first, others⟩ := bind_eq_ok_iff.mp reached
    have step := stackStep_of_stackAfter first
    obtain ⟨spelled, braces⟩ := taken.braces_eq
    refine inductionHypothesis others ?_ (step.onStack spelled onStack)
    rw [braces, agree, step.braces_eq onStack]

/-- A template goes on only where the tokenizer has a substitution open. -/
theorem head?_braces_of_scanToken {previous : Option Token} {braces : List Brace} {first : Char}
    {rest : List Char} {scanned : Scanned (first :: rest)}
    (found : scanToken previous braces first rest = .ok scanned)
    (kind : scanned.kind = .templateMiddle ∨ scanned.kind = .templateTail) :
    braces.head? = some .substitution := by
  have part {closed opening : TokenKind} {open_ : List Brace}
      (part : Scanned.templatePart closed opening open_ first = some scanned) :
      scanned.kind = closed ∨ scanned.kind = opening := by
    obtain ⟨⟨ending, cut⟩, -, same⟩ := Option.map_eq_some_iff.mp part
    cases ending <;> cases same
    · exact .inl rfl
    · exact .inr rfl
  unfold scanToken at found
  split_ifs at found with isPrivate isWord isNumber isString isTemplate resumes isRegex
  · cases found; simp [Scanned.headed] at kind
  · cases found; simp [Scanned.headed] at kind
  · cases found; simp [Scanned.headed] at kind
  · split at found
    · cases found; simp [Scanned.headed] at kind
    · contradiction
  · split at found
    case h_1 template =>
      cases found
      rcases part template with other | other <;> simp [other] at kind
    case h_2 => contradiction
  · exact eq_of_beq (Bool.and_eq_true_iff.mp resumes).2
  · split at found
    · cases found; simp [Scanned.headed] at kind
    · contradiction
  · cases found; simp [Scanned.punctuator] at kind

/-- Where a template goes on, the pairing has a bracket open, and one that it gives up on is round
or square. -/
theorem exists_innermost_of_head? (onStack : ∀ entry ∈ opened, OnStack entry)
    (substitution : (openBraces opened).head? = some .substitution) :
    ∃ innermost outer, opened = innermost :: outer ∧
      (innermost.token.opensSubstitution = false →
        innermost.token.kind = .punctuator ∧ innermost.token.text ∈ ["(", "["]) := by
  cases opened with
  | nil => contradiction
  | cons innermost outer =>
    refine ⟨innermost, outer, rfl, fun closed => ?_⟩
    rw [openBraces_cons] at substitution
    have notCurly : innermost.token.text ≠ "\x7b" := by
      intro curly
      simp [Token.brace?, closed, curly] at substitution
    have opens := (onStack innermost List.mem_cons_self).opens
    simp only [Token.opensSubstitution, Bool.or_eq_false_iff, beq_eq_false_iff_ne] at closed
    rcases opens with role | role
    · have mark := (Token.bracketRole_eq_opens role).resolve_right closed.1
      refine ⟨mark, ?_⟩
      simp only [Token.bracketRole, mark] at role
      grind
    · have middle := (Token.bracketRole_eq_resumes role).resolve_left closed.2
      simp [Token.bracketRole, middle] at role

end Braces

/-- What the tokenizer and the pairing have open between two tokens of a program. -/
structure TrackersAgree (source : List Char) (earlier later : List Token) : Prop where
  /-- The tokenizer passes between the tokens. -/
  passes : ∃ scanner, ScanSteps (.start source) earlier scanner ∧ scanner.tokens = .ok later
  /-- The braces are the braces among the brackets that the pairing has open. -/
  braces : ∀ scanner opened, ScanSteps (.start source) earlier scanner →
    stackThrough [] 0 earlier = .ok opened → scanner.braces = openBraces opened
  /-- From these brackets the pairing goes on. -/
  pairing : ∀ opened, stackThrough [] 0 earlier = .ok opened → ∃ pairs, ∀ others,
    pairBrackets [] 0 (earlier ++ others) =
      (pairs ++ ·) <$> pairBrackets opened earlier.length others
  /-- Without them it has stopped. -/
  stopped : ∀ error, stackThrough [] 0 earlier = .error error →
    matchBrackets (earlier ++ later) = .error error
  /-- Where a template goes on, some bracket is open, and if the pairing stops there it is a round
  or square one that is to blame. -/
  resumed : ∀ opened token rest, stackThrough [] 0 earlier = .ok opened → later = token :: rest →
    token.kind = .templateMiddle ∨ token.kind = .templateTail →
      ∃ innermost outer, opened = innermost :: outer ∧
        ∀ error, stackAfter opened earlier.length token = .error error →
          matchBrackets (earlier ++ later) = .error error ∧
            innermost.token.kind = .punctuator ∧ innermost.token.text ∈ ["(", "["] ∧
            error = ⟨.unclosedBracket innermost.token.text, innermost.token.start⟩

section Agreement

variable {source : List Char} {earlier later : List Token} {scanner : Scanner}

/-- A token of a kind that goes on with a template does that to the stack. -/
theorem Token.exists_bracketRole_eq_resumes {token : Token}
    (kind : token.kind = .templateMiddle ∨ token.kind = .templateTail) :
    ∃ continues, token.bracketRole = .resumes continues := by
  unfold Token.bracketRole
  rcases kind with kind | kind <;> rw [kind] <;> exact ⟨_, rfl⟩

theorem head?_braces_of_tokens {token : Token} {rest : List Token}
    (found : scanner.tokens = .ok (token :: rest))
    (kind : token.kind = .templateMiddle ∨ token.kind = .templateTail) :
    scanner.braces.head? = some .substitution := by
  have found : scanner.tokens = .ok ([token] ++ rest) := found
  obtain ⟨next, steps, -⟩ := exists_steps_of_tokens found
  cases steps with
  | step taken =>
    cases taken with
    | intro gap scans => exact head?_braces_of_scanToken scans kind

section Stops

variable {opened outer : List IndexedToken} {innermost : IndexedToken} {token : Token}
  {error : SyntaxError}

theorem matchBrackets_of_stackThrough (stops : stackThrough [] 0 earlier = .error error)
    (later : List Token) : matchBrackets (earlier ++ later) = .error error := by
  rw [matchBrackets, pairBrackets_append_of_error stops]
  rfl

theorem matchBrackets_of_stackAfter (reached : stackThrough [] 0 earlier = .ok opened)
    (stops : stackAfter opened earlier.length token = .error error) (rest : List Token) :
    matchBrackets (earlier ++ token :: rest) = .error error := by
  rw [List.append_cons]
  refine matchBrackets_of_stackThrough ?_ rest
  rw [stackThrough_concat, reached, Nat.zero_add]
  exact stops

/-- Where a template cannot go on, the innermost bracket is left open. -/
theorem unclosed_of_stackAfter {index : Nat}
    (kind : token.kind = .templateMiddle ∨ token.kind = .templateTail)
    (stops : stackAfter (innermost :: outer) index token = .error error) :
    innermost.token.opensSubstitution = false ∧
      error = ⟨.unclosedBracket innermost.token.text, innermost.token.start⟩ := by
  obtain ⟨continues, role⟩ := Token.exists_bracketRole_eq_resumes kind
  simp only [stackAfter, role] at stops
  split at stops
  case isTrue => contradiction
  case isFalse closed =>
    cases stops
    exact ⟨Bool.eq_false_iff.mpr closed, rfl⟩

end Stops

theorem trackersAgree_of_tokenize (found : tokenize source = .ok (earlier ++ later)) :
    TrackersAgree source earlier later := by
  have whole : (Scanner.start source).tokens = .ok (earlier ++ later) := found
  obtain ⟨scanner, steps, rests⟩ := exists_steps_of_tokens whole
  constructor
  case passes => exact ⟨scanner, steps, rests⟩
  case braces =>
    intro other opened steps reached
    exact (steps.braces_eq reached rfl (by simp)).1
  case pairing =>
    intro opened reached
    obtain ⟨pairs, goesOn⟩ := exists_pairBrackets_append reached
    rw [Nat.zero_add] at goesOn
    exact ⟨pairs, goesOn⟩
  case stopped => exact fun error stops => matchBrackets_of_stackThrough stops later
  case resumed =>
    rintro opened token rest reached rfl kind
    obtain ⟨agree, onStack⟩ := steps.braces_eq reached rfl (by simp)
    have substitution := head?_braces_of_tokens rests kind
    rw [agree] at substitution
    obtain ⟨innermost, outer, rfl, closed⟩ := exists_innermost_of_head? onStack substitution
    refine ⟨innermost, outer, rfl, fun error stops => ?_⟩
    obtain ⟨unclosed, blamed⟩ := unclosed_of_stackAfter kind stops
    obtain ⟨mark, text⟩ := closed unclosed
    exact ⟨matchBrackets_of_stackAfter reached stops rest, mark, text, blamed⟩

end Agreement

/-! ## Tails of templates -/

/-- A part of the template that begins at an index, with the brackets that are open around it: its
head, or a part that goes on from the one that is innermost. -/
inductive TemplatePart (stream : TokenStream) (head : Nat) :
    IndexedToken → List IndexedToken → Prop where
  | head {token outer} (found : stream.get? head = some token)
      (kind : token.kind = .templateHead)
      (reached : stackAt stream.tokens.toList head = .ok outer) :
      TemplatePart stream head ⟨head, token⟩ outer
  | middle {part outer index token} (prior : TemplatePart stream head part outer)
      (found : stream.get? index = some token) (kind : token.kind = .templateMiddle)
      (reached : stackAt stream.tokens.toList index = .ok (part :: outer)) :
      TemplatePart stream head ⟨index, token⟩ outer

/-- The tail at an index ends the last part of the template that begins at another. -/
def ClosesTemplate (stream : TokenStream) (head tail : Nat) : Prop :=
  stream.kind? tail = some .templateTail ∧ ∃ part outer, TemplatePart stream head part outer ∧
    stackAt stream.tokens.toList tail = .ok (part :: outer)

section Tails

variable {stream : TokenStream} {pairs : List (Nat × Nat)} {head tail index : Nat} {token : Token}
  {part : IndexedToken} {outer : List IndexedToken}

theorem TokenStream.getElem?_toList (found : stream.get? index = some token) :
    stream.tokens.toList[index]? = some token := by
  rw [Array.getElem?_toList]
  exact found

namespace TemplatePart

theorem opensSubstitution (isPart : TemplatePart stream head part outer) :
    part.token.opensSubstitution = true := by
  cases isPart with
  | head _ kind | middle _ _ kind => simp [Token.opensSubstitution, kind]

theorem reached_head (isPart : TemplatePart stream head part outer) :
    stackAt stream.tokens.toList head = .ok outer := by
  induction isPart with
  | head _ _ reached => exact reached
  | middle _ _ _ _ inductionHypothesis => exact inductionHypothesis

/-- A part is the innermost open bracket behind itself. -/
theorem reached_succ (isPart : TemplatePart stream head part outer) :
    stackAt stream.tokens.toList (part.index + 1) = .ok (part :: outer) := by
  cases isPart with
  | head found kind reached =>
    rw [stackAt_succ (TokenStream.getElem?_toList found), reached]
    simp only [stackAfter, Token.bracketRole, kind]
    rfl
  | middle prior found kind reached =>
    rw [stackAt_succ (TokenStream.getElem?_toList found), reached]
    change stackAfter _ _ _ = _
    simp only [stackAfter, Token.bracketRole, kind, prior.opensSubstitution, if_true]

variable (paired : pairBrackets [] 0 stream.tokens.toList = .ok pairs)

include paired

theorem head_le (isPart : TemplatePart stream head part outer) : head ≤ part.index := by
  induction isPart with
  | head => exact Nat.le_refl _
  | middle _ _ _ reached inductionHypothesis =>
    have before := index_lt_of_stackAt paired reached _ List.mem_cons_self
    exact Nat.le_trans inductionHypothesis (Nat.le_of_lt before)

/-- From its head up to any of its parts a template is open, inside the same brackets. -/
theorem exists_stackAt {between : Nat} (isPart : TemplatePart stream head part outer)
    (after : head < between) (before : between ≤ part.index + 1) : ∃ inner entry,
      stackAt stream.tokens.toList between = .ok (inner ++ entry :: outer) := by
  induction isPart with
  | head found kind reached =>
    obtain rfl := Nat.le_antisymm before after
    exact ⟨[], _, (TemplatePart.head found kind reached).reached_succ⟩
  | @middle prior outer index token isPrior found kind reached inductionHypothesis =>
    rcases Nat.lt_or_ge prior.index between with later | earlier
    · rcases Nat.eq_or_lt_of_le before with rfl | inside
      · exact ⟨[], _, (TemplatePart.middle isPrior found kind reached).reached_succ⟩
      · obtain ⟨inner, reachedBetween⟩ :=
          exists_inner_of_innermost paired reached later (Nat.le_of_lt_succ inside)
        exact ⟨inner, prior, reachedBetween⟩
    · exact inductionHypothesis (Nat.le_succ_of_le earlier)

end TemplatePart

theorem Token.bracketRole_of_tail (kind : token.kind = .templateTail) :
    token.bracketRole = .resumes false := by
  rw [Token.bracketRole, kind]

/-- Where a template is closed, its brackets return to the level of its head. -/
theorem ClosesTemplate.returns (paired : pairBrackets [] 0 stream.tokens.toList = .ok pairs)
    (closes : ClosesTemplate stream head tail) :
    Returns stream.tokens.toList (stream.depth head) (head + 1) tail := by
  obtain ⟨kind, part, outer, isPart, reached⟩ := closes
  have level : outer.length = stream.depth head := length_of_stackAt paired isPart.reached_head
  have partBefore := index_lt_of_stackAt paired reached _ List.mem_cons_self
  rw [← level]
  constructor
  case after => exact Nat.lt_of_le_of_lt (isPart.head_le paired) partBefore
  case inside =>
    intro between after before
    obtain ⟨inner, entry, reachedBetween⟩ : ∃ inner entry,
        stackAt stream.tokens.toList between = .ok (inner ++ entry :: outer) := by
      rcases Nat.lt_or_ge part.index between with later | earlier
      · obtain ⟨inner, reachedBetween⟩ :=
          exists_inner_of_innermost paired reached later before
        exact ⟨inner, part, reachedBetween⟩
      · exact isPart.exists_stackAt paired after (Nat.le_succ_of_le earlier)
    rw [← length_of_stackAt paired reachedBetween, List.length_append, List.length_cons]
    omega
  case outside =>
    obtain ⟨token, found, same⟩ := Option.map_eq_some_iff.mp kind
    have foundToken := TokenStream.getElem?_toList found
    rw [depthAt_succ foundToken, Token.bracketRole_of_tail same, ← length_of_stackAt paired reached]
    rfl

/-- A part of a template is no bracket that a punctuator closes. -/
theorem TemplatePart.closer?_eq_none (isPart : TemplatePart stream head part outer)
    (spelled : ∀ token ∈ stream.tokens.toList, token.WellSpelled) :
    part.token.closer? = none := by
  cases isPart with
  | head found kind =>
    have member := List.mem_of_getElem? (TokenStream.getElem?_toList found)
    exact (spelled _ member).closer?_eq_none (.inl kind)
  | middle _ found kind =>
    have member := List.mem_of_getElem? (TokenStream.getElem?_toList found)
    exact (spelled _ member).closer?_eq_none (.inr kind)

/-- One token leaves a template open, unless it goes below the level of its head. -/
theorem TemplatePart.exists_of_step {inner next : List IndexedToken}
    (isPart : TemplatePart stream head part outer)
    (spelled : ∀ token ∈ stream.tokens.toList, token.WellSpelled)
    (found : stream.get? index = some token)
    (reached : stackAt stream.tokens.toList index = .ok (inner ++ part :: outer))
    (step : StackStep index token (inner ++ part :: outer) next)
    (deeper : outer.length < next.length) :
    ∃ inner part, TemplatePart stream head part outer ∧ next = inner ++ part :: outer := by
  generalize shape : inner ++ part :: outer = opened at step
  cases step with
  | neutral => exact ⟨inner, part, isPart, shape.symm⟩
  | opens => exact ⟨⟨index, token⟩ :: inner, part, isPart, congrArg _ shape.symm⟩
  | closes role closer =>
    cases inner with
    | nil =>
      obtain ⟨rfl, rfl⟩ := List.cons.inj shape
      rw [isPart.closer?_eq_none spelled] at closer
      contradiction
    | cons first inner =>
      obtain ⟨-, rfl⟩ := List.cons.inj shape
      exact ⟨inner, part, isPart, rfl⟩
  | continues role =>
    cases inner with
    | nil =>
      obtain ⟨-, rfl⟩ := List.cons.inj shape
      have kind : token.kind = .templateMiddle := by
        refine (Token.bracketRole_eq_resumes role).resolve_right fun tail => ?_
        rw [Token.bracketRole_of_tail tail] at role
        cases role
      exact ⟨[], _, .middle isPart found kind reached, rfl⟩
    | cons first inner =>
      obtain ⟨-, rfl⟩ := List.cons.inj shape
      exact ⟨⟨index, token⟩ :: inner, part, isPart, rfl⟩
  | ends =>
    cases inner with
    | nil =>
      obtain ⟨-, rfl⟩ := List.cons.inj shape
      exact absurd deeper (Nat.lt_irrefl _)
    | cons first inner =>
      obtain ⟨-, rfl⟩ := List.cons.inj shape
      exact ⟨inner, part, isPart, rfl⟩

/-- A template is open up to where its brackets return to the level of its head. -/
theorem exists_part_of_returns (paired : pairBrackets [] 0 stream.tokens.toList = .ok pairs)
    (spelled : ∀ token ∈ stream.tokens.toList, token.WellSpelled)
    (kind : stream.kind? head = some .templateHead)
    (returns : Returns stream.tokens.toList (stream.depth head) (head + 1) tail) {between : Nat}
    (after : head < between) (before : between ≤ tail) :
    ∃ inner part outer, TemplatePart stream head part outer ∧
      stackAt stream.tokens.toList between = .ok (inner ++ part :: outer) := by
  induction between, after using Nat.le_induction with
  | base =>
    obtain ⟨token, found, same⟩ := Option.map_eq_some_iff.mp kind
    obtain ⟨outer, reached⟩ := exists_stackAt paired head
    have isPart := TemplatePart.head found same reached
    exact ⟨[], _, outer, isPart, isPart.reached_succ⟩
  | succ between after inductionHypothesis =>
    obtain ⟨inner, part, outer, isPart, reached⟩ := inductionHypothesis (Nat.le_of_lt before)
    cases found : stream.get? between with
    | none =>
      have past : stream.tokens.toList[between]? = none := by
        rw [Array.getElem?_toList]
        exact found
      exact ⟨inner, part, outer, isPart, (stackAt_succ_of_none past).trans reached⟩
    | some token =>
      obtain ⟨next, reachedNext, step⟩ :=
        exists_stackStep paired (TokenStream.getElem?_toList found) reached
      have deeper := returns.inside (between + 1) (Nat.le_succ_of_le after) before
      rw [← length_of_stackAt paired reachedNext, TokenStream.depth,
        ← length_of_stackAt paired isPart.reached_head] at deeper
      obtain ⟨innerNext, partNext, isNext, rfl⟩ :=
        isPart.exists_of_step spelled found reached step deeper
      exact ⟨innerNext, partNext, outer, isNext, reachedNext⟩

/-- A tail where the brackets return to the level of a head closes the template of that head. -/
theorem closesTemplate_of_returns (paired : pairBrackets [] 0 stream.tokens.toList = .ok pairs)
    (spelled : ∀ token ∈ stream.tokens.toList, token.WellSpelled)
    (kind : stream.kind? head = some .templateHead)
    (tailKind : stream.kind? tail = some .templateTail)
    (returns : Returns stream.tokens.toList (stream.depth head) (head + 1) tail) :
    ClosesTemplate stream head tail := by
  obtain ⟨inner, part, outer, isPart, reached⟩ :=
    exists_part_of_returns paired spelled kind returns returns.after (Nat.le_refl tail)
  obtain ⟨token, found, same⟩ := Option.map_eq_some_iff.mp tailKind
  have level := returns.outside
  rw [depthAt_succ (TokenStream.getElem?_toList found), Token.bracketRole_of_tail same,
    ← length_of_stackAt paired reached, TokenStream.depth,
    ← length_of_stackAt paired isPart.reached_head] at level
  have none : inner = [] := by
    rw [← List.length_eq_zero_iff]
    simp only [BracketRole.depthAfter, List.length_append, List.length_cons] at level
    simpa using level
  subst none
  exact ⟨tailKind, part, outer, isPart, reached⟩

/-- What a program says of the template that begins at an index. -/
structure TemplateFound (stream : TokenStream) (head : Nat) : Prop where
  /-- The tail that is found is the one that closes the template. -/
  closes : ∀ tail, ClosesTemplate stream head tail ↔ tail = stream.templateTail head
  /-- Brackets in the template have their partners in it. -/
  inside : ∀ index token, head < index → index < stream.templateTail head →
    stream.get? index = some token → token.IsBracket →
      ∃ partner, stream.partner? index = some partner ∧ head < partner ∧
        partner < stream.templateTail head

end Tails

open TokenStream

/-- Brackets in a template have their partners in it. -/
theorem TokenStream.Nested.partner_in_template {stream : TokenStream} (nested : stream.Nested)
    {head index partner : Nat} (kind : stream.kind? head = some .templateHead)
    (found : stream.partner? index = some partner) (back : stream.partner? partner = some index)
    (after : head < index) (before : index < stream.templateTail head) :
    head < partner ∧ partner < stream.templateTail head := by
  have balanced := TokenStream.Balanced.of_returns nested (nested.templates kind)
  have tailKind := nested.templateTail kind
  have punctuator : ∀ {opening close}, stream.closer? opening = some close →
      stream.kind? opening = some .punctuator ∧ stream.kind? close = some .punctuator :=
    fun closes => ⟨(nested.text_bracket closes).1, (nested.text_bracket closes).2.1⟩
  -- The ends of the template are no punctuators, so no bracket is one of them.
  have apart : stream.kind? partner = some .punctuator →
      partner ≠ head ∧ partner ≠ stream.templateTail head := by
    intro mark
    constructor
    · rintro rfl
      rw [kind] at mark
      contradiction
    · rintro rfl
      rw [tailKind] at mark
      contradiction
  rcases Nat.lt_trichotomy index partner with forward | same | backward
  · have closes : stream.closer? index = some partner :=
      Option.filter_eq_some_iff.mpr ⟨found, decide_eq_true forward⟩
    have within := balanced.paired closes
    have ends := apart (punctuator closes).2
    omega
  · omega
  · have closes : stream.closer? partner = some index :=
      Option.filter_eq_some_iff.mpr ⟨back, decide_eq_true backward⟩
    have within := balanced.paired closes
    have ends := apart (punctuator closes).1
    omega

theorem templateFound_of_ofSource {source : List Char} {stream : TokenStream} {head : Nat}
    (read : TokenStream.ofSource source = .ok stream)
    (kind : stream.kind? head = some .templateHead) : TemplateFound stream head := by
  have nested := nested_of_ofSource read
  have partnered := partnered_of_ofSource read
  obtain ⟨tokens, partners, tokenized, matched, rfl⟩ := ofSource_eq_ok_iff.mp read
  obtain ⟨pairs, paired, -⟩ := bind_eq_ok_iff.mp matched
  have tiles : Tiles 0 source tokens := tiles_of_tokensFrom tokenized
  have spelled : ∀ token ∈ tokens, token.WellSpelled :=
    fun token member => (tiles.of_mem member).2.2.2
  have returns := nested.templates kind
  constructor
  case closes =>
    intro tail
    constructor
    · intro closes
      exact (closes.returns paired).unique returns
    · rintro rfl
      exact closesTemplate_of_returns paired spelled kind (nested.templateTail kind) returns
  case inside =>
    intro index token after before found bracket
    have atIndex := TokenStream.getElem?_toList found
    obtain ⟨partner, here⟩ := (partnered.brackets index).mpr ⟨token, atIndex, bracket⟩
    have forth := Option.join_eq_some_iff.mpr here
    have back := Option.join_eq_some_iff.mpr (partnered.involutive here)
    exact ⟨partner, forth, nested.partner_in_template kind forth back after before⟩

/-! ## Agreement -/

/-- The three trackers of a program agree. -/
theorem templateTrackers_agree (source : List Char) :
    (∀ earlier later, tokenize source = .ok (earlier ++ later) →
      TrackersAgree source earlier later) ∧
    ∀ stream head, TokenStream.ofSource source = .ok stream →
      stream.kind? head = some .templateHead → TemplateFound stream head := by
  refine ⟨fun earlier later found => ?_, fun stream head read kind => ?_⟩
  · exact trackersAgree_of_tokenize found
  · exact templateFound_of_ofSource read kind

/-- A template in a substitution of another one, before the middle of the outer one. -/
theorem templateTrackers_agree_of_nestedTemplate :
    ∃ stream opened, TokenStream.ofSource
        "\x60a$\x7b\x60b$\x7b[x]\x7dc\x60\x7dd$\x7by\x7de\x60".toList = .ok stream ∧
      TrackersAgree "\x60a$\x7b\x60b$\x7b[x]\x7dc\x60\x7dd$\x7by\x7de\x60".toList
        (stream.tokens.toList.take 6) (stream.tokens.toList.drop 6) ∧
      stackThrough [] 0 (stream.tokens.toList.take 6) = .ok opened ∧
      stream.kind? 6 = some .templateMiddle ∧
      TemplateFound stream 0 ∧ stream.templateTail 0 = 8 ∧ stream.partner? 2 = some 4 := by
  obtain ⟨stream, read, head, middle, tail, partner, reached⟩ := exists_ok_of_any
    (fun stream : TokenStream => stream.kind? 0 = some .templateHead ∧
      stream.kind? 6 = some .templateMiddle ∧ stream.templateTail 0 = 8 ∧
      stream.partner? 2 = some 4 ∧
      ((stackThrough [] 0 (stream.tokens.toList.take 6)).toOption.any fun _ => decide True) = true)
    (show ((TokenStream.ofSource
      "\x60a$\x7b\x60b$\x7b[x]\x7dc\x60\x7dd$\x7by\x7de\x60".toList).toOption.any
        fun stream => decide _) = true by decide +kernel)
  obtain ⟨opened, reached, -⟩ := exists_ok_of_any _ reached
  obtain ⟨agree, found⟩ :=
    templateTrackers_agree "\x60a$\x7b\x60b$\x7b[x]\x7dc\x60\x7dd$\x7by\x7de\x60".toList
  refine ⟨stream, opened, read, agree _ _ ?_, reached, middle, found stream 0 read head, tail,
    partner⟩
  obtain ⟨tokens, partners, tokenized, -, rfl⟩ := TokenStream.ofSource_eq_ok_iff.mp read
  rw [List.take_append_drop]
  exact tokenized

end Playground
