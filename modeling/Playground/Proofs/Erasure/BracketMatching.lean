import Playground.Proofs.Erasure.Nesting

/-!
# Bracket matching accepts the well-nested programs

`WellNested` says of a sequence of openings and closings that it is well nested and completely
closed, whatever reads it. Brackets are matched exactly if what the tokens open and close is well
nested (`matchBrackets_iff`), and the table of partners that comes out pairs every bracket with
the one that it matches (`Partnered`).
-/

namespace Playground

/-- What is opened and closed: brackets of three types, and the substitutions of templates. -/
inductive Enclosure where
  | round
  | square
  | curly
  | substitution
  deriving DecidableEq, Repr

/-- What a token does to the enclosures around it. -/
inductive BracketEvent where
  | opens (enclosure : Enclosure)
  | closes (enclosure : Enclosure)
  deriving DecidableEq, Repr

namespace Enclosure

/-- The enclosure that a punctuator opens. -/
def ofOpening? (text : String) : Option Enclosure :=
  if text = "(" then some round
  else if text = "[" then some square
  else if text = "\x7b" then some curly
  else none

/-- The enclosure that a punctuator closes. -/
def ofClosing? (text : String) : Option Enclosure :=
  if text = ")" then some round
  else if text = "]" then some square
  else if text = "\x7d" then some curly
  else none

/-- The punctuator that closes an enclosure; a substitution is closed by its template. -/
def closing? : Enclosure → Option String
  | round => some ")"
  | square => some "]"
  | curly => some "\x7d"
  | substitution => none

end Enclosure

namespace Token

/-- The enclosure that a token opens. -/
def opened? (token : Token) : Option Enclosure :=
  match token.kind with
  | .punctuator => Enclosure.ofOpening? token.text
  | .templateHead | .templateMiddle => some .substitution
  | _ => none

/-- The enclosure that a token closes. -/
def closed? (token : Token) : Option Enclosure :=
  match token.kind with
  | .punctuator => Enclosure.ofClosing? token.text
  | .templateMiddle | .templateTail => some .substitution
  | _ => none

/-- What a token does: the middle of a template closes one substitution and opens the next. -/
def bracketEvents (token : Token) : List BracketEvent :=
  token.closed?.toList.map .closes ++ token.opened?.toList.map .opens

end Token

/-- Every opening has a closing of its own, and nothing else is closed. -/
inductive WellNested : List BracketEvent → Prop where
  | nil : WellNested []
  | pair {enclosure inside after} (inner : WellNested inside) (following : WellNested after) :
      WellNested (.opens enclosure :: inside ++ .closes enclosure :: after)

/-- The open enclosures are closed one after another, innermost first, and everything between
their closings is well nested. -/
inductive Completes : List Enclosure → List BracketEvent → Prop where
  | nested {events} (nested : WellNested events) : Completes [] events
  | close {enclosure outer inside after} (inner : WellNested inside)
      (following : Completes outer after) :
      Completes (enclosure :: outer) (inside ++ .closes enclosure :: after)

namespace Completes

variable {enclosure : Enclosure} {opened : List Enclosure} {events : List BracketEvent}

theorem nil_iff : Completes opened [] ↔ opened = [] := by
  constructor
  · intro completes
    generalize shape : ([] : List BracketEvent) = events at completes
    cases completes with
    | nested => rfl
    | close => simp at shape
  · rintro rfl
    exact .nested .nil

theorem of_opens (completes : Completes opened (.opens enclosure :: events)) :
    Completes (enclosure :: opened) events := by
  generalize shape : BracketEvent.opens enclosure :: events = all at completes
  cases completes with
  | nested nested =>
    cases nested with
    | nil => contradiction
    | pair inner following =>
      obtain ⟨same, rfl⟩ := List.cons.inj shape
      cases same
      exact .close inner (.nested following)
  | @close last outer inside after inner following =>
    cases inner with
    | nil => simp at shape
    | @pair other within beyond inner rest =>
      simp only [List.cons_append, List.append_assoc, List.cons.injEq] at shape
      obtain ⟨same, rfl⟩ := shape
      cases same
      exact .close inner (.close rest following)

theorem to_opens (completes : Completes (enclosure :: opened) events) :
    Completes opened (.opens enclosure :: events) := by
  cases completes with
  | @close _ _ inside after inner following =>
    cases following with
    | nested nested => exact .nested (.pair inner nested)
    | @close last outer within beyond second rest =>
      have whole := @Completes.close last _ _ _ (@WellNested.pair enclosure _ _ inner second) rest
      simpa using whole

/-- An opening is one more enclosure to close. -/
theorem opens_iff :
    Completes opened (.opens enclosure :: events) ↔ Completes (enclosure :: opened) events :=
  ⟨of_opens, to_opens⟩

/-- A closing closes the innermost enclosure. -/
theorem closes_iff :
    Completes opened (.closes enclosure :: events) ↔
      ∃ outer, opened = enclosure :: outer ∧ Completes outer events := by
  constructor
  · intro completes
    generalize shape : BracketEvent.closes enclosure :: events = all at completes
    cases completes with
    | nested nested => cases nested <;> simp at shape
    | close inner following =>
      cases inner with
      | nil =>
        obtain ⟨same, rfl⟩ := List.cons.inj shape
        cases same
        exact ⟨_, rfl, following⟩
      | pair => simp at shape
  · rintro ⟨outer, rfl, following⟩
    exact .close .nil following

end Completes

/-! ## What a token opens and closes -/

namespace Token

variable {token : Token} {enclosure : Enclosure}

theorem bracketEvents_of_neutral (neutral : token.bracketRole = .neutral) :
    token.bracketEvents = [] := by
  unfold bracketRole at neutral
  unfold bracketEvents opened? closed? Enclosure.ofOpening? Enclosure.ofClosing?
  cases kind : token.kind <;> grind

theorem bracketEvents_of_opens (opens : token.bracketRole = .opens) :
    ∃ enclosure, token.opened? = some enclosure ∧ token.bracketEvents = [.opens enclosure] := by
  rcases Token.bracketRole_eq_opens opens with kind | kind
  · have listed : ["(", "[", "\x7b"].contains token.text = true := by
      simp only [bracketRole, kind] at opens
      grind
    simp only [List.contains_iff_mem, List.mem_cons, List.not_mem_nil, or_false] at listed
    simp only [bracketEvents, opened?, closed?, kind]
    rcases listed with text | text | text <;> rw [text] <;> exact ⟨_, rfl, rfl⟩
  · simp only [bracketEvents, opened?, closed?, kind]
    exact ⟨_, rfl, rfl⟩

theorem bracketEvents_of_closes (closes : token.bracketRole = .closes) :
    ∃ enclosure, enclosure.closing? = some token.text ∧
      token.bracketEvents = [.closes enclosure] := by
  have kind := Token.bracketRole_eq_closes closes
  have listed : [")", "]", "\x7d"].contains token.text = true := by
    simp only [bracketRole, kind] at closes
    grind
  simp only [List.contains_iff_mem, List.mem_cons, List.not_mem_nil, or_false] at listed
  simp only [bracketEvents, opened?, closed?, kind]
  rcases listed with text | text | text <;> rw [text]
  · exact ⟨.round, rfl, rfl⟩
  · exact ⟨.square, rfl, rfl⟩
  · exact ⟨.curly, rfl, rfl⟩

theorem bracketEvents_of_resumes {continues : Bool}
    (resumes : token.bracketRole = .resumes continues) :
    token.bracketEvents = .closes .substitution ::
      if continues then [.opens .substitution] else [] := by
  rcases Token.bracketRole_eq_resumes resumes with kind | kind <;>
  · simp only [bracketRole, kind, BracketRole.resumes.injEq] at resumes
    simp [bracketEvents, opened?, closed?, kind, ← resumes]

theorem opened?_of_resumes (resumes : token.bracketRole = .resumes true) :
    token.opened? = some .substitution := by
  rcases Token.bracketRole_eq_resumes resumes with kind | kind
  · simp [opened?, kind]
  · simp [bracketRole, kind] at resumes

/-- An opened enclosure is closed by its own punctuator. -/
theorem closer?_of_opened (spelled : token.WellSpelled) (opens : token.opened? = some enclosure) :
    token.closer? = enclosure.closing? := by
  unfold opened? at opens
  split at opens
  · unfold Enclosure.ofOpening? at opens
    unfold closer?
    simp only [beq_iff_eq]
    split at opens
    · cases opens
      simp_all [Enclosure.closing?]
    split at opens
    · cases opens
      simp_all [Enclosure.closing?]
    split at opens
    · cases opens
      simp_all [Enclosure.closing?]
    · contradiction
  · cases opens
    exact spelled.closer?_eq_none (.inl ‹_›)
  · cases opens
    exact spelled.closer?_eq_none (.inr ‹_›)
  · contradiction

theorem opensSubstitution_iff (opens : token.opened? = some enclosure) :
    token.opensSubstitution = true ↔ enclosure = .substitution := by
  unfold opened? at opens
  unfold opensSubstitution
  split at opens
  · unfold Enclosure.ofOpening? at opens
    grind
  · simp_all
  · simp_all
  · contradiction

end Token

/-! ## Acceptance -/

/-- An open token holds an enclosure open. -/
structure IndexedToken.Holds (entry : IndexedToken) (enclosure : Enclosure) : Prop where
  spelled : entry.token.WellSpelled
  opens : entry.token.opened? = some enclosure

/-- No two enclosures are closed by the same punctuator. -/
theorem Enclosure.closing?_injective {first second : Enclosure} {text : String}
    (one : first.closing? = some text) (other : second.closing? = some text) : first = second := by
  rw [← other] at one
  cases first <;> cases second <;> first | rfl | exact absurd one (by decide)

section Acceptance

variable {opened : List IndexedToken} {enclosures : List Enclosure} {index : Nat}

/-- Brackets are paired exactly if what the tokens open and close completes what was open. -/
theorem pairBrackets_iff {tokens : List Token} (spelled : ∀ token ∈ tokens, token.WellSpelled)
    (held : List.Forall₂ IndexedToken.Holds opened enclosures) :
    (∃ pairs, pairBrackets opened index tokens = .ok pairs) ↔
      Completes enclosures (tokens.flatMap Token.bracketEvents) := by
  induction tokens generalizing opened enclosures index with
  | nil =>
    rw [List.flatMap_nil, Completes.nil_iff]
    cases held with
    | nil => exact iff_of_true ⟨[], rfl⟩ rfl
    | cons => exact iff_of_false (by simp [pairBrackets]) (by simp)
  | cons token rest inductionHypothesis =>
    obtain ⟨wellSpelled, restSpelled⟩ := List.forall_mem_cons.mp spelled
    rw [List.flatMap_cons]
    simp only [pairBrackets]
    cases role : token.bracketRole with
    | neutral =>
      rw [Token.bracketEvents_of_neutral role]
      exact inductionHypothesis restSpelled held
    | opens =>
      obtain ⟨enclosure, opens, events⟩ := Token.bracketEvents_of_opens role
      rw [events, List.singleton_append, Completes.opens_iff]
      exact inductionHypothesis restSpelled (.cons ⟨wellSpelled, opens⟩ held)
    | closes =>
      obtain ⟨enclosure, closing, events⟩ := Token.bracketEvents_of_closes role
      rw [events, List.singleton_append, Completes.closes_iff]
      cases held with
      | nil => simp
      | @cons innermost first outer others holds heldOuter =>
        have following := @inductionHypothesis _ _ (index + 1) restSpelled heldOuter
        simp only [Token.closer?_of_opened holds.spelled holds.opens, List.cons.injEq]
        by_cases same : first = enclosure
        · subst same
          simp only [closing, if_true, true_and, exists_eq_left', ← following]
          exact exists_map_eq_ok_iff
        · refine iff_of_false ?_ (by simp [same])
          rintro ⟨pairs, paired⟩
          split at paired
          · contradiction
          · rename_i expected other
            split at paired
            · rename_i matching
              exact same (Enclosure.closing?_injective (matching ▸ other) closing)
            · contradiction
    | resumes continues =>
      rw [Token.bracketEvents_of_resumes role, List.cons_append, Completes.closes_iff]
      cases held with
      | nil => simp
      | @cons innermost first outer others holds heldOuter =>
        simp only [Token.opensSubstitution_iff holds.opens, List.cons.injEq]
        by_cases substitution : first = .substitution
        · subst substitution
          simp only [if_true, true_and, exists_eq_left']
          cases continues with
          | false => exact inductionHypothesis restSpelled heldOuter
          | true =>
            simp only [if_true, List.singleton_append, Completes.opens_iff]
            exact inductionHypothesis restSpelled
              (.cons ⟨wellSpelled, Token.opened?_of_resumes role⟩ heldOuter)
        · simp [substitution]

end Acceptance

theorem completes_nil_iff {events : List BracketEvent} : Completes [] events ↔ WellNested events :=
  ⟨fun completes => by cases completes; assumption, .nested⟩

/-- The brackets of spelled tokens are matched exactly if they are well nested. -/
theorem matchBrackets_iff {tokens : List Token} (spelled : ∀ token ∈ tokens, token.WellSpelled) :
    (∃ partners, matchBrackets tokens = .ok partners) ↔
      WellNested (tokens.flatMap Token.bracketEvents) := by
  rw [← completes_nil_iff, ← @pairBrackets_iff _ _ 0 _ spelled .nil]
  exact exists_map_eq_ok_iff

/-! ## Partners -/

/-- A token is a bracket that opens or closes. -/
def Token.IsBracket (token : Token) : Prop :=
  token.kind = .punctuator ∧ token.text ∈ ["(", "[", "\x7b", ")", "]", "\x7d"]

/-- The partner table sends an index to another. -/
def Partner (partners : Array (Option Nat)) (index partner : Nat) : Prop :=
  partners[index]? = some (some partner)

/-- Every bracket of a token list has a partner, and the pairs are nested. -/
structure Partnered (tokens : List Token) (partners : Array (Option Nat)) : Prop where
  size : partners.size = tokens.length
  /-- Brackets have partners and no other tokens have. -/
  brackets : ∀ index, (∃ partner, Partner partners index partner) ↔
    ∃ token, tokens[index]? = some token ∧ token.IsBracket
  involutive : ∀ {index partner}, Partner partners index partner → Partner partners partner index
  /-- The partner of an opening bracket stands behind it. -/
  forward : ∀ {index partner token}, Partner partners index partner →
    tokens[index]? = some token → token.text ∈ ["(", "[", "\x7b"] → index < partner
  /-- Of two partners the first opens what the second closes. -/
  matching : ∀ {opening close}, Partner partners opening close → opening < close →
    ∃ opener closer, tokens[opening]? = some opener ∧ tokens[close]? = some closer ∧
      (opener.text, closer.text) ∈ bracketPairs
  /-- Two pairs are nested or disjoint. -/
  nested : ∀ {opening close inner innerClose}, Partner partners opening close →
    Partner partners inner innerClose → opening < close → inner < innerClose → opening < inner →
      close < inner ∨ innerClose < close

section Pairs

variable {tokens : List Token} {pairs : List (Nat × Nat)} {index : Nat}

/-- An open bracket is closed among the tokens that are left. -/
theorem exists_pair_of_opened {opened : List IndexedToken} {remaining : List Token}
    (paired : pairBrackets opened index remaining = .ok pairs) {entry : IndexedToken}
    (member : entry ∈ opened) (bracket : entry.token.opensSubstitution = false) :
    ∃ close, (entry.index, close) ∈ pairs := by
  induction remaining generalizing opened index pairs with
  | nil =>
    cases opened with
    | nil => contradiction
    | cons => contradiction
  | cons token rest inductionHypothesis =>
    simp only [pairBrackets] at paired
    cases role : token.bracketRole with
    | neutral =>
      simp only [role] at paired
      exact inductionHypothesis paired member
    | opens =>
      simp only [role] at paired
      exact inductionHypothesis paired (List.mem_cons_of_mem _ member)
    | closes =>
      simp only [role] at paired
      cases opened with
      | nil => contradiction
      | cons innermost outer =>
        simp only at paired
        split at paired
        · contradiction
        split at paired
        case isFalse => contradiction
        case isTrue =>
          obtain ⟨inner, pairedRest, result⟩ := bind_eq_ok_iff.mp paired
          cases result
          rcases List.mem_cons.mp member with rfl | inOuter
          · exact ⟨index, List.mem_cons_self⟩
          · obtain ⟨close, listed⟩ := inductionHypothesis pairedRest inOuter
            exact ⟨close, List.mem_cons_of_mem _ listed⟩
    | resumes continues =>
      simp only [role] at paired
      cases opened with
      | nil => contradiction
      | cons innermost outer =>
        simp only at paired
        split at paired
        case isFalse => contradiction
        case isTrue opens =>
          rcases List.mem_cons.mp member with rfl | inOuter
          · rw [bracket] at opens
            contradiction
          · refine inductionHypothesis paired ?_
            split
            · exact List.mem_cons_of_mem _ inOuter
            · exact inOuter

variable (spelled : ∀ token ∈ tokens, token.WellSpelled)
  (paired : pairBrackets [] 0 tokens = .ok pairs)

include spelled paired

/-- Every bracket is in a pair. -/
theorem exists_pair_of_isBracket {token : Token} (found : tokens[index]? = some token)
    (bracket : token.IsBracket) : ∃ partner, (index, partner) ∈ pairs ∨ (partner, index) ∈ pairs := by
  obtain ⟨kind, listed⟩ := bracket
  obtain ⟨opened, following, openAt⟩ :=
    exists_openAt spelled paired (Nat.le_of_lt (List.getElem?_eq_some_iff.mp found).1)
  have next := openAt.next spelled found
  cases role : token.bracketRole with
  | neutral | resumes =>
    simp only [List.mem_cons, List.not_mem_nil, or_false] at listed
    simp only [Token.bracketRole, kind] at role
    grind
  | opens =>
    simp only [role] at next
    have bracket : token.opensSubstitution = false := by simp [Token.opensSubstitution, kind]
    obtain ⟨close, inFollowing⟩ := exists_pair_of_opened next.paired List.mem_cons_self bracket
    exact ⟨close, .inl (next.subset inFollowing)⟩
  | closes =>
    simp only [role] at next
    obtain ⟨innermost, _, _, _, _, member, _⟩ := next
    exact ⟨innermost.index, .inr member⟩

/-- The table of the pairs. -/
theorem partnered_of_pairBrackets : Partnered tokens (partnerTable tokens.length pairs) := by
  have table : ∀ {index partner}, Partner (partnerTable tokens.length pairs) index partner ↔
      (index, partner) ∈ pairs ∨ (partner, index) ∈ pairs := partnerTable_iff spelled paired
  have enclosing := encloses_of_pairBrackets spelled paired
  have ordered : ∀ {first second}, (first, second) ∈ pairs → first < second :=
    fun member => (enclosing _ member).returns.after
  have opens : ∀ {first second}, Partner (partnerTable tokens.length pairs) first second →
      first < second → Encloses tokens first second := by
    intro first second partner before
    rcases table.mp partner with forth | back
    · exact enclosing _ forth
    · exact absurd (ordered back) (Nat.lt_asymm before)
  constructor
  case size => exact size_partnerTable _ _
  case brackets =>
    intro index
    constructor
    · rintro ⟨partner, here⟩
      have ends : ∀ pair ∈ bracketPairs, pair.1 ∈ ["(", "[", "\x7b", ")", "]", "\x7d"] ∧
          pair.2 ∈ ["(", "[", "\x7b", ")", "]", "\x7d"] := by
        decide
      rcases table.mp here with forth | back
      · obtain ⟨opener, _, found, _, kind, _, listed⟩ := (enclosing _ forth).matching
        exact ⟨opener, found, kind, (ends _ listed).1⟩
      · obtain ⟨_, closer, _, found, _, kind, listed⟩ := (enclosing _ back).matching
        exact ⟨closer, found, kind, (ends _ listed).2⟩
    · rintro ⟨token, found, bracket⟩
      exact (exists_pair_of_isBracket spelled paired found bracket).imp fun _ => table.mpr
  case involutive => exact fun partner => table.mpr (table.mp partner).symm
  case forward =>
    intro index partner token here found listed
    rcases table.mp here with forth | back
    · exact ordered forth
    · obtain ⟨_, closer, _, foundCloser, _, _, matching⟩ := (enclosing _ back).matching
      rw [found] at foundCloser
      cases foundCloser
      have closings : ∀ pair ∈ bracketPairs, pair.2 ∉ ["(", "[", "\x7b"] := by
        decide
      exact absurd listed (closings _ matching)
  case matching =>
    intro opening close here before
    obtain ⟨opener, closer, foundOpener, foundCloser, _, _, listed⟩ := (opens here before).matching
    exact ⟨opener, closer, foundOpener, foundCloser, listed⟩
  case nested =>
    intro opening close inner innerClose here there before innerBefore later
    have outerPair := opens here before
    have innerPair := opens there innerBefore
    by_contra crossing
    obtain ⟨notBefore, notInside⟩ := not_or.mp crossing
    have apart : close ≠ inner := fun same =>
      absurd (@Encloses.disjoint _ (_, _) (_, _) outerPair innerPair (.inr (.inr (.inl same))))
        (by simp; omega)
    have sameClose : close ≠ innerClose := fun same =>
      absurd (@Encloses.disjoint _ (_, _) (_, _) outerPair innerPair (.inr (.inr (.inr same))))
        (by simp; omega)
    have deeper := outerPair.returns.inside inner later (by omega)
    have deepest := innerPair.returns.inside (close + 1) (by omega) (by omega)
    have level := outerPair.returns.outside
    omega

end Pairs

theorem partnered_of_ofSource {source : List Char} {stream : TokenStream}
    (read : TokenStream.ofSource source = .ok stream) :
    Partnered stream.tokens.toList stream.partners := by
  obtain ⟨tokens, partners, tokenized, matched, rfl⟩ := TokenStream.ofSource_eq_ok_iff.mp read
  obtain ⟨pairs, paired, table⟩ := bind_eq_ok_iff.mp matched
  cases table
  have tiles : Tiles 0 source tokens := tiles_of_tokensFrom tokenized
  exact partnered_of_pairBrackets (fun token member => (tiles.of_mem member).2.2.2) paired

/-- The brackets of a program are matched exactly if they are well nested and completely closed,
and the partners that come out are those of its brackets. -/
theorem matchBrackets_of_tokenize {source : List Char} {tokens : List Token}
    (tokenized : tokenize source = .ok tokens) :
    ((∃ partners, matchBrackets tokens = .ok partners) ↔
        WellNested (tokens.flatMap Token.bracketEvents)) ∧
      ∀ partners, matchBrackets tokens = .ok partners → Partnered tokens partners := by
  have tiles : Tiles 0 source tokens := tiles_of_tokensFrom tokenized
  have spelled : ∀ token ∈ tokens, token.WellSpelled :=
    fun token member => (tiles.of_mem member).2.2.2
  refine ⟨matchBrackets_iff spelled, fun partners matched => ?_⟩
  obtain ⟨pairs, paired, table⟩ := bind_eq_ok_iff.mp matched
  cases table
  exact partnered_of_pairBrackets spelled paired

theorem matchBrackets_of_nestedTemplate :
    ∃ tokens partners, tokenize "f(\x60a$\x7bx[0]\x7db$\x7b\x7b\x7d\x7dc\x60)".toList = .ok tokens ∧
      matchBrackets tokens = .ok partners ∧
      WellNested (tokens.flatMap Token.bracketEvents) ∧ Partnered tokens partners := by
  obtain ⟨tokens, tokenized, accepted⟩ := exists_ok_of_any
    (fun tokens => ((matchBrackets tokens).toOption.any fun _ => decide True) = true)
    (show ((tokenize "f(\x60a$\x7bx[0]\x7db$\x7b\x7b\x7d\x7dc\x60)".toList).toOption.any
      fun tokens => decide _) = true by decide +kernel)
  obtain ⟨partners, matched, _⟩ := exists_ok_of_any _ accepted
  obtain ⟨nested, partnered⟩ := matchBrackets_of_tokenize tokenized
  exact ⟨tokens, partners, tokenized, matched, nested.mp ⟨partners, matched⟩,
    partnered partners matched⟩

end Playground
