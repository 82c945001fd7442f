import Playground.Proofs.Erasure.Juxtaposition.Tokens
import Playground.Proofs.Erasure.Nesting

/-!
# Brackets on both sides of a seam

Tokens whose brackets are balanced leave no brace open, and their pairs do not depend on what
follows. So the pairs of a text and of a program behind it are those of the text and, further on,
those of the program.
-/

namespace Playground

/-! ## Open braces -/

/-- The brace that an open bracket is for the tokenizer. -/
def Token.brace? (opener : Token) : Option Brace :=
  if opener.opensSubstitution then some .substitution
  else if opener.text = "\x7b" then some .block
  else none

/-- The braces among open brackets. -/
def openBraces (opened : List IndexedToken) : List Brace :=
  opened.filterMap (·.token.brace?)

theorem openBraces_cons (entry : IndexedToken) (outer : List IndexedToken) :
    openBraces (entry :: outer) = entry.token.brace?.toList ++ openBraces outer := by
  rw [openBraces, List.filterMap_cons]
  cases entry.token.brace? <;> rfl

section Roles

variable {token innermost : Token}

theorem bracesAfter_of_neutral (neutral : token.bracketRole = .neutral) (braces : List Brace) :
    token.bracesAfter braces = braces := by
  unfold Token.bracketRole at neutral
  unfold Token.bracesAfter
  cases kind : token.kind <;> simp_all
  grind

theorem bracesAfter_of_opens (opens : token.bracketRole = .opens) (braces : List Brace) :
    token.bracesAfter braces = token.brace?.toList ++ braces := by
  unfold Token.bracketRole at opens
  split at opens
  case h_1 mark =>
    split at opens
    case isTrue listed =>
      simp only [List.contains_iff_mem, List.mem_cons, List.not_mem_nil, or_false] at listed
      simp only [Token.bracesAfter, mark, Token.brace?, Token.opensSubstitution]
      rcases listed with text | text | text <;> simp [text]
    case isFalse => split at opens <;> contradiction
  case h_2 head => simp [Token.bracesAfter, head, Token.brace?, Token.opensSubstitution]
  all_goals contradiction

/-- A closing bracket takes away the brace that it closes. -/
theorem bracesAfter_of_closes (closes : token.bracketRole = .closes) (spelled : innermost.WellSpelled)
    (closer : innermost.closer? = some token.text) (braces : List Brace) :
    token.bracesAfter (innermost.brace?.toList ++ braces) = braces := by
  have mark := Token.bracketRole_eq_closes closes
  have plain : innermost.opensSubstitution = false := by
    rw [Bool.eq_false_iff]
    intro opens
    rw [spelled.closer?_eq_none (by simpa [Token.opensSubstitution] using opens)] at closer
    contradiction
  have listed := Token.closer?_eq_some closer
  simp only [bracketPairs, List.mem_cons, Prod.mk.injEq, List.not_mem_nil, or_false] at listed
  simp only [Token.bracesAfter, mark, Token.brace?, plain]
  rcases listed with ⟨opening, closing⟩ | ⟨opening, closing⟩ | ⟨opening, closing⟩ <;>
    simp [opening, closing]

theorem bracesAfter_of_resumes {continues : Bool} (resumes : token.bracketRole = .resumes continues)
    (opens : innermost.opensSubstitution = true) (braces : List Brace) :
    token.bracesAfter (innermost.brace?.toList ++ braces) =
      if continues then token.brace?.toList ++ braces else braces := by
  have innermostBrace : innermost.brace? = some .substitution := if_pos opens
  unfold Token.bracketRole at resumes
  split at resumes
  case h_1 =>
    split at resumes
    · contradiction
    · split at resumes <;> contradiction
  case h_3 middle =>
    cases resumes
    rw [innermostBrace]
    simp [Token.bracesAfter, middle, Token.brace?, Token.opensSubstitution]
  case h_4 tail =>
    cases resumes
    simp [Token.bracesAfter, tail, innermostBrace]
  all_goals contradiction

end Roles

/-- Balanced brackets leave no brace open. -/
theorem bracesAfter_of_pairBrackets {tokens : List Token} {opened : List IndexedToken} {index : Nat}
    {pairs : List (Nat × Nat)} (spelled : ∀ token ∈ tokens, token.WellSpelled)
    (openSpelled : ∀ entry ∈ opened, entry.token.WellSpelled)
    (paired : pairBrackets opened index tokens = .ok pairs) :
    tokens.foldl Token.bracesAfter (openBraces opened) = [] := by
  induction tokens generalizing opened index pairs with
  | nil =>
    cases opened with
    | nil => rfl
    | cons => contradiction
  | cons token rest inductionHypothesis =>
    obtain ⟨here, later⟩ := List.forall_mem_cons.mp spelled
    rw [List.foldl_cons]
    simp only [pairBrackets] at paired
    cases role : token.bracketRole with
    | neutral =>
      simp only [role] at paired
      rw [bracesAfter_of_neutral role]
      exact inductionHypothesis later openSpelled paired
    | opens =>
      simp only [role] at paired
      rw [bracesAfter_of_opens role]
      have next := inductionHypothesis later (List.forall_mem_cons.mpr ⟨here, openSpelled⟩) paired
      rwa [openBraces_cons] at next
    | closes =>
      simp only [role] at paired
      cases opened with
      | nil => contradiction
      | cons innermost outer =>
        obtain ⟨innermostSpelled, outerSpelled⟩ := List.forall_mem_cons.mp openSpelled
        simp only at paired
        split at paired
        case h_1 => contradiction
        case h_2 expected closer =>
          split at paired
          case isFalse => contradiction
          case isTrue matching =>
            obtain ⟨others, pairedRest, -⟩ := bind_eq_ok_iff.mp paired
            rw [openBraces_cons, bracesAfter_of_closes role innermostSpelled (matching ▸ closer)]
            exact inductionHypothesis later outerSpelled pairedRest
    | resumes continues =>
      simp only [role] at paired
      cases opened with
      | nil => contradiction
      | cons innermost outer =>
        obtain ⟨innermostSpelled, outerSpelled⟩ := List.forall_mem_cons.mp openSpelled
        simp only at paired
        split at paired
        case isFalse => contradiction
        case isTrue opens =>
          rw [openBraces_cons, bracesAfter_of_resumes role opens]
          cases continues with
          | false => exact inductionHypothesis later outerSpelled paired
          | true =>
            have next := inductionHypothesis later
              (List.forall_mem_cons.mpr ⟨here, outerSpelled⟩) paired
            rwa [openBraces_cons] at next

/-! ## Pairs -/

/-- The pairs of balanced brackets do not depend on what follows them. -/
theorem pairBrackets_append {tokens : List Token} {opened : List IndexedToken} {index : Nat}
    {pairs : List (Nat × Nat)} (paired : pairBrackets opened index tokens = .ok pairs)
    (others : List Token) :
    pairBrackets opened index (tokens ++ others) =
      (pairs ++ ·) <$> pairBrackets [] (index + tokens.length) others := by
  induction tokens generalizing opened index pairs with
  | nil =>
    cases opened with
    | nil =>
      cases paired
      rw [List.nil_append, List.length_nil, Nat.add_zero]
      cases pairBrackets [] index others <;> rfl
    | cons => contradiction
  | cons token rest inductionHypothesis =>
    have next : ∀ {opened : List IndexedToken} {pairs : List (Nat × Nat)},
        pairBrackets opened (index + 1) rest = .ok pairs →
        pairBrackets opened (index + 1) (rest ++ others) =
          (pairs ++ ·) <$> pairBrackets [] (index + (token :: rest).length) others := by
      intro opened pairs paired
      have length : index + (token :: rest).length = index + 1 + rest.length := by
        rw [List.length_cons]
        omega
      rw [inductionHypothesis paired, length]
    rw [List.cons_append]
    simp only [pairBrackets] at paired ⊢
    cases role : token.bracketRole with
    | neutral | opens =>
      simp only [role] at paired
      exact next paired
    | closes =>
      simp only [role] at paired
      cases opened with
      | nil => contradiction
      | cons innermost outer =>
        simp only at paired ⊢
        split at paired
        case h_1 => contradiction
        case h_2 expected closer =>
          split at paired
          case isFalse => contradiction
          case isTrue matching =>
            obtain ⟨inner, pairedRest, result⟩ := bind_eq_ok_iff.mp paired
            cases result
            simp only [if_pos matching]
            rw [next pairedRest]
            cases pairBrackets [] (index + (token :: rest).length) others <;> rfl
    | resumes continues =>
      simp only [role] at paired
      cases opened with
      | nil => contradiction
      | cons innermost outer =>
        simp only at paired ⊢
        split at paired
        case isFalse => contradiction
        case isTrue opens =>
          rw [if_pos opens]
          exact next paired

/-- Enters a pair in a table of partners. -/
def enterPair (table : Array (Option Nat)) (pair : Nat × Nat) : Array (Option Nat) :=
  (table.setIfInBounds pair.1 (some pair.2)).setIfInBounds pair.2 (some pair.1)

theorem partnerTable_eq (size : Nat) (pairs : List (Nat × Nat)) :
    partnerTable size pairs = pairs.foldl enterPair (Array.replicate size none) :=
  rfl

section Tables

variable {table others : Array (Option Nat)}

theorem enterPairs_left {pairs : List (Nat × Nat)}
    (bounded : ∀ pair ∈ pairs, pair.1 < table.size ∧ pair.2 < table.size) :
    pairs.foldl enterPair (table ++ others) = pairs.foldl enterPair table ++ others := by
  induction pairs generalizing table with
  | nil => rfl
  | cons pair pairs inductionHypothesis =>
    obtain ⟨⟨opening, close⟩, later⟩ := List.forall_mem_cons.mp bounded
    have first : enterPair (table ++ others) pair = enterPair table pair ++ others := by
      rw [enterPair, Array.setIfInBounds_append_left opening,
        Array.setIfInBounds_append_left (by rwa [Array.size_setIfInBounds]), enterPair]
    rw [List.foldl_cons, List.foldl_cons, first]
    exact inductionHypothesis (by simpa [enterPair] using later)

theorem enterPairs_right (pairs : List (Nat × Nat)) :
    (shiftPairs table.size pairs).foldl enterPair (table ++ others.map (Option.map (· + table.size))) =
      table ++ (pairs.foldl enterPair others).map (Option.map (· + table.size)) := by
  induction pairs generalizing others with
  | nil => rfl
  | cons pair pairs inductionHypothesis =>
    have first : enterPair (table ++ others.map (Option.map (· + table.size)))
        (pair.1 + table.size, pair.2 + table.size) =
          table ++ (enterPair others pair).map (Option.map (· + table.size)) := by
      simp only [enterPair, Array.map_setIfInBounds, Option.map_some]
      rw [Array.setIfInBounds_append_right (Nat.le_add_left ..),
        Array.setIfInBounds_append_right (Nat.le_add_left ..), Nat.add_sub_cancel,
        Nat.add_sub_cancel]
    rw [List.foldl_cons, ← inductionHypothesis, ← first]
    rfl

end Tables

/-- Pairs that lie apart have tables that lie side by side. -/
theorem partnerTable_append {size : Nat} {pairs : List (Nat × Nat)}
    (bounded : ∀ pair ∈ pairs, pair.1 < size ∧ pair.2 < size) (count : Nat)
    (others : List (Nat × Nat)) :
    partnerTable (size + count) (pairs ++ shiftPairs size others) =
      partnerTable size pairs ++ (partnerTable count others).map (Option.map (· + size)) := by
  have sized := size_partnerTable size pairs
  have empty : Array.replicate (size + count) (none : Option Nat) =
      Array.replicate size none ++ Array.replicate count none := by
    rw [Array.replicate_append_replicate]
  have behind : Array.replicate count (none : Option Nat) =
      (Array.replicate count none).map (Option.map (· + (partnerTable size pairs).size)) := by
    rw [Array.map_replicate, Option.map_none]
  have entered := @enterPairs_right (partnerTable size pairs) (Array.replicate count none) others
  rw [← behind, sized] at entered
  rw [partnerTable_eq, List.foldl_append, empty, enterPairs_left (by simpa using bounded)]
  exact entered

/-- The pairs of a text and of a program behind it. -/
theorem matchBrackets_append {tokens others images : List Token}
    {partners otherPartners : Array (Option Nat)} {Offset : Nat → Nat → Prop}
    {Same : String → String → Prop} (spelled : ∀ token ∈ tokens, token.WellSpelled)
    (matched : matchBrackets tokens = .ok partners)
    (matchedOthers : matchBrackets others = .ok otherPartners)
    (alike : List.Forall₂ (Token.StandsFor Offset Same) others images) :
    matchBrackets (tokens ++ images) =
      .ok (partners ++ otherPartners.map (Option.map (· + tokens.length))) := by
  obtain ⟨pairs, paired, table⟩ := bind_eq_ok_iff.mp matched
  obtain ⟨otherPairs, pairedOthers, otherTable⟩ := bind_eq_ok_iff.mp matchedOthers
  cases table
  cases otherTable
  have image : AnswersAlike Offset (fun pairs image => image = shiftPairs tokens.length pairs)
      (pairBrackets [] 0 others) (pairBrackets [] (0 + tokens.length) images) :=
    pairBrackets_alike .nil alike 0
  rw [pairedOthers] at image
  obtain ⟨_, pairedImages, rfl⟩ := image.exists_ok
  have bounded : ∀ pair ∈ pairs, pair.1 < tokens.length ∧ pair.2 < tokens.length := by
    intro pair member
    have encloses := encloses_of_pairBrackets spelled paired pair member
    obtain ⟨_, _, _, foundClose, -⟩ := encloses.matching
    have close := (List.getElem?_eq_some_iff.mp foundClose).1
    exact ⟨Nat.lt_trans encloses.returns.after close, close⟩
  unfold matchBrackets
  rw [pairBrackets_append paired, pairedImages, List.length_append, ← alike.length_eq]
  exact congrArg Except.ok (partnerTable_append bounded _ _)

end Playground
