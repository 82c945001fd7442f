import Playground.Proofs.Erasure.BracketMatching

/-!
# Balanced runs and their brackets

A run of tokens is balanced if each of its brackets is matched by one of the run. What stands
between two matching brackets is judged without asking for any partner, and yet the partners of
an accepted program agree: two matching brackets around a balanced run are partners
(`closer?_of_group`).
-/

namespace Playground.TokenStream

/-- The tokens from an index up to another are no brackets, or brackets that match within them.
The parts of templates are no brackets. -/
inductive BracketBalanced (stream : TokenStream) : Nat → Nat → Prop where
  | nothing {index} : BracketBalanced stream index index
  | token {index stop token} (here : stream.get? index = some token) (plain : ¬token.IsBracket)
      (rest : BracketBalanced stream (index + 1) stop) : BracketBalanced stream index stop
  | pair {opening close stop brackets} (matching : brackets ∈ bracketPairs)
      (opens : stream.is opening brackets.1 = true)
      (inside : BracketBalanced stream (opening + 1) close)
      (closes : stream.is close brackets.2 = true) (rest : BracketBalanced stream (close + 1) stop) :
      BracketBalanced stream opening stop

/-- A balanced run between two brackets. -/
structure Group (stream : TokenStream) (brackets : String × String) (opening close : Nat) :
    Prop where
  matching : brackets ∈ bracketPairs
  opens : stream.is opening brackets.1 = true
  inside : stream.BracketBalanced (opening + 1) close
  closes : stream.is close brackets.2 = true

/-- The partners of a stream are those of its brackets. -/
def IsPartnered (stream : TokenStream) : Prop :=
  Partnered stream.tokens.toList stream.partners

theorem isPartnered_of_ofSource {source : List Char} {stream : TokenStream}
    (read : ofSource source = .ok stream) : stream.IsPartnered := by
  obtain ⟨tokens, partners, tokenized, matched, rfl⟩ := ofSource_eq_ok_iff.mp read
  obtain ⟨pairs, paired, table⟩ := bind_eq_ok_iff.mp matched
  cases table
  have tiles : Tiles 0 source tokens := tiles_of_tokensFrom tokenized
  exact partnered_of_pairBrackets (fun token member => (tiles.of_mem member).2.2.2) paired

variable {stream : TokenStream} {brackets : String × String} {opening close first stop : Nat}

theorem BracketBalanced.le (balanced : stream.BracketBalanced first stop) : first ≤ stop := by
  induction balanced with
  | nothing => exact Nat.le_refl _
  | token _ _ _ inductionHypothesis => omega
  | pair _ _ _ _ _ inner rest => omega

theorem Group.lt (group : stream.Group brackets opening close) : opening < close :=
  group.inside.le

theorem closer?_eq_some_iff :
    stream.closer? opening = some close ↔ Partner stream.partners opening close ∧ opening < close := by
  simp [closer?, partner?, Partner, Option.filter_eq_some_iff, Option.join_eq_some_iff]

/-- A bracket as it is written. -/
theorem exists_bracket_of_is (placed : stream.Placed) {index : Nat} {text : String}
    (found : stream.is index text = true) (listed : text ∈ ["(", "[", "\x7b", ")", "]", "\x7d"]) :
    ∃ token, stream.get? index = some token ∧ token.IsBracket ∧ token.text = text := by
  have notWord : ∀ text ∈ ["(", "[", "\x7b", ")", "]", "\x7d"], hasMark text = true := by
    decide
  obtain ⟨token, here, kind⟩ := Option.map_eq_some_iff.mp
    (placed.kind?_of_mark found (notWord text listed))
  have spelled : token.text = text := by
    simpa [TokenStream.text, here] using (is_iff.mp found).2
  exact ⟨token, here, ⟨kind, spelled ▸ listed⟩, spelled⟩

/-- The partners of the tokens of a run stand in the run. -/
def KeepsPartners (stream : TokenStream) (first stop : Nat) : Prop :=
  ∀ {index partner}, first ≤ index → index < stop → Partner stream.partners index partner →
    first ≤ partner ∧ partner < stop

section Partners

variable (placed : stream.Placed) (nested : stream.Nested) (partnered : stream.IsPartnered)

include placed nested partnered

/-- Matching brackets around tokens whose partners stand among them are partners. -/
theorem partner_of_keepsPartners (matching : brackets ∈ bracketPairs) (ordered : opening < close)
    (opens : stream.is opening brackets.1 = true) (closes : stream.is close brackets.2 = true)
    (inside : stream.KeepsPartners (opening + 1) close) :
    Partner stream.partners opening close := by
  have texts : ∀ pair ∈ bracketPairs, pair.1 ∈ ["(", "[", "\x7b"] ∧ pair.2 ∈ [")", "]", "\x7d"] := by
    decide
  have isOpening := (texts brackets matching).1
  have isClosing := (texts brackets matching).2
  obtain ⟨opener, atOpening, openerBracket, openerText⟩ :=
    exists_bracket_of_is placed opens (List.mem_append_left [")", "]", "\x7d"] isOpening)
  obtain ⟨closer, atClose, ⟨kind, -⟩, spelled⟩ :=
    exists_bracket_of_is placed closes (List.mem_append_right ["(", "[", "\x7b"] isClosing)
  have role : closer.bracketRole = .closes := by
    rw [← spelled] at isClosing
    simp only [Token.bracketRole, kind]
    grind
  rw [get?, ← Array.getElem?_toList] at atOpening
  obtain ⟨far, toFar⟩ := (partnered.brackets opening).mpr ⟨opener, atOpening, openerBracket⟩
  have forward : opening < far := partnered.forward toFar atOpening (openerText ▸ isOpening)
  obtain ⟨near, closesNear⟩ := nested.closers atClose role
  obtain ⟨toClose, before⟩ := closer?_eq_some_iff.mp closesNear
  have nearOutside : near ≤ opening := by
    by_contra later
    have escaped := inside (by omega) before toClose
    omega
  have farOutside : close ≤ far := by
    by_contra earlier
    have escaped := inside (by omega) (by omega) (partnered.involutive toFar)
    omega
  by_cases same : near = opening
  · exact same ▸ toClose
  · -- otherwise the two pairs would share the closing bracket, or cross
    have different : close ≠ far := by
      rintro rfl
      have both := (partnered.involutive toFar).symm.trans (partnered.involutive toClose)
      exact same (Option.some.inj (Option.some.inj both)).symm
    have crossing := partnered.nested toClose toFar before forward (by omega)
    omega

theorem BracketBalanced.keepsPartners (balanced : stream.BracketBalanced first stop) :
    stream.KeepsPartners first stop := by
  induction balanced with
  | nothing =>
    intro index partner lower upper
    omega
  | @token first stop token here plain rest inductionHypothesis =>
    intro index partner lower upper partnerAt
    rcases Nat.eq_or_lt_of_le lower with rfl | later
    · obtain ⟨bracket, found, isBracket⟩ := (partnered.brackets first).mp ⟨partner, partnerAt⟩
      rw [Array.getElem?_toList] at found
      exact absurd (Option.some.inj (here.symm.trans found) ▸ isBracket) plain
    · have kept := inductionHypothesis later upper partnerAt
      omega
  | @pair opening close stop brackets matching opens inside closes rest keptInside keptRest =>
    intro index partner lower upper partnerAt
    have toClose := partner_of_keepsPartners placed nested partnered matching inside.le opens closes
      keptInside
    have order := inside.le
    have behind := rest.le
    rcases Nat.lt_trichotomy index close with before | rfl | after
    · rcases Nat.eq_or_lt_of_le lower with rfl | within
      · obtain rfl := Option.some.inj (Option.some.inj (partnerAt.symm.trans toClose))
        omega
      · have kept := keptInside within before partnerAt
        omega
    · have toOpening := partnered.involutive toClose
      obtain rfl := Option.some.inj (Option.some.inj (partnerAt.symm.trans toOpening))
      omega
    · have kept := keptRest after upper partnerAt
      omega

/-- Matching brackets around a balanced run are partners. -/
theorem closer?_of_group (group : stream.Group brackets opening close) :
    stream.closer? opening = some close :=
  closer?_eq_some_iff.mpr
    ⟨partner_of_keepsPartners placed nested partnered group.matching group.lt group.opens group.closes
      (group.inside.keepsPartners placed nested partnered), group.lt⟩

end Partners

end Playground.TokenStream
