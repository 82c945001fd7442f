import Playground.Proofs.Erasure.Draft
import Playground.Proofs.Erasure.EditOrder

/-!
# What becomes of brackets

A draft settles every offset that it has passed: the offset lies in a kept piece or is gone
for good. Tidy edits leave both brackets of a pair or drop both (`Even.applyAll`); edits that
split a pair drop its closing bracket and leave the opening one (`not_keepsPairs_of_splits`).
-/

namespace Playground

/-- An offset of the source lies in a kept piece. -/
def Draft.Keeps (draft : Draft) (offset : Nat) : Prop :=
  ∃ start stop, .kept start stop ∈ draft.pieces ∧ start ≤ offset ∧ offset < stop

/-- A draft has passed an offset without keeping it. -/
def Draft.Drops (draft : Draft) (offset : Nat) : Prop :=
  offset < draft.copied ∧ ¬draft.Keeps offset

namespace Draft

variable {source : Array Char} {draft : Draft} {offset : Nat}

theorem keeps_keepTo (stop : Nat) :
    (draft.keepTo stop).Keeps offset ↔
      draft.Keeps offset ∨ (draft.copied ≤ offset ∧ offset < stop) := by
  unfold keepTo
  split
  · constructor
    · rintro ⟨start, stop, member, lower, upper⟩
      rcases List.mem_cons.mp member with same | before
      · cases same
        exact .inr ⟨lower, upper⟩
      · exact .inl ⟨start, stop, before, lower, upper⟩
    · rintro (⟨start, stop, member, lower, upper⟩ | ⟨lower, upper⟩)
      · exact ⟨start, stop, List.mem_cons_of_mem _ member, lower, upper⟩
      · exact ⟨_, _, List.mem_cons_self, lower, upper⟩
  · refine ⟨.inl, ?_⟩
    rintro (keeps | ⟨lower, upper⟩)
    · exact keeps
    · omega

@[simp] theorem keeps_write (text : List Char) :
    (draft.write text).Keeps offset ↔ draft.Keeps offset := by
  simp [Keeps, write]

@[simp] theorem keeps_dropTo (stop : Nat) :
    (draft.dropTo stop).Keeps offset ↔ draft.Keeps offset := Iff.rfl

/-- An erasure that goes further keeps what stands before it. -/
theorem keeps_apply_erase {start finish : Nat} (further : max start draft.copied < finish) :
    (draft.apply source (.erase start finish)).Keeps offset ↔
      draft.Keeps offset ∨ (draft.copied ≤ offset ∧ offset < start) := by
  simp only [apply, if_neg (Nat.not_le_of_lt further), keeps_dropTo, keeps_write, keeps_keepTo]

theorem keeps_apply_insert {start : Nat} {text : String} :
    (draft.apply source (.insert start text)).Keeps offset ↔
      draft.Keeps offset ∨ (draft.copied ≤ offset ∧ offset < start) := by
  simp only [apply, keeps_write, keeps_keepTo]

theorem copied_apply_insert {start : Nat} {text : String} :
    (draft.apply source (.insert start text)).copied = max draft.copied start := by
  simp only [apply, copied_write, copied_keepTo]

/-- Inserted text drops nothing. -/
theorem drops_apply_insert (start : Nat) (text : String) :
    (draft.apply source (.insert start text)).Drops offset ↔ draft.Drops offset := by
  unfold Draft.Drops
  rw [copied_apply_insert, keeps_apply_insert]
  by_cases keeps : draft.Keeps offset
  · simp [keeps]
  · simp only [keeps, false_or, not_false_eq_true, and_true]
    omega

/-! ## What was passed stays settled -/

/-- Later edits do not change what a draft has passed. -/
theorem settled_apply (passed : offset < draft.copied) (edit : Edit) :
    offset < (draft.apply source edit).copied ∧
      ((draft.apply source edit).Keeps offset ↔ draft.Keeps offset) := by
  have unpassed : ∀ {stop : Nat}, ¬(draft.copied ≤ offset ∧ offset < stop) :=
    fun outside => Nat.not_le_of_lt passed outside.1
  cases edit with
  | erase start finish =>
    rcases Nat.lt_or_ge (max start draft.copied) finish with further | nothing
    · rw [copied_apply_erase further, keeps_apply_erase further, or_iff_left unpassed]
      exact ⟨by omega, Iff.rfl⟩
    · simp only [apply, if_pos nothing]
      exact ⟨passed, trivial⟩
  | insert start text =>
    rw [copied_apply_insert, keeps_apply_insert, or_iff_left unpassed]
    exact ⟨by omega, Iff.rfl⟩
  | replace start finish text =>
    simp only [apply, keeps_dropTo, keeps_write, keeps_keepTo, copied_dropTo, copied_write,
      copied_keepTo, or_iff_left unpassed]
    exact ⟨by omega, trivial⟩

theorem drops_apply (passed : offset < draft.copied) {edit : Edit} :
    (draft.apply source edit).Drops offset ↔ draft.Drops offset := by
  obtain ⟨still, same⟩ := @settled_apply source _ _ passed edit
  simp only [Drops, same, passed, still]

theorem settled_applyAll (passed : offset < draft.copied) (edits : List Edit) :
    offset < (draft.applyAll source edits).copied ∧
      ((draft.applyAll source edits).Keeps offset ↔ draft.Keeps offset) := by
  induction edits generalizing draft with
  | nil => exact ⟨passed, Iff.rfl⟩
  | cons edit edits inductionHypothesis =>
    obtain ⟨still, same⟩ := @settled_apply source _ _ passed edit
    obtain ⟨passedLast, sameLast⟩ := inductionHypothesis still
    exact ⟨passedLast, sameLast.trans same⟩

theorem drops_applyAll (passed : offset < draft.copied) (edits : List Edit) :
    (draft.applyAll source edits).Drops offset ↔ draft.Drops offset := by
  obtain ⟨passedLast, same⟩ := @settled_applyAll source _ _ passed edits
  simp only [Drops, same, passed, passedLast]

end Draft

namespace TokenStream

variable {stream : TokenStream} {lower upper : Nat} {draft : Draft}

/-- What a draft has dropped last: a balanced span that reaches over the token at an index, if
the draft does. -/
structure LastDropped (stream : TokenStream) (draft : Draft) (lower first stop : Nat) : Prop where
  balanced : stream.Balanced first stop
  before : first ≤ lower
  reached : draft.copied ≤ stream.startOf (max lower stop)
  dropped : ∀ {index}, first ≤ index → index < stop → ¬stream.IsNeutral index →
    stream.stopOf index = stream.startOf index + 1 → draft.Drops (stream.startOf index)
  fresh : ∀ {clause last}, stream.SearchedClause clause last → lower ≤ clause → stop ≤ clause

/-- A draft has reached the token at an index, or the end of what it has dropped there, and has
treated brackets in pairs. -/
structure Even (stream : TokenStream) (lower : Nat) (draft : Draft) : Prop where
  last : ∃ first stop, stream.LastDropped draft lower first stop
  within : ∀ {offset}, draft.Keeps offset → offset < draft.copied
  paired : ∀ {opening close}, stream.closer? opening = some close →
    (draft.Drops (stream.startOf opening) ↔ draft.Drops (stream.startOf close))

/-- A bracket from the index on that a draft has passed is dropped. -/
theorem LastDropped.drops_of_passed (placed : stream.Placed) {first stop index : Nat}
    (last : stream.LastDropped draft lower first stop) (after : lower ≤ index)
    (bracket : ¬stream.IsNeutral index)
    (character : stream.stopOf index = stream.startOf index + 1)
    (passed : stream.startOf index < draft.copied) : draft.Drops (stream.startOf index) := by
  refine last.dropped (Nat.le_trans last.before after) ?_ bracket character
  by_contra beyond
  have reached := Nat.le_trans last.reached
    (placed.startOf_mono (Nat.max_le.mpr ⟨after, Nat.le_of_not_lt beyond⟩))
  omega

/-- The same drop, seen from a later index. -/
theorem LastDropped.to_lower (placed : stream.Placed) {first stop later : Nat}
    (last : stream.LastDropped draft lower first stop) (after : lower ≤ later) :
    stream.LastDropped draft later first stop where
  balanced := last.balanced
  before := Nat.le_trans last.before after
  reached := Nat.le_trans last.reached (placed.startOf_mono (by omega))
  dropped := last.dropped
  fresh clause from_later := last.fresh clause (Nat.le_trans after from_later)

namespace Even

theorem of_empty (stream : TokenStream) : stream.Even 0 .empty where
  last := ⟨0, 0, .refl 0, Nat.le_refl 0, Nat.zero_le _, fun _ before => by omega,
    fun _ after => after⟩
  within := by
    rintro offset ⟨start, stop, member, _⟩
    contradiction
  paired _ := by simp [Draft.Drops, Draft.empty]

/-- What an erasure drops among the brackets. -/
theorem drops_iff (placed : stream.Placed) (even : stream.Even lower draft)
    {start finish first stop index : Nat} (ordered : lower ≤ first)
    (drops : stream.Drops start finish first stop)
    (character : stream.stopOf index = stream.startOf index + 1)
    (bracket : ¬stream.IsNeutral index) :
    (draft.apply stream.source (.erase start finish)).Drops (stream.startOf index) ↔
      draft.Drops (stream.startOf index) ∨ (first ≤ index ∧ index < stop) := by
  obtain ⟨_, _, last⟩ := even.last
  have kept : draft.Keeps (stream.startOf index) → stream.startOf index < draft.copied := even.within
  -- What the draft has passed stays as it is, and is dropped from `lower` on.
  rcases Nat.lt_or_ge (stream.startOf index) draft.copied with passed | unpassed
  · rw [Draft.drops_apply passed, iff_self_or]
    rintro ⟨after, _⟩
    exact last.drops_of_passed placed (Nat.le_trans ordered after) bracket character passed
  have fresh : ¬draft.Drops (stream.startOf index) := fun dropped => by
    have := dropped.1
    omega
  have unkept : ¬draft.Keeps (stream.startOf index) := fun keeps => by
    have := kept keeps
    omega
  have reaches := drops.reaches
  simp only [fresh, false_or]
  rcases Nat.lt_or_ge (max start draft.copied) finish with further | nothing
  · unfold Draft.Drops
    rw [Draft.copied_apply_erase further, Draft.keeps_apply_erase further]
    simp only [unkept, false_or]
    rcases Nat.lt_or_ge index first with before | inside
    · have spared := (drops.spares index before).resolve_left bracket
      omega
    have after := placed.startOf_mono inside
    rcases Nat.lt_or_ge index stop with within | past
    · have covered := drops.covers index within
      omega
    · have spared := Nat.le_trans drops.ends (placed.startOf_mono past)
      omega
  · have same : draft.apply stream.source (.erase start finish) = draft := if_pos nothing
    rw [same]
    refine iff_of_false fresh ?_
    rintro ⟨inside, within⟩
    have covered := drops.covers index within
    have after := placed.startOf_mono inside
    omega

theorem within_erase (even : stream.Even lower draft) {start finish offset : Nat}
    (keeps : (draft.apply stream.source (.erase start finish)).Keeps offset) :
    offset < (draft.apply stream.source (.erase start finish)).copied := by
  rcases Nat.lt_or_ge (max start draft.copied) finish with further | nothing
  · rw [Draft.copied_apply_erase further]
    rcases (Draft.keeps_apply_erase further).mp keeps with before | now
    · have := even.within before
      omega
    · omega
  · have same : draft.apply stream.source (.erase start finish) = draft := if_pos nothing
    rw [same] at keeps ⊢
    exact even.within keeps

theorem erase (nested : stream.Nested) (placed : stream.Placed) (even : stream.Even lower draft)
    {start finish first stop resumed : Nat} (ordered : lower ≤ first)
    (drops : stream.Drops start finish first stop) (balanced : stream.Balanced first stop)
    (resumes : first ≤ resumed)
    (fresh : ∀ {clause last}, stream.SearchedClause clause last → resumed ≤ clause →
      stop ≤ clause) :
    stream.Even resumed (draft.apply stream.source (.erase start finish)) where
  last := by
    rcases Nat.lt_or_ge (max start draft.copied) finish with further | nothing
    · refine ⟨first, stop, balanced, resumes, ?_, ?_, fresh⟩
      · rw [Draft.copied_apply_erase further]
        exact Nat.le_trans drops.ends (placed.startOf_mono (Nat.le_max_right ..))
      · intro index inside before bracket character
        exact (even.drops_iff placed ordered drops character bracket).mpr (.inr ⟨inside, before⟩)
    · have same : draft.apply stream.source (.erase start finish) = draft := if_pos nothing
      obtain ⟨before, after, last⟩ := even.last
      rw [same]
      exact ⟨before, after, last.to_lower placed (Nat.le_trans ordered resumes)⟩
  within := even.within_erase
  paired {opening close} found := by
    obtain ⟨openingCharacter, openingBracket⟩ := nested.bracket found (.inl rfl)
    obtain ⟨closeCharacter, closeBracket⟩ := nested.bracket found (.inr rfl)
    rw [even.drops_iff placed ordered drops openingCharacter openingBracket,
      even.drops_iff placed ordered drops closeCharacter closeBracket, even.paired found,
      balanced.paired found]

theorem insert (placed : stream.Placed) (even : stream.Even lower draft) {anchor : Nat}
    {text : String} (ordered : lower ≤ anchor + 1) :
    stream.Even (anchor + 1)
      (draft.apply stream.source (.insert (stream.stopOf anchor) text)) where
  last := by
    obtain ⟨first, stop, last⟩ := even.last
    have later := last.to_lower placed ordered
    refine ⟨first, stop, later.balanced, later.before, ?_, ?_, later.fresh⟩
    · rw [Draft.copied_apply_insert]
      exact Nat.max_le.mpr ⟨later.reached, Nat.le_trans
        (placed.stopOf_le_startOf (Nat.lt_succ_self anchor)) (placed.startOf_mono
          (Nat.le_max_left ..))⟩
    · intro index inside before bracket character
      exact (Draft.drops_apply_insert ..).mpr (later.dropped inside before bracket character)
  within {offset} keeps := by
    rw [Draft.copied_apply_insert]
    rcases Draft.keeps_apply_insert.mp keeps with before | now
    · have := even.within before
      omega
    · omega
  paired {opening close} found := by
    rw [Draft.drops_apply_insert, Draft.drops_apply_insert]
    exact even.paired found

/-- Tidy edits treat brackets in pairs. -/
theorem applyAll (nested : stream.Nested) (placed : stream.Placed)
    (even : stream.Even lower draft) {edits : List Edit} (tidy : stream.Tidy lower edits upper) :
    stream.Even upper (draft.applyAll stream.source edits) := by
  induction tidy generalizing draft with
  | done ordered =>
    obtain ⟨first, stop, last⟩ := even.last
    exact ⟨⟨first, stop, last.to_lower placed ordered⟩, even.within, even.paired⟩
  | erase ordered drops balanced resumes fresh _ inductionHypothesis =>
    exact inductionHypothesis (even.erase nested placed ordered drops balanced resumes fresh)
  | insert ordered _ inductionHypothesis =>
    exact inductionHypothesis (even.insert placed ordered)

end Even

/-! ## Brackets of the result -/

/-- A token stands in one of the slices that are kept. -/
def KeepsToken (stream : TokenStream) (pieces : List Piece) (index : Nat) : Prop :=
  ∃ start stop, .kept start stop ∈ pieces ∧ start ≤ stream.startOf index ∧
    stream.stopOf index ≤ stop

/-- No part of a token stands in a slice that is kept. -/
def DropsToken (stream : TokenStream) (pieces : List Piece) (index : Nat) : Prop :=
  ∀ start stop, .kept start stop ∈ pieces →
    stop ≤ stream.startOf index ∨ stream.stopOf index ≤ start

/-- Both brackets of every pair are kept or both are dropped. -/
def KeepsPairs (stream : TokenStream) (pieces : List Piece) : Prop :=
  ∀ opening close, stream.closer? opening = some close →
    (stream.KeepsToken pieces opening ∧ stream.KeepsToken pieces close) ∨
      (stream.DropsToken pieces opening ∧ stream.DropsToken pieces close)

/-- Whether a token stands in a piece, as far as the piece is kept. -/
def keptIn (stream : TokenStream) (index : Nat) : Piece → Bool
  | .kept start stop => start ≤ stream.startOf index && stream.stopOf index ≤ stop
  | .generated _ => false

/-- Whether no part of a token stands in a piece, as far as the piece is kept. -/
def absentFrom (stream : TokenStream) (index : Nat) : Piece → Bool
  | .kept start stop => stop ≤ stream.startOf index || stream.stopOf index ≤ start
  | .generated _ => true

instance (pieces : List Piece) (index : Nat) : Decidable (stream.KeepsToken pieces index) :=
  decidable_of_iff (pieces.any (stream.keptIn index) = true) <| by
    rw [List.any_eq_true]
    constructor
    · rintro ⟨kept | generated, member, inside⟩
      · exact ⟨_, _, member, by simpa [keptIn] using inside⟩
      · contradiction
    · rintro ⟨start, stop, member, inside⟩
      exact ⟨_, member, by simpa [keptIn] using inside⟩

instance (pieces : List Piece) (index : Nat) : Decidable (stream.DropsToken pieces index) :=
  decidable_of_iff (pieces.all (stream.absentFrom index) = true) <| by
    rw [List.all_eq_true]
    constructor
    · intro absent start stop member
      simpa [absentFrom] using absent _ member
    · rintro drops (kept | generated) member
      · simpa [absentFrom] using drops _ _ member
      · rfl

theorem lt_size_of_closer? {opening close : Nat} (found : stream.closer? opening = some close) :
    opening < stream.partners.size := by
  have partner := (Option.filter_eq_some_iff.mp found).1
  rw [partner?, Option.join_eq_some_iff] at partner
  exact (Array.getElem?_eq_some_iff.mp partner).1

instance (pieces : List Piece) : Decidable (stream.KeepsPairs pieces) :=
  decidable_of_iff (∀ opening < stream.partners.size,
    ((stream.closer? opening).all fun close =>
      decide ((stream.KeepsToken pieces opening ∧ stream.KeepsToken pieces close) ∨
        (stream.DropsToken pieces opening ∧ stream.DropsToken pieces close))) = true) <| by
    simp only [Option.all_eq_true, decide_eq_true_eq]
    exact ⟨fun all opening close found => all opening (lt_size_of_closer? found) close found,
      fun all opening _ close found => all opening close found⟩

/-- One of the edits erases the tokens from `first` up to `stop`. -/
def Erases (stream : TokenStream) (edits : List Edit) (first stop : Nat) : Prop :=
  ∃ start finish, .erase start finish ∈ edits ∧ stream.Drops start finish first stop

theorem keeps_editedPieces (source : Array Char) (edits : List Edit) (offset : Nat) :
    (∃ start stop, .kept start stop ∈ editedPieces source edits ∧ start ≤ offset ∧ offset < stop) ↔
      (Draft.empty.applyAll source edits).Keeps offset ∨
        ((Draft.empty.applyAll source edits).copied ≤ offset ∧ offset < source.size) := by
  rw [← Draft.keeps_keepTo]
  simp [Draft.Keeps, editedPieces]

section Result

variable {edits : List Edit} {index : Nat}
  (character : stream.stopOf index = stream.startOf index + 1)

include character

/-- A single character is kept unless the edits have dropped it. -/
theorem keepsToken_iff (inside : stream.startOf index < stream.source.size) :
    stream.KeepsToken (editedPieces stream.source edits) index ↔
      ¬(Draft.empty.applyAll stream.source edits).Drops (stream.startOf index) := by
  have kept := keeps_editedPieces stream.source edits (stream.startOf index)
  unfold KeepsToken
  simp only [character, Nat.succ_le_iff]
  rw [kept]
  unfold Draft.Drops
  by_cases keeps : (Draft.empty.applyAll stream.source edits).Keeps (stream.startOf index)
  · simp [keeps]
  · simp only [keeps, false_or, not_false_eq_true, and_true]
    omega

theorem dropsToken_iff :
    stream.DropsToken (editedPieces stream.source edits) index ↔
      ¬stream.KeepsToken (editedPieces stream.source edits) index := by
  unfold DropsToken KeepsToken
  simp only [character]
  constructor
  · rintro dropped ⟨start, stop, member, lower, upper⟩
    rcases dropped start stop member with before | after <;> omega
  · intro notKept start stop member
    by_contra between
    exact notKept ⟨start, stop, member, by omega, by omega⟩

end Result

variable {edits : List Edit}

theorem Nested.startOf_lt (nested : stream.Nested) (placed : stream.Placed)
    {opening close index : Nat} (found : stream.closer? opening = some close)
    (bracket : index = opening ∨ index = close) :
    stream.startOf index < stream.source.size := by
  have character := (nested.bracket found bracket).1
  have bound := placed.stopOf_le index
  omega

/-- Brackets are kept in pairs when the edits have dropped them in pairs. -/
theorem keepsPairs_iff (nested : stream.Nested) (placed : stream.Placed) :
    stream.KeepsPairs (editedPieces stream.source edits) ↔
      ∀ opening close, stream.closer? opening = some close →
        ((Draft.empty.applyAll stream.source edits).Drops (stream.startOf opening) ↔
          (Draft.empty.applyAll stream.source edits).Drops (stream.startOf close)) := by
  refine forall_congr' fun opening => forall_congr' fun close => forall_congr' fun found => ?_
  have openingCharacter := (nested.bracket found (.inl rfl)).1
  have closeCharacter := (nested.bracket found (.inr rfl)).1
  rw [dropsToken_iff openingCharacter, dropsToken_iff closeCharacter,
    keepsToken_iff openingCharacter (nested.startOf_lt placed found (.inl rfl)),
    keepsToken_iff closeCharacter (nested.startOf_lt placed found (.inr rfl))]
  tauto

/-- Tidy edits erase balanced spans only. -/
theorem Tidy.exists_balanced {lower upper start finish : Nat}
    (tidy : stream.Tidy lower edits upper) (member : .erase start finish ∈ edits) :
    ∃ first stop, stream.Drops start finish first stop ∧ stream.Balanced first stop := by
  induction tidy with
  | done => contradiction
  | insert _ _ inductionHypothesis =>
    exact inductionHypothesis ((List.mem_cons.mp member).resolve_left (by simp))
  | erase _ drops balanced _ _ _ inductionHypothesis =>
    rcases List.mem_cons.mp member with same | later
    · cases same
      exact ⟨_, _, drops, balanced⟩
    · exact inductionHypothesis later

theorem not_takesCloser_of_tidy (nested : stream.Nested) (placed : stream.Placed)
    {lower upper first stop : Nat} (tidy : stream.Tidy lower edits upper)
    (erased : stream.Erases edits first stop) : ¬stream.TakesCloser first stop := by
  rintro ⟨opening, close, found, before, inside, within⟩
  obtain ⟨start, finish, member, drops⟩ := erased
  obtain ⟨first', stop', dropsBalanced, balanced⟩ := tidy.exists_balanced member
  obtain ⟨_, openingBracket⟩ := nested.bracket found (.inl rfl)
  obtain ⟨closeCharacter, closeBracket⟩ := nested.bracket found (.inr rfl)
  have spared := (drops.spares opening before).resolve_left openingBracket
  have covered := drops.covers close within
  have reaches := Nat.le_trans drops.reaches (placed.startOf_mono inside)
  have closeWithin : first' ≤ close ∧ close < stop' := by
    constructor
    · by_contra earlier
      have := (dropsBalanced.spares close (by omega)).resolve_left closeBracket
      omega
    · by_contra later
      have := Nat.le_trans dropsBalanced.ends (placed.startOf_mono (Nat.le_of_not_lt later))
      omega
  have openingWithin := (balanced.paired found).mpr closeWithin
  have := Nat.le_trans dropsBalanced.reaches (placed.startOf_mono openingWithin.1)
  have := placed.startOf_le_stopOf opening
  omega

/-- Edits that split a pair drop its closing bracket and not the opening one. -/
theorem not_keepsPairs_of_splits (nested : stream.Nested) (placed : stream.Placed)
    (splits : stream.Splits 0 edits) :
    ¬stream.KeepsPairs (editedPieces stream.source edits) := by
  rw [keepsPairs_iff nested placed]
  intro paired
  obtain ⟨before, start, finish, after, first, stop, rfl, tidy, drops, clause, opening, close,
    found, opened, inside, within⟩ := splits
  have even := (Even.of_empty stream).applyAll nested placed tidy
  obtain ⟨_, dropped, last⟩ := even.last
  obtain ⟨openingCharacter, openingBracket⟩ := nested.bracket found (.inl rfl)
  obtain ⟨closeCharacter, closeBracket⟩ := nested.bracket found (.inr rfl)
  have openingDropped :=
    even.drops_iff placed (Nat.le_refl first) drops openingCharacter openingBracket
  have closeDropped := even.drops_iff placed (Nat.le_refl first) drops closeCharacter closeBracket
  have unreached : ¬(Draft.empty.applyAll stream.source before).Drops (stream.startOf close) := by
    rintro ⟨passed, _⟩
    -- The clause starts after all that was dropped before it.
    have fresh : max first dropped = first :=
      Nat.max_eq_left (last.fresh clause (Nat.le_refl first))
    have reached := last.reached
    rw [fresh] at reached
    have inside := placed.startOf_mono inside
    omega
  have ordered : stream.startOf opening < stream.startOf close := by
    have := placed.stopOf_le_startOf (lt_of_closer?_eq_some found)
    omega
  have gone := closeDropped.mpr (.inr ⟨inside, within⟩)
  have stays : ¬((Draft.empty.applyAll stream.source before).apply stream.source
      (.erase start finish)).Drops (stream.startOf opening) := by
    rw [openingDropped, even.paired found]
    rintro (early | ⟨late, _⟩)
    · exact unreached early
    · omega
  have final := paired opening close found
  rw [Draft.applyAll_append_cons] at final
  rw [Draft.drops_applyAll (Nat.lt_trans ordered gone.1), Draft.drops_applyAll gone.1] at final
  exact stays (final.mpr gone)

/-- Brackets are kept in pairs exactly when no searched clause that is erased takes the closing
bracket of a pair around it. -/
theorem keepsPairs_iff_of_outcome (nested : stream.Nested) (placed : stream.Placed) {upper : Nat}
    (outcome : stream.Outcome 0 edits upper) :
    stream.KeepsPairs (editedPieces stream.source edits) ↔
      ∀ first stop, stream.SearchedClause first stop → stream.Erases edits first stop →
        ¬stream.TakesCloser first stop := by
  cases outcome with
  | tidy tidy _ =>
    have even := (Even.of_empty stream).applyAll nested placed tidy
    exact iff_of_true ((keepsPairs_iff nested placed).mpr fun _ _ found => even.paired found)
      fun first stop _ erased => not_takesCloser_of_tidy nested placed tidy erased
  | splits splits =>
    refine iff_of_false (not_keepsPairs_of_splits nested placed splits) fun none => ?_
    obtain ⟨before, start, finish, after, first, stop, rfl, _, drops, clause, takes⟩ := splits
    exact none first stop clause ⟨start, finish, by simp, drops⟩ takes

end TokenStream

end Playground
