import Playground.Proofs.Erasure.Regular

/-!
# The order of edits

`Tidy` edits drop balanced spans of tokens one after another; `Splits` edits are tidy up to the
erasure of a searched clause that takes the closing bracket of a pair that opens before it.
`Outcome` is what a walker of regular syntax achieves: its edits are tidy and it passes a
balanced span, or they split a pair. Outcomes compose (`Outcome.append`), so each walker is
judged by its parts.
-/

namespace Playground.TokenStream

variable {stream : TokenStream}

/-- Erasing from one offset to another drops the tokens from `first` up to `stop`, and before
them neutral tokens at most. -/
structure Drops (stream : TokenStream) (start finish first stop : Nat) : Prop where
  nonempty : first < stop
  reaches : start ≤ stream.startOf first
  covers : ∀ index < stop, stream.stopOf index ≤ finish
  ends : finish ≤ stream.startOf stop
  spares : ∀ index < first, stream.IsNeutral index ∨ stream.stopOf index ≤ start

/-- The edits drop balanced spans between two indices, one after another. The walk may resume
inside a span that it has dropped, where no searched clause starts in the rest of it. -/
inductive Tidy (stream : TokenStream) : Nat → List Edit → Nat → Prop where
  | done {lower upper} (ordered : lower ≤ upper) : Tidy stream lower [] upper
  | erase {lower first stop resumed upper start finish rest} (ordered : lower ≤ first)
      (drops : stream.Drops start finish first stop) (balanced : stream.Balanced first stop)
      (resumes : first ≤ resumed)
      (fresh : ∀ {clause last}, stream.SearchedClause clause last → resumed ≤ clause →
        stop ≤ clause)
      (following : Tidy stream resumed rest upper) :
      Tidy stream lower (.erase start finish :: rest) upper
  | insert {lower anchor upper text rest} (ordered : lower ≤ anchor + 1)
      (following : Tidy stream (anchor + 1) rest upper) :
      Tidy stream lower (.insert (stream.stopOf anchor) text :: rest) upper

/-- The edits are tidy up to that of a clause that takes a closing bracket from around it. -/
def Splits (stream : TokenStream) (lower : Nat) (edits : List Edit) : Prop :=
  ∃ before start finish after first stop, edits = before ++ .erase start finish :: after ∧
    stream.Tidy lower before first ∧ stream.Drops start finish first stop ∧
      stream.SearchedClause first stop ∧ stream.TakesCloser first stop

/-- The edits are tidy or they split a pair. -/
def Orderly (stream : TokenStream) (lower : Nat) (edits : List Edit) (upper : Nat) : Prop :=
  stream.Tidy lower edits upper ∨ stream.Splits lower edits

/-- What the edits of a walk from an index to another achieve. -/
inductive Outcome (stream : TokenStream) (lower : Nat) (edits : List Edit) (upper : Nat) :
    Prop where
  | tidy (tidy : stream.Tidy lower edits upper) (balanced : stream.Balanced lower upper)
  | splits (splits : stream.Splits lower edits)

namespace Tidy

variable {lower middle upper : Nat} {edits first second : List Edit}

theorem from_lower {earlier : Nat} (tidy : stream.Tidy lower edits upper)
    (before : earlier ≤ lower) : stream.Tidy earlier edits upper := by
  cases tidy with
  | done ordered => exact .done (Nat.le_trans before ordered)
  | erase ordered drops balanced resumes fresh following =>
    exact .erase (Nat.le_trans before ordered) drops balanced resumes fresh following
  | insert ordered following => exact .insert (Nat.le_trans before ordered) following

theorem append (one : stream.Tidy lower first middle) (other : stream.Tidy middle second upper) :
    stream.Tidy lower (first ++ second) upper := by
  induction one with
  | done ordered => exact other.from_lower ordered
  | erase ordered drops balanced resumes fresh _ inductionHypothesis =>
    exact .erase ordered drops balanced resumes fresh (inductionHypothesis other)
  | insert ordered _ inductionHypothesis => exact .insert ordered (inductionHypothesis other)

theorem to_upper {later : Nat} (tidy : stream.Tidy lower edits upper) (after : upper ≤ later) :
    stream.Tidy lower edits later := by
  simpa using tidy.append (.done after)

end Tidy

namespace Splits

variable {lower middle upper : Nat} {edits first second : List Edit}

theorem from_lower {earlier : Nat} (splits : stream.Splits lower edits)
    (before : earlier ≤ lower) : stream.Splits earlier edits := by
  obtain ⟨head, start, finish, after, first, stop, shape, tidy, fate⟩ := splits
  exact ⟨head, start, finish, after, first, stop, shape, tidy.from_lower before, fate⟩

theorem append_right (splits : stream.Splits lower first) (second : List Edit) :
    stream.Splits lower (first ++ second) := by
  obtain ⟨head, start, finish, after, index, stop, rfl, fate⟩ := splits
  exact ⟨head, start, finish, after ++ second, index, stop, by simp, fate⟩

theorem append_left (tidy : stream.Tidy lower first middle) (splits : stream.Splits middle second) :
    stream.Splits lower (first ++ second) := by
  obtain ⟨head, start, finish, after, index, stop, rfl, tidyHead, fate⟩ := splits
  exact ⟨first ++ head, start, finish, after, index, stop, by simp, tidy.append tidyHead, fate⟩

end Splits

namespace Orderly

variable {lower middle upper : Nat} {edits first second : List Edit}

theorem append (one : stream.Orderly lower first middle)
    (other : stream.Orderly middle second upper) : stream.Orderly lower (first ++ second) upper := by
  rcases one with tidy | splits
  · rcases other with tidySecond | splits
    · exact .inl (tidy.append tidySecond)
    · exact .inr (splits.append_left tidy)
  · exact .inr (splits.append_right second)

theorem widen {earlier later : Nat} (orderly : stream.Orderly lower edits upper)
    (before : earlier ≤ lower) (after : upper ≤ later) : stream.Orderly earlier edits later :=
  orderly.imp (fun tidy => (tidy.from_lower before).to_upper after) (·.from_lower before)

/-- Orderly edits on a balanced span. -/
theorem outcome (orderly : stream.Orderly lower edits upper)
    (balanced : stream.Balanced lower upper) : stream.Outcome lower edits upper :=
  orderly.elim (.tidy · balanced) .splits

end Orderly

namespace Outcome

variable {lower middle upper : Nat} {edits first second : List Edit}

theorem orderly (outcome : stream.Outcome lower edits upper) :
    stream.Orderly lower edits upper := by
  cases outcome with
  | tidy tidy _ => exact .inl tidy
  | splits splits => exact .inr splits

theorem nothing (balanced : stream.Balanced lower upper) : stream.Outcome lower [] upper :=
  .tidy (.done balanced.ordered) balanced

/-- One outcome after another; the second may rely on the balance of what the first passed. -/
theorem append (one : stream.Outcome lower first middle)
    (other : stream.Balanced lower middle → stream.Outcome middle second upper) :
    stream.Outcome lower (first ++ second) upper := by
  cases one with
  | splits splits => exact .splits (splits.append_right second)
  | tidy tidy balanced =>
    cases other balanced with
    | tidy tidySecond balancedSecond =>
      exact .tidy (tidy.append tidySecond) (balanced.trans balancedSecond)
    | splits splits => exact .splits (splits.append_left tidy)

/-- Further tokens are passed after the edits. -/
theorem extend (one : stream.Outcome lower edits middle)
    (passed : stream.Balanced lower middle → stream.Balanced middle upper) :
    stream.Outcome lower edits upper := by
  cases one with
  | splits splits => exact .splits splits
  | tidy tidy balanced =>
    have further := passed balanced
    exact .tidy (tidy.to_upper further.ordered) (balanced.trans further)

/-- Further tokens are passed before the edits. -/
theorem after (passed : stream.Balanced lower middle) (one : stream.Outcome middle edits upper) :
    stream.Outcome lower edits upper := by
  cases one with
  | splits splits => exact .splits (splits.from_lower passed.ordered)
  | tidy tidy balanced => exact .tidy (tidy.from_lower passed.ordered) (passed.trans balanced)

/-- Edits that end in a balanced span are the outcome of that span. -/
theorem within {later : Nat} (one : stream.Outcome lower edits middle)
    (whole : stream.Balanced lower later)
    (ends : stream.Balanced lower middle → middle ≤ later) : stream.Outcome lower edits later := by
  cases one with
  | splits splits => exact .splits splits
  | tidy tidy balanced => exact .tidy (tidy.to_upper (ends balanced)) whole

/-- What happens inside brackets or a template is the outcome of the whole. -/
theorem inside {opening close next : Nat} (whole : stream.Balanced opening (close + 1))
    (inner : stream.Outcome (opening + 1) edits next)
    (within : stream.Balanced (opening + 1) next → next ≤ close) :
    stream.Outcome opening edits (close + 1) := by
  cases inner with
  | splits splits => exact .splits (splits.from_lower (Nat.le_succ opening))
  | tidy tidy balanced =>
    exact .tidy ((tidy.from_lower (Nat.le_succ opening)).to_upper
      (Nat.le_succ_of_le (within balanced))) whole

theorem inside_pair (nested : stream.Nested) {opening close next : Nat}
    (found : stream.closer? opening = some close)
    (inner : stream.Outcome (opening + 1) edits next) :
    stream.Outcome opening edits (close + 1) :=
  inner.inside (.pair nested found) fun balanced =>
    balanced.le_close found (Nat.lt_succ_self opening) (lt_of_closer?_eq_some found)

/-- One erasure of a balanced span. -/
theorem erase {start finish stop : Nat} (drops : stream.Drops start finish lower stop)
    (balanced : stream.Balanced lower stop) : stream.Outcome lower [.erase start finish] stop :=
  .tidy (.erase (Nat.le_refl lower) drops balanced balanced.ordered (fun _ after => after)
    (.done (Nat.le_refl stop))) balanced

/-- The erasure of a searched clause. -/
theorem clause {start finish stop : Nat} (drops : stream.Drops start finish lower stop)
    (searched : stream.SearchedClause lower stop)
    (either : stream.Balanced lower stop ∨ stream.TakesCloser lower stop) :
    stream.Outcome lower [.erase start finish] stop := by
  rcases either with balanced | takes
  · exact .erase drops balanced
  · exact .splits ⟨[], start, finish, [], lower, stop, rfl, .done (Nat.le_refl lower), drops,
      searched, takes⟩

end Outcome

/-! ## What the erasures of a walker drop -/

theorem declarationStart_le (keyword : Nat) : stream.declarationStart keyword ≤ keyword := by
  fun_induction stream.declarationStart keyword with
  | case1 => exact Nat.le_refl 0
  | case2 index _ inductionHypothesis => exact Nat.le_succ_of_le inductionHypothesis
  | case3 => exact Nat.le_refl _

/-- The modifiers of a declaration are words. -/
theorem isNeutral_of_declarationStart_le {keyword index : Nat}
    (modifier : stream.declarationStart keyword ≤ index) (before : index < keyword) :
    stream.IsNeutral index := by
  fun_induction stream.declarationStart keyword with
  | case1 => contradiction
  | case2 keyword listed inductionHypothesis =>
    rcases Nat.eq_or_lt_of_le (Nat.le_of_lt_succ before) with rfl | earlier
    · exact isNeutral_of_kind? (beq_iff_eq.mp (Bool.and_eq_true_iff.mp listed).1) (.inl rfl)
    · exact inductionHypothesis modifier earlier
  | case3 => omega

section Erasures

variable {first stop : Nat} (placed : stream.Placed)

include placed

theorem drops_attached (ordered : first < stop) :
    ∃ start, stream.attached first stop = .erase start (stream.stopOf (stop - 1)) ∧
      stream.Drops start (stream.stopOf (stop - 1)) first stop := by
  refine ⟨_, rfl, ordered, ?_, fun index before => placed.stopOf_mono (by omega),
    placed.stopOf_le_startOf (by omega), fun index before => .inr ?_⟩
  · split
    · exact Nat.le_refl _
    · exact placed.stopOf_le_startOf (by omega)
  · rw [if_neg (by omega)]
    exact placed.stopOf_mono (by omega)

theorem drops_whole (ordered : first < stop) :
    stream.Drops (stream.startOf first) (stream.stopOf (stop - 1)) first stop where
  nonempty := ordered
  reaches := Nat.le_refl _
  covers _ before := placed.stopOf_mono (by omega)
  ends := placed.stopOf_le_startOf (by omega)
  spares _ before := .inr (placed.stopOf_le_startOf before)

/-- An erasure up to the start of a token drops the blanks before it as well. -/
theorem drops_leading (ordered : first < stop) :
    stream.Drops (stream.startOf first) (stream.startOf stop) first stop where
  nonempty := ordered
  reaches := Nat.le_refl _
  covers _ before := placed.stopOf_le_startOf before
  ends := Nat.le_refl _
  spares _ before := .inr (placed.stopOf_le_startOf before)

/-- A declaration is dropped with the modifiers before its keyword. -/
theorem drops_declaration (ordered : first < stop) :
    stream.Drops (stream.startOf (stream.declarationStart first)) (stream.stopOf (stop - 1)) first
      stop where
  nonempty := ordered
  reaches := placed.startOf_mono (declarationStart_le first)
  covers _ before := placed.stopOf_mono (by omega)
  ends := placed.stopOf_le_startOf (by omega)
  spares index before := by
    rcases Nat.lt_or_ge index (stream.declarationStart first) with earlier | modifier
    · exact .inr (placed.stopOf_le_startOf earlier)
    · exact .inl (isNeutral_of_declarationStart_le modifier before)

end Erasures

end Playground.TokenStream
