import Mathlib.Data.Finset.Dedup
import Mathlib.Data.Finset.Card
import Mathlib.Data.List.Induction
import Playground.Samples

/-!
# Buffers are a map in insertion order

Buffers are a list of entries in which a role is searched for from the front. `LastSet` and the
roles of a list of changes say, without the list, what the buffers should hold after the changes.
Whatever they are made from and whatever is set, they hold just that (`insertionOrdered_of_start`):
one change puts its role at the end or leaves the roles as they are (`roles_set`), and is seen
under its own role only (`get?_set`).
-/

namespace Playground.Buffers

open Script (Source)

/-- The roles that were set, in the order of the buffers. -/
def roles (buffers : Buffers) : List Role :=
  buffers.entries.map Prod.fst

/-- Sets sources one after another. -/
def setAll (buffers : Buffers) (changes : List (Role × Source)) : Buffers :=
  changes.foldl (fun held change => held.set change.1 change.2) buffers

/-! ## What changes leave -/

/-- A role was set to a source, and not again. -/
def LastSet (changes : List (Role × Source)) (role : Role) (source : Source) : Prop :=
  ∃ earlier later, changes = earlier ++ (role, source) :: later ∧ role ∉ later.map Prod.fst

/-- The text that a role was last set to, which is empty if it was never set. -/
inductive LastText (changes : List (Role × Source)) (role : Role) : String → Prop where
  | set {source} (last : LastSet changes role source) : LastText changes role source.plainText
  | unset (never : role ∉ changes.map Prod.fst) : LastText changes role ""

/-- Buffers hold what a list of changes has left, the oldest change first. -/
structure InsertionOrdered (changes : List (Role × Source)) (buffers : Buffers) : Prop where
  distinct : buffers.roles.Nodup
  /-- A role has the source that it was last set to. -/
  latest : ∀ role source, buffers.get? role = some source ↔ LastSet changes role source
  unset : ∀ role, buffers.get? role = none ↔ role ∉ changes.map Prod.fst
  /-- The roles stand in the order in which they were first set. -/
  ordered : buffers.roles = (changes.map Prod.fst).eraseDups
  size : buffers.size = (changes.map Prod.fst).toFinset.card
  /-- Setting a role changes the source and the place of no other role. -/
  others : ∀ role source other, other ≠ role →
    (buffers.set role source).get? other = buffers.get? other ∧
      (buffers.set role source).roles.idxOf? other = buffers.roles.idxOf? other
  layout : LastText changes .layout buffers.page.layout
  style : LastText changes .style buffers.page.style
  behavior : LastText changes .behavior buffers.page.behavior

/-- What buffers are made from. -/
inductive Start where
  | empty
  | program (source : Source)
  | page (sources : PageSources)
  | sample (language : Language)

/-- The buffers to start from. -/
def Start.buffers : Start → Buffers
  | .empty => .empty
  | .program source => .ofProgram source
  | .page sources => .ofPage sources
  | .sample language => language.sample

/-- The sources of a page as changes, layout first. -/
def pageChanges (sources : PageSources) : List (Role × Source) :=
  [(.layout, .text sources.layout), (.style, .text sources.style),
    (.behavior, .text sources.behavior)]

/-- The changes that a start counts for. -/
def Start.changes : Start → List (Role × Source)
  | .empty => []
  | .program source => [(.program, source)]
  | .page sources => pageChanges sources
  | .sample .html => pageChanges ⟨Sample.layout, Sample.style, Sample.behavior⟩
  | .sample .javaScript => [(.program, .text Sample.javaScript)]
  | .sample .typeScript => [(.program, .text Sample.typeScript)]
  | .sample .python => [(.program, .text Sample.python)]
  | .sample .cpp => [(.program, .text Sample.cpp)]
  | .sample .java => [(.program, .text Sample.java)]

/-! ## One change -/

section OneChange

variable (buffers : Buffers) (role other : Role) (source : Source)

theorem map_fst_setIn (entries : List (Role × Source)) : (setIn role source entries).map Prod.fst =
    if role ∈ entries.map Prod.fst then entries.map Prod.fst
    else entries.map Prod.fst ++ [role] := by
  induction entries with
  | nil => rfl
  | cons entry rest inductionHypothesis =>
    by_cases same : entry.1 = role
    · simp [setIn, same]
    · simp only [setIn, same, Ne.symm same, if_false, List.map_cons, List.mem_cons, false_or,
        inductionHypothesis]
      rw [apply_ite (entry.1 :: ·), List.cons_append]

/-- A role that is new stands last, and a role that is not leaves all in their places. -/
theorem roles_set : (buffers.set role source).roles =
    if role ∈ buffers.roles then buffers.roles else buffers.roles ++ [role] :=
  map_fst_setIn role source buffers.entries

/-- A change is seen under its own role only. -/
theorem get?_set : (buffers.set role source).get? other =
    if other = role then some source else buffers.get? other := by
  obtain ⟨entries⟩ := buffers
  simp only [get?, set]
  induction entries with
  | nil =>
    by_cases same : other = role
    · simp [setIn, same]
    · simp [setIn, same, Ne.symm same]
  | cons entry rest inductionHypothesis =>
    obtain ⟨first, held⟩ := entry
    by_cases replaced : first = role
    · subst replaced
      by_cases same : other = first
      · simp [setIn, same]
      · simp [setIn, same, Ne.symm same]
    · by_cases here : first = other
      · subst here
        simp [setIn, replaced]
      · simpa [setIn, replaced, here] using inductionHypothesis

theorem get?_eq_none_iff : buffers.get? role = none ↔ role ∉ buffers.roles := by
  simp only [get?, roles, Option.map_eq_none_iff, List.find?_eq_none, List.mem_map, not_exists,
    not_and, beq_iff_eq]

theorem nodup_set (distinct : buffers.roles.Nodup) : (buffers.set role source).roles.Nodup := by
  rw [roles_set]
  split
  · exact distinct
  · rename_i new
    refine List.nodup_append.mpr ⟨distinct, List.nodup_singleton role, ?_⟩
    rintro earlier member last here rfl
    exact new (List.mem_singleton.mp here ▸ member)

/-- A further role at the end moves none of the others. -/
theorem idxOf?_set (different : other ≠ role) :
    (buffers.set role source).roles.idxOf? other = buffers.roles.idxOf? other := by
  rw [roles_set]
  split
  · rfl
  · induction buffers.roles with
    | nil => simp [List.idxOf?_cons, different.symm]
    | cons first rest inductionHypothesis => simp [List.idxOf?_cons, inductionHypothesis]

end OneChange

/-! ## All changes -/

section AllChanges

variable (changes : List (Role × Source)) (role : Role) (source : Source)

theorem setAll_concat (buffers : Buffers) (change : Role × Source) :
    buffers.setAll (changes ++ [change]) = (buffers.setAll changes).set change.1 change.2 := by
  simp only [setAll, List.foldl_append, List.foldl_cons, List.foldl_nil]

/-- The last change decides about its role, and the earlier ones about the others. -/
theorem lastSet_concat_iff (change : Role × Source) : LastSet (changes ++ [change]) role source ↔
    if role = change.1 then source = change.2 else LastSet changes role source := by
  obtain ⟨last, lastSource⟩ := change
  constructor
  · rintro ⟨earlier, later, shape, never⟩
    rcases List.eq_nil_or_concat later with rfl | ⟨between, final, rfl⟩
    · obtain ⟨-, same⟩ := List.append_inj' shape rfl
      cases same
      rw [if_pos rfl]
    · rw [List.concat_eq_append, ← List.cons_append, ← List.append_assoc] at shape
      obtain ⟨rfl, same⟩ := List.append_inj' shape rfl
      cases same
      simp only [List.concat_eq_append, List.map_append, List.mem_append, List.map_cons,
        List.map_nil, List.mem_singleton, not_or] at never
      rw [if_neg never.2]
      exact ⟨earlier, between, rfl, never.1⟩
  · split
    · rintro rfl
      subst ‹role = last›
      exact ⟨changes, [], rfl, List.not_mem_nil⟩
    · rintro ⟨earlier, later, rfl, never⟩
      refine ⟨earlier, later ++ [(last, lastSource)], by simp, ?_⟩
      rw [List.map_append, List.mem_append, List.map_singleton, List.mem_singleton]
      exact not_or.mpr ⟨never, ‹_›⟩

theorem roles_setAll : (empty.setAll changes).roles = (changes.map Prod.fst).eraseDups := by
  induction changes using List.reverseRecOn with
  | nil => rfl
  | append_singleton earlier last inductionHypothesis =>
    rw [setAll_concat, roles_set, List.map_append, List.eraseDups_append, inductionHypothesis]
    by_cases known : last.1 ∈ earlier.map Prod.fst
    · rw [if_pos (List.mem_eraseDups.mpr known)]
      simp [List.removeAll, known]
    · rw [if_neg (mt List.mem_eraseDups.mp known)]
      simp [List.removeAll, known, List.eraseDups_cons]

theorem get?_setAll : (empty.setAll changes).get? role = some source ↔
    LastSet changes role source := by
  induction changes using List.reverseRecOn with
  | nil => simp [setAll, empty, get?, LastSet]
  | append_singleton earlier last inductionHypothesis =>
    rw [setAll_concat, get?_set, lastSet_concat_iff]
    split
    · rw [Option.some.injEq, eq_comm]
    · exact inductionHypothesis

theorem nodup_setAll : (empty.setAll changes).roles.Nodup := by
  induction changes using List.reverseRecOn with
  | nil => exact List.nodup_nil
  | append_singleton earlier last inductionHypothesis =>
    rw [setAll_concat]
    exact nodup_set _ _ _ inductionHypothesis

theorem get?_setAll_eq_none_iff : (empty.setAll changes).get? role = none ↔
    role ∉ changes.map Prod.fst := by
  rw [get?_eq_none_iff, roles_setAll, List.mem_eraseDups]

theorem lastText_setAll : LastText changes role ((empty.setAll changes).text role) := by
  unfold text Buffers.source
  cases held : (empty.setAll changes).get? role with
  | none => exact .unset ((get?_setAll_eq_none_iff changes role).mp held)
  | some source => exact .set ((get?_setAll changes role source).mp held)

theorem size_setAll : (empty.setAll changes).size = (changes.map Prod.fst).toFinset.card := by
  have length : (empty.setAll changes).size = (empty.setAll changes).roles.length :=
    (List.length_map _).symm
  rw [length, ← List.toFinset_card_of_nodup (nodup_setAll changes), roles_setAll]
  congr 1
  ext role
  simp only [List.mem_toFinset, List.mem_eraseDups]

theorem insertionOrdered_setAll : InsertionOrdered changes (empty.setAll changes) where
  distinct := nodup_setAll changes
  latest := get?_setAll changes
  unset := get?_setAll_eq_none_iff changes
  ordered := roles_setAll changes
  size := size_setAll changes
  others := fun role source other different =>
    ⟨by rw [get?_set, if_neg different], idxOf?_set _ role other source different⟩
  layout := lastText_setAll changes .layout
  style := lastText_setAll changes .style
  behavior := lastText_setAll changes .behavior

end AllChanges

/-- What buffers are made from are empty buffers after a few changes. -/
theorem Start.buffers_eq (start : Start) : start.buffers = Buffers.empty.setAll start.changes := by
  rcases start with _ | _ | _ | (_ | _ | _ | _ | _ | _) <;> rfl

/-- Buffers hold the last source of each role, in the order in which the roles were first set,
whatever they are made from and whatever is set. -/
theorem insertionOrdered_of_start (start : Start) (changes : List (Role × Source)) :
    InsertionOrdered (start.changes ++ changes) (start.buffers.setAll changes) := by
  have joined : start.buffers.setAll changes = empty.setAll (start.changes ++ changes) := by
    rw [start.buffers_eq, setAll, setAll, setAll, List.foldl_append]
  rw [joined]
  exact insertionOrdered_setAll _

end Playground.Buffers
