import Playground.Proofs.Erasure.BracketFate
import Playground.Proofs.Erasure.Juxtaposition
import Playground.Proofs.Erasure.Provenance
import Playground.Proofs.Erasure.Visits.Constructors

/-!
# Parameter properties are assigned

A constructor with parameter properties assigns each of them once, in the order of the parameters
and directly behind one token: its opening brace, the semicolon of the call of the base
constructor, or the parenthesis of a call without a semicolon (`eraseTypes_assigns_properties`).
In the last case nothing ends the statement of the call (`eraseTypes_of_unendedCall`).
-/

namespace Playground

/-- Where an edit ends. -/
def Edit.stop : Edit → Nat
  | .erase _ stop | .insert stop _ => stop
  | .replace start stop _ => max start stop

/-- An edit ends before the place where another inserts text. -/
def Edit.EndsBefore (earlier : Edit) : Edit → Prop
  | .insert offset _ => earlier.stop < offset
  | .erase .. | .replace .. => True

instance (earlier : Edit) : (later : Edit) → Decidable (earlier.EndsBefore later)
  | .insert offset _ => inferInstanceAs (Decidable (earlier.stop < offset))
  | .erase .. | .replace .. => inferInstanceAs (Decidable True)

/-- Whether an edit inserts text at an offset. -/
def Edit.insertsAt (offset : Nat) : Edit → Bool
  | .insert place _ => place == offset
  | .erase .. | .replace .. => false

theorem filter_insertsAt_eq_nil {edits : List Edit} {offset : Nat}
    (elsewhere : ∀ place text, .insert place text ∈ edits → place ≠ offset) :
    edits.filter (Edit.insertsAt offset) = [] := by
  refine List.filter_eq_nil_iff.mpr fun edit member inserts => ?_
  cases edit with
  | insert place text => exact elsewhere place text member (beq_iff_eq.mp inserts)
  | erase | replace => contradiction

namespace Draft

variable {source : Array Char} {draft : Draft} {bound : Nat} {edits : List Edit}

theorem copied_apply_le {edit : Edit} (reached : draft.copied ≤ bound) (ends : edit.stop ≤ bound) :
    (draft.apply source edit).copied ≤ bound := by
  cases edit with
  | erase start finish =>
    rcases Nat.lt_or_ge (max start draft.copied) finish with further | nothing
    · rw [copied_apply_erase further]
      exact ends
    · have same : draft.apply source (.erase start finish) = draft := if_pos nothing
      rwa [same]
  | insert offset text =>
    rw [copied_apply_insert]
    exact Nat.max_le.mpr ⟨reached, ends⟩
  | replace start finish text =>
    obtain ⟨begins, ends⟩ := Nat.max_le.mp ends
    simp only [apply, copied_dropTo, copied_write, copied_keepTo]
    omega

/-- A draft does not go further than its edits. -/
theorem copied_applyAll_le (reached : draft.copied ≤ bound)
    (ends : ∀ edit ∈ edits, edit.stop ≤ bound) : (draft.applyAll source edits).copied ≤ bound := by
  induction edits generalizing draft with
  | nil => exact reached
  | cons edit edits inductionHypothesis =>
    exact inductionHypothesis (copied_apply_le reached (ends edit List.mem_cons_self))
      fun later member => ends later (List.mem_cons_of_mem _ member)

end Draft

/-- Text that is inserted stands directly behind what is kept before its place. -/
theorem exists_editedPieces_of_insert (source : Array Char) {before : List Edit} {offset : Nat}
    (text : String) (positive : 0 < offset) (ends : ∀ edit ∈ before, edit.stop < offset)
    (after : List Edit) : ∃ front start back, start < offset ∧
      editedPieces source (before ++ .insert offset text :: after) =
        front ++ .kept start offset :: .generated text.toList :: back := by
  let draft := Draft.empty.applyAll source before
  have reached : draft.copied < offset := by
    have bound : draft.copied ≤ offset - 1 :=
      Draft.copied_applyAll_le (Nat.zero_le _) fun edit member =>
        Nat.le_sub_one_of_lt (ends edit member)
    omega
  have inserted : (draft.apply source (.insert offset text)).pieces =
      .generated text.toList :: .kept draft.copied offset :: draft.pieces := by
    simp only [Draft.apply, Draft.keepTo, if_pos reached, Draft.write]
  obtain ⟨newer, stays⟩ :=
    ((draft.apply source (.insert offset text)).suffix_applyAll source after).trans
      (Draft.suffix_keepTo _ source.size)
  refine ⟨draft.pieces.reverse, draft.copied, newer.reverse, reached, ?_⟩
  rw [editedPieces, Draft.applyAll_append_cons, ← stays, inserted]
  simp

namespace TokenStream

variable {stream : TokenStream} {opening close anchor : Nat} {derived : Bool} {edits : List Edit}

/-- Properties are assigned behind a single character. -/
theorem AssignmentPlace.stopOf_eq (place : stream.AssignmentPlace opening close derived anchor)
    (nested : stream.Nested) (closes : stream.closer? opening = some close) :
    stream.stopOf anchor = stream.startOf anchor + 1 := by
  cases place with
  | brace => exact (nested.bracket closes (.inl rfl)).1
  | semicolon _ _ _ _ ended => exact stopOf_eq_of_is ended
  | parenthesis _ _ _ listEnds => exact (nested.bracket listEnds (.inr rfl)).1

/-- A text is inserted once behind a token, which is kept. -/
structure WritesBehind (stream : TokenStream) (edits : List Edit) (anchor : Nat) (text : String) :
    Prop where
  once : edits.filter (Edit.insertsAt (stream.stopOf anchor)) =
    [.insert (stream.stopOf anchor) text]
  written : ∃ front start back, start ≤ stream.startOf anchor ∧
    editedPieces stream.source edits =
      front ++ .kept start (stream.stopOf anchor) :: .generated text.toList :: back

/-- Where edits end before the insertions behind them, an insertion writes its text once. -/
theorem writesBehind_of_mem {text : String} (apart : edits.Pairwise Edit.EndsBefore)
    (character : stream.stopOf anchor = stream.startOf anchor + 1)
    (member : .insert (stream.stopOf anchor) text ∈ edits) :
    stream.WritesBehind edits anchor text := by
  obtain ⟨before, after, rfl⟩ := List.append_of_mem member
  obtain ⟨_, following, earlier⟩ := List.pairwise_append.mp apart
  have ends : ∀ edit ∈ before, edit.stop < stream.stopOf anchor := fun edit listed =>
    earlier edit listed _ List.mem_cons_self
  have behind := (List.pairwise_cons.mp following).1
  constructor
  · have noneBefore : before.filter (Edit.insertsAt (stream.stopOf anchor)) = [] :=
      filter_insertsAt_eq_nil fun place _ listed => Nat.ne_of_lt (ends _ listed)
    have noneAfter : after.filter (Edit.insertsAt (stream.stopOf anchor)) = [] :=
      filter_insertsAt_eq_nil fun place _ listed => Nat.ne_of_gt (behind _ listed)
    simp [noneBefore, noneAfter, Edit.insertsAt]
  · obtain ⟨front, start, back, kept, pieces⟩ :=
      exists_editedPieces_of_insert stream.source text (by omega) ends after
    exact ⟨front, start, back, by omega, pieces⟩

end TokenStream

open TokenStream

/-- A constructor with parameter properties assigns them once, in the order of the parameters and
directly behind its opening brace or the call of the base constructor, if the edits of the program
end before the insertions behind them. -/
theorem eraseTypes_assigns_properties {source output : String} {stream : TokenStream}
    {keyword name finish stop property : Nat} {derived : Bool} {edits : List Edit}
    (read : ofSource source.toList = .ok stream) (erased : eraseTypes source = .ok output)
    (constructs : stream.HasConstructor keyword derived name finish stop)
    (declares : stream.DeclaresProperty (stream.walkBehind keyword) (name + 2) finish property)
    (found : stream.edits = .ok edits) (apart : edits.Pairwise Edit.EndsBefore) :
    output.toList = (editedPieces stream.source edits).flatMap (Piece.characters stream.source) ∧
      ∃ names anchor, stream.ListsProperties (stream.walkBehind keyword) (name + 2) finish names ∧
        stream.AssignmentPlace (finish + 1) stop derived anchor ∧
          stream.WritesBehind edits anchor (propertyAssignments names) := by
  have nested := nested_of_ofSource read
  have placed := placed_of_ofSource read
  obtain ⟨same, foundSame, written⟩ := (eraseTypes_eq_ok_iff read).mp erased
  obtain rfl : edits = same := Except.ok.inj (found.symm.trans foundSame)
  obtain ⟨whole, walked, result⟩ := bind_eq_ok_iff.mp found
  cases result
  obtain ⟨names, anchor, listed, place, member⟩ :=
    constructs.exists_assignments nested placed walked declares
  have bodyEnds : stream.closer? (finish + 1) = some stop := by
    obtain ⟨_, _, _, _, _, _, one⟩ := constructs
    exact one.bodyEnds
  exact ⟨written, names, anchor, listed, place,
    writesBehind_of_mem apart (place.stopOf_eq nested bodyEnds) member⟩

/-- A class in a block, whose constructor calls that of the base behind a declaration. -/
theorem eraseTypes_of_endedCall : ∃ stream edits,
    ofSource ("\x7b class A extends B \x7b y = 1; constructor(private x: T, z, readonly w = 2) " ++
      "\x7b const k = x as T; super(x, z); f(k); \x7d \x7d \x7d").toList = .ok stream ∧
      stream.HasConstructor 1 true 10 23 44 ∧
      stream.DeclaresProperty (stream.walkBehind 1) 12 23 13 ∧ stream.edits = .ok edits ∧
      edits.Pairwise Edit.EndsBefore ∧
      eraseTypes ("\x7b class A extends B \x7b y = 1; constructor(private x: T, z, readonly w = 2) " ++
        "\x7b const k = x as T; super(x, z); f(k); \x7d \x7d \x7d") =
          .ok ("\x7b class A extends B \x7b y = 1; constructor(x, z, w = 2) \x7b const k = x; " ++
            "super(x, z); this.x = x; this.w = w; f(k); \x7d \x7d \x7d") ∧
      ∃ names anchor, stream.ListsProperties (stream.walkBehind 1) 12 23 names ∧
        stream.AssignmentPlace 24 44 true anchor ∧
          stream.WritesBehind edits anchor (propertyAssignments names) := by
  have erased : eraseTypes
      ("\x7b class A extends B \x7b y = 1; constructor(private x: T, z, readonly w = 2) " ++
        "\x7b const k = x as T; super(x, z); f(k); \x7d \x7d \x7d") =
      .ok ("\x7b class A extends B \x7b y = 1; constructor(x, z, w = 2) \x7b const k = x; " ++
        "super(x, z); this.x = x; this.w = w; f(k); \x7d \x7d \x7d") := by
    decide +kernel
  have facts : ((ofSource
      ("\x7b class A extends B \x7b y = 1; constructor(private x: T, z, readonly w = 2) " ++
        "\x7b const k = x as T; super(x, z); f(k); \x7d \x7d \x7d").toList).toOption.any
      fun stream => decide
        ((stream.edits.toOption.any fun edits => decide (edits.Pairwise Edit.EndsBefore)) = true ∧
          (stream.is 0 "\x7b" = true ∧ stream.closer? 0 = some 46) ∧
          (stream.is 1 "class" = true ∧ stream.isPropertyName 1 = false) ∧
          ((stream.optionalTypeParameters (stream.classNameEnd 1)).toOption.any
            fun generics => decide (generics = 3)) = true ∧
          stream.is 3 "extends" = true ∧ stream.is 4 "\x7b" = false ∧
          stream.is 4 "implements" = false ∧ stream.basePartEnd 4 = 5 ∧
          ((stream.implementedTypes 5).toOption.any fun types => decide (types.next = 5)) = true ∧
          (stream.is 5 "\x7b" = true ∧ stream.closer? 5 = some 45) ∧
          ((stream.classMember (stream.walkBehind 1) 6 45 true).toOption.any
            fun field => decide (field.next = 10)) = true ∧
          stream.IsConstructor 10 45 10 23 44 ∧ stream.parameterModifiersEnd 12 = 13 ∧
          stream.isPlainWord 13 = true)) = true := by
    decide +kernel
  obtain ⟨stream, read, edited, ⟨block, blockEnds⟩, word, parameters, extending, noBody, noTypes,
    basePart, types, ⟨body, bodyEnds⟩, field, constructs, modified, plain⟩ :=
      exists_ok_of_any _ facts
  have placed := placed_of_ofSource read
  obtain ⟨edits, found, apart⟩ := exists_ok_of_any _ edited
  obtain ⟨generics, foundGenerics, rfl⟩ := exists_ok_of_any _ parameters
  obtain ⟨implemented, foundTypes, headEnds⟩ := exists_ok_of_any _ types
  obtain ⟨progress, foundField, fieldEnds⟩ := exists_ok_of_any _ field
  have steps : stream.StepsOn 1 :=
    ⟨1, .upTo 46, .part .program ⟨lt_size_of_is block, lt_size_of_is block, endsBefore_upTo ..⟩
      (by decide) (needs_of_brace placed block blockEnds),
      ⟨by decide, lt_size_of_is word.1, endsBefore_upTo ..⟩⟩
  have base : stream.BaseReaches 4 5 := basePart ▸ .part .here noBody noTypes
  have head : stream.ClassHead 1 true 5 :=
    headEnds ▸ .derived foundGenerics extending base (.inl body) foundTypes
  have next : stream.NextMember 1 45 true 6 10 := fieldEnds ▸ .member (by decide) foundField
  have whole : stream.HasConstructor 1 true 10 23 44 :=
    .member word steps head body bodyEnds (.single next) constructs
  have declares : stream.DeclaresProperty (stream.walkBehind 1) 12 23 13 :=
    ⟨12, .refl, by decide, modified, by decide, plain⟩
  exact ⟨stream, edits, read, whole, declares, found, apart, erased,
    (eraseTypes_assigns_properties read erased whole declares found apart).2⟩

/-- Behind a call without a semicolon the assignments go on with its statement. -/
theorem eraseTypes_of_unendedCall :
    eraseTypes "class A extends B \x7b constructor(private x) \x7b super(x) \x7d \x7d" =
        .ok "class A extends B \x7b constructor(x) \x7b super(x) this.x = x; \x7d \x7d" ∧
      eraseTypes "class A extends B \x7b constructor(private x) \x7b super(x)\n f() \x7d \x7d" =
        .ok "class A extends B \x7b constructor(x) \x7b super(x) this.x = x;\n f() \x7d \x7d" := by
  constructor <;> decide +kernel

end Playground
