import Playground.Proofs.Erasure.Courses

/-!
# What justifies an edit

`Justified` lists the edits that a walk can find, each with the tokens that call for it. The
recursion of the walk is closed once: every walker of a construct is judged under the
assumption that the walk it is handed finds justified edits only (`Walk.Justifies`).
-/

namespace Playground

namespace TokenStream

variable (stream : TokenStream)

/-- A colon stands somewhere, as before every annotation. -/
def IsAnnotated : Prop :=
  ∃ index, stream.is index ":" = true

/-- The program has a class. -/
def HasClass : Prop :=
  ∃ keyword, stream.is keyword "class" = true

/-- The token at an index begins an item of a parenthesised list and ends it as well. -/
def IsLoneItem (index : Nat) : Prop :=
  (stream.is (index - 1) "(" = true ∨ stream.is (index - 1) "," = true) ∧ 0 < index ∧
    (stream.is (index + 1) "," = true ∨ stream.is (index + 1) ")" = true)

/-- The word at an index is a parameter that a modifier makes a property. -/
def IsParameterProperty (opening close index : Nat) : Prop :=
  opening < index ∧ index < close ∧ stream.isPlainWord index = true ∧
    stream.textIn (index - 1) parameterModifiers = true

/-- The names are names of parameter properties between two parentheses. -/
def NamesProperties (opening close : Nat) (names : List String) : Prop :=
  ∃ indices : List Nat, (∀ index ∈ indices, stream.IsParameterProperty opening close index) ∧
    names = indices.map stream.text

/-- A text assigns the parameter properties of a constructor. -/
def AssignsProperties (text : String) : Prop :=
  ∃ name head opening close names, stream.text name = "constructor" ∧ name < head ∧
    stream.optionalTypeParameters head = .ok opening ∧ stream.is opening "(" = true ∧
    stream.closer? opening = some close ∧ stream.NamesProperties opening close names ∧
    names ≠ [] ∧ text = propertyAssignments names

/-- A function without a body stands at a keyword, and ends before `body`. -/
def IsSignature (keyword body : Nat) : Prop :=
  ∃ opening close, stream.is keyword "function" = true ∧
    stream.optionalTypeParameters (stream.functionNameEnd keyword) = .ok opening ∧
    stream.is opening "(" = true ∧ stream.closer? opening = some close ∧
    stream.optionalAnnotation (close + 1) = .ok body ∧ stream.is body "\x7b" = false

/-- The edits of a walk, by the tokens that call for them. -/
inductive Justified : Edit → Prop where
  | annotated {index stop} (colon : stream.is index ":" = true) :
      Justified (stream.attached index stop)
  | marker {index} (mark : stream.is index "?" = true ∨ stream.is index "!" = true) :
      Justified (stream.single index)
  | generics {index stop} (angle : stream.is index "<" = true) :
      Justified (stream.attached index stop)
  | arrowGenerics {index stop} (angle : stream.is index "<" = true) :
      Justified (.erase (stream.startOf index) (stream.startOf stop))
  | receiver {index stop} (this : stream.is index "this" = true)
      (place : stream.IsAnnotated ∨ stream.IsLoneItem index) :
      Justified (.erase (stream.startOf index) (stream.startOf stop))
  | parameterModifier {index} (modifier : stream.textIn index parameterModifiers = true) :
      Justified (stream.leading index)
  | signature {keyword body} (signature : stream.IsSignature keyword body) :
      Justified (stream.declarationErased keyword (stream.afterSemicolon body))
  | declaration {keyword stop} (word : stream.kind? keyword = some .word)
      (listed : stream.textIn keyword ["interface", "type", "declare"] = true) :
      Justified (stream.declarationErased keyword stop)
  | abstractClass {index} (modifier : stream.is index "abstract" = true) :
      Justified (stream.leading index)
  | implemented {index stop} (owner : stream.HasClass)
      (keyword : stream.is index "implements" = true) :
      Justified (stream.attached index stop)
  | memberModifier {index} (owner : stream.HasClass) : Justified (stream.leading index)
  | member {first stop} (owner : stream.HasClass) : Justified (stream.whole first stop)
  | assignments {anchor text} (owner : stream.HasClass) (assigns : stream.AssignsProperties text) :
      Justified (.insert (stream.stopOf anchor) text)
  | assertion {keyword stop}
      (operator : stream.is keyword "as" = true ∨ stream.is keyword "satisfies" = true) :
      Justified (stream.attached keyword stop)
  | typeClause {keyword stop}
      (mark : stream.is (keyword + 1) "type" = true ∨ stream.is (keyword + 1) "as" = true) :
      Justified (stream.whole keyword stop)
  | typeSpecifier {index after} (mark : stream.is index "type" = true) :
      Justified (.erase (stream.startOf index) (stream.startOf after))
  | enumeration {first close keyword text} (mark : stream.is keyword "enum" = true) :
      Justified (.replace (stream.startOf first) (stream.stopOf close) text)

/-- Every one of the edits is justified. -/
def AllJustified (edits : List Edit) : Prop :=
  ∀ edit ∈ edits, stream.Justified edit

end TokenStream

/-- A walk finds justified edits only. -/
def Walk.Justifies (walk : Walk) (stream : TokenStream) : Prop :=
  ∀ {next ending progress}, walk next ending = .ok progress → stream.AllJustified progress.edits

namespace TokenStream

variable {stream : TokenStream}

@[simp] theorem allJustified_nil : stream.AllJustified [] := by
  simp [AllJustified]

@[simp] theorem allJustified_cons {edit : Edit} {edits : List Edit} :
    stream.AllJustified (edit :: edits) ↔ stream.Justified edit ∧ stream.AllJustified edits := by
  simp [AllJustified]

@[simp] theorem allJustified_append {first second : List Edit} :
    stream.AllJustified (first ++ second) ↔
      stream.AllJustified first ∧ stream.AllJustified second := by
  simp only [AllJustified, List.mem_append]
  exact ⟨fun all => ⟨fun edit member => all edit (.inl member),
    fun edit member => all edit (.inr member)⟩,
    fun all edit member => member.elim (all.1 edit) (all.2 edit)⟩

theorem allJustified_attachedIf {first stop : Nat}
    (justified : first < stop → stream.Justified (stream.attached first stop)) :
    stream.AllJustified (stream.attachedIf first stop) := by
  unfold attachedIf
  split
  · simpa using justified ‹_›
  · simp

/-! ## Parts of every construct -/

theorem allJustified_of_generics {index stop : Nat}
    (found : stream.optionalTypeParameters index = .ok stop) :
    stream.AllJustified (stream.attachedIf index stop) :=
  allJustified_attachedIf fun later => .generics (angle_of_optionalTypeParameters found later)

theorem allJustified_of_annotation {index stop : Nat}
    (found : stream.optionalAnnotation index = .ok stop) :
    stream.AllJustified (stream.attachedIf index stop) :=
  allJustified_attachedIf fun later => .annotated (colon_of_annotated found later)

theorem allJustified_of_erasedAnnotation {index : Nat} {progress : Progress}
    (found : stream.erasedAnnotation index = .ok progress) :
    stream.AllJustified progress.edits := by
  obtain ⟨stop, annotated, result⟩ := bind_eq_ok_iff.mp found
  cases result
  exact allJustified_of_annotation annotated

theorem allJustified_erasedMarker {index : Nat} {mark : String}
    (listed : mark = "?" ∨ mark = "!") :
    stream.AllJustified (stream.erasedMarker mark index).edits := by
  unfold erasedMarker
  split
  · rename_i found
    rcases listed with rfl | rfl
    · simpa using Justified.marker (.inl found)
    · simpa using Justified.marker (.inr found)
  · simp

theorem allJustified_definiteMark (index : Nat) :
    stream.AllJustified (stream.definiteMark index).edits := by
  unfold definiteMark
  split
  · exact allJustified_erasedMarker (.inr rfl)
  · simp

section Walks

variable {walk : Walk} (justifies : walk.Justifies stream)

include justifies

theorem allJustified_of_walkInside {index : Nat} {progress : Progress}
    (walked : stream.walkInside walk index = .ok progress) :
    stream.AllJustified progress.edits := by
  obtain ⟨close, _, rest⟩ := bind_eq_ok_iff.mp walked
  obtain ⟨inside, found, result⟩ := bind_eq_ok_iff.mp rest
  cases result
  exact (justifies found : stream.AllJustified inside.edits)

theorem allJustified_of_initializer {index : Nat} {ending : WalkEnd} {progress : Progress}
    (walked : stream.initializer walk index ending = .ok progress) :
    stream.AllJustified progress.edits := by
  unfold initializer at walked
  split at walked
  · exact justifies walked
  · cases walked
    simp

end Walks

end TokenStream

end Playground
