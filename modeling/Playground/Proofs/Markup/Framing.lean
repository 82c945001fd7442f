import Playground.Markup.Frame
import Playground.Proofs.Markup.FirstOccurrence

/-!
# What a frame shows

A framed document is the value of the last attribute of the host page's only frame. The value holds
no quote and no ampersand but those of references (`quote_not_mem_attributeValue`,
`reference_of_ampersand`), so it ends where the host page goes on, and the frame's tag is read as
the same three attributes for every document (`readsTag_frame`). Decoding the references gives the
document back (`decodeReferences_attributeValue`).
-/

namespace Playground

variable {text value front rest more : List Char} {first mark : Char}

/-! ## Escaping -/

/-- A text with a character replaced everywhere. -/
def replaceCharacter (character : Char) (replacement text : List Char) : List Char :=
  text.flatMap fun other => if other = character then replacement else [other]

/-- The references in a text decoded, in one pass from left to right. -/
def decodeReferences : List Char → List Char
  | [] => []
  | '&' :: 'a' :: 'm' :: 'p' :: ';' :: rest => '&' :: decodeReferences rest
  | '&' :: 'q' :: 'u' :: 'o' :: 't' :: ';' :: rest => '"' :: decodeReferences rest
  | first :: rest => first :: decodeReferences rest

/-- How a character of a document is written. -/
theorem attributeCharacter_cases (character : Char) :
    (character = '&' ∧ attributeCharacter character = ['&', 'a', 'm', 'p', ';']) ∨
    (character = '"' ∧ attributeCharacter character = ['&', 'q', 'u', 'o', 't', ';']) ∨
    (character ≠ '&' ∧ character ≠ '"' ∧ attributeCharacter character = [character]) := by
  by_cases ampersand : character = '&'
  · subst ampersand
    exact .inl ⟨rfl, by decide⟩
  · by_cases quote : character = '"'
    · subst quote
      exact .inr (.inl ⟨rfl, by decide⟩)
    · exact .inr (.inr ⟨ampersand, quote, by simp [attributeCharacter, ampersand, quote]⟩)

theorem attributeValue_cons (character : Char) (text : List Char) :
    attributeValue (character :: text) = attributeCharacter character ++ attributeValue text :=
  List.flatMap_cons

/-- Escaping in one pass is escaping the ampersands first and the quotes afterwards. -/
theorem attributeValue_eq (text : List Char) :
    attributeValue text =
      replaceCharacter '"' "&quot;".toList (replaceCharacter '&' "&amp;".toList text) := by
  induction text with
  | nil => rfl
  | cons character text inductionHypothesis =>
    rw [attributeValue_cons, inductionHypothesis]
    unfold replaceCharacter
    rw [List.flatMap_cons, List.flatMap_append]
    congr 1
    rcases attributeCharacter_cases character with
      ⟨rfl, written⟩ | ⟨rfl, written⟩ | ⟨ampersand, quote, written⟩
    · rw [written]
      decide
    · rw [written]
      decide
    · rw [written, if_neg ampersand, List.flatMap_singleton, if_neg quote]

theorem decodeReferences_attributeValue (text : List Char) :
    decodeReferences (attributeValue text) = text := by
  induction text with
  | nil => rfl
  | cons character text inductionHypothesis =>
    rw [attributeValue_cons]
    rcases attributeCharacter_cases character with
      ⟨rfl, written⟩ | ⟨rfl, written⟩ | ⟨ampersand, quote, written⟩
    · simp [written, decodeReferences, inductionHypothesis]
    · simp [written, decodeReferences, inductionHypothesis]
    · simp [written, decodeReferences, ampersand, inductionHypothesis]

theorem quote_not_mem_attributeValue (text : List Char) : '"' ∉ attributeValue text := by
  intro member
  obtain ⟨character, _, inside⟩ := List.mem_flatMap.mp member
  rcases attributeCharacter_cases character with
    ⟨rfl, written⟩ | ⟨rfl, written⟩ | ⟨ampersand, quote, written⟩
  · simp [written] at inside
  · simp [written] at inside
  · rw [written, List.mem_singleton] at inside
    exact quote inside.symm

/-- An ampersand behind other characters. -/
theorem exists_front_of_not_mem (letters : List Char) (absent : '&' ∉ letters)
    (split : letters ++ more = front ++ '&' :: rest) :
    ∃ shorter, more = shorter ++ '&' :: rest := by
  induction letters generalizing front with
  | nil => exact ⟨front, split⟩
  | cons letter letters inductionHypothesis =>
    rw [List.mem_cons, not_or] at absent
    cases front with
    | nil => exact absurd (List.cons.inj split).1.symm absent.1
    | cons _ front => exact inductionHypothesis absent.2 (List.cons.inj split).2

/-- Every ampersand of a value starts a reference. -/
theorem reference_of_ampersand (split : attributeValue text = front ++ '&' :: rest) :
    "amp;".toList <+: rest ∨ "quot;".toList <+: rest := by
  induction text generalizing front with
  | nil => simp [attributeValue] at split
  | cons character text inductionHypothesis =>
    rw [attributeValue_cons] at split
    -- the ampersand is the one of the first character's reference, or stands behind it
    rcases attributeCharacter_cases character with
      ⟨rfl, written⟩ | ⟨rfl, written⟩ | ⟨ampersand, quote, written⟩
    · rw [written] at split
      cases front with
      | nil => exact .inl ⟨attributeValue text, (List.cons.inj split).2⟩
      | cons _ front =>
        obtain ⟨_, behind⟩ := exists_front_of_not_mem "amp;".toList (by decide)
          (List.cons.inj split).2
        exact inductionHypothesis behind
    · rw [written] at split
      cases front with
      | nil => exact .inr ⟨attributeValue text, (List.cons.inj split).2⟩
      | cons _ front =>
        obtain ⟨_, behind⟩ := exists_front_of_not_mem "quot;".toList (by decide)
          (List.cons.inj split).2
        exact inductionHypothesis behind
    · rw [written] at split
      obtain ⟨_, behind⟩ :=
        exists_front_of_not_mem [character] (by simpa using ampersand.symm) split
      exact inductionHypothesis behind

/-! ## Tags -/

/-- The attributes of a tag behind its name, each a name and a value between double quotes, and the
text behind the tag. -/
inductive ReadsTag : List Char → List (List Char × List Char) → List Char → Prop where
  | close (rest : List Char) : ReadsTag ('>' :: rest) [] rest
  | another {name value more : List Char} {attributes : List (List Char × List Char)}
      {rest : List Char} (named : '=' ∉ name) (quoted : '"' ∉ value)
      (reads : ReadsTag more attributes rest) :
      ReadsTag (' ' :: (name ++ '=' :: '"' :: (value ++ '"' :: more))) ((name, value) :: attributes)
        rest

/-- The first frame of a page: its attributes, and the page behind its tag. -/
def OpensFrame (page : List Char) (attributes : List (List Char × List Char)) (rest : List Char) :
    Prop :=
  ∃ before tag, FirstCut "<iframe".toList page before tag ∧ ReadsTag tag attributes rest

/-- There is one way to split a text at the first place of a mark. -/
theorem split_unique {other others : List Char} (absent : mark ∉ front) (alsoAbsent : mark ∉ other)
    (same : front ++ mark :: rest = other ++ mark :: others) :
    front = other ∧ rest = others := by
  induction front generalizing other with
  | nil =>
    cases other with
    | nil => exact ⟨rfl, (List.cons.inj same).2⟩
    | cons letter _ => exact absurd (.head _) ((List.cons.inj same).1 ▸ alsoAbsent)
  | cons letter front inductionHypothesis =>
    rw [List.mem_cons, not_or] at absent
    cases other with
    | nil => exact absurd (List.cons.inj same).1.symm absent.1
    | cons _ other =>
      rw [List.mem_cons, not_or] at alsoAbsent
      obtain ⟨rfl, behind⟩ := List.cons.inj same
      obtain ⟨rfl, rfl⟩ := inductionHypothesis absent.2 alsoAbsent.2 behind
      exact ⟨rfl, rfl⟩

theorem ReadsTag.unique {attributes others : List (List Char × List Char)} {behind : List Char}
    (reads : ReadsTag text attributes rest) (again : ReadsTag text others behind) :
    attributes = others ∧ rest = behind := by
  induction reads generalizing others behind with
  | close rest =>
    cases again
    exact ⟨rfl, rfl⟩
  | @another name value more attributes rest named quoted _ inductionHypothesis =>
    generalize same : ' ' :: (name ++ '=' :: '"' :: (value ++ '"' :: more)) = text at again
    cases again with
    | close => simp at same
    | another alsoNamed alsoQuoted reads =>
      obtain ⟨rfl, behindName⟩ := split_unique named alsoNamed (List.cons.inj same).2
      obtain ⟨rfl, rfl⟩ := split_unique quoted alsoQuoted (List.cons.inj behindName).2
      obtain ⟨rfl, rfl⟩ := inductionHypothesis reads
      exact ⟨rfl, rfl⟩

theorem OpensFrame.unique {page : List Char} {attributes others : List (List Char × List Char)}
    {behind : List Char} (opens : OpensFrame page attributes rest)
    (again : OpensFrame page others behind) : attributes = others ∧ rest = behind := by
  obtain ⟨before, tag, cut, reads⟩ := opens
  obtain ⟨_, _, same, alsoReads⟩ := again
  obtain ⟨rfl, rfl⟩ := cut.unique same
  exact reads.unique alsoReads

/-! ## Host pages -/

/-- The style of the frame at a preview width. -/
def Viewport.frameStyle (viewport : Viewport) : List Char :=
  (match viewport.maxWidth? with
    | some pixels => "max-width: " ++ toString pixels ++ "px; "
    | none => "").toList ++
    "width: 100%; height: 100vh; border: 0; display: block; margin: 0 auto".toList

/-- The attributes of the frame that shows a value. -/
def frameAttributes (viewport : Viewport) (value : List Char) : List (List Char × List Char) :=
  [("sandbox".toList, "allow-scripts".toList), ("style".toList, viewport.frameStyle),
    ("srcdoc".toList, value)]

/-- The host page in front of its frame. -/
def pageStart : List Char :=
  "<!DOCTYPE html>\n<html>\n<body style=\"margin: 0\">\n".toList

/-- The host page behind the tag of its frame. -/
def pageEnd : List Char :=
  "</iframe>\n</body>\n</html>\n".toList

/-- The tag of the frame behind its name, up to the name of the attribute with the document. -/
def tagStart (viewport : Viewport) : List Char :=
  " sandbox=\"".toList ++ "allow-scripts".toList ++ "\" style=\"".toList ++ viewport.frameStyle ++
    "\" ".toList

theorem toList_frameHead (document : Document) (viewport : Viewport) :
    (document.frameHead viewport).toList =
      pageStart ++ "<iframe".toList ++ tagStart viewport ++ "srcdoc=\"".toList := by
  have opening : "<!DOCTYPE html>\n<html>\n<body style=\"margin: 0\">\n<iframe sandbox=\"".toList =
      pageStart ++ "<iframe".toList ++ " sandbox=\"".toList := by decide +kernel
  have granted : document.sandbox.grantText = "allow-scripts" := by
    change Sandbox.isolated.grantText = _
    decide
  have closing :
      "width: 100%; height: 100vh; border: 0; display: block; margin: 0 auto\" srcdoc=\"".toList =
        "width: 100%; height: 100vh; border: 0; display: block; margin: 0 auto".toList ++
          ("\" ".toList ++ "srcdoc=\"".toList) := by decide +kernel
  unfold Document.frameHead tagStart Viewport.frameStyle
  cases viewport.maxWidth? <;>
    simp only [String.toList_append, granted, opening, closing, List.append_assoc]

theorem toList_frameTail : Document.frameTail.toList = '"' :: '>' :: pageEnd := by
  decide +kernel

/-- A page: the parts that do not depend on the document, and the value between them. -/
theorem toList_framed (document : Document) (viewport : Viewport) :
    (document.framed viewport).toList =
      pageStart ++ "<iframe".toList ++ (tagStart viewport ++ "srcdoc=\"".toList ++
        (attributeValue document.markup.toList ++ Document.frameTail.toList)) := by
  unfold Document.framed
  simp only [String.toList_append, String.toList_ofList, toList_frameHead, List.append_assoc]

theorem firstCut_frame (document : Document) (viewport : Viewport) :
    FirstCut "<iframe".toList (document.framed viewport).toList pageStart
      (tagStart viewport ++ "srcdoc=\"".toList ++
        (attributeValue document.markup.toList ++ Document.frameTail.toList)) :=
  firstCut_of_split (toList_framed document viewport) (by decide) (by decide +kernel)

theorem firstCut_source (document : Document) (viewport : Viewport) :
    FirstCut "srcdoc=\"".toList (document.framed viewport).toList
      (pageStart ++ "<iframe".toList ++ tagStart viewport)
      (attributeValue document.markup.toList ++ Document.frameTail.toList) := by
  refine firstCut_of_split ?_ (by decide) ?_
  · rw [toList_framed]
    simp only [List.append_assoc]
  · cases viewport <;> decide +kernel

theorem quote_not_mem_frameStyle (viewport : Viewport) : '"' ∉ viewport.frameStyle := by
  cases viewport <;> decide +kernel

/-- The tag of the frame has three attributes, the last of which is the value. -/
theorem readsTag_frame (viewport : Viewport) (quoted : '"' ∉ value) :
    ReadsTag (tagStart viewport ++ "srcdoc=\"".toList ++ (value ++ Document.frameTail.toList))
      (frameAttributes viewport value) pageEnd := by
  have sandboxName : " sandbox=\"".toList = ' ' :: ("sandbox".toList ++ ['=', '"']) := by decide
  have styleName : "\" style=\"".toList = '"' :: ' ' :: ("style".toList ++ ['=', '"']) := by decide
  have sourceName : "srcdoc=\"".toList = "srcdoc".toList ++ ['=', '"'] := by decide
  have gap : "\" ".toList = ['"', ' '] := by decide
  unfold tagStart
  simp only [toList_frameTail, sandboxName, styleName, sourceName, gap, List.append_assoc,
    List.cons_append, List.nil_append]
  apply ReadsTag.another (by decide) (by decide)
  apply ReadsTag.another (by decide) (quote_not_mem_frameStyle viewport)
  apply ReadsTag.another (by decide) quoted
  exact .close pageEnd

/-- The value of the document's attribute ends at the first quote behind it, where the rest of the
page is always the same, and it has no ampersands but those of references. Decoding the references
gives the document, so no two documents have one page; and whatever the document is, the first frame
of its page has just the three attributes of the host page, and the host page goes on behind it. -/
theorem framed_isolates (document : Document) (viewport : Viewport) : ∃ value,
    (∃ before, FirstCut "srcdoc=\"".toList (document.framed viewport).toList before
      (value ++ Document.frameTail.toList)) ∧
    Document.frameTail.toList = '"' :: '>' :: pageEnd ∧ '"' ∉ value ∧
    (∀ front rest, value = front ++ '&' :: rest →
      "amp;".toList <+: rest ∨ "quot;".toList <+: rest) ∧
    decodeReferences value = document.markup.toList ∧
    (∀ other width, Document.framed other width = document.framed viewport → other = document) ∧
    ∀ attributes rest, OpensFrame (document.framed viewport).toList attributes rest ↔
      attributes = frameAttributes viewport value ∧ rest = pageEnd := by
  have quoted := quote_not_mem_attributeValue document.markup.toList
  refine ⟨attributeValue document.markup.toList, ⟨_, firstCut_source document viewport⟩,
    toList_frameTail, quoted, fun _ _ => reference_of_ampersand,
    decodeReferences_attributeValue _, ?_, ?_⟩
  · intro other width same
    have cut := firstCut_source other width
    rw [same] at cut
    have values := List.append_cancel_right (cut.unique (firstCut_source document viewport)).2
    have markups := congrArg decodeReferences values
    rw [decodeReferences_attributeValue, decodeReferences_attributeValue] at markups
    cases other
    cases document
    exact congrArg Document.mk (String.toList_inj.mp markups)
  · have opens : OpensFrame (document.framed viewport).toList
        (frameAttributes viewport (attributeValue document.markup.toList)) pageEnd :=
      ⟨_, _, firstCut_frame document viewport, readsTag_frame viewport quoted⟩
    intro attributes rest
    refine ⟨fun again => again.unique opens, ?_⟩
    rintro ⟨rfl, rfl⟩
    exact opens

end Playground
