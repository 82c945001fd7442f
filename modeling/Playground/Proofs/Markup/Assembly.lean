import Playground.Proofs.Markup.FirstOccurrence

/-!
# What assembly replaces

Assembly makes two replacements one after the other, so the second one searches a text that already
holds the first block. If the script sentinel comes first, the cut in front of the block is not
disturbed. If it comes second, then it is met at its own place exactly if it does not occur in
front of that place once the style is written there (`firstCut_iff`), and only then is the page the
layout with both blocks in place, whatever the behavior (`assemble_verbatim_iff`).
-/

namespace Playground

variable {pattern second text before after front behind replacement : List Char}

theorem replaceFirst_of_firstCut (nonempty : pattern ≠ [])
    (cut : FirstCut pattern text before after) :
    replaceFirst pattern replacement text = before ++ replacement ++ after := by
  rw [replaceFirst, if_neg (by simpa using nonempty), cutAtFirst?_of_firstCut cut]

/-- Of two stretches that do not overlap, the one further back lies behind the other. -/
theorem exists_between (one : text = before ++ pattern ++ after)
    (other : text = front ++ second ++ behind)
    (apart : before.length + pattern.length ≤ front.length) :
    ∃ between, front = before ++ pattern ++ between ∧ after = between ++ second ++ behind := by
  rw [one, List.append_assoc front, List.append_eq_append_iff] at other
  rcases other with ⟨between, split, rest⟩ | ⟨overlap, split, rest⟩
  · exact ⟨between, split, by rw [rest, List.append_assoc]⟩
  · have size := congrArg List.length split
    simp only [List.length_append] at size
    obtain rfl : overlap = [] := List.length_eq_zero_iff.mp (by omega)
    exact ⟨[], by simpa using split.symm, by simpa using rest.symm⟩

/-! ## Patches -/

/-- A stretch of a text and what is to stand in its place. -/
structure Patch where
  place : Nat
  length : Nat
  text : List Char

/-- A text with a stretch replaced. -/
def Patch.apply (patch : Patch) (text : List Char) : List Char :=
  text.take patch.place ++ patch.text ++ text.drop (patch.place + patch.length)

/-- A text with two stretches replaced. The one further back goes first, so the other one stays in
its place. -/
def Patch.applyBoth (one other : Patch) (text : List Char) : List Char :=
  if one.place ≤ other.place then one.apply (other.apply text) else other.apply (one.apply text)

theorem Patch.apply_append (before old after text : List Char) :
    Patch.apply ⟨before.length, old.length, text⟩ (before ++ old ++ after) =
      before ++ text ++ after := by
  rw [Patch.apply, ← List.length_append, List.drop_left, List.append_assoc before old,
    List.take_left]

theorem Patch.applyBoth_of_lt {one other : Patch} (order : one.place < other.place) :
    one.applyBoth other text = one.apply (other.apply text) :=
  if_pos (Nat.le_of_lt order)

theorem Patch.applyBoth_of_gt {one other : Patch} (order : other.place < one.place) :
    one.applyBoth other text = other.apply (one.apply text) :=
  if_neg (Nat.not_le.mpr order)

/-! ## Pages -/

/-- The style as it stands in a page. -/
def styleBlock (style : String) : List Char :=
  "<style>".toList ++ style.toList ++ "</style>".toList

/-- The behavior as it stands in a page. -/
def scriptBlock (behavior : String) : List Char :=
  "<script>".toList ++ behavior.toList ++ "</script>".toList

theorem scriptBlock_ofList (behavior : List Char) :
    scriptBlock (String.ofList behavior) =
      "<script".toList ++ ['>'] ++ behavior ++ "</script>".toList := by
  have tag : "<script>".toList = "<script".toList ++ ['>'] := by decide
  unfold scriptBlock
  simp only [String.toList_ofList]
  rw [tag]

/-- A layout in which both sentinels occur, the first occurrences of which do not overlap: what
stands in front of each, and what stands behind. -/
structure Sites (sentinels : Sentinels) (layout : String) where
  stylesheetFront : List Char
  stylesheetRest : List Char
  scriptFront : List Char
  scriptRest : List Char
  stylesheet : FirstCut sentinels.stylesheet.toList layout.toList stylesheetFront stylesheetRest
  script : FirstCut sentinels.script.toList layout.toList scriptFront scriptRest
  apart : stylesheetFront.length + sentinels.stylesheet.toList.length ≤ scriptFront.length ∨
    scriptFront.length + sentinels.script.toList.length ≤ stylesheetFront.length

namespace Sites

variable {sentinels : Sentinels} {layout style : String}

/-- The style in the place of the stylesheet sentinel. -/
def stylePatch (sites : Sites sentinels layout) (style : String) : Patch :=
  ⟨sites.stylesheetFront.length, sentinels.stylesheet.toList.length, styleBlock style⟩

/-- The behavior in the place of the script sentinel. -/
def scriptPatch (sites : Sites sentinels layout) (behavior : String) : Patch :=
  ⟨sites.scriptFront.length, sentinels.script.toList.length, scriptBlock behavior⟩

/-- The layout with both sentinels replaced and everything else as it was. -/
def verbatim (sites : Sites sentinels layout) (style behavior : String) : List Char :=
  Patch.applyBoth (sites.stylePatch style) (sites.scriptPatch behavior) layout.toList

/-- The script sentinel comes behind the stylesheet sentinel, and with the style in place it occurs
in front of where it stands. -/
def Intrudes (sites : Sites sentinels layout) (style : String) : Prop :=
  sites.stylesheetFront.length < sites.scriptFront.length ∧
    sentinels.script.toList <:+:
      (sites.stylePatch style).apply sites.scriptFront ++ sentinels.script.toList.dropLast

/-- The two replacements, the first of which finds the stylesheet sentinel. -/
theorem toList_assemble (sites : Sites sentinels layout)
    (named : sentinels.stylesheet.toList ≠ []) (style behavior : String) :
    (sentinels.assemble ⟨layout, style, behavior⟩).markup.toList =
      replaceFirst sentinels.script.toList (scriptBlock behavior)
        ((sites.stylePatch style).apply layout.toList) := by
  have styled : replaceFirst sentinels.stylesheet.toList (styleBlock style) layout.toList =
      (sites.stylePatch style).apply layout.toList := by
    rw [replaceFirst_of_firstCut named sites.stylesheet]
    conv_rhs => rw [sites.stylesheet.split, stylePatch, Patch.apply_append]
  rw [← styled]
  exact String.toList_ofList

/-! ### The script sentinel in front -/

theorem assemble_of_scriptFirst (sites : Sites sentinels layout)
    (named : sentinels.stylesheet.toList ≠ []) (scripted : sentinels.script.toList ≠ [])
    (order : sites.scriptFront.length < sites.stylesheetFront.length) (style behavior : String) :
    (sentinels.assemble ⟨layout, style, behavior⟩).markup.toList =
      sites.verbatim style behavior := by
  have apart : sites.scriptFront.length + sentinels.script.toList.length ≤
      sites.stylesheetFront.length := sites.apart.resolve_left (by omega)
  obtain ⟨between, front, rest⟩ :=
    exists_between sites.script.split sites.stylesheet.split apart
  -- what stands in front of the script sentinel is not touched by the style
  have styled : (sites.stylePatch style).apply layout.toList = sites.scriptFront ++
      sentinels.script.toList ++ (between ++ styleBlock style ++ sites.stylesheetRest) := by
    rw [sites.stylesheet.split, stylePatch, Patch.apply_append, front]
    simp only [List.append_assoc]
  have unseen := (firstCut_iff scripted).mp (sites.script.split ▸ sites.script)
  rw [sites.toList_assemble named, styled,
    replaceFirst_of_firstCut scripted ((firstCut_iff scripted).mpr unseen), verbatim,
    Patch.applyBoth_of_gt order, styled, scriptPatch, Patch.apply_append]

/-! ### The stylesheet sentinel in front -/

section StylesheetFirst

variable (sites : Sites sentinels layout)
  (order : sites.stylesheetFront.length < sites.scriptFront.length)
include order

theorem exists_between_sentinels : ∃ between,
    sites.scriptFront = sites.stylesheetFront ++ sentinels.stylesheet.toList ++ between ∧
      sites.stylesheetRest = between ++ sentinels.script.toList ++ sites.scriptRest :=
  exists_between sites.stylesheet.split sites.script.split <|
    sites.apart.resolve_right (by omega)

/-- The layout with the style in place, cut at the script sentinel's own place. -/
theorem apply_stylePatch (style : String) :
    (sites.stylePatch style).apply layout.toList =
      (sites.stylePatch style).apply sites.scriptFront ++ sentinels.script.toList ++
        sites.scriptRest := by
  obtain ⟨between, front, rest⟩ := sites.exists_between_sentinels order
  rw [front, stylePatch, Patch.apply_append, sites.stylesheet.split, Patch.apply_append, rest]
  simp only [List.append_assoc]

theorem verbatim_eq (style behavior : String) :
    sites.verbatim style behavior =
      (sites.stylePatch style).apply sites.scriptFront ++ scriptBlock behavior ++
        sites.scriptRest := by
  obtain ⟨between, front, rest⟩ := sites.exists_between_sentinels order
  have patched : (sites.scriptPatch behavior).apply layout.toList =
      sites.stylesheetFront ++ sentinels.stylesheet.toList ++
        (between ++ scriptBlock behavior ++ sites.scriptRest) := by
    rw [sites.script.split, scriptPatch, Patch.apply_append, front]
    simp only [List.append_assoc]
  rw [verbatim, Patch.applyBoth_of_lt order, patched, front, stylePatch, Patch.apply_append,
    Patch.apply_append]
  simp only [List.append_assoc]

/-- The script sentinel is found in its own place exactly if nothing intrudes. -/
theorem firstCut_styled_iff (scripted : sentinels.script.toList ≠ []) :
    FirstCut sentinels.script.toList ((sites.stylePatch style).apply layout.toList)
        ((sites.stylePatch style).apply sites.scriptFront) sites.scriptRest ↔
      ¬sites.Intrudes style := by
  rw [sites.apply_stylePatch order, firstCut_iff scripted, Intrudes]
  simp only [order, true_and]

theorem assemble_of_not_intrudes (named : sentinels.stylesheet.toList ≠ [])
    (scripted : sentinels.script.toList ≠ []) (clear : ¬sites.Intrudes style) (behavior : String) :
    (sentinels.assemble ⟨layout, style, behavior⟩).markup.toList =
      sites.verbatim style behavior := by
  have found := (sites.firstCut_styled_iff order scripted).mpr clear
  rw [sites.toList_assemble named, replaceFirst_of_firstCut scripted found,
    sites.verbatim_eq order]

end StylesheetFirst

/-- A block whose filler is longer than what stands in front of it makes up two texts if it stands
in two places: the end of one opening tag meets the filler of the other. -/
theorem ne_of_shorter {here there hereRest thereRest tag closing : List Char} {mark filler : Char}
    (shorter : here.length < there.length) (different : mark ≠ filler) :
    here ++ (tag ++ [mark] ++ List.replicate there.length filler ++ closing) ++ hereRest ≠
      there ++ (tag ++ [mark] ++ List.replicate there.length filler ++ closing) ++ thereRest := by
  intro same
  have marked : (there ++ (tag ++ [mark] ++ List.replicate there.length filler ++ closing) ++
      thereRest)[there.length + tag.length]? = some mark := by
    simp
  have filled : (here ++ (tag ++ [mark] ++ List.replicate there.length filler ++ closing) ++
      hereRest)[there.length + tag.length]? = some filler := by
    have text : here ++ (tag ++ [mark] ++ List.replicate there.length filler ++ closing) ++
        hereRest = (here ++ tag ++ [mark]) ++
          (List.replicate there.length filler ++ (closing ++ hereRest)) := by
      simp only [List.append_assoc]
    have inside : there.length + tag.length - (here ++ tag ++ [mark]).length < there.length := by
      simp only [List.length_append, List.length_singleton]
      omega
    rw [text, List.getElem?_append_right (by simp; omega),
      List.getElem?_append_left (by simpa using inside), List.getElem?_replicate, if_pos inside]
  rw [same, marked] at filled
  exact different (Option.some.inj filled)

/-- If the script sentinel intrudes, some behavior ends up in front of its place. -/
theorem exists_misplaced (sites : Sites sentinels layout)
    (named : sentinels.stylesheet.toList ≠ []) (scripted : sentinels.script.toList ≠ [])
    (intrudes : sites.Intrudes style) :
    ∃ behavior, (sentinels.assemble ⟨layout, style, behavior⟩).markup.toList ≠
      sites.verbatim style behavior := by
  have order := intrudes.1
  have occurs : sentinels.script.toList <:+: (sites.stylePatch style).apply layout.toList :=
    ⟨_, _, (sites.apply_stylePatch order style).symm⟩
  obtain ⟨front, rest, cut⟩ := exists_firstCut occurs
  have earlier : front.length < ((sites.stylePatch style).apply sites.scriptFront).length := by
    by_contra! later
    refine (sites.firstCut_styled_iff order scripted).mp ⟨sites.apply_stylePatch order style, ?_⟩
      intrudes
    exact fun other rest same => later.trans (cut.first other rest same)
  refine ⟨String.ofList
    (List.replicate ((sites.stylePatch style).apply sites.scriptFront).length ' '), ?_⟩
  rw [sites.toList_assemble named, replaceFirst_of_firstCut scripted cut, sites.verbatim_eq order,
    scriptBlock_ofList]
  exact ne_of_shorter earlier (by decide)

end Sites

/-- If the script sentinel comes first, the page is the layout with both blocks in place. If the
stylesheet sentinel comes first, it is so for every behavior exactly if the script sentinel does not
occur in front of its place once the style stands there; so the pages of all styles and behaviors
are as they should be exactly in the first case. -/
theorem assemble_verbatim_iff {sentinels : Sentinels} {layout : String}
    (named : sentinels.stylesheet ≠ "") (scripted : sentinels.script ≠ "")
    (sites : Sites sentinels layout) :
    (∀ style, (∀ behavior, (sentinels.assemble ⟨layout, style, behavior⟩).markup.toList =
      sites.verbatim style behavior) ↔ ¬sites.Intrudes style) ∧
    ((∀ style behavior, (sentinels.assemble ⟨layout, style, behavior⟩).markup.toList =
      sites.verbatim style behavior) ↔
        sites.scriptFront.length < sites.stylesheetFront.length) := by
  have namedList : sentinels.stylesheet.toList ≠ [] := by simpa using named
  have scriptedList : sentinels.script.toList ≠ [] := by simpa using scripted
  have positive := List.length_pos_iff.mpr namedList
  have alsoPositive := List.length_pos_iff.mpr scriptedList
  rcases Nat.lt_or_ge sites.scriptFront.length sites.stylesheetFront.length with order | order
  · have kept := sites.assemble_of_scriptFirst namedList scriptedList order
    have clear (style : String) : ¬sites.Intrudes style := fun intrudes =>
      absurd intrudes.1 (Nat.lt_asymm order)
    exact ⟨fun style => ⟨fun _ => clear style, fun _ => kept style⟩, fun _ => order, fun _ => kept⟩
  · have strict : sites.stylesheetFront.length < sites.scriptFront.length := by
      have apart := sites.apart
      omega
    have clear (style : String) :
        (∀ behavior, (sentinels.assemble ⟨layout, style, behavior⟩).markup.toList =
          sites.verbatim style behavior) ↔ ¬sites.Intrudes style := by
      refine ⟨fun kept intrudes => ?_, sites.assemble_of_not_intrudes strict namedList scriptedList⟩
      obtain ⟨behavior, misplaced⟩ :=
        sites.exists_misplaced namedList scriptedList intrudes
      exact misplaced (kept behavior)
    refine ⟨clear, fun kept => ?_, fun first => absurd first (Nat.not_lt.mpr order)⟩
    -- a style that is the script sentinel itself
    have inBlock : sentinels.script.toList <:+: styleBlock sentinels.script :=
      List.infix_append _ _ _
    have inFront : styleBlock sentinels.script <:+:
        (sites.stylePatch sentinels.script).apply sites.scriptFront := List.infix_append _ _ _
    have intrudes : sites.Intrudes sentinels.script :=
      ⟨strict, (inBlock.trans inFront).trans (List.prefix_append _ _).isInfix⟩
    exact absurd intrudes ((clear sentinels.script).mp (kept sentinels.script))

/-- A layout with comments for sentinels, the one of the script in front. -/
def Sites.comments : Sites ⟨"<!-- css -->", "<!-- js -->"⟩ "<!-- js --><p><!-- css -->" where
  stylesheetFront := "<!-- js --><p>".toList
  stylesheetRest := []
  scriptFront := []
  scriptRest := "<p><!-- css -->".toList
  stylesheet := firstCut_of_split (by decide) (by decide) (by decide +kernel)
  script := firstCut_of_split (by decide) (by decide) (by decide +kernel)
  apart := .inr (by decide)

/-- With the script sentinel in front, a style and a behavior that look like sentinels themselves
stand in the page as they are. -/
theorem assemble_of_comments :
    "<!-- css -->" ≠ "" ∧ "<!-- js -->" ≠ "" ∧
      (Sentinels.assemble ⟨"<!-- css -->", "<!-- js -->"⟩
        ⟨"<!-- js --><p><!-- css -->", "<!-- js -->", "<!-- css -->"⟩).markup.toList =
          Sites.comments.verbatim "<!-- js -->" "<!-- css -->" ∧
      Sites.comments.verbatim "<!-- js -->" "<!-- css -->" =
        "<script><!-- css --></script><p><style><!-- js --></style>".toList :=
  ⟨by decide, by decide,
    (assemble_verbatim_iff (by decide) (by decide) Sites.comments).2.mpr (by decide) _ _,
    by decide +kernel⟩

/-- A layout of nothing but the references that an editor's own pages hold. -/
def Sites.references :
    Sites .default (Sentinels.default.stylesheet ++ Sentinels.default.script) where
  stylesheetFront := []
  stylesheetRest := Sentinels.default.script.toList
  scriptFront := Sentinels.default.stylesheet.toList
  scriptRest := []
  stylesheet := firstCut_of_split String.toList_append (by decide) (by decide +kernel)
  script := firstCut_of_split (by rw [String.toList_append, List.append_nil]) (by decide)
    (by decide +kernel)
  apart := .inl (Nat.le_of_eq (Nat.zero_add _))

/-- A style that holds the script sentinel takes the behavior in, and the script sentinel of the
layout stays. -/
theorem assemble_puts_behavior_into_style :
    (Sentinels.default.assemble
      ⟨Sentinels.default.stylesheet ++ Sentinels.default.script, Sentinels.default.script,
        "go();"⟩).markup =
      "<style><script>go();</script></style>" ++ Sentinels.default.script ∧
    Sites.references.verbatim Sentinels.default.script "go();" =
      ("<style>" ++ Sentinels.default.script ++ "</style><script>go();</script>").toList ∧
    (Sentinels.default.assemble
      ⟨Sentinels.default.stylesheet ++ Sentinels.default.script, Sentinels.default.script,
        "go();"⟩).markup.toList ≠ Sites.references.verbatim Sentinels.default.script "go();" := by
  have placed : (Sentinels.default.assemble
      ⟨Sentinels.default.stylesheet ++ Sentinels.default.script, Sentinels.default.script,
        "go();"⟩).markup =
      "<style><script>go();</script></style>" ++ Sentinels.default.script := by decide +kernel
  have expected : Sites.references.verbatim Sentinels.default.script "go();" =
      ("<style>" ++ Sentinels.default.script ++ "</style><script>go();</script>").toList := by
    decide +kernel
  refine ⟨placed, expected, ?_⟩
  rw [placed, expected]
  decide +kernel

end Playground
