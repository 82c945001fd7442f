import Playground.Proofs.Erasure.Relocation.Binding
import Playground.Proofs.Number.Format

/-!
# Enumerations and classes in streams that stand for one another

Their walkers pass semicolons on the way to a closing brace, so they are related only where the
source takes up the rest of the target. What an enumeration generates may quote the source; the
generated texts then correspond as the sources do.
-/

namespace Playground

/-- Lowered members that stand for one another. -/
structure Relocation.LoweredAlike {source target : TokenStream}
    (reloc : Relocation source target) (member other : LoweredMember) : Prop where
  statement : reloc.Same member.statement other.statement
  following : other.following = member.following
  known : ∀ key, member.following = .after key → reloc.Same key key
  stop : reloc.Past member.stop other.stop

namespace Relocation

open TokenStream

variable {source target : TokenStream} {reloc : Relocation source target}
variable {index other first otherFirst stop otherStop close otherClose : Nat}
variable {keyword otherKeyword opening otherOpening : Nat}

/-! ## Enumerations -/

/-- A name or a string, spelled alike. -/
structure KeyAlike (reloc : Relocation source target) (index image : Nat)
    (key other : String) : Prop where
  eq : other = key
  same : reloc.Same key key
  text : target.text image = source.text index

theorem memberKey (at_ : reloc.At index other) :
    reloc.Alike (reloc.KeyAlike index other) (source.memberKey index)
      (target.memberKey other) := by
  unfold TokenStream.memberKey
  rw [at_.kind?]
  split
  case h_1 word =>
    have text := at_.text_of_kind? word rfl
    have same := at_.same_text
    rw [text] at same ⊢
    exact .ok ⟨rfl, reloc.append (reloc.append (reloc.plain (by decide)) same)
      (reloc.plain (by decide)), text⟩
  case h_2 string =>
    have text := at_.text_of_kind? string rfl
    have same := at_.same_text
    rw [text] at same ⊢
    exact .ok ⟨rfl, same, text⟩
  case h_3 => exact fail at_ _

section Statements

variable {enumName otherName key value otherValue : String}
variable (names : reloc.Same enumName otherName) (keys : reloc.Same key key)

include names keys

theorem stringMember (values : reloc.Same value otherValue) :
    reloc.Same (Playground.stringMember enumName key value)
      (Playground.stringMember otherName key otherValue) :=
  reloc.append (reloc.append (reloc.append (reloc.append (reloc.append names
    (reloc.plain (by decide))) keys) (reloc.plain (by decide))) values) (reloc.plain (by decide))

theorem numericMember (values : reloc.Same value otherValue) :
    reloc.Same (Playground.numericMember enumName key value)
      (Playground.numericMember otherName key otherValue) :=
  reloc.append (reloc.append (reloc.append (reloc.append (reloc.append (reloc.append
    (reloc.append (reloc.append (reloc.append names (reloc.plain (by decide))) names)
      (reloc.plain (by decide))) keys) (reloc.plain (by decide))) values)
        (reloc.plain (by decide))) keys) (reloc.plain (by decide))

theorem counted (number : Number) (past : reloc.Past stop otherStop) :
    reloc.LoweredAlike (.counted enumName key number stop)
      (.counted otherName key number otherStop) where
  statement := numericMember names keys
    (reloc.plain (number.not_mem_format (by decide) (by decide)))
  following := rfl
  known := by simp [LoweredMember.counted]
  stop := past

theorem uninitializedMember (past : reloc.Past index other)
    (spelled : target.text other = source.text index)
    (next : reloc.Past (index + 1) (other + 1)) (following : NextMember)
    (known : ∀ key, following = .after key → reloc.Same key key) :
    reloc.Alike reloc.LoweredAlike (source.uninitializedMember enumName key index following)
      (target.uninitializedMember otherName key other following) := by
  cases following with
  | value number => exact .ok (counted names keys number next)
  | after previous =>
    refine .ok ⟨numericMember names keys ?_, rfl, fun _ same => ?_, next⟩
    · exact reloc.append (reloc.append (reloc.append names (reloc.plain (by decide)))
        (known previous rfl)) (reloc.plain (by decide))
    · exact NextMember.after.inj same ▸ keys
  | unknown =>
    rw [TokenStream.uninitializedMember, TokenStream.uninitializedMember, spelled]
    exact fail past.toAt _

end Statements

theorem enumObject {name otherName body otherBody : String} (names : reloc.Same name otherName)
    (bodies : reloc.Same body otherBody) :
    reloc.Same (Playground.enumObject name body) (Playground.enumObject otherName otherBody) := by
  have text : ∀ {text : String}, '\r' ∉ text.toList → reloc.Same text text := reloc.plain
  have head : reloc.Same s!"var {name}; (function ({name}) \x7b "
      s!"var {otherName}; (function ({otherName}) \x7b " :=
    reloc.append (reloc.append (reloc.append (reloc.append (text (by decide)) names)
      (text (by decide))) names) (text (by decide))
  exact reloc.append (reloc.append (reloc.append (reloc.append (reloc.append (reloc.append
    head bodies) (text (by decide))) names) (text (by decide))) names) (text (by decide))

section Whole

variable (entire : reloc.Whole)

include entire

theorem initializerNumber? (starts : reloc.Past first otherFirst)
    (stops : reloc.At stop otherStop) :
    target.initializerNumber? otherFirst otherStop = source.initializerNumber? first stop := by
  have next := starts.succ_of_whole entire
  have last := next.succ_of_whole entire
  have one := stops.eq_iff next.toAt
  have two := stops.eq_iff last.toAt
  unfold TokenStream.initializerNumber?
  refine choose ?_ (fun literal => ?_) (fun _ => choose ?_ (fun negated => ?_) (fun _ => rfl))
  · rw [one, starts.kind?]
  · rw [starts.kind?] at literal
    rw [starts.text_of_kind? literal.2 rfl]
  · rw [starts.is, next.kind?, ← two]
  · rw [next.kind?] at negated
    rw [next.text_of_kind? negated.2.2 rfl]

theorem sourceOf (starts : reloc.At first otherFirst) (stops : reloc.Past stop otherStop) :
    reloc.Same (source.sourceOf first stop) (target.sourceOf otherFirst otherStop) :=
  reloc.slices entire starts.startOf stops.pred.stopOf

theorem initializedMember {enumName otherName key : String}
    (names : reloc.Same enumName otherName) (keys : reloc.Same key key)
    (starts : reloc.Past first otherFirst) (stops : reloc.Past stop otherStop) :
    reloc.LoweredAlike (source.initializedMember enumName key first stop)
      (target.initializedMember otherName key otherFirst otherStop) := by
  have next := starts.succ_of_whole entire
  refine choose (by rw [stops.eq_iff next.toAt, starts.kind?]) (fun _ => ?_) (fun _ => ?_)
  · exact ⟨stringMember names keys starts.same_text, rfl, by simp, stops⟩
  · rw [initializerNumber? entire starts stops.toAt]
    split
    · exact counted names keys _ stops
    · exact ⟨numericMember names keys (sourceOf entire starts.toAt stops), rfl,
        fun _ same => NextMember.after.inj same ▸ keys, stops⟩

theorem memberValueEnd (closes : reloc.At close otherClose) (past : reloc.Past index other) :
    reloc.Past (source.memberValueEnd index close) (target.memberValueEnd other otherClose) :=
  seek entire closes (fun past => past.is ",") past

theorem enumMember {enumName otherName : String} (names : reloc.Same enumName otherName)
    (closes : reloc.At close otherClose) (past : reloc.Past index other)
    (following : NextMember) (known : ∀ key, following = .after key → reloc.Same key key) :
    reloc.Alike reloc.LoweredAlike (source.enumMember enumName index close following)
      (target.enumMember otherName other otherClose following) := by
  have next := past.succ_of_whole entire
  have starts := next.succ_of_whole entire
  have stops := memberValueEnd entire closes starts
  refine (memberKey past.toAt).bind fun keys => ?_
  obtain rfl := keys.eq
  refine choose (by rw [next.is]) (fun _ => ?_) (fun _ => ?_)
  · exact choose (stops.eq_iff starts.toAt) (fun _ => fail starts.toAt _)
      (fun _ => .ok (initializedMember entire names keys.same starts stops))
  · exact uninitializedMember names keys.same past keys.text next following known

theorem enumMembersFrom {enumName otherName : String} (names : reloc.Same enumName otherName)
    {index other : Nat} (closes : reloc.At close otherClose) (past : reloc.Past index other)
    (following : NextMember) (known : ∀ key, following = .after key → reloc.Same key key) :
    reloc.Alike reloc.Same (source.enumMembersFrom enumName index close following)
      (target.enumMembersFrom otherName other otherClose following) := by
  unfold TokenStream.enumMembersFrom
  split
  case isFalse outside =>
    rw [dif_neg (mt (past.lt_iff closes).mpr outside)]
    exact .ok (reloc.plain (by decide))
  case isTrue inside =>
    rw [dif_pos ((past.lt_iff closes).mp inside)]
    refine (enumMember entire names closes past following known).bind
      fun {member otherMember} alike => ?_
    split
    case isFalse plain =>
      rw [dif_neg (by rwa [← past.le_iff alike.stop.toAt, alike.stop.is])]
      exact choose (alike.stop.lt_iff closes) (fun _ => fail alike.stop.toAt _)
        (fun _ => .ok alike.statement)
    case isTrue comma =>
      rw [dif_pos (by rwa [← past.le_iff alike.stop.toAt, alike.stop.is]), alike.following]
      exact (enumMembersFrom names closes (alike.stop.succ_of_whole entire) member.following
        alike.known).bind fun rest => .ok (reloc.append alike.statement rest)
termination_by close - index

theorem enumDeclaration (starts : reloc.At first otherFirst)
    (at_ : reloc.At keyword otherKeyword) :
    reloc.Alike reloc.ProgressAlike (source.enumDeclaration first keyword)
      (target.enumDeclaration otherFirst otherKeyword) := by
  have name := at_.succ_of_whole entire
  have opening := name.succ_of_whole entire
  refine choose (by rw [opening.is]) (fun _ => ?_) (fun _ => fail opening.toAt _)
  refine (closeOf opening.toAt).bind fun closes => ?_
  refine (enumMembersFrom entire name.same_text closes.here.toAt
    (closes.inside opening.toAt) (.value .zero) (by simp)).bind fun body => .ok ?_
  exact ⟨closes.next, .single (.replace starts.startOf closes.here.stopOf
    (enumObject name.same_text body))⟩

/-! ## Class heads -/

theorem modifiesMember (past : reloc.Past index other) :
    target.modifiesMember other = source.modifiesMember index := by
  have next := past.succ_of_whole entire
  unfold TokenStream.modifiesMember
  rw [next.textIn (by decide), next.newlineBefore]

theorem modifiersEnd (closes : reloc.At close otherClose) (past : reloc.Past index other) :
    reloc.Past (source.modifiersEnd index close) (target.modifiersEnd other otherClose) :=
  runEnd past (fun past => past.lt_iff closes)
    (fun past => by rw [past.textIn (by decide), modifiesMember entire past])
    fun past _ _ => past.succ_of_whole entire

end Whole

theorem erasedModifiers (starts : reloc.Past first otherFirst)
    (stops : reloc.At stop otherStop) :
    reloc.EditsAlike (source.erasedModifiers first stop)
      (target.erasedModifiers otherFirst otherStop) := by
  have indices := range starts stops
  unfold TokenStream.erasedModifiers
  generalize List.range' first (stop - first) = here at indices ⊢
  generalize List.range' otherFirst (otherStop - otherFirst) = there at indices ⊢
  induction indices with
  | nil => exact .nil
  | @cons index other _ _ alike _ inductionHypothesis =>
    have kept : target.textIn other keptModifiers = source.textIn index keptModifiers :=
      alike.1.textIn (by decide)
    have ambient : target.textIn other ambientModifiers = source.textIn index ambientModifiers :=
      alike.1.textIn (by decide)
    rw [List.filterMap_cons, List.filterMap_cons, kept, ambient]
    by_cases stays : (source.textIn index keptModifiers ||
        source.textIn index ambientModifiers) = true
    · rw [if_pos stays, if_pos stays]
      exact inductionHypothesis
    · rw [if_neg stays, if_neg stays]
      exact .cons (leading alike.1.toAt alike.2.toAt) inductionHypothesis

theorem isAmbientMember (starts : reloc.Past first otherFirst)
    (stops : reloc.At stop otherStop) :
    target.isAmbientMember otherFirst otherStop = source.isAmbientMember first stop := by
  have indices := range starts stops
  unfold TokenStream.isAmbientMember
  generalize List.range' first (stop - first) = here at indices ⊢
  generalize List.range' otherFirst (otherStop - otherFirst) = there at indices ⊢
  induction indices with
  | nil => rfl
  | cons alike _ inductionHypothesis =>
    rw [List.any_cons, List.any_cons, inductionHypothesis, alike.1.textIn (by decide)]

/-! ## Members -/

theorem memberNameEnd (at_ : reloc.At index other) :
    reloc.Alike reloc.Past (source.memberNameEnd index) (target.memberNameEnd other) := by
  refine choose (by rw [at_.is])
    (fun _ => (closeOf at_).bind fun closes => .ok closes.next) (fun _ => ?_)
  rw [at_.kind?]
  split
  case h_1 word => exact .ok (at_.succ_of_kind? word (by decide))
  case h_2 string => exact .ok (at_.succ_of_kind? string (by decide))
  case h_3 number => exact .ok (at_.succ_of_kind? number (by decide))
  case h_4 => exact fail at_ _

theorem baseArgumentsEnd? (at_ : reloc.At index other) :
    Option.Rel reloc.Past (source.baseArgumentsEnd? index) (target.baseArgumentsEnd? other) := by
  unfold TokenStream.baseArgumentsEnd?
  obtain ⟨here, there⟩ | ⟨stop, otherStop, here, there, ends⟩ :=
    lookup_cases (typeArgumentsEnd? at_)
  · rw [here, there]
    exact .none
  · rw [here, there, Option.filter_some, Option.filter_some, ends.is, ends.is]
    exact choose Iff.rfl (fun _ => .some ends) (fun _ => .none)

theorem implementedTypes (past : reloc.Past index other) :
    reloc.Alike reloc.ProgressAlike (source.implementedTypes index)
      (target.implementedTypes other) :=
  choose (by rw [past.is])
    (fun implemented => (typeListEnd (past.succ_of_is implemented (by decide))).bind
      fun ends => .ok ⟨ends, .single (attached past ends)⟩)
    (fun _ => .ok (.still past))

theorem propertyAssignments {properties : List String}
    (same : ∀ name ∈ properties, reloc.Same name name) :
    reloc.Same (TokenStream.propertyAssignments properties)
      (TokenStream.propertyAssignments properties) := by
  induction properties with
  | nil => exact reloc.plain (by decide)
  | cons name names inductionHypothesis =>
    have first := same name (List.mem_cons_self ..)
    have rest := inductionHypothesis fun name member => same name (List.mem_cons_of_mem _ member)
    unfold TokenStream.propertyAssignments at rest ⊢
    rw [List.map_cons, String.join_cons]
    exact reloc.append (reloc.append (reloc.append (reloc.append (reloc.append
      (reloc.plain (by decide)) first) (reloc.plain (by decide))) first)
        (reloc.plain (by decide))) rest

section Whole

variable (entire : reloc.Whole)

include entire

theorem startsIndexSignature (past : reloc.Past index other) :
    target.startsIndexSignature other = source.startsIndexSignature index := by
  have next := past.succ_of_whole entire
  have last := next.succ_of_whole entire
  unfold TokenStream.startsIndexSignature
  rw [past.is, next.isPlainWord, last.is]

theorem superCallEnd? (closes : reloc.At close otherClose) (past : reloc.Past index other) :
    reloc.Alike (Option.Rel reloc.Past) (source.superCallEnd? index close)
      (target.superCallEnd? other otherClose) := by
  have call : reloc.Past
      (source.seek (fun index => source.is index "super" && source.is (index + 1) "(") close index)
      (target.seek (fun index => target.is index "super" && target.is (index + 1) "(") otherClose
        other) :=
    seek entire closes (fun past => by rw [past.is, (past.succ_of_whole entire).is]) past
  refine choose (call.lt_iff closes) (fun _ => ?_) (fun _ => .ok .none)
  refine (closeOf (call.succ_of_whole entire).toAt).bind fun stops => .ok (.some ?_)
  exact choose (by rw [stops.next.is]) (fun _ => stops.next) (fun _ => stops.here)

theorem assignmentAnchor (starts : reloc.Past opening otherOpening)
    (closes : reloc.At close otherClose) (derived : Bool) :
    reloc.Alike reloc.Past (source.assignmentAnchor opening close derived)
      (target.assignmentAnchor otherOpening otherClose derived) := by
  cases derived with
  | false => exact .ok starts
  | true =>
    refine (superCallEnd? entire closes (starts.succ_of_whole entire)).bind fun call => ?_
    cases call with
    | none => exact .ok starts
    | some call => exact .ok call

theorem classNameEnd (at_ : reloc.At keyword otherKeyword) :
    reloc.Past (source.classNameEnd keyword) (target.classNameEnd otherKeyword) := by
  have next := at_.succ_of_whole entire
  exact choose (by rw [next.isPlainWord, next.textIn (by decide)])
    (fun _ => next.succ_of_whole entire) (fun _ => next)

end Whole

section Walks

variable {walk otherWalk : Walk} (walks : reloc.WalksAlike walk otherWalk)

include walks

theorem memberHead {modified otherModified name otherName nameEnd otherNameEnd markerEnd
    otherMarkerEnd : Nat} (starts : reloc.Past first otherFirst)
    (modifiers : reloc.At modified otherModified) (names : reloc.At name otherName)
    (ends : reloc.At nameEnd otherNameEnd) (marks : reloc.At markerEnd otherMarkerEnd) :
    reloc.Alike reloc.EditsAlike
      (source.memberHead walk first modified name nameEnd markerEnd)
      (target.memberHead otherWalk otherFirst otherModified otherName otherNameEnd
        otherMarkerEnd) := by
  have marker : reloc.EditsAlike
      (if nameEnd < markerEnd then [source.single nameEnd] else [])
      (if otherNameEnd < otherMarkerEnd then [target.single otherNameEnd] else []) :=
    choose (ends.lt_iff marks) (fun _ => .single (single ends)) (fun _ => .nil)
  unfold TokenStream.memberHead
  dsimp only
  refine choose (by rw [names.is]) (fun _ => ?_) (fun _ => ?_)
  · exact (walkInside walks names).bind fun inside =>
      .ok (((erasedModifiers starts modifiers).append inside.edits).append marker)
  · exact .ok (((erasedModifiers starts modifiers).append .nil).append marker)

theorem heritagePart (past : reloc.Past index other)
    (next : reloc.Past (index + 1) (other + 1)) :
    reloc.Alike reloc.ProgressAlike (source.heritagePart walk index)
      (target.heritagePart otherWalk other) := by
  unfold TokenStream.heritagePart
  obtain ⟨here, there⟩ | ⟨_, _, here, there, ends⟩ :=
    lookup_cases (baseArgumentsEnd? past.toAt)
  · rw [here, there]
    exact choose (by rw [past.is, past.is]) (fun _ => walkInside walks past.toAt)
      (fun _ => .ok (.still next))
  · rw [here, there]
    exact .ok ⟨ends, .single (attached past ends)⟩

variable (entire : reloc.Whole)

include entire

theorem constructorBody (starts : reloc.Past opening otherOpening) (derived : Bool)
    {properties : List String} (same : ∀ name ∈ properties, reloc.Same name name) :
    reloc.Alike reloc.ProgressAlike (source.constructorBody walk opening derived properties)
      (target.constructorBody otherWalk otherOpening derived properties) := by
  refine (closeOf starts.toAt).bind fun closes => ?_
  refine (assignmentAnchor entire starts closes.here.toAt derived).bind fun anchor => ?_
  have next := anchor.succ_of_whole entire
  refine (walks (closes.inside starts.toAt) (.upTo next.toAt)).bind fun before => ?_
  refine (walks next (.upTo closes.here.toAt)).bind fun after => .ok ⟨closes.next, ?_⟩
  exact (before.edits.append (.single (.insert anchor.stopOf (propertyAssignments same)))).append
    after.edits

theorem methodBody {name otherName : Nat} (starts : reloc.Past opening otherOpening)
    (names : reloc.At name otherName) (derived : Bool) {properties : List String}
    (same : ∀ name ∈ properties, reloc.Same name name) :
    reloc.Alike reloc.ProgressAlike
      (source.methodBody walk opening name derived properties)
      (target.methodBody otherWalk otherOpening otherName derived properties) :=
  choose (by rw [names.text_beq (by decide)])
    (fun _ => constructorBody walks entire starts derived same)
    (fun _ => walkInside walks starts.toAt)

theorem methodMember {modified otherModified name otherName nameEnd otherNameEnd markerEnd
    otherMarkerEnd : Nat} (starts : reloc.Past first otherFirst)
    (modifiers : reloc.At modified otherModified) (names : reloc.At name otherName)
    (ends : reloc.At nameEnd otherNameEnd) (marks : reloc.Past markerEnd otherMarkerEnd)
    (opens : reloc.Past opening otherOpening) (derived : Bool) :
    reloc.Alike reloc.ProgressAlike
      (source.methodMember walk first modified name nameEnd markerEnd opening derived)
      (target.methodMember otherWalk otherFirst otherModified otherName otherNameEnd
        otherMarkerEnd otherOpening derived) := by
  refine (closeOf opens.toAt).bind fun closes => ?_
  refine (annotationEnd closes.next).bind fun body => ?_
  refine choose (by rw [body.is]) (fun _ => ?_) (fun _ => .ok ?_)
  · refine (memberHead walks starts modifiers names ends marks.toAt).bind fun head => ?_
    refine (parametersFrom walks closes.here.toAt (closes.inside opens.toAt)).bind
      fun parameters => ?_
    rw [parameters.properties]
    refine (methodBody walks entire body names derived parameters.same).bind fun inside =>
      .ok (inside.preceded ?_)
    exact ((head.append (attachedIf marks opens)).append parameters.edits).append
      (attachedIf closes.next body)
  · have stops := afterSemicolon entire body
    exact ⟨stops, .single (whole starts.toAt stops)⟩

theorem fieldMember {modified otherModified name otherName nameEnd otherNameEnd headEnd
    otherHeadEnd : Nat} (starts : reloc.Past first otherFirst)
    (modifiers : reloc.At modified otherModified) (names : reloc.At name otherName)
    (ends : reloc.At nameEnd otherNameEnd) (heads : reloc.Past headEnd otherHeadEnd)
    (closes : reloc.At close otherClose) :
    reloc.Alike reloc.ProgressAlike
      (source.fieldMember walk first modified name nameEnd headEnd close)
      (target.fieldMember otherWalk otherFirst otherModified otherName otherNameEnd
        otherHeadEnd otherClose) := by
  refine (memberHead walks starts modifiers names ends heads.toAt).bind fun head => ?_
  refine (annotationErased heads).bind fun annotation => ?_
  refine (initializer walks annotation.next (.before closes (by decide) .member)).bind
    fun value => .ok ⟨afterSemicolon entire value.next, ?_⟩
  exact (head.append annotation.edits).append value.edits

theorem namedMember {modified otherModified : Nat} (starts : reloc.Past first otherFirst)
    (modifiers : reloc.Past modified otherModified) (closes : reloc.At close otherClose)
    (derived : Bool) :
    reloc.Alike reloc.ProgressAlike (source.namedMember walk first modified close derived)
      (target.namedMember otherWalk otherFirst otherModified otherClose derived) := by
  have name := modifiers.optional "*" (by decide)
  refine (memberNameEnd name.toAt).bind fun {nameEnd otherNameEnd} ends => ?_
  have marks : reloc.Past
      (if source.is nameEnd "?" || source.is nameEnd "!" then nameEnd + 1 else nameEnd)
      (if target.is otherNameEnd "?" || target.is otherNameEnd "!" then otherNameEnd + 1
        else otherNameEnd) :=
    choose (by rw [ends.is, ends.is]) (fun _ => ends.succ_of_whole entire) (fun _ => ends)
  refine (optionalTypeParameters marks).bind fun generics => ?_
  refine choose (by rw [generics.is])
    (fun _ => methodMember walks entire starts modifiers.toAt name.toAt ends.toAt marks generics
      derived) (fun _ => ?_)
  exact choose (marks.lt_iff generics.toAt) (fun _ => fail generics.toAt _)
    (fun _ => fieldMember walks entire starts modifiers.toAt name.toAt ends.toAt marks closes)

theorem classMember (starts : reloc.Past first otherFirst)
    (closes : reloc.Past close otherClose) (derived : Bool) :
    reloc.Alike reloc.ProgressAlike (source.classMember walk first close derived)
      (target.classMember otherWalk otherFirst otherClose derived) := by
  have modified := modifiersEnd entire closes.toAt starts
  refine choose (by rw [starts.is]) (fun _ => .ok (.still (starts.succ_of_whole entire)))
    (fun _ => ?_)
  refine choose (by rw [starts.is]) (fun _ => fail starts.toAt _) (fun _ => ?_)
  refine choose ?_ (fun _ => walkInside walks modified.toAt) (fun _ => ?_)
  · rw [modified.is, modified.pred.is, decide_eq_decide.mpr (starts.lt_iff modified.toAt)]
  refine choose ?_ (fun _ => .ok ?_)
    (fun _ => namedMember walks entire starts modified closes.toAt derived)
  · rw [isAmbientMember starts modified.toAt, startsIndexSignature entire modified]
  · have stops := statementEnd entire closes modified
    exact ⟨stops, .single (whole starts.toAt stops)⟩

theorem classMembersFrom {index other : Nat} (closes : reloc.Past close otherClose)
    (past : reloc.Past index other) (derived : Bool) :
    reloc.Alike reloc.EditsAlike (source.classMembersFrom walk index close derived)
      (target.classMembersFrom otherWalk other otherClose derived) := by
  unfold TokenStream.classMembersFrom
  split
  case isFalse outside =>
    rw [dif_neg (mt (past.lt_iff closes.toAt).mpr outside)]
    exact .ok .nil
  case isTrue inside =>
    rw [dif_pos ((past.lt_iff closes.toAt).mp inside)]
    refine (classMember walks entire past closes derived).bind fun {member otherMember} ends => ?_
    split
    case isFalse back =>
      rw [dif_neg (mt (past.lt_iff ends.next.toAt).mpr back)]
      exact .ok ends.edits
    case isTrue forward =>
      rw [dif_pos ((past.lt_iff ends.next.toAt).mp forward)]
      exact (classMembersFrom closes ends.next derived).bind fun rest =>
        .ok (ends.edits.append rest)
termination_by close - index

/-! ## Classes -/

theorem heritageFrom {index other : Nat} (past : reloc.Past index other) :
    reloc.Alike reloc.ProgressAlike (source.heritageFrom walk index)
      (target.heritageFrom otherWalk other) := by
  unfold TokenStream.heritageFrom
  split
  case isFalse outside =>
    rw [dif_neg (mt past.lt_size_iff.mpr outside)]
    exact .ok (.still past)
  case isTrue inside =>
    rw [dif_pos (past.lt_size_iff.mp inside)]
    refine choose (by rw [past.is, past.is]) (fun _ => .ok (.still past)) (fun _ => ?_)
    refine (heritagePart walks past (past.succ_of_whole entire)).bind
      fun {part otherPart} ends => ?_
    split
    case isFalse back =>
      rw [dif_neg (mt (past.lt_iff ends.next.toAt).mpr back)]
      exact .ok ends
    case isTrue forward =>
      rw [dif_pos ((past.lt_iff ends.next.toAt).mp forward)]
      exact (heritageFrom ends.next).bind fun rest => .ok (rest.preceded ends.edits)
termination_by source.size - index

theorem heritage (past : reloc.Past index other) :
    reloc.Alike reloc.ProgressAlike (source.heritage walk index)
      (target.heritage otherWalk other) :=
  choose (by rw [past.is]) (fun _ => heritageFrom walks entire (past.succ_of_whole entire))
    (fun _ => .ok (.still past))

theorem classDeclaration (at_ : reloc.At keyword otherKeyword) :
    reloc.Alike reloc.ProgressAlike (source.classDeclaration walk keyword)
      (target.classDeclaration otherWalk otherKeyword) := by
  have name := classNameEnd entire at_
  refine (optionalTypeParameters name).bind fun generics => ?_
  refine (heritage walks entire generics).bind fun base => ?_
  refine (implementedTypes base.next).bind fun implemented => ?_
  have head := ((attachedIf name generics).append base.edits).append implemented.edits
  refine choose (by rw [implemented.next.is]) (fun _ => ?_)
    (fun _ => .ok ⟨at_.succ_of_whole entire, head⟩)
  refine (closeOf implemented.next.toAt).bind fun closes => ?_
  rw [generics.is]
  exact (classMembersFrom walks entire closes.here (closes.inside implemented.next.toAt) _).bind
    fun members => .ok ⟨closes.next, head.append members⟩

end Walks

end Relocation

end Playground
