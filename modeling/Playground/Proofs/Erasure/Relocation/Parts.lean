import Playground.Proofs.Erasure.Relocation.TypeSyntax

/-!
# Clauses in streams that stand for one another

Walkers of clauses that hold no nested program answer alike at indices that stand for one
another. Searches for the end of a declaration, a module name or a specifier list pass
semicolons, so they are related only where the source takes up the rest of the target.
-/

namespace Playground.Relocation

open TokenStream

variable {source target : TokenStream} {reloc : Relocation source target}
variable {index other first otherFirst stop otherStop keyword otherKeyword : Nat}

/-! ## Answers -/

theorem fail {α β : Type} {Related : α → β → Prop} (at_ : reloc.At index other)
    (fault : SyntaxFault) :
    reloc.Alike Related (source.fail index fault) (target.fail other fault) :=
  .error at_.startOf

theorem closeOf (at_ : reloc.At index other) :
    reloc.Alike (reloc.Closes index) (source.closeOf index) (target.closeOf other) := by
  unfold TokenStream.closeOf
  obtain ⟨here, there⟩ | ⟨_, _, here, there, closes⟩ := lookup_cases at_.closer?
  · rw [here, there]
    exact fail at_ _
  · rw [here, there]
    exact .ok closes

theorem expectType (past : reloc.Past index other) :
    reloc.Alike reloc.Past (source.expectType index) (target.expectType other) := by
  unfold TokenStream.expectType
  obtain ⟨here, there⟩ | ⟨_, _, here, there, ends⟩ := lookup_cases (typeEnd? past)
  · rw [here, there]
    exact fail past.toAt _
  · rw [here, there]
    exact .ok ends

theorem typeListEnd {index other : Nat} (past : reloc.Past index other) :
    reloc.Alike reloc.Past (source.typeListEnd index) (target.typeListEnd other) := by
  unfold TokenStream.typeListEnd
  refine (expectType past).bind fun {stop otherStop} ends => ?_
  split
  case isFalse plain =>
    rw [dif_neg (by rwa [← past.le_iff ends.toAt, ends.is])]
    exact .ok ends
  case isTrue comma =>
    rw [dif_pos (by rwa [← past.le_iff ends.toAt, ends.is])]
    have := lt_size_of_is comma.2
    exact typeListEnd (ends.succ_of_is comma.2 (by decide))
termination_by source.size - index

theorem optionalTypeParameters (past : reloc.Past index other) :
    reloc.Alike reloc.Past (source.optionalTypeParameters index)
      (target.optionalTypeParameters other) := by
  refine choose (by rw [past.is]) (fun _ => ?_) (fun _ => .ok past)
  unfold TokenStream.expectTypeParameters
  obtain ⟨here, there⟩ | ⟨_, _, here, there, ends⟩ := lookup_cases (typeParametersEnd? past.toAt)
  · rw [here, there]
    exact fail past.toAt _
  · rw [here, there]
    exact .ok ends

theorem annotationEnd (past : reloc.Past index other) :
    reloc.Alike reloc.Past ( source.optionalAnnotation index)
      ( target.optionalAnnotation other) :=
  choose (by rw [past.is]) (fun colon => expectType (past.succ_of_is colon (by decide)))
    (fun _ => .ok past)

/-! ## Edits -/

theorem attached (starts : reloc.Past first otherFirst) (stops : reloc.Past stop otherStop) :
    reloc.EditAlike (source.attached first stop) (target.attached otherFirst otherStop) := by
  refine .erase (choose ?_ (fun _ => starts.startOf) (fun _ => starts.pred.stopOf))
    stops.pred.stopOf
  have := starts.shifted
  have := starts.later
  omega

theorem whole (starts : reloc.At first otherFirst) (stops : reloc.Past stop otherStop) :
    reloc.EditAlike (source.whole first stop) (target.whole otherFirst otherStop) :=
  .erase starts.startOf stops.pred.stopOf

theorem leading (at_ : reloc.At index other) (next : reloc.At (index + 1) (other + 1)) :
    reloc.EditAlike (source.leading index) (target.leading other) :=
  .erase at_.startOf next.startOf

theorem single (at_ : reloc.At index other) :
    reloc.EditAlike (source.single index) (target.single other) :=
  .erase at_.startOf at_.stopOf

theorem attachedIf (starts : reloc.Past first otherFirst) (stops : reloc.Past stop otherStop) :
    reloc.EditsAlike (source.attachedIf first stop) (target.attachedIf otherFirst otherStop) :=
  choose (starts.lt_iff stops.toAt) (fun _ => .single (attached starts stops)) (fun _ => .nil)

/-! ## Statements -/

theorem walkInside {walk otherWalk : Walk} (walks : reloc.WalksAlike walk otherWalk)
    (at_ : reloc.At index other) :
    reloc.Alike reloc.ProgressAlike (source.walkInside walk index)
      (target.walkInside otherWalk other) :=
  (closeOf at_).bind fun closes =>
    (walks (closes.inside at_) (.upTo closes.here.toAt)).bind fun inside =>
      .ok ⟨closes.next, inside.edits⟩

theorem startsStatement (at_ : reloc.At index other) :
    target.startsStatement other = source.startsStatement index := by
  unfold TokenStream.startsStatement
  obtain past | ⟨rfl, -, -, semicolon⟩ := at_.past_or_first
  · have first : (other == 0) = (index == 0) := by
      rw [Bool.eq_iff_iff, beq_iff_eq, beq_iff_eq]
      have := past.shifted
      have := past.later
      omega
    rw [first, past.newlineBefore, past.pred.textIn (by decide)]
  · simp [TokenStream.textIn, semicolon]

theorem declarationStart {index other : Nat} (at_ : reloc.At index other) :
    reloc.At (source.declarationStart index) (target.declarationStart other) := by
  obtain past | ⟨rfl, positive, mark, -⟩ := at_.past_or_first
  · match index, other, past.pred with
    | 0, other, _ =>
      obtain rfl : other = 0 := by
        have := past.shifted
        have := past.later
        omega
      exact at_
    | index + 1, 0, _ =>
      have := at_.shifted
      omega
    | index + 1, other + 1, earlier =>
      have before : reloc.At index other := earlier
      exact choose (by rw [before.kind?, before.textIn (by decide)])
        (fun _ => declarationStart before) (fun _ => at_)
  · obtain ⟨previous, rfl⟩ := Nat.exists_eq_succ_of_ne_zero (Nat.ne_of_gt positive)
    rw [Nat.succ_sub_one] at mark
    simpa [TokenStream.declarationStart, mark] using at_

theorem declarationErased (at_ : reloc.At keyword otherKeyword)
    (stops : reloc.Past stop otherStop) :
    reloc.EditAlike (source.declarationErased keyword stop)
      (target.declarationErased otherKeyword otherStop) :=
  whole (declarationStart at_) stops

/-! ## Searches -/

theorem endsDeclaration (starts : reloc.At first otherFirst) (past : reloc.Past index other) :
    target.endsDeclaration otherFirst other = source.endsDeclaration first index := by
  unfold TokenStream.endsDeclaration TokenStream.continuesAfter TokenStream.continuesAt
  rw [past.newlineBefore, past.pred.textIn (by decide), past.textIn (by decide),
    decide_eq_decide.mpr (starts.lt_iff past.toAt)]

theorem startsImportClause (past : reloc.Past index other) :
    target.startsImportClause other = source.startsImportClause index := by
  unfold TokenStream.startsImportClause
  rw [past.isPlainWord, past.is, past.is, past.kind?]

theorem firstBrace? (starts : reloc.Past first otherFirst) (stops : reloc.At stop otherStop) :
    Option.Rel reloc.Past (source.firstBrace? first stop)
      (target.firstBrace? otherFirst otherStop) := by
  have indices := range starts stops
  unfold TokenStream.firstBrace?
  generalize List.range' first (stop - first) = here at indices ⊢
  generalize List.range' otherFirst (otherStop - otherFirst) = there at indices ⊢
  induction indices with
  | nil => exact .none
  | cons alike _ inductionHypothesis =>
    rw [List.find?_cons, List.find?_cons, alike.1.is]
    split
    · exact .some alike.1
    · exact inductionHypothesis

section Whole

variable (entire : reloc.Whole)

include entire

theorem afterSemicolon (past : reloc.Past index other) :
    reloc.Past (source.afterSemicolon index) (target.afterSemicolon other) :=
  choose (by rw [past.is]) (fun _ => past.succ_of_whole entire) (fun _ => past)

theorem skip (past : reloc.Past index other) :
    reloc.Past (source.skip index) (target.skip other) := by
  unfold TokenStream.skip
  obtain ⟨here, there⟩ | ⟨_, _, here, there, closes⟩ := lookup_cases past.closer?
  · rw [here, there]
    exact past.succ_of_whole entire
  · rw [here, there]
    exact closes.next

/-- Searches for tokens that are found alike end alike. -/
theorem seek {found otherFound : Nat → Bool} {limit otherLimit index other : Nat}
    (limits : reloc.At limit otherLimit)
    (same : ∀ {index other}, reloc.Past index other → otherFound other = found index)
    (past : reloc.Past index other) :
    reloc.Past (source.seek found limit index) (target.seek otherFound otherLimit other) := by
  unfold TokenStream.seek
  split
  case isFalse outside =>
    rw [dif_neg (mt (past.lt_iff limits).mpr outside)]
    exact past
  case isTrue inside =>
    rw [dif_pos ((past.lt_iff limits).mp inside)]
    have := source.lt_skip index
    exact choose (by rw [same past]) (fun _ => past)
      (fun _ => seek limits same (skip entire past))
termination_by limit - index

theorem statementEnd {limit otherLimit : Nat} (limits : reloc.Past limit otherLimit)
    (starts : reloc.Past first otherFirst) :
    reloc.Past (source.statementEnd first limit) (target.statementEnd otherFirst otherLimit) := by
  have stop : reloc.Past
      (source.seek (fun index => source.endsDeclaration first index || source.is index ";") limit
        first)
      (target.seek (fun index => target.endsDeclaration otherFirst index || target.is index ";")
        otherLimit otherFirst) :=
    seek entire limits.toAt
      (fun past => by rw [endsDeclaration starts.toAt past, past.is]) starts
  refine choose (limits.le_iff stop.toAt) (fun _ => limits) (fun _ => ?_)
  exact choose (by rw [endsDeclaration starts.toAt stop]) (fun _ => stop)
    (fun _ => stop.succ_of_whole entire)

theorem moduleClauseEnd (past : reloc.Past index other) :
    reloc.Past (source.moduleClauseEnd index) (target.moduleClauseEnd other) := by
  have name : reloc.Past
      (source.seek (fun index => source.kind? index == some .string) source.size index)
      (target.seek (fun index => target.kind? index == some .string) target.size other) :=
    seek entire (at_size entire) (fun past => by rw [past.kind?]) past
  exact choose name.lt_size_iff (fun _ => afterSemicolon entire (name.succ_of_whole entire))
    (fun _ => name)

theorem exportClauseEnd (past : reloc.Past index other) :
    reloc.Alike reloc.Past (source.exportClauseEnd index) (target.exportClauseEnd other) := by
  have next := past.succ_of_whole entire
  have ends : ∀ {names otherNames}, reloc.Past names otherNames → reloc.Past
      (source.afterSemicolon (if source.is names "from" then names + 2 else names))
      (target.afterSemicolon (if target.is otherNames "from" then otherNames + 2 else otherNames)) :=
    fun names => afterSemicolon entire (choose (by rw [names.is])
      (fun _ => (names.succ_of_whole entire).succ_of_whole entire) (fun _ => names))
  unfold TokenStream.exportClauseEnd
  dsimp only
  refine choose (by rw [past.is])
    (fun _ => (closeOf past.toAt).bind fun closes => .ok (ends closes.next)) (fun _ => ?_)
  exact choose (by rw [next.is])
    (fun _ => .ok (ends ((next.succ_of_whole entire).succ_of_whole entire)))
    (fun _ => .ok (ends next))

/-! ## Declarations that vanish -/

theorem extendedTypesEnd (past : reloc.Past index other) :
    reloc.Alike reloc.Past (source.extendedTypesEnd index) (target.extendedTypesEnd other) :=
  choose (by rw [past.is]) (fun _ => typeListEnd (past.succ_of_whole entire))
    (fun _ => .ok past)

theorem interfaceDeclaration (at_ : reloc.At keyword otherKeyword) :
    reloc.Alike reloc.ProgressAlike (source.interfaceDeclaration keyword)
      (target.interfaceDeclaration otherKeyword) := by
  refine (optionalTypeParameters ((at_.succ_of_whole entire).succ_of_whole entire)).bind
    fun generics => (extendedTypesEnd entire generics).bind fun opening => ?_
  refine choose (by rw [opening.is]) (fun _ => ?_) (fun _ => fail opening.toAt _)
  exact (closeOf opening.toAt).bind fun closes =>
    .ok ⟨closes.next, .single (declarationErased at_ closes.next)⟩

theorem aliasDeclaration (at_ : reloc.At keyword otherKeyword) :
    reloc.Alike reloc.ProgressAlike (source.aliasDeclaration keyword)
      (target.aliasDeclaration otherKeyword) := by
  have next := at_.succ_of_whole entire
  refine (optionalTypeParameters (next.succ_of_whole entire)).bind fun generics => ?_
  refine choose (by rw [generics.is]) (fun _ => ?_) (fun _ => .ok (.still next))
  refine (expectType (generics.succ_of_whole entire)).bind fun type => .ok ?_
  have stops := afterSemicolon entire type
  exact ⟨stops, .single (declarationErased at_ stops)⟩

theorem ambientDeclaration (at_ : reloc.At keyword otherKeyword) (inside : 0 < source.size) :
    reloc.ProgressAlike (source.ambientDeclaration keyword)
      (target.ambientDeclaration otherKeyword) := by
  have stops := statementEnd entire ⟨at_size entire, .inl inside⟩ (at_.succ_of_whole entire)
  exact ⟨stops, .single (declarationErased at_ stops)⟩

/-! ## Imports and exports -/

theorem specifierEnd {close otherClose : Nat} (closes : reloc.At close otherClose)
    (past : reloc.Past index other) :
    reloc.Past (source.specifierEnd index close) (target.specifierEnd other otherClose) :=
  runEnd past (fun past => past.lt_iff closes) (fun past => by rw [past.is])
    fun past _ _ => past.succ_of_whole entire

theorem isTypeSpecifier (past : reloc.Past index other) :
    target.isTypeSpecifier other = source.isTypeSpecifier index := by
  have next := past.succ_of_whole entire
  unfold TokenStream.isTypeSpecifier
  rw [past.is, next.isPlainWord, next.is]

theorem erasedSpecifiersFrom {index other close otherClose : Nat}
    (closes : reloc.At close otherClose) (past : reloc.Past index other) :
    reloc.EditsAlike (source.erasedSpecifiersFrom index close)
      (target.erasedSpecifiersFrom other otherClose) := by
  unfold TokenStream.erasedSpecifiersFrom
  split
  case isFalse outside =>
    rw [dif_neg (mt (past.lt_iff closes).mpr outside)]
    exact .nil
  case isTrue inside =>
    rw [dif_pos ((past.lt_iff closes).mp inside)]
    have stops := specifierEnd entire closes past
    have : index ≤ source.specifierEnd index close := le_runEnd ..
    refine .append ?_ (erasedSpecifiersFrom closes (stops.succ_of_whole entire))
    refine choose (by rw [isTypeSpecifier entire past]) (fun _ => ?_) (fun _ => .nil)
    refine .single (.erase past.startOf (At.startOf ?_))
    exact choose (by rw [stops.is]) (fun _ => (stops.succ_of_whole entire).toAt)
      (fun _ => stops.toAt)
termination_by close - index

theorem erasedSpecifiers (starts : reloc.Past first otherFirst)
    (stops : reloc.At stop otherStop) :
    reloc.Alike reloc.EditsAlike (source.erasedSpecifiers first stop)
      (target.erasedSpecifiers otherFirst otherStop) := by
  unfold TokenStream.erasedSpecifiers
  obtain ⟨here, there⟩ | ⟨_, _, here, there, opening⟩ :=
    lookup_cases (firstBrace? starts stops)
  · rw [here, there]
    exact .ok .nil
  · rw [here, there]
    exact (closeOf opening.toAt).bind fun closes =>
      .ok (erasedSpecifiersFrom entire closes.here.toAt (closes.inside opening.toAt))

theorem isTypeImport (past : reloc.Past index other) :
    target.isTypeImport other = source.isTypeImport index := by
  have next := past.succ_of_whole entire
  unfold TokenStream.isTypeImport
  rw [past.is, next.is, next.is, next.is, next.isPlainWord]

theorem importDeclaration (at_ : reloc.At keyword otherKeyword) :
    reloc.Alike reloc.ProgressAlike (source.importDeclaration keyword)
      (target.importDeclaration otherKeyword) := by
  have clause := at_.succ_of_whole entire
  have stops := moduleClauseEnd entire clause
  refine choose (by rw [startsImportClause clause]) (fun _ => ?_)
    (fun _ => .ok (.still clause))
  refine choose (by rw [isTypeImport entire clause])
    (fun _ => .ok ⟨stops, .single (whole at_ stops)⟩) (fun _ => ?_)
  exact (erasedSpecifiers entire clause stops.toAt).bind fun edits => .ok ⟨stops, edits⟩

theorem exportDeclaration (at_ : reloc.At keyword otherKeyword) (inside : 0 < source.size) :
    reloc.Alike reloc.ProgressAlike (source.exportDeclaration keyword)
      (target.exportDeclaration otherKeyword) := by
  have clause := at_.succ_of_whole entire
  have next := clause.succ_of_whole entire
  refine choose (by rw [clause.is, next.is, next.is]) (fun _ => ?_) (fun _ => ?_)
  · exact (exportClauseEnd entire next).bind fun stops =>
      .ok ⟨stops, .single (whole at_ stops)⟩
  refine choose (by rw [clause.is, next.is]) (fun _ => .ok ?_) (fun _ => ?_)
  · have stops := statementEnd entire ⟨at_size entire, .inl inside⟩ clause
    exact ⟨stops, .single (whole at_ stops)⟩
  refine choose (by rw [clause.is]) (fun _ => ?_) (fun _ => .ok (.still clause))
  exact (closeOf clause.toAt).bind fun closes =>
    (erasedSpecifiers entire clause closes.next.toAt).bind fun edits =>
      .ok ⟨closes.next, edits⟩

end Whole

end Playground.Relocation
