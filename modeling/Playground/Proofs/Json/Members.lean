import Mathlib.Data.List.Pairwise
import Playground.Proofs.Json.Records
import Playground.Proofs.Json.Skipping

/-!
# Objects in any order

An object gives some fields of a record, in any order, among members whose names the record does not
have. Whatever the order is and whatever the other members hold, the record comes out with the same
changes (`accepts_of_objectText`). A field that stands for the second time is refused where its name
ends, in the object itself (`Repeats.refused`) or in one that a field holds
(`RepeatsInside.refused`).
-/

namespace Playground.JsonReader

/-! ## Written objects -/

/-- A field that an object gives: the written forms of its value, and the change that it makes. -/
structure GivenField (σ : Type) where
  name : String
  written : List Char → Prop
  change : σ → σ

/-- The field of a name, if there is a value for it. -/
def GivenField.ofOption {σ α : Type} (name : String) (written : α → List Char → Prop)
    (put : α → σ → σ) (value : Option α) : List (GivenField σ) :=
  value.toList.map fun value => ⟨name, written value, put value⟩

@[simp]
theorem GivenField.ofOption_none {σ α : Type} (name : String) (written : α → List Char → Prop)
    (put : α → σ → σ) : GivenField.ofOption name written put none = [] :=
  rfl

@[simp]
theorem GivenField.ofOption_some {σ α : Type} (name : String) (written : α → List Char → Prop)
    (put : α → σ → σ) (value : α) :
    GivenField.ofOption name written put (some value) = [⟨name, written value, put value⟩] :=
  rfl

section Written

variable {σ : Type}

/-- A member of an object, and the field that it gives. Names outside of `known` give none, and
their values are not looked at. -/
inductive MemberText (known : List String) : List (GivenField σ) → List Char → Prop where
  | given {field : GivenField σ} {head before value after : List Char}
      (named : NameText field.name head) (blank : Blanks before) (written : field.written value)
      (alsoBlank : Blanks after) :
      MemberText known [field] (head ++ (before ++ (value ++ after)))
  | other {name : String} {head before value after : List Char} (unknown : name ∉ known)
      (named : NameText name head) (blank : Blanks before) (formed : WellFormed .value value)
      (alsoBlank : Blanks after) :
      MemberText known [] (head ++ (before ++ (value ++ after)))

/-- Members with a comma behind each, and the fields that they give, in their order. -/
inductive Leading (known : List String) : List (GivenField σ) → List Char → Prop where
  | none : Leading known [] []
  | more {own order : List (GivenField σ)} {member others : List Char}
      (first : MemberText known own member) (leading : Leading known order others) :
      Leading known (own ++ order) (member ++ ',' :: others)

/-- An object that gives fields in any order, among members of unknown names. -/
inductive ObjectText (known : List String) : List (GivenField σ) → List Char → Prop where
  | empty {blanks : List Char} (blank : Blanks blanks) :
      ObjectText known [] ('{' :: (blanks ++ ['}']))
  | filled {order own given : List (GivenField σ)} {front member : List Char}
      (leading : Leading known order front) (last : MemberText known own member)
      (arranged : (order ++ own).Perm given) :
      ObjectText known given ('{' :: (front ++ (member ++ ['}'])))

/-- An object that has given fields and goes on with the name of one of them. What stands behind the
name does not matter. -/
inductive Repeats (known : List String) (given : List (GivenField σ)) : List Char → Prop where
  | mk {order : List (GivenField σ)} {name : String} {front before written : List Char}
      (leading : Leading known order front) (arranged : order.Perm given)
      (again : name ∈ given.map GivenField.name) (blank : Blanks before)
      (spelt : StringText name written) (rest : List Char) :
      Repeats known given ('{' :: (front ++ (before ++ (written ++ rest))))

/-- An object that has given fields and goes on with another, whose value is at fault. -/
inductive RepeatsInside (known : List String) (given : List (GivenField σ)) (name : String)
    (nested : List Char → Prop) : List Char → Prop where
  | mk {order : List (GivenField σ)} {front head before value : List Char}
      (leading : Leading known order front) (arranged : order.Perm given)
      (fresh : name ∉ given.map GivenField.name) (named : NameText name head)
      (blank : Blanks before) (inside : nested value) :
      RepeatsInside known given name nested ('{' :: (front ++ (head ++ (before ++ value))))

end Written

/-! ## Readers that go on as others do -/

section Continues

variable {α : Type} {input middle rest : List Char}

/-- A reader takes and refuses what another one does further on. -/
structure Continues (reader : JsonReader α) (input : List Char) (next : JsonReader α)
    (rest : List Char) : Prop where
  takes : ∀ {value left}, Yields next rest value left → Yields reader input value left
  fails : ∀ {fault}, next rest = .error fault → reader input = .error fault

theorem Continues.refl (reader : JsonReader α) (input : List Char) :
    Continues reader input reader input :=
  ⟨id, id⟩

theorem Continues.trans {first second third : JsonReader α}
    (near : Continues first input second middle) (far : Continues second middle third rest) :
    Continues first input third rest :=
  ⟨fun yields => near.takes (far.takes yields), fun fails => near.fails (far.fails fails)⟩

end Continues

variable {σ α : Type} {fields : List (RecordField σ)} {seen : List String} {record : σ}
  {input middle rest blanks text head written others : List Char} {name : String} {change : σ → σ}

/-- A member of an object with others behind it. -/
theorem continues_beforeComma (named : Yields (namedChange fields seen) input (name, change) middle)
    (comma : Yields nextMark middle ',' others) :
    Continues (objectFields fields seen record) input
      (objectFields fields (name :: seen) (change record)) others where
  takes yields := named.beforeComma comma yields
  fails fails := by
    obtain ⟨_, named⟩ := named
    obtain ⟨_, comma⟩ := comma
    rw [objectFields]
    simp only [named, comma, if_true, Taken.andThen, Taken.widen, fails]

/-- An object with a name in it. -/
theorem continues_objectRecord (opens : Yields nextMark input '"' middle) :
    Continues (objectRecord fields record) input (objectFields fields [] record) input := by
  obtain ⟨_, opens⟩ := opens
  have same : objectRecord fields record input = objectFields fields [] record input := by
    simp only [objectRecord, opens]
    rfl
  refine ⟨fun yields => ?_, same.trans⟩
  obtain ⟨shorter, read⟩ := yields
  exact ⟨shorter, same.trans read⟩

theorem afterBlanks_of_error {reader : JsonReader α} {fault : JsonFault}
    (fails : reader (skipBlanks input) = .error fault) :
    afterBlanks reader input = .error fault := by
  simp only [afterBlanks, fails]

/-- A record in object form, behind blanks. -/
theorem continues_record (blank : Blanks blanks) (input : List Char) :
    Continues (JsonReader.record fields record) (blanks ++ '{' :: input)
      (objectRecord fields record) input where
  takes yields := by
    obtain ⟨shorter, read⟩ := yields
    apply Yields.behind blank
    apply Yields.afterBlanks
    rw [skipBlanks_cons (by decide)]
    refine ⟨Nat.lt_succ_of_lt shorter, ?_⟩
    simp only [read]
    rfl
  fails fails := by
    apply afterBlanks_of_error
    rw [skipBlanks_append blank, skipBlanks_cons (by decide)]
    simp only [fails]

/-! ## Names -/

/-- A member whose value is refused. -/
theorem NameText.fails (named : NameText name head) {reader : JsonReader (σ → σ)}
    {fault : JsonFault} (found : fieldNamed fields seen name = .ok reader)
    (fails : reader input = .error fault) :
    namedChange fields seen (head ++ input) = .error fault := by
  obtain @⟨before, written, between, blank, spelt, blankBetween⟩ := named
  obtain ⟨middle, ⟨_, quote⟩, ⟨_, body⟩⟩ := spelt.reads blank (between ++ ':' :: input)
  obtain ⟨_, colon⟩ := yields_mark_behind blankBetween (by decide : isBlank ':' = false) input
  rw [List.append_assoc, List.append_assoc, List.append_assoc, List.singleton_append]
  simp only [namedChange, quote, body, String.ofList_toList, found, colon, fails]

/-- A name that is refused. -/
theorem StringText.fails (blank : Blanks blanks) (spelt : StringText name written)
    {fault : JsonFault} (refused : fieldNamed fields seen name = .error fault) :
    namedChange fields seen (blanks ++ (written ++ rest)) = .error fault := by
  obtain ⟨middle, ⟨_, quote⟩, ⟨_, body⟩⟩ := spelt.reads blank rest
  simp only [namedChange, quote, body, String.ofList_toList, refused]

theorem StringText.opens (blank : Blanks blanks) (spelt : StringText name written)
    (rest : List Char) : ∃ middle, Yields nextMark (blanks ++ (written ++ rest)) '"' middle := by
  obtain ⟨body, letters, rfl⟩ := spelt
  exact ⟨_, yields_nextMark_behind blank (by decide) _⟩

theorem NameText.opens (named : NameText name head) (rest : List Char) :
    ∃ middle, Yields nextMark (head ++ rest) '"' middle := by
  obtain ⟨blank, spelt, blankBetween⟩ := named
  simp only [List.append_assoc]
  exact spelt.opens blank _

theorem objectFields_of_error {fault : JsonFault}
    (fails : namedChange fields seen input = .error fault) :
    objectFields fields seen record input = .error fault := by
  rw [objectFields]
  simp only [fails]

/-! ## Members -/

/-- A record has a field, and reads every written form of its value as its change. -/
def Offers (fields : List (RecordField σ)) (given : GivenField σ) : Prop :=
  ∃ field, fields.find? (·.name == given.name) = some field ∧
    ∀ text, given.written text → Accepts field.change text given.change

theorem known_of_find? {field : RecordField σ}
    (isField : fields.find? (·.name == name) = some field) :
    name ∈ fields.map RecordField.name :=
  have same : field.name = name := by simpa using List.find?_some isField
  List.mem_map.mpr ⟨field, List.mem_of_find?_eq_some isField, same⟩

theorem Offers.known {given : GivenField σ} (offered : Offers fields given) :
    given.name ∈ fields.map RecordField.name := by
  obtain ⟨_, isField, _⟩ := offered
  exact known_of_find? isField

theorem Accepts.field {reader : JsonReader α} {value : α} (accepts : Accepts reader text value)
    (name : String) (put : α → σ → σ) :
    Accepts (RecordField.of name reader put).change text (put value) :=
  accepts.map fun read => by simp only [RecordField.of, read]

/-- A field is offered if the record has it and its written forms are read. -/
theorem offers_ofOption {field : RecordField σ} {forms : α → List Char → Prop}
    {put : α → σ → σ} (isField : fields.find? (·.name == name) = some field)
    (accepts : ∀ value text, forms value text → Accepts field.change text (put value))
    (value : Option α) : ∀ given ∈ GivenField.ofOption name forms put value,
      Offers fields given := by
  intro given member
  obtain ⟨value, _, rfl⟩ := List.mem_map.mp member
  exact ⟨field, isField, accepts value⟩

/-- The changes of fields, one after another. -/
def applied (order : List (GivenField σ)) (record : σ) : σ :=
  order.foldl (fun record field => field.change record) record

theorem applied_append (first second : List (GivenField σ)) (record : σ) :
    applied (first ++ second) record = applied second (applied first record) := by
  simp only [applied, List.foldl_append]

variable {own order given : List (GivenField σ)}

theorem fieldNamed_unknown (unknown : name ∉ fields.map RecordField.name) :
    fieldNamed fields seen name = .ok unchanged := by
  have absent : fields.find? (·.name == name) = none := by
    rw [List.find?_eq_none]
    intro field member same
    exact unknown (List.mem_map.mpr ⟨field, member, eq_of_beq same⟩)
  simp only [fieldNamed, absent]

theorem accepts_unchanged (formed : WellFormed .value text) :
    Accepts unchanged text (id : σ → σ) := by
  intro blanks rest blank ends
  obtain ⟨shorter, read⟩ := skips_of_wellFormed formed blanks rest blank ends
  refine ⟨shorter, ?_⟩
  simp only [unchanged, read]
  rfl

/-- Every member is read, up to the blanks behind its value. -/
theorem MemberText.yields (member : MemberText (fields.map RecordField.name) own text)
    (offered : ∀ field ∈ own, Offers fields field) (fresh : ∀ field ∈ own, field.name ∉ seen) :
    ∃ name change after, Blanks after ∧ (∀ record, change record = applied own record) ∧
      (∀ known ∈ fields.map RecordField.name, known = name ↔ known ∈ own.map GivenField.name) ∧
      ∀ rest, EndsNumber rest →
        Yields (namedChange fields seen) (text ++ rest) (name, change) (after ++ rest) := by
  cases member with
  | @given field head before value after named blank written alsoBlank =>
    obtain ⟨found, isField, accepts⟩ := offered field List.mem_cons_self
    have chosen : fieldNamed fields seen field.name = .ok found.change := by
      simp only [fieldNamed, isField, fresh field List.mem_cons_self, if_false]
    refine ⟨field.name, field.change, after, alsoBlank, fun _ => rfl, by simp, ?_⟩
    intro rest ends
    simp only [List.append_assoc]
    exact named.yields chosen
      (accepts value written before _ blank (endsNumber_append alsoBlank ends))
  | @other name head before value after unknown named blank formed alsoBlank =>
    refine ⟨name, id, after, alsoBlank, fun _ => rfl, ?_, ?_⟩
    · intro known member
      have apart : known ≠ name := by
        rintro rfl
        exact unknown member
      simp [apart]
    · intro rest ends
      simp only [List.append_assoc]
      exact named.yields (fieldNamed_unknown unknown)
        (accepts_unchanged formed before _ blank (endsNumber_append alsoBlank ends))

theorem MemberText.opens {known : List String} (member : MemberText known own text)
    (rest : List Char) : ∃ middle, Yields nextMark (text ++ rest) '"' middle := by
  cases member with
  | given named | other _ named =>
    simp only [List.append_assoc]
    exact named.opens _

/-- What opens with a name does so behind other members, too. -/
theorem Leading.opens {known : List String} (leading : Leading known order text)
    (opens : ∃ middle, Yields nextMark rest '"' middle) :
    ∃ middle, Yields nextMark (text ++ rest) '"' middle := by
  cases leading with
  | none => exact opens
  | more first =>
    simp only [List.append_assoc]
    exact first.opens _

/-- Behind members that are read, the names of their fields are known, and their changes made. -/
theorem Leading.continues (leading : Leading (fields.map RecordField.name) order text)
    (offered : ∀ field ∈ order, Offers fields field)
    (distinct : (order.map GivenField.name).Nodup) (fresh : ∀ field ∈ order, field.name ∉ seen)
    (record : σ) : ∃ passed,
      (∀ name ∈ fields.map RecordField.name,
        name ∈ passed ↔ name ∈ seen ∨ name ∈ order.map GivenField.name) ∧
      ∀ rest, Continues (objectFields fields seen record) (text ++ rest)
        (objectFields fields passed (applied order record)) rest := by
  -- each member leaves the reader at the next one, with its own name among those that were seen
  induction leading generalizing seen record with
  | none => exact ⟨seen, by simp, fun _ => .refl _ _⟩
  | @more own order member others first leading inductionHypothesis =>
    rw [List.map_append, List.nodup_append] at distinct
    rw [List.forall_mem_append] at offered fresh
    obtain ⟨name, change, after, blank, changes, named, yields⟩ :=
      first.yields offered.1 fresh.1
    have laterFresh : ∀ field ∈ order, field.name ∉ name :: seen := by
      intro field later
      rw [List.mem_cons, not_or]
      refine ⟨fun same => ?_, fresh.2 field later⟩
      have earlier := (named _ (offered.2 field later).known).mp same
      exact distinct.2.2 _ earlier _ (List.mem_map_of_mem later) rfl
    obtain ⟨passed, names, continues⟩ :=
      inductionHypothesis offered.2 distinct.2.1 laterFresh (change record)
    refine ⟨passed, ?_, fun rest => ?_⟩
    · intro known member
      rw [names known member, List.mem_cons, named known member, List.map_append, List.mem_append]
      tauto
    · have ends := endsNumber_cons (by simp : ',' ∈ [',', ']', '}']) (others ++ rest)
      rw [applied_append, ← changes, List.append_assoc, List.cons_append]
      exact (continues_beforeComma (yields _ ends)
        (yields_nextMark_behind blank (by decide) _)).trans (continues rest)

/-! ## Objects -/

/-- The order in which two fields are changed does not matter. -/
def GivenField.Commute (first second : GivenField σ) : Prop :=
  ∀ record, second.change (first.change record) = first.change (second.change record)

instance : Std.Symm (@GivenField.Commute σ) :=
  ⟨fun _ _ commute record => (commute record).symm⟩

/-- Fields that a record has, each given at most once, with changes that do not depend on their
order. -/
structure Suits (fields : List (RecordField σ)) (given : List (GivenField σ)) : Prop where
  offered : ∀ field ∈ given, Offers fields field
  distinct : (given.map GivenField.name).Nodup
  commutes : given.Pairwise GivenField.Commute

theorem Suits.perm (suits : Suits fields given) (arranged : order.Perm given) :
    Suits fields order where
  offered field inside := suits.offered field (arranged.mem_iff.mp inside)
  distinct := (arranged.map GivenField.name).nodup_iff.mpr suits.distinct
  commutes := suits.commutes.perm arranged.symm fun commute => Std.Symm.symm _ _ commute

theorem Suits.applied_eq (suits : Suits fields given) (arranged : order.Perm given) (record : σ) :
    applied order record = applied given record := by
  have commute : ∀ first ∈ order, ∀ second ∈ order, GivenField.Commute first second :=
    (suits.perm arranged).commutes.forall_of_forall fun _ _ _ => rfl
  refine arranged.foldl_eq' (fun first isFirst second isSecond record => ?_) record
  exact commute first isFirst second isSecond record

/-- Behind the brace of an object and members that are read, the reader of the record goes on where
the next name opens. -/
theorem Leading.continues_record (leading : Leading (fields.map RecordField.name) order text)
    (offered : ∀ field ∈ order, Offers fields field)
    (distinct : (order.map GivenField.name).Nodup) (blank : Blanks blanks)
    (opens : ∃ middle, Yields nextMark rest '"' middle) (start : σ) : ∃ passed,
      (∀ name ∈ fields.map RecordField.name,
        name ∈ passed ↔ name ∈ order.map GivenField.name) ∧
      Continues (JsonReader.record fields start) (blanks ++ '{' :: (text ++ rest))
        (objectFields fields passed (applied order start)) rest := by
  obtain ⟨passed, names, continues⟩ :=
    leading.continues offered distinct (fun _ _ => List.not_mem_nil) start
  obtain ⟨middle, opens⟩ := leading.opens opens
  refine ⟨passed, fun name known => ?_, ?_⟩
  · rw [names name known]
    simp
  · exact (JsonReader.continues_record blank _).trans
      ((continues_objectRecord opens).trans (continues rest))

/-- An object is read as the record in which its fields are changed, in whatever order they stand
and whatever the other members are. -/
theorem accepts_of_objectText (suits : Suits fields given)
    (written : ObjectText (fields.map RecordField.name) given text) {start result : σ}
    (changes : applied given start = result) :
    Accepts (JsonReader.record fields start) text result := by
  subst changes
  intro blanks rest blank _
  cases written with
  | @empty inside blankInside =>
    obtain ⟨shorter, closes⟩ :=
      yields_nextMark_behind blankInside (by decide : isBlank '}' = false) rest
    simp only [List.cons_append, List.append_assoc, List.nil_append]
    refine (continues_record blank _).takes ⟨shorter, ?_⟩
    simp only [objectRecord, closes, if_true]
    rfl
  | @filled order own given front member leading last arranged =>
    obtain ⟨offered, distinct, -⟩ := suits.perm arranged
    rw [List.forall_mem_append] at offered
    rw [List.map_append, List.nodup_append] at distinct
    obtain ⟨passed, names, continues⟩ := leading.continues_record offered.1 distinct.1 blank
      (last.opens ('}' :: rest)) start
    -- the last member gives no field that one in front of it has given
    have fresh : ∀ field ∈ own, field.name ∉ passed := by
      intro field inside seen
      have earlier := (names _ (offered.2 field inside).known).mp seen
      exact distinct.2.2 _ earlier _ (List.mem_map_of_mem inside) rfl
    obtain ⟨name, change, after, blankAfter, changes, _, yields⟩ := last.yields offered.2 fresh
    have ends := endsNumber_cons (by simp : '}' ∈ [',', ']', '}']) rest
    have result : change (applied order start) = applied given start := by
      rw [changes, ← applied_append, suits.applied_eq arranged]
    simp only [List.cons_append, List.append_assoc, List.nil_append, ← result]
    exact continues.takes
      ((yields _ ends).closesObject (yields_nextMark_behind blankAfter (by decide) rest))

/-! ## Repeated fields -/

/-- A reader refuses a text for a value of the wrong kind, behind blanks. -/
def Refuses (reader : JsonReader α) (text : List Char) : Prop :=
  ∀ blanks, Blanks blanks → reader (blanks ++ text) = .error .mismatched

theorem Refuses.field {reader : JsonReader α} (refuses : Refuses reader text) (name : String)
    (put : α → σ → σ) : Refuses (RecordField.of name reader put).change text := by
  intro blanks blank
  simp only [RecordField.of, refuses blanks blank]

theorem Repeats.refused (suits : Suits fields given)
    (repeats : Repeats (fields.map RecordField.name) given text) (start : σ) :
    Refuses (JsonReader.record fields start) text := by
  obtain @⟨order, name, front, before, written, leading, arranged, again, blank, spelt, rest⟩ :=
    repeats
  intro blanks blankBefore
  have ordered := suits.perm arranged
  obtain ⟨passed, names, continues⟩ :=
    leading.continues_record ordered.offered ordered.distinct blankBefore
      (spelt.opens blank rest) start
  obtain ⟨field, inside, rfl⟩ := List.mem_map.mp again
  obtain ⟨found, isField, _⟩ := suits.offered field inside
  have seen := (names _ (suits.offered field inside).known).mpr
    ((arranged.map GivenField.name).mem_iff.mpr again)
  have refused : fieldNamed fields passed field.name = .error .mismatched := by
    simp only [fieldNamed, isField, seen, if_true]
  exact continues.fails (objectFields_of_error (spelt.fails blank refused))

theorem RepeatsInside.refused (suits : Suits fields given) {field : RecordField σ}
    {nested : List Char → Prop} (isField : fields.find? (·.name == name) = some field)
    (refuses : ∀ value, nested value → Refuses field.change value)
    (repeats : RepeatsInside (fields.map RecordField.name) given name nested text) (start : σ) :
    Refuses (JsonReader.record fields start) text := by
  obtain @⟨order, front, head, before, value, leading, arranged, fresh, named, blank, inside⟩ :=
    repeats
  intro blanks blankBefore
  have ordered := suits.perm arranged
  obtain ⟨passed, names, continues⟩ :=
    leading.continues_record ordered.offered ordered.distinct blankBefore
      (named.opens _) start
  have known := known_of_find? isField
  have unseen : name ∉ passed := fun seen =>
    fresh ((arranged.map GivenField.name).mem_iff.mp ((names _ known).mp seen))
  have found : fieldNamed fields passed name = .ok field.change := by
    simp only [fieldNamed, isField, unseen, if_false]
  exact continues.fails
    (objectFields_of_error (named.fails found (refuses value inside before blank)))

/-! ## Whole texts -/

/-- A text that holds one value, with blanks around it. -/
theorem whole_of_accepts {reader : JsonReader α} {value : α} {source : String}
    {before after : List Char} (accepts : Accepts reader text value) (blank : Blanks before)
    (blankAfter : Blanks after) (source_eq : source.toList = before ++ (text ++ after)) :
    whole reader source = .ok value := by
  have ends : EndsNumber after := by
    rw [← List.append_nil after]
    exact endsNumber_append blankAfter endsNumber_nil
  have yields := accepts before after blank ends
  have nothing : skipBlanks after = [] := by
    rw [← List.append_nil after, skipBlanks_append blankAfter]
    rfl
  rw [← source_eq] at yields
  obtain ⟨_, read⟩ := yields
  simp only [whole, read, expectEnd, nothing]

theorem whole_of_refuses {reader : JsonReader α} {source : String} {before : List Char}
    (refuses : Refuses reader text) (blank : Blanks before)
    (source_eq : source.toList = before ++ text) : whole reader source = .error .mismatched := by
  have fails := refuses before blank
  rw [← source_eq] at fails
  simp only [whole, fails]

end Playground.JsonReader
