import Mathlib.Data.List.Forall2
import Playground.Json.Record
import Playground.Proofs.Json.Grammar

/-!
# Reading written records

A record is written as an object of named members or as the list of their values. `Fills` says
that members give the fields of a record their values in order, and then either form is read as
the changes that the members make (`readsAs_object`, `readsAs_array`).
-/

namespace Playground.JsonReader

variable {σ α β : Type} {reader : JsonReader α} {json : Json} {value : α} {rest : List Char}

/-- A reader takes the written form of a JSON value for a value, whatever follows. -/
def ReadsAs (reader : JsonReader α) (json : Json) (value : α) : Prop :=
  ∀ rest, EndsNumber rest → Yields reader (json.compact.toList ++ rest) value rest

theorem readsAs_string (text : String) : ReadsAs string (.string text) text :=
  fun rest _ => yields_string text rest

theorem readsAs_natural {number largest : Nat} (allowed : number ≤ largest)
    (bounded : largest ≤ largestNatural) : ReadsAs (natural largest) (.number number) number := by
  intro rest ends
  have written : (Json.number number).compact.toList = Nat.toDigits 10 number := by
    simp [Json.compact]
  rw [written]
  exact yields_natural allowed bounded ends

theorem ReadsAs.map {mapped : JsonReader β} {transform : α → β}
    (maps : ∀ {input taken}, reader input = .ok taken → mapped input = .ok (taken.map transform))
    (reads : ReadsAs reader json value) : ReadsAs mapped json (transform value) := by
  intro rest ends
  obtain ⟨shorter, read⟩ := reads rest ends
  exact ⟨shorter, maps read⟩

theorem ReadsAs.field (reads : ReadsAs reader json value) (name : String) (put : α → σ → σ) :
    ReadsAs (RecordField.of name reader put).change json (put value) :=
  reads.map fun read => by simp only [RecordField.of, read]

/-- A part of a record as it is written, and the change that it makes. -/
structure Member (σ : Type) where
  name : String
  json : Json
  change : σ → σ

/-- The changes of members, one after another. -/
def changed (members : List (Member σ)) (record : σ) : σ :=
  members.foldl (fun record member => member.change record) record

/-- The members give the fields of a record their values, in order. -/
def Fills (fields : List (RecordField σ)) (members : List (Member σ)) : Prop :=
  List.Forall₂ (fun field member =>
    field.name = member.name ∧ ReadsAs field.change member.json member.change) fields members

/-- A member gives a field of a record its value. -/
def Known (fields : List (RecordField σ)) (member : Member σ) : Prop :=
  ∃ field, fields.find? (·.name == member.name) = some field ∧
    ReadsAs field.change member.json member.change

variable {fields : List (RecordField σ)} {members : List (Member σ)} {member : Member σ}

theorem Fills.names (fills : Fills fields members) :
    fields.map RecordField.name = members.map Member.name := by
  induction fills with
  | nil => rfl
  | cons pair _ inductionHypothesis => simp [pair.1, inductionHypothesis]

theorem Fills.known (fills : Fills fields members)
    (distinct : (fields.map RecordField.name).Nodup) : ∀ member ∈ members, Known fields member := by
  induction fills with
  | nil => simp
  | @cons field first fields members pair fills inductionHypothesis =>
    rw [List.map_cons, List.nodup_cons] at distinct
    intro member inside
    rcases List.mem_cons.mp inside with rfl | later
    · exact ⟨field, by simp [pair.1], pair.2⟩
    · obtain ⟨other, found, reads⟩ := inductionHypothesis distinct.2 member later
      have named : member.name ∈ fields.map RecordField.name := by
        rw [Fills.names fills]
        exact List.mem_map_of_mem later
      have apart : field.name ≠ member.name := fun same => distinct.1 (same ▸ named)
      exact ⟨other, by simp [apart, found], reads⟩

/-! ## Written forms -/

/-- The text of a member in an object. -/
def entryText (member : Member σ) : List Char :=
  (Json.quoted member.name).toList ++ ':' :: member.json.compact.toList

/-- Texts behind the first one, each after a comma. -/
def following (texts : List (List Char)) : List Char :=
  texts.flatMap (',' :: ·)

theorem intercalate_comma (first : List Char) (texts : List (List Char)) :
    [','].intercalate (first :: texts) = first ++ following texts := by
  induction texts generalizing first with
  | nil => simp [following]
  | cons second texts inductionHypothesis =>
    rw [List.intercalate_cons_cons, inductionHypothesis]
    simp [following]

theorem compactFields_eq (members : List (Member σ)) :
    (Json.compactFields (members.map fun member => (member.name, member.json))).map
      String.toList = members.map entryText := by
  induction members with
  | nil => rfl
  | cons member members inductionHypothesis =>
    simp [Json.compactFields, entryText, inductionHypothesis]

theorem compactItems_eq (items : List Json) :
    (Json.compactItems items).map String.toList = items.map fun item => item.compact.toList := by
  induction items with
  | nil => rfl
  | cons item items inductionHypothesis => simp [Json.compactItems, inductionHypothesis]

/-- The object that members make up. -/
def objectOf (members : List (Member σ)) : Json :=
  .object (members.map fun member => (member.name, member.json))

/-- The list of the values of members. -/
def arrayOf (members : List (Member σ)) : Json :=
  .array (members.map Member.json)

theorem toList_objectOf (members : List (Member σ)) :
    (objectOf members).compact.toList = '{' :: [','].intercalate (members.map entryText) ++ ['}'] := by
  simp [objectOf, Json.compact, compactFields_eq]

theorem toList_arrayOf (members : List (Member σ)) :
    (arrayOf members).compact.toList =
      '[' :: [','].intercalate (members.map fun member => member.json.compact.toList) ++ [']'] := by
  simp [arrayOf, Json.compact, compactItems_eq]
  rfl

/-- A written value starts with a character that is neither blank nor a closing bracket. -/
theorem exists_toList_compact (json : Json) : ∃ first more,
    json.compact.toList = first :: more ∧ isBlank first = false ∧ first ≠ ']' := by
  cases json with
  | string text =>
    refine ⟨'"', escaped text.toList ++ ['"'], ?_, by decide, by decide⟩
    rw [Json.compact, toList_quoted, List.cons_append]
  | number value =>
    obtain ⟨first, more, split⟩ :=
      List.exists_cons_of_ne_nil (Nat.toDigits_ne_nil (n := value) (b := 10))
    have digit : first.isDigit :=
      Nat.isDigit_of_mem_toDigits (b := 10) (n := value) (by decide) (by decide) (by simp [split])
    refine ⟨first, more, by simp [Json.compact, split], isBlank_of_isDigit digit, ?_⟩
    rintro rfl
    simp at digit
  | array items => exact ⟨'[', _, by simp [Json.compact]; rfl, by decide, by decide⟩
  | object fields => exact ⟨'{', _, by simp [Json.compact]; rfl, by decide, by decide⟩

/-! ## Records as objects -/

section Names

variable {seen : List String} {input blanks head written : List Char} {name : String}
  {change : σ → σ}

/-- A name and the colon behind it. -/
inductive NameText (name : String) : List Char → Prop where
  | mk {before written between : List Char} (blank : Blanks before)
      (spelt : StringText name written) (blankBetween : Blanks between) :
      NameText name (before ++ (written ++ (between ++ [':'])))

theorem nameText_quoted (name : String) :
    NameText name ((Json.quoted name).toList ++ [':']) := by
  have nothing : Blanks [] := by simp [Blanks]
  have text := NameText.mk nothing (stringText_quoted name) nothing
  rwa [List.nil_append, List.nil_append] at text

/-- A name through its closing quote. -/
theorem StringText.reads (blank : Blanks blanks) (spelt : StringText name written)
    (rest : List Char) : ∃ middle, Yields (mark '"') (blanks ++ (written ++ rest)) () middle ∧
      Yields stringRest middle name.toList rest := by
  obtain ⟨body, letters, rfl⟩ := spelt
  simp only [List.cons_append, List.append_assoc, List.nil_append]
  exact ⟨body ++ '"' :: rest, yields_mark_behind blank (by decide) _, letters.yields rest⟩

/-- A member whose value is read. -/
theorem NameText.yields (named : NameText name head) {reader : JsonReader (σ → σ)}
    (found : fieldNamed fields seen name = .ok reader) (reads : Yields reader input change rest) :
    Yields (namedChange fields seen) (head ++ input) (name, change) rest := by
  obtain ⟨blank, spelt, blankBetween⟩ := named
  obtain ⟨middle, ⟨quoteShorter, quote⟩, ⟨bodyShorter, body⟩⟩ := spelt.reads blank _
  obtain ⟨colonShorter, colon⟩ :=
    yields_mark_behind blankBetween (by decide : isBlank ':' = false) input
  obtain ⟨shorter, read⟩ := reads
  simp only [List.append_assoc, List.singleton_append]
  refine ⟨Nat.lt_trans shorter <| Nat.lt_trans colonShorter <|
    Nat.lt_trans bodyShorter quoteShorter, ?_⟩
  simp only [namedChange, quote, body, String.ofList_toList, found, colon, read]
  rfl

theorem yields_namedChange (known : Known fields member)
    (fresh : member.name ∉ seen) (ends : EndsNumber rest) :
    Yields (namedChange fields seen) (entryText member ++ rest) (member.name, member.change)
      rest := by
  obtain ⟨field, found, reads⟩ := known
  have named : fieldNamed fields seen member.name = .ok field.change := by
    simp [fieldNamed, found, fresh]
  have yields := (nameText_quoted member.name).yields named (reads rest ends)
  simpa [entryText] using yields

end Names

section ObjectFields

variable {seen : List String} {input middle : List Char} {name : String} {change : σ → σ}
  {record result : σ}

/-- The last member of an object. -/
theorem Yields.closesObject
    (named : Yields (namedChange fields seen) input (name, change) middle)
    (closes : Yields nextMark middle '}' rest) :
    Yields (objectFields fields seen record) input (change record) rest := by
  obtain ⟨namedShorter, named⟩ := named
  obtain ⟨closesShorter, closes⟩ := closes
  refine ⟨Nat.lt_trans closesShorter namedShorter, ?_⟩
  rw [objectFields]
  simp only [named, closes]
  rfl

/-- A member of an object with others behind it. -/
theorem Yields.beforeComma {others : List Char}
    (named : Yields (namedChange fields seen) input (name, change) middle)
    (comma : Yields nextMark middle ',' others)
    (yields : Yields (objectFields fields (name :: seen) (change record)) others result rest) :
    Yields (objectFields fields seen record) input result rest := by
  obtain ⟨namedShorter, named⟩ := named
  obtain ⟨commaShorter, comma⟩ := comma
  obtain ⟨shorter, read⟩ := yields
  refine ⟨Nat.lt_trans shorter (Nat.lt_trans commaShorter namedShorter), ?_⟩
  rw [objectFields]
  simp only [named, comma, if_true, Taken.andThen, Taken.widen, read]

end ObjectFields

theorem yields_objectFields {seen : List String}
    (known : ∀ other ∈ member :: members, Known fields other)
    (distinct : ((member :: members).map Member.name).Nodup)
    (fresh : ∀ other ∈ member :: members, other.name ∉ seen) (record : σ) (rest : List Char) :
    Yields (objectFields fields seen record)
      (entryText member ++ (following (members.map entryText) ++ '}' :: rest))
      (changed (member :: members) record) rest := by
  have own := known member List.mem_cons_self
  have ownFresh := fresh member List.mem_cons_self
  induction members generalizing member seen record with
  | nil =>
    have ends := endsNumber_cons (by simp : '}' ∈ [',', ']', '}']) rest
    have named := yields_namedChange own ownFresh ends
    exact named.closesObject (yields_nextMark (by decide) rest)
  | cons second members inductionHypothesis =>
    let others := entryText second ++ (following (members.map entryText) ++ '}' :: rest)
    have text : following ((second :: members).map entryText) ++ '}' :: rest = ',' :: others := by
      simp [following, others]
    rw [List.map_cons, List.nodup_cons] at distinct
    have freshAfter : ∀ other ∈ second :: members, other.name ∉ member.name :: seen := by
      intro other later
      rw [List.mem_cons, not_or]
      refine ⟨fun same => distinct.1 ?_, fresh other (List.mem_cons_of_mem _ later)⟩
      exact same ▸ List.mem_map_of_mem later
    have knownAfter : ∀ other ∈ second :: members, Known fields other :=
      fun other later => known other (List.mem_cons_of_mem _ later)
    have ends := endsNumber_cons (by simp : ',' ∈ [',', ']', '}']) others
    have named := yields_namedChange own ownFresh ends
    rw [text]
    exact named.beforeComma (yields_nextMark (by decide) others)
      (inductionHypothesis knownAfter distinct.2 freshAfter (member.change record)
        (knownAfter second List.mem_cons_self) (freshAfter second List.mem_cons_self))

theorem yields_objectRecord (known : ∀ other ∈ members, Known fields other)
    (distinct : (members.map Member.name).Nodup) (record : σ) (rest : List Char) :
    Yields (objectRecord fields record) ([','].intercalate (members.map entryText) ++ '}' :: rest)
      (changed members record) rest := by
  cases members with
  | nil =>
    obtain ⟨shorter, read⟩ := yields_nextMark (by decide : isBlank '}' = false) rest
    refine ⟨shorter, ?_⟩
    change objectRecord fields record ('}' :: rest) = _
    simp only [objectRecord, read, if_true]
    rfl
  | cons member members =>
    have fresh : ∀ other ∈ member :: members, other.name ∉ ([] : List String) := by simp
    have body := yields_objectFields known distinct fresh record rest
    rw [List.map_cons, intercalate_comma, List.append_assoc]
    obtain ⟨more, text⟩ : ∃ more, entryText member ++
        (following (members.map entryText) ++ '}' :: rest) = '"' :: more :=
      ⟨_, by simp [entryText, toList_quoted]; rfl⟩
    rw [text] at body ⊢
    obtain ⟨shorter, read⟩ := body
    obtain ⟨_, first⟩ := yields_nextMark (by decide : isBlank '"' = false) more
    refine ⟨shorter, ?_⟩
    simp only [objectRecord, first, read]
    rfl

/-- Named members of a record are read in the order in which they stand. -/
theorem readsAs_objectOf (known : ∀ other ∈ members, Known fields other)
    (distinct : (members.map Member.name).Nodup) (record : σ) :
    ReadsAs (JsonReader.record fields record) (objectOf members) (changed members record) := by
  intro rest _
  obtain ⟨shorter, read⟩ := yields_objectRecord known distinct record rest
  rw [toList_objectOf, List.append_assoc, List.cons_append]
  apply Yields.afterBlanks
  rw [skipBlanks_cons (by decide)]
  refine ⟨Nat.lt_succ_of_lt shorter, ?_⟩
  simp only [List.singleton_append, read]
  rfl

/-! ## Records as lists -/

/-- What stands behind an item of a list ends a number. -/
theorem endsNumber_following (texts : List (List Char)) (rest : List Char) :
    EndsNumber (following texts ++ ']' :: rest) := by
  cases texts with
  | nil => exact endsNumber_cons (by simp) rest
  | cons text texts =>
    rw [following, List.flatMap_cons, List.append_assoc, List.cons_append]
    exact endsNumber_cons (by simp) _

/-- The first item of a list does not close it. -/
theorem yields_nextMark_compact (json : Json) (rest : List Char) :
    ∃ first more, first ≠ ']' ∧ Yields nextMark (json.compact.toList ++ rest) first more := by
  obtain ⟨first, more, text, solid, opens⟩ := exists_toList_compact json
  refine ⟨first, more ++ rest, opens, ?_⟩
  rw [text, List.cons_append]
  exact yields_nextMark solid (more ++ rest)

section ListFields

variable {field : RecordField σ} {input middle : List Char} {change : σ → σ} {record result : σ}

/-- The first item of a list. -/
theorem Yields.firstItem (item : Yields field.change input change middle)
    (opens : ∃ first more, first ≠ ']' ∧ Yields nextMark input first more)
    (yields : Yields (listFields fields (change record)) middle result rest) :
    Yields (listRecord (field :: fields) record) input result rest := by
  obtain ⟨first, more, opens, _, next⟩ := opens
  obtain ⟨itemShorter, item⟩ := item
  obtain ⟨shorter, read⟩ := yields
  refine ⟨Nat.lt_trans shorter itemShorter, ?_⟩
  simp only [listRecord, next, opens, if_false, item, read, Taken.andThen, Taken.widen]

/-- A further item of a list. -/
theorem Yields.nextItem {start : List Char} (comma : Yields nextMark input ',' start)
    (opens : ∃ first more, first ≠ ']' ∧ Yields nextMark start first more)
    (item : Yields field.change start change middle)
    (yields : Yields (listFields fields (change record)) middle result rest) :
    Yields (listFields (field :: fields) record) input result rest := by
  obtain ⟨commaShorter, comma⟩ := comma
  obtain ⟨first, more, opens, _, next⟩ := opens
  obtain ⟨itemShorter, item⟩ := item
  obtain ⟨shorter, read⟩ := yields
  refine ⟨Nat.lt_trans shorter (Nat.lt_trans itemShorter commaShorter), ?_⟩
  rw [listFields]
  simp only [comma, if_true, next, opens, if_false, item, read, Taken.andThen, Taken.widen]
  rfl

theorem yields_listEnd (record : σ) (rest : List Char) :
    Yields (listEnd record) (']' :: rest) record rest := by
  obtain ⟨shorter, bracket⟩ := yields_mark (by decide : isBlank ']' = false) rest
  refine ⟨shorter, ?_⟩
  simp only [listEnd, bracket]
  rfl

end ListFields

theorem yields_listFields (fills : Fills fields members) (record : σ) (rest : List Char) :
    Yields (listFields fields record)
      (following (members.map fun member => member.json.compact.toList) ++ ']' :: rest)
      (changed members record) rest := by
  induction fills generalizing record with
  | nil => exact yields_listEnd record rest
  | @cons field member fields members pair fills inductionHypothesis =>
    have item := pair.2 _ (endsNumber_following
      (members.map fun member => member.json.compact.toList) rest)
    rw [List.map_cons, following, List.flatMap_cons, List.append_assoc, List.cons_append]
    exact (yields_nextMark (by decide) _).nextItem (yields_nextMark_compact _ _) item
      (inductionHypothesis (member.change record))

theorem yields_listRecord (fills : Fills fields members) (record : σ) (rest : List Char) :
    Yields (listRecord fields record)
      ([','].intercalate (members.map fun member => member.json.compact.toList) ++ ']' :: rest)
      (changed members record) rest := by
  cases fills with
  | nil => exact yields_listEnd record rest
  | @cons field member fields members pair fills =>
    have item := pair.2 _ (endsNumber_following
      (members.map fun member => member.json.compact.toList) rest)
    rw [List.map_cons, intercalate_comma, List.append_assoc]
    exact item.firstItem (yields_nextMark_compact _ _)
      (yields_listFields fills (member.change record) rest)

/-- Values of a record are read in the order of its fields. -/
theorem readsAs_arrayOf (fills : Fills fields members) (record : σ) :
    ReadsAs (JsonReader.record fields record) (arrayOf members) (changed members record) := by
  intro rest _
  obtain ⟨shorter, read⟩ := yields_listRecord fills record rest
  rw [toList_arrayOf, List.append_assoc, List.cons_append]
  apply Yields.afterBlanks
  rw [skipBlanks_cons (by decide)]
  refine ⟨Nat.lt_succ_of_lt shorter, ?_⟩
  simp only [List.singleton_append, read]
  rfl

/-- Members that fill the fields of a record are read in either written form. -/
theorem readsAs_either (fills : Fills fields members)
    (distinct : (fields.map RecordField.name).Nodup) (start : σ) :
    ReadsAs (record fields start) (objectOf members) (changed members start) ∧
      ReadsAs (record fields start) (arrayOf members) (changed members start) :=
  ⟨readsAs_objectOf (fills.known distinct) (fills.names ▸ distinct) start,
    readsAs_arrayOf fills start⟩

/-- A whole text that holds one written value. -/
theorem whole_compact (reads : ReadsAs reader json value) :
    whole reader json.compact = .ok value := by
  have yields := reads [] endsNumber_nil
  rw [List.append_nil] at yields
  obtain ⟨shorter, read⟩ := yields
  simp only [whole, read]
  rfl

end Playground.JsonReader
