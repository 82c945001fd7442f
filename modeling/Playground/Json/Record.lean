import Playground.Json.Skip

/-!
# Reading records

A record is written as an object or as the list of its fields in order. Fields that are
left out keep the values of the record that reading starts from. In an object the fields
may stand in any order, names that the record does not have are passed over with their
values, and a field that is given twice is refused.
-/

namespace Playground

/-- One field of a record: its name, and a reader of the change that its value makes. -/
structure RecordField (σ : Type) where
  name : String
  change : JsonReader (σ → σ)

/-- A field whose value replaces a part of the record. -/
def RecordField.of {σ α : Type} (name : String) (reader : JsonReader α) (put : α → σ → σ) :
    RecordField σ :=
  ⟨name, fun input =>
    match reader input with
    | .error fault => .error fault
    | .ok taken => .ok (taken.map put)⟩

namespace JsonReader

variable {σ : Type}

/-- Passes over a value and changes nothing. -/
def unchanged : JsonReader (σ → σ) := fun input =>
  match skipValue input with
  | .error fault => .error fault
  | .ok taken => .ok (taken.map fun _ => id)

/-- The field of a name, unless the name was seen before. -/
def fieldNamed (fields : List (RecordField σ)) (seen : List String) (name : String) :
    Except JsonFault (JsonReader (σ → σ)) :=
  match fields.find? (·.name == name) with
  | none => .ok unchanged
  | some field => if name ∈ seen then .error .mismatched else .ok field.change

/-- A name, a colon and a value: the name and the change that the value makes. -/
def namedChange (fields : List (RecordField σ)) (seen : List String) :
    JsonReader (String × (σ → σ)) := fun input =>
  match mark '"' input with
  | .error fault => .error fault
  | .ok quote =>
    match stringRest quote.rest with
    | .error fault => .error fault
    | .ok letters =>
      match fieldNamed fields seen (String.ofList letters.value) with
      | .error fault => .error fault
      | .ok reader =>
        match mark ':' letters.rest with
        | .error fault => .error fault
        | .ok colon =>
          match reader colon.rest with
          | .error fault => .error fault
          | .ok change =>
            let named := change.map fun apply => (String.ofList letters.value, apply)
            .ok (quote.andThen (letters.andThen (colon.andThen named)))

/-- The fields of an object from the first name on, through the closing brace. -/
def objectFields (fields : List (RecordField σ)) (seen : List String) (record : σ)
    (input : List Char) : Except JsonFault (Taken input σ) :=
  match namedChange fields seen input with
  | .error fault => .error fault
  | .ok change =>
    match nextMark change.rest with
    | .error fault => .error fault
    | .ok after =>
      let passed := change.andThen after
      let changed := change.value.2 record
      have := passed.shorter
      if after.value = ',' then
        match objectFields fields (change.value.1 :: seen) changed passed.rest with
        | .error fault => .error fault
        | .ok taken => .ok (passed.andThen taken)
      else if after.value = '}' then .ok (passed.map fun _ => changed)
      else .error .malformed
termination_by input.length

/-- A record in object form, after the opening brace. -/
def objectRecord (fields : List (RecordField σ)) (record : σ) : JsonReader σ := fun input =>
  match nextMark input with
  | .error fault => .error fault
  | .ok first =>
    if first.value = '}' then .ok (first.map fun _ => record)
    else objectFields fields [] record input

/-- The closing bracket after the last field of a record in list form. -/
def listEnd (record : σ) : JsonReader σ := fun input =>
  match mark ']' input with
  | .error fault => .error fault
  | .ok bracket => .ok (bracket.map fun _ => record)

/-- The fields of a record in list form after the first, through the closing bracket. -/
def listFields (fields : List (RecordField σ)) (record : σ) (input : List Char) :
    Except JsonFault (Taken input σ) :=
  match fields with
  | [] => listEnd record input
  | field :: more =>
    match nextMark input with
    | .error fault => .error fault
    | .ok after =>
      if after.value = ']' then .ok (after.map fun _ => record)
      else if after.value = ',' then
        match nextMark after.rest with
        | .error fault => .error fault
        | .ok next =>
          if next.value = ']' then .error .malformed
          else
            match field.change after.rest with
            | .error fault => .error fault
            | .ok change =>
              match listFields more (change.value record) change.rest with
              | .error fault => .error fault
              | .ok taken => .ok (after.andThen (change.andThen taken))
      else .error .malformed

/-- A record in list form, after the opening bracket. -/
def listRecord (fields : List (RecordField σ)) (record : σ) : JsonReader σ := fun input =>
  match fields with
  | [] => listEnd record input
  | field :: more =>
    match nextMark input with
    | .error fault => .error fault
    | .ok first =>
      if first.value = ']' then .ok (first.map fun _ => record)
      else
        match field.change input with
        | .error fault => .error fault
        | .ok change =>
          match listFields more (change.value record) change.rest with
          | .error fault => .error fault
          | .ok taken => .ok (change.andThen taken)

/-- A record in either form, read as changes to `start`. -/
def record (fields : List (RecordField σ)) (start : σ) : JsonReader σ :=
  afterBlanks fun input =>
    match input with
    | '{' :: rest =>
      match objectRecord fields start rest with
      | .error fault => .error fault
      | .ok taken => .ok (taken.behind '{')
    | '[' :: rest =>
      match listRecord fields start rest with
      | .error fault => .error fault
      | .ok taken => .ok (taken.behind '[')
    | other => .error (wrongType other)

/-- A whole text that holds one value. -/
def whole {α : Type} (reader : JsonReader α) (text : String) : Except JsonFault α :=
  match reader text.toList with
  | .error fault => .error fault
  | .ok taken =>
    match expectEnd taken.rest with
    | .error fault => .error fault
    | .ok () => .ok taken.value

end JsonReader

end Playground
