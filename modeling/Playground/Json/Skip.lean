import Playground.Json.Reader

/-!
# Passing over JSON values

A value that nobody asked for still has to be well-formed. Lists and objects are walked
to their closing bracket, so nesting of any depth is accepted.
-/

namespace Playground.JsonReader

/-- The rest of a literal name, passed over. -/
def skipName (letters : List Char) : JsonReader Unit
  | [] => .error .truncated
  | _ :: rest =>
    match literal letters rest with
    | .error fault => .error fault
    | .ok after => .ok ⟨(), after.1, Nat.lt_succ_of_le after.2⟩

/-- The name of a field and the colon after it, passed over. -/
def skipFieldName : JsonReader Unit := fun input =>
  match mark '"' input with
  | .error fault => .error fault
  | .ok quote =>
    match skipStringRest quote.rest with
    | .error fault => .error fault
    | .ok name =>
      match mark ':' name.rest with
      | .error fault => .error fault
      | .ok colon => .ok (quote.andThen (name.andThen colon))

mutual

/-- Passes over one value and the blanks before it. -/
def skipValue (input : List Char) : Except JsonFault (Taken input Unit) :=
  match nextMark input with
  | .error fault => .error fault
  | .ok first =>
    have := first.shorter
    let whole := first.value :: first.rest
    let passed (result : Except JsonFault (Taken whole Unit)) : Except JsonFault (Taken input Unit) :=
      result.map fun taken => taken.widen first.shorter
    let inside (result : Except JsonFault (Taken first.rest Unit)) :
        Except JsonFault (Taken input Unit) :=
      result.map first.andThen
    if first.value = 'n' then passed (skipName ['u', 'l', 'l'] whole)
    else if first.value = 't' then passed (skipName ['r', 'u', 'e'] whole)
    else if first.value = 'f' then passed (skipName ['a', 'l', 's', 'e'] whole)
    else if first.value = '-' then inside (skipNumber first.rest)
    else if first.value.isDigit then passed (skipNumber whole)
    else if first.value = '"' then inside (skipStringRest first.rest)
    else if first.value = '[' then inside (skipList first.rest)
    else if first.value = '{' then inside (skipObject first.rest)
    else .error .malformed
termination_by (input.length, 0)

/-- Passes over a list after its opening bracket. -/
def skipList (input : List Char) : Except JsonFault (Taken input Unit) :=
  match nextMark input with
  | .error fault => .error fault
  | .ok first =>
    if first.value = ']' then .ok (first.map fun _ => ()) else skipItems input
termination_by (input.length, 2)

/-- Passes over the items of a list, through its closing bracket. -/
def skipItems (input : List Char) : Except JsonFault (Taken input Unit) :=
  match skipValue input with
  | .error fault => .error fault
  | .ok item =>
    match nextMark item.rest with
    | .error fault => .error fault
    | .ok after =>
      let passed := item.andThen after
      have := passed.shorter
      if after.value = ',' then (skipItems passed.rest).map passed.andThen
      else if after.value = ']' then .ok (passed.map fun _ => ())
      else .error .malformed
termination_by (input.length, 1)

/-- Passes over an object after its opening brace. -/
def skipObject (input : List Char) : Except JsonFault (Taken input Unit) :=
  match nextMark input with
  | .error fault => .error fault
  | .ok first =>
    if first.value = '}' then .ok (first.map fun _ => ()) else skipFields input
termination_by (input.length, 2)

/-- Passes over the fields of an object, through its closing brace. -/
def skipFields (input : List Char) : Except JsonFault (Taken input Unit) :=
  match skipFieldName input with
  | .error fault => .error fault
  | .ok name =>
    have := name.shorter
    match skipValue name.rest with
    | .error fault => .error fault
    | .ok value =>
      match nextMark value.rest with
      | .error fault => .error fault
      | .ok after =>
        let passed := name.andThen (value.andThen after)
        have := passed.shorter
        if after.value = ',' then (skipFields passed.rest).map passed.andThen
        else if after.value = '}' then .ok (passed.map fun _ => ())
        else .error .malformed
termination_by (input.length, 1)

end

end Playground.JsonReader
