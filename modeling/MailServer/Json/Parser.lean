import MailServer.Json.Scan

/-!
# Reading JSON values

Values are read by descent. A container is read by a loop over its elements that is shared by
every list and every object: the loop moves to the next element and leaves reading it to the
reader it is given. Containers nest to a depth that the caller allows.

* `MailServer.Json.nextElement` and `MailServer.Json.nextMember` move on inside a container.
* `MailServer.Json.readElements` and `MailServer.Json.readMembers` are the loops.
* `MailServer.Json.readValue` reads a value in which containers nest at most to a depth.
* `MailServer.Json.readAll` runs a reader on a whole text and finds the position of a failure.

The loops count down a number that starts at the length of the rest: every element takes a byte,
so the count never runs out.
-/

namespace MailServer.Json

/-! ## What stands in the wrong place -/

/-- The failure of a reader that wanted another kind of value than the one that comes next. The
value is read as far as its kind requires. -/
def mismatchFault (expected : String) (s : List UInt8) : Fault :=
  let word (letters : List Char) (rest : List UInt8) (found : Found) : Fault :=
    match readWord (letters.map byte) rest with
    | .error fault => fault
    | .ok (_, after) => .before (.mismatch found expected) after
  let number (negative : Bool) (s : List UInt8) : Fault :=
    match readNumber negative s with
    | .error fault => fault
    | .ok (n, after) => .before (.mismatch (.number n) expected) after
  match s with
  | [] => .at .expectedValue []
  | b :: rest =>
    if b = byte 'n' then word ['u', 'l', 'l'] rest .null
    else if b = byte 't' then word ['r', 'u', 'e'] rest (.bool true)
    else if b = byte 'f' then word ['a', 'l', 's', 'e'] rest (.bool false)
    else if b = byte '-' then number true rest
    else if (digit? b).isSome then number false s
    else if b = byte '"' then
      match readString .refused rest with
      | .error fault => fault
      | .ok (text, after) => .before (.mismatch (.string text) expected) after
    else if b = byte '[' then .before (.mismatch .sequence expected) s
    else if b = byte '\x7b' then .before (.mismatch .map expected) s
    else .at .expectedValue s

/-- Reads a string, described as `expected` where something else stands. -/
def readText (raw : RawControl) (expected : String) : Reader String := fun s =>
  match skipBlank s with
  | [] => .error (.at .endInValue [])
  | b :: rest =>
    if b = byte '"' then readString raw rest else .error (mismatchFault expected (b :: rest))

/-! ## Inside a container -/

/-- Moves to the next element of a list: the bytes from it on, or `none` in front of the closing
bracket. -/
def nextElement (first : Bool) (s : List UInt8) : Except Fault (Option (List UInt8)) :=
  match skipBlank s with
  | [] => .error (.at .endInList [])
  | b :: rest =>
    if b = byte ']' then .ok none
    else if first then .ok (some (b :: rest))
    else if b = byte ',' then
      match skipBlank rest with
      | [] => .error (.at .endInValue [])
      | c :: after =>
        if c = byte ']' then .error (.at .trailingComma (c :: after)) else .ok (some (c :: after))
    else .error (.at .expectedListComma (b :: rest))

/-- Closes a list after its last element. -/
def closeList : Reader Unit := fun s =>
  match skipBlank s with
  | [] => .error (.at .endInList [])
  | b :: rest =>
    if b = byte ']' then .ok ((), rest)
    else if b = byte ',' then
      match skipBlank rest with
      | c :: after =>
        if c = byte ']' then .error (.at .trailingComma (c :: after))
        else .error (.at .trailingCharacters (c :: after))
      | [] => .error (.at .trailingCharacters [])
    else .error (.at .trailingCharacters (b :: rest))

/-- Moves to the next member of an object: the bytes behind the opening quote of its name, or
`none` in front of the closing brace. -/
def nextMember (first : Bool) (s : List UInt8) : Except Fault (Option (List UInt8)) :=
  match skipBlank s with
  | [] => .error (.at .endInObject [])
  | b :: rest =>
    if b = byte '\x7d' then .ok none
    else if first then
      if b = byte '"' then .ok (some rest) else .error (.at .expectedKey (b :: rest))
    else if b = byte ',' then
      match skipBlank rest with
      | [] => .error (.at .endInValue [])
      | c :: after =>
        if c = byte '"' then .ok (some after)
        else if c = byte '\x7d' then .error (.at .trailingComma (c :: after))
        else .error (.at .expectedKey (c :: after))
    else .error (.at .expectedObjectComma (b :: rest))

/-- Reads the colon between a name and its value. -/
def readColon : Reader Unit := fun s =>
  match skipBlank s with
  | [] => .error (.at .endInObject [])
  | b :: rest =>
    if b = byte ':' then .ok ((), rest) else .error (.at .expectedColon (b :: rest))

/-- The elements of a list behind its opening bracket, through its closing one. -/
def readElements {α : Type} (element : Reader α) : (count : Nat) → (first : Bool) → Reader (List α)
  | 0, _, s => .error (.at .expectedListComma s)
  | count + 1, first, s => do
    match ← nextElement first s with
    | none => pure ([], (skipBlank s).tail)
    | some s =>
      let (x, rest) ← element s
      let (xs, rest) ← readElements element count false rest
      pure (x :: xs, rest)

/-- The members of an object behind its opening brace, through its closing one. -/
def readMembers {α : Type} (raw : RawControl) (value : Reader α) :
    (count : Nat) → (first : Bool) → Reader (List (String × α))
  | 0, _, s => .error (.at .expectedObjectComma s)
  | count + 1, first, s => do
    match ← nextMember first s with
    | none => pure ([], (skipBlank s).tail)
    | some s =>
      let (name, rest) ← readString raw s
      let (_, rest) ← readColon rest
      let (x, rest) ← value rest
      let (xs, rest) ← readMembers raw value count false rest
      pure ((name, x) :: xs, rest)

/-! ## Values -/

/-- Reads the rest of a word and gives its value. -/
def readLiteral (letters : List Char) (v : Value) : Reader Value := fun rest => do
  let (_, rest) ← readWord (letters.map byte) rest
  pure (v, rest)

/-- Reads a value whose containers nest at most `depth` deep. -/
def readValue (raw : RawControl) : (depth : Nat) → Reader Value
  | depth, s =>
    match skipBlank s with
    | [] => .error (.at .endInValue [])
    | b :: rest =>
      if b = byte 'n' then readLiteral ['u', 'l', 'l'] .null rest
      else if b = byte 't' then readLiteral ['r', 'u', 'e'] (.bool true) rest
      else if b = byte 'f' then readLiteral ['a', 'l', 's', 'e'] (.bool false) rest
      else if b = byte '-' then do
        let (n, rest) ← readNumber true rest
        pure (.number n, rest)
      else if (digit? b).isSome then do
        let (n, rest) ← readNumber false (b :: rest)
        pure (.number n, rest)
      else if b = byte '"' then do
        let (text, rest) ← readString raw rest
        pure (.string text, rest)
      else if b = byte '[' then
        match depth with
        | 0 => .error (.at .tooDeep (b :: rest))
        | depth + 1 => do
          let (items, rest) ← readElements (readValue raw depth) (rest.length + 1) true rest
          pure (.array items, rest)
      else if b = byte '\x7b' then
        match depth with
        | 0 => .error (.at .tooDeep (b :: rest))
        | depth + 1 => do
          let (members, rest) ← readMembers raw (readValue raw depth) (rest.length + 1) true rest
          pure (.ofMembers members, rest)
      else .error (.at .expectedValue (b :: rest))

/-- How deep containers may nest in a text. -/
def maxDepth : Nat := 127

/-! ## Whole texts -/

/-- Refuses anything but blanks behind a value. -/
def readEnd : Reader Unit := fun s =>
  match skipBlank s with
  | [] => .ok ((), [])
  | b :: rest => .error (.at .trailingCharacters (b :: rest))

/-- Runs a reader on a whole text, behind which only blanks may stand. -/
def readAll {α : Type} (reader : Reader α) (text : List UInt8) : Except Error α :=
  let result : Except Fault α := do
    let (x, rest) ← reader text
    let _ ← readEnd rest
    pure x
  match result with
  | .ok x => .ok x
  | .error fault => .error ⟨fault.cause, some (.after text (text.length - fault.left))⟩

/-- The value that a text holds. -/
def parse (text : List UInt8) : Except Error Value := readAll (readValue .refused maxDepth) text

end MailServer.Json
