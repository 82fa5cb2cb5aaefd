import MailServer.Json.Scan

/-!
# Passing over JSON values

A value that nobody asked for is passed over. Its grammar is checked, but not what its strings and
numbers stand for, and it may nest to any depth: the enclosing containers are kept in a list.

* `MailServer.Json.skipNumber` and `MailServer.Json.skipString` pass over a number and a string.
* `MailServer.Json.skipValue` passes over a value.
-/

namespace MailServer.Json

/-! ## Numbers -/

/-- Passes over an exponent whose `e` has been read. -/
def skipExponent (s : List UInt8) : Except Fault (List UInt8) :=
  let s := match s with
    | b :: rest => if b = byte '+' || b = byte '-' then rest else s
    | [] => s
  if startsWithDigit s then .ok (dropDigits s).2 else .error (.before .invalidNumber s.tail)

/-- Passes over an exponent, if there is one. -/
def skipExponentPart (s : List UInt8) : Except Fault (List UInt8) :=
  match s with
  | b :: rest => if b = byte 'e' || b = byte 'E' then skipExponent rest else .ok s
  | [] => .ok s

/-- Passes over a fraction and an exponent, where they are there. -/
def skipFractionPart (s : List UInt8) : Except Fault (List UInt8) :=
  match s with
  | b :: rest =>
    if b = byte '.' then
      if startsWithDigit rest then skipExponentPart (dropDigits rest).2
      else .error (.at .invalidNumber rest)
    else skipExponentPart s
  | [] => .ok s

/-- Passes over a number behind its sign. -/
def skipNumber : List UInt8 → Except Fault (List UInt8)
  | [] => .error (.before .invalidNumber [])
  | b :: rest =>
    if b = byte '0' then
      if startsWithDigit rest then .error (.at .invalidNumber rest) else skipFractionPart rest
    else if (digit? b).isSome then skipFractionPart (dropDigits rest).2
    else .error (.before .invalidNumber rest)

/-! ## Strings -/

/-- Passes over a string behind its opening quote. -/
def skipString : List UInt8 → Except Fault (List UInt8)
  | [] => .error (.before .endInString [])
  | b :: rest =>
    if b = byte '"' then .ok rest
    else if b = byte '\\' then
      match rest with
      | [] => .error (.before .endInString [])
      | c :: after =>
        if c = byte 'u' then
          match after with
          | h :: i :: j :: k :: after =>
            if [h, i, j, k].all fun d => (hexDigit? d).isSome then skipString after
            else .error (.before .invalidEscape after)
          | _ => .error (.before .endInString [])
        else if (letterEscape? c).isSome then skipString after
        else .error (.before .invalidEscape after)
    else if b < 0x20 then .error (.before .controlCharacter (b :: rest))
    else skipString rest

/-! ## Values -/

/-- A container that has been opened. -/
inductive Enclosure where
  | list
  | object
deriving DecidableEq, Repr

namespace Enclosure

/-- The bracket that closes a container. -/
def closing : Enclosure → UInt8
  | list => byte ']'
  | object => byte '\x7d'

/-- The text ends where the container should go on. -/
def unfinished : Enclosure → Cause
  | list => .endInList
  | object => .endInObject

/-- A value in the container is followed by neither a comma nor the closing bracket. -/
def unseparated : Enclosure → Cause
  | list => .expectedListComma
  | object => .expectedObjectComma

/-- Passes over what stands before a value in the container: in an object the name and a colon. -/
def skipName : Enclosure → List UInt8 → Except Fault (List UInt8)
  | list, s => .ok s
  | object, s =>
    match skipBlank s with
    | [] => .error (.at .endInObject [])
    | b :: rest =>
      if b = byte '"' then
        match skipString rest with
        | .error fault => .error fault
        | .ok rest =>
          match skipBlank rest with
          | [] => .error (.at .endInObject [])
          | c :: after =>
            if c = byte ':' then .ok after else .error (.at .expectedColon (c :: after))
      else .error (.at .expectedKey (b :: rest))

end Enclosure

/-- What the first byte of a value announces. -/
inductive Opening where
  /-- The value is passed over to these bytes. -/
  | scalar (rest : List UInt8)
  | container (e : Enclosure) (rest : List UInt8)

/-- Passes over a value that is no container, or over the opening bracket of one. -/
def skipOpening (s : List UInt8) : Except Fault Opening :=
  let word (letters : List Char) (rest : List UInt8) : Except Fault Opening :=
    (readWord (letters.map byte) rest).map fun (_, rest) => .scalar rest
  match skipBlank s with
  | [] => .error (.at .endInValue [])
  | b :: rest =>
    if b = byte 'n' then word ['u', 'l', 'l'] rest
    else if b = byte 't' then word ['r', 'u', 'e'] rest
    else if b = byte 'f' then word ['a', 'l', 's', 'e'] rest
    else if b = byte '-' then .scalar <$> skipNumber rest
    else if (digit? b).isSome then .scalar <$> skipNumber (b :: rest)
    else if b = byte '"' then .scalar <$> skipString rest
    else if b = byte '[' then .ok (.container .list rest)
    else if b = byte '\x7b' then .ok (.container .object rest)
    else .error (.at .expectedValue (b :: rest))

/-- Passes over the rest of a value inside the given containers, innermost first: a value comes
next, or `behind` one what follows it. Every round takes a byte, and `count` is more than there
are. -/
def skipRest : (count : Nat) → (behind : Bool) → List Enclosure → List UInt8 →
    Except Fault (List UInt8)
  | 0, _, _, s => .error (.at .expectedValue s)
  | _ + 1, true, [], s => .ok s
  | count + 1, true, e :: outer, s =>
    match skipBlank s with
    | [] => .error (.at e.unfinished [])
    | b :: rest =>
      if b = byte ',' then do
        let s ← e.skipName rest
        skipRest count false (e :: outer) s
      else if b = e.closing then skipRest count true outer rest
      else .error (.at e.unseparated (b :: rest))
  | count + 1, false, outer, s => do
    match ← skipOpening s with
    | .scalar rest => skipRest count true outer rest
    | .container e rest =>
      match skipBlank rest with
      | [] => .error (.at e.unfinished [])
      | b :: after =>
        if b = e.closing then skipRest count true outer after
        else do
          let s ← e.skipName (b :: after)
          skipRest count false (e :: outer) s

/-- Passes over a value. -/
def skipValue : Reader Unit := fun s => do
  let rest ← skipRest (s.length + 1) false [] s
  pure ((), rest)

end MailServer.Json
