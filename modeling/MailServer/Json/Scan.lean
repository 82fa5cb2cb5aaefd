import MailServer.Json.Error
import MailServer.Text.Basic

/-!
# The lexical part of reading JSON

A reader takes the bytes still to be read and gives back a value with the bytes after it. When it
fails, it says how many bytes were left at that point, from which the position follows.

* `MailServer.Json.Fault` is a failure on the way, `MailServer.Json.Reader` the type of readers.
* `MailServer.Json.skipBlank` passes over the blanks of JSON.
* `MailServer.Json.readWord` reads the rest of `null`, `true` or `false`.
* `MailServer.Json.readNumber` reads a number whose sign has been read.
* `MailServer.Json.readString` reads a string whose opening quote has been read.

## Strings

The bytes of a string are read one at a time, in a `MailServer.Json.StringState`. What a string
may hold raw below U+0020 is a parameter: nothing in JSON proper (`RawControl.refused`), any such
character in the lenient form (`RawControl.kept`).
-/

namespace MailServer.Json

/-! ## Readers -/

/-- A failure, with the number of bytes left unread. -/
structure Fault where
  cause : Cause
  left : Nat
deriving DecidableEq

/-- A failure in front of `rest`. -/
def Fault.before (cause : Cause) (rest : List UInt8) : Fault := ⟨cause, rest.length⟩

/-- A failure whose position counts the next byte as read, if there is one. -/
def Fault.at (cause : Cause) (rest : List UInt8) : Fault := ⟨cause, rest.length - 1⟩

/-- Takes bytes and gives a value and the bytes after it. -/
abbrev Reader (α : Type) := List UInt8 → Except Fault (α × List UInt8)

/-- The byte of an ASCII character. -/
abbrev byte (c : Char) : UInt8 := c.toNat.toUInt8

/-- Blank, tab, line feed and carriage return. -/
def isBlankByte (b : UInt8) : Bool := b == 0x20 || b == 0x0A || b == 0x09 || b == 0x0D

/-- The bytes from the first one that is no blank. -/
def skipBlank : List UInt8 → List UInt8
  | [] => []
  | b :: rest => if isBlankByte b then skipBlank rest else b :: rest

/-- Reads exactly the given bytes. -/
def readWord : List UInt8 → Reader Unit
  | [], s => .ok ((), s)
  | _ :: _, [] => .error (.before .endInValue [])
  | w :: ws, b :: rest => if b = w then readWord ws rest else .error (.before .expectedWord rest)

/-! ## Numbers -/

/-- The value of a decimal digit. -/
def digit? (b : UInt8) : Option Nat :=
  if 0x30 ≤ b && b ≤ 0x39 then some (b.toNat - 0x30) else none

/-- The next byte is a decimal digit. -/
def startsWithDigit : List UInt8 → Bool
  | b :: _ => (digit? b).isSome
  | [] => false

/-- Reads digits behind `n` as long as the value is below `bound`: the value, how many digits were
read, and the bytes after them. -/
def takeDigits (bound n : Nat) : List UInt8 → Nat × Nat × List UInt8
  | [] => (n, 0, [])
  | b :: rest =>
    match digit? b with
    | none => (n, 0, b :: rest)
    | some d =>
      if n * 10 + d < bound then
        let (value, count, after) := takeDigits bound (n * 10 + d) rest
        (value, count + 1, after)
      else (n, 0, b :: rest)

/-- Passes over digits: how many, and the bytes after them. -/
def dropDigits : List UInt8 → Nat × List UInt8
  | [] => (0, [])
  | b :: rest =>
    if (digit? b).isSome then
      let (count, after) := dropDigits rest
      (count + 1, after)
    else (0, b :: rest)

/-- The double nearest to `10 ^ n`. -/
def powerOfTen (n : Nat) : Float := Float.ofScientific 1 false n

/-- `x / 10 ^ n`, in steps of at most `10 ^ 308`, each of them rounded. -/
def scaleDown (x : Float) (n : Nat) : Float :=
  if n ≤ 308 then x / powerOfTen n
  else if x == 0 then x
  else scaleDown (x / powerOfTen 308) (n - 308)
termination_by n
decreasing_by omega

/-- `x * 10 ^ e`, rounded; `none` where the result is beyond every finite double. -/
def scale? (x : Float) (e : Int) : Option Float :=
  match e with
  | .ofNat n =>
    if n ≤ 308 then
      let y := x * powerOfTen n
      if y.isInf then none else some y
    else if x == 0 then some x
    else none
  | .negSucc n => some (scaleDown x (n + 1))

/-- The double with the given sign, digits and power of ten. -/
def finishDouble (negative : Bool) (n : Nat) (e : Int) (rest : List UInt8) :
    Except Fault (Number × List UInt8) :=
  match scale? n.toUInt64.toFloat e with
  | none => .error (.before .numberOutOfRange rest)
  | some x => .ok (.double (if negative then -x else x), rest)

/-- A zero with the given sign, after the digits that are left. -/
def finishZero (negative : Bool) (rest : List UInt8) : Except Fault (Number × List UInt8) :=
  .ok (.double (if negative then -0.0 else 0.0), (dropDigits rest).2)

/-- Reads the digits of an exponent. Beyond 31 bits the value of the number is decided: zero, or
out of range in front of the digits not yet read. -/
def readExponentDigits (negative : Bool) (n : Nat) (e : Int) (up : Bool) (s : List UInt8) :
    Except Fault (Number × List UInt8) :=
  let (power, _, rest) := takeDigits (Nat.pow 2 31) 0 s
  if startsWithDigit rest then
    if n ≠ 0 ∧ up then .error (.before .numberOutOfRange rest.tail)
    else finishZero negative rest
  else finishDouble negative n (if up then e + power else e - power) rest

/-- Reads an exponent whose `e` has been read. -/
def readExponent (negative : Bool) (n : Nat) (e : Int) (s : List UInt8) :
    Except Fault (Number × List UInt8) :=
  let (up, s) := match s with
    | b :: rest =>
      if b = byte '+' then (true, rest) else if b = byte '-' then (false, rest) else (true, s)
    | [] => (true, s)
  match s with
  | [] => .error (.before .endInValue [])
  | b :: rest =>
    if (digit? b).isSome then readExponentDigits negative n e up (b :: rest)
    else .error (.before .invalidNumber rest)

/-- What may stand behind the digits of a double: an exponent or nothing. -/
def finishDigits (negative : Bool) (n : Nat) (e : Int) (s : List UInt8) :
    Except Fault (Number × List UInt8) :=
  match s with
  | b :: rest =>
    if b = byte 'e' || b = byte 'E' then readExponent negative n e rest
    else finishDouble negative n e s
  | [] => finishDouble negative n e s

/-- Reads the digits behind a point that has been read; at least one has to be there. Digits that
no longer fit 64 bits are passed over. -/
def readFraction (negative : Bool) (n : Nat) (e : Int) (s : List UInt8) :
    Except Fault (Number × List UInt8) :=
  let (value, count, rest) := takeDigits (Nat.pow 2 64) n s
  if startsWithDigit rest then finishDigits negative value (e - count) (dropDigits rest).2
  else if count = 0 then
    match rest with
    | [] => .error (.at .endInValue [])
    | _ => .error (.at .invalidNumber rest)
  else finishDigits negative value (e - count) rest

/-- The number of an integer literal: a double where it is `-0` or below the 64-bit integers. -/
def integerNumber (negative : Bool) (n : Nat) : Number :=
  if negative then
    if h : 0 < n ∧ n ≤ Nat.pow 2 63 then .negative ⟨n - 1, by omega⟩
    else .double (-n.toUInt64.toFloat)
  else .natural n.toUInt64

/-- What may stand behind the digits of an integer part: a fraction, an exponent or nothing. -/
def finishInteger (negative : Bool) (n : Nat) (s : List UInt8) :
    Except Fault (Number × List UInt8) :=
  match s with
  | b :: rest =>
    if b = byte '.' then readFraction negative n 0 rest
    else if b = byte 'e' || b = byte 'E' then readExponent negative n 0 rest
    else .ok (integerNumber negative n, s)
  | [] => .ok (integerNumber negative n, s)

/-- Goes on behind the integer digits that fit 64 bits when more digits follow. -/
def readLongInteger (negative : Bool) (n : Nat) (s : List UInt8) :
    Except Fault (Number × List UInt8) :=
  let (count, rest) := dropDigits s
  match rest with
  | b :: after =>
    if b = byte '.' then readFraction negative n count after
    else finishDigits negative n count rest
  | [] => finishDigits negative n count rest

/-- Reads a number behind its sign. A zero in front of another digit is refused. -/
def readNumber (negative : Bool) : Reader Number
  | [] => .error (.before .endInValue [])
  | b :: rest =>
    if b = byte '0' then
      if startsWithDigit rest then .error (.at .invalidNumber rest)
      else finishInteger negative 0 rest
    else if (digit? b).isSome then
      let (n, _, after) := takeDigits (Nat.pow 2 64) 0 (b :: rest)
      if startsWithDigit after then readLongInteger negative n after
      else finishInteger negative n after
    else .error (.before .invalidNumber rest)

/-! ## Strings -/

/-- What becomes of a byte below 0x20 inside a string. -/
inductive RawControl where
  | refused
  | kept
deriving DecidableEq, Repr

/-- Where the reader of a string stands. `lead` is a leading surrogate that awaits its partner. -/
inductive StringState where
  | text
  /-- A backslash has been read. -/
  | escape
  /-- `left + 1` more digits of a hexadecimal escape; no value once one of them is no digit. -/
  | hex (lead : Option Nat) (left : Nat) (value : Option Nat)
  /-- The backslash of the second surrogate has to come. -/
  | pairBackslash (lead : Nat)
  /-- The letter `u` of the second surrogate has to come. -/
  | pairLetter (lead : Nat)
deriving DecidableEq

/-- The value of a hexadecimal digit of either case. -/
def hexDigit? (b : UInt8) : Option Nat :=
  if 0x30 ≤ b && b ≤ 0x39 then some (b.toNat - 0x30)
  else if 0x61 ≤ b && b ≤ 0x66 then some (b.toNat - 0x61 + 10)
  else if 0x41 ≤ b && b ≤ 0x46 then some (b.toNat - 0x41 + 10)
  else none

/-- The character of an escape of one letter. -/
def letterEscape? (b : UInt8) : Option UInt8 :=
  if b = byte '"' then some 0x22
  else if b = byte '\\' then some 0x5C
  else if b = byte '/' then some 0x2F
  else if b = byte 'b' then some 0x08
  else if b = byte 'f' then some 0x0C
  else if b = byte 'n' then some 0x0A
  else if b = byte 'r' then some 0x0D
  else if b = byte 't' then some 0x09
  else none

/-- A step of the reader: the bytes it adds to the contents and the state after, or a cause. -/
abbrev StringStep := Except Cause (List UInt8 × StringState)

/-- The step at the last digit of a hexadecimal escape of the given value. -/
def finishEscape (lead : Option Nat) (value : Nat) : StringStep :=
  match lead with
  | none =>
    if 0xDC00 ≤ value ∧ value ≤ 0xDFFF then .error .loneSurrogate
    else if 0xD800 ≤ value ∧ value ≤ 0xDBFF then .ok ([], .pairBackslash value)
    else .ok (String.utf8EncodeChar (Char.ofNat value), .text)
  | some high =>
    if 0xDC00 ≤ value ∧ value ≤ 0xDFFF then
      let c := Char.ofNat ((high - 0xD800) * 0x400 + (value - 0xDC00) + 0x10000)
      .ok (String.utf8EncodeChar c, .text)
    else .error .loneSurrogate

/-- One byte of a string; the closing quote is not its business. -/
def stringStep (raw : RawControl) : StringState → UInt8 → StringStep
  | .text, b =>
    if b = byte '\\' then .ok ([], .escape)
    else if b < 0x20 ∧ raw = .refused then .error .controlCharacter
    else .ok ([b], .text)
  | .escape, b =>
    if b = byte 'u' then .ok ([], .hex none 3 (some 0))
    else match letterEscape? b with
      | some c => .ok ([c], .text)
      | none => .error .invalidEscape
  | .hex lead left value, b =>
    let value := do
      let n ← value
      let d ← hexDigit? b
      pure (n * 16 + d)
    match left with
    | left + 1 => .ok ([], .hex lead left value)
    | 0 =>
      match value with
      | some n => finishEscape lead n
      | none => .error .invalidEscape
  | .pairBackslash lead, b =>
    if b = byte '\\' then .ok ([], .pairLetter lead) else .error .unfinishedSurrogate
  | .pairLetter lead, b =>
    if b = byte 'u' then .ok ([], .hex (some lead) 3 (some 0)) else .error .unfinishedSurrogate

/-- The bytes of a string up to its closing quote, escapes replaced, and the bytes after it. -/
def readContents (raw : RawControl) : StringState → Reader (List UInt8)
  | _, [] => .error (.before .endInString [])
  | state, b :: rest =>
    if state = .text ∧ b = byte '"' then .ok ([], rest)
    else match stringStep raw state b with
      | .error cause => .error (.before cause rest)
      | .ok (added, next) =>
        match readContents raw next rest with
        | .error fault => .error fault
        | .ok (contents, after) => .ok (added ++ contents, after)

/-- Reads a string behind its opening quote. Contents that are no UTF-8 are reported as many bytes
before the end of the string as they have from the first byte on that belongs to no character. -/
def readString (raw : RawControl) : Reader String := fun s =>
  match readContents raw .text s with
  | .error fault => .error fault
  | .ok (contents, rest) =>
    match Text.ofUtf8? contents with
    | some text => .ok (text, rest)
    | none => .error ⟨.invalidUnicode, rest.length + (contents.length - Text.utf8Prefix contents)⟩

end MailServer.Json
