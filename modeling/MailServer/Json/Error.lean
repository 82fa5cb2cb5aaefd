import MailServer.Json.Printer
import MailServer.Text.Quoted

/-!
# What is wrong with a JSON text

A reader stops at the first thing it cannot accept. The cause says what that was, in the grammar
or in the shape the caller asked for; a text read from bytes has a position as well.

* `MailServer.Json.Found` names the kind of value that stood in the wrong place.
* `MailServer.Json.Cause` is the cause and `MailServer.Json.Cause.message` its wording.
* `MailServer.Json.Position` counts lines from one and the bytes consumed in the last line.
* `MailServer.Json.Error` is a cause with its position, if it has one.
-/

namespace MailServer.Json

/-- The value that stood where another kind was expected. -/
inductive Found where
  | null
  | bool (b : Bool)
  | number (n : Number)
  | string (s : String)
  | sequence
  | map
deriving DecidableEq

namespace Found

/-- What a value is, seen from outside. -/
def ofValue : Value → Found
  | .null => null
  | .bool b => bool b
  | .number n => number n
  | .string s => string s
  | .array _ => sequence
  | .object _ => map

/-- The wording for a value found. -/
def message : Found → String
  | null => "null"
  | bool b => "boolean `" ++ (if b then "true" else "false") ++ "`"
  | number (.double x) => "floating point `" ++ String.ofList (doubleChars x) ++ "`"
  | number n => "integer `" ++ String.ofList n.chars ++ "`"
  | string s => "string " ++ Text.quoted s
  | sequence => "sequence"
  | map => "map"

end Found

/-- Why a JSON text was not accepted. -/
inductive Cause where
  | endInValue
  | endInList
  | endInObject
  | endInString
  | expectedValue
  | expectedWord
  | expectedColon
  | expectedListComma
  | expectedObjectComma
  | expectedKey
  | trailingComma
  | trailingCharacters
  | invalidNumber
  | numberOutOfRange
  | invalidEscape
  | invalidUnicode
  | loneSurrogate
  | unfinishedSurrogate
  | controlCharacter
  | tooDeep
  /-- A value of another kind than the expected one. -/
  | mismatch (found : Found) (expected : String)
  /-- A value of the right kind that is not admitted. -/
  | notAdmitted (found : Found) (expected : String)
  | wrongLength (count : Nat) (expected : String)
  | missingField (name : String)
  | duplicateField (name : String)
  | unknownVariant (name : String) (known : List String)
deriving DecidableEq

namespace Cause

/-- The known names between backquotes, separated by commas. -/
def variantList (known : List String) : String :=
  ", ".intercalate (known.map fun name => "`" ++ name ++ "`")

/-- The wording of a cause. -/
def message : Cause → String
  | endInValue => "EOF while parsing a value"
  | endInList => "EOF while parsing a list"
  | endInObject => "EOF while parsing an object"
  | endInString => "EOF while parsing a string"
  | expectedValue => "expected value"
  | expectedWord => "expected ident"
  | expectedColon => "expected `:`"
  | expectedListComma => "expected `,` or `]`"
  | expectedObjectComma => "expected `,` or `\x7d`"
  | expectedKey => "key must be a string"
  | trailingComma => "trailing comma"
  | trailingCharacters => "trailing characters"
  | invalidNumber => "invalid number"
  | numberOutOfRange => "number out of range"
  | invalidEscape => "invalid escape"
  | invalidUnicode => "invalid unicode code point"
  | loneSurrogate => "lone leading surrogate in hex escape"
  | unfinishedSurrogate => "unexpected end of hex escape"
  | controlCharacter => "control character (\\u0000-\\u001F) found while parsing a string"
  | tooDeep => "recursion limit exceeded"
  | mismatch found expected => "invalid type: " ++ found.message ++ ", expected " ++ expected
  | notAdmitted found expected => "invalid value: " ++ found.message ++ ", expected " ++ expected
  | wrongLength count expected =>
    "invalid length " ++ toString count ++ ", expected " ++ expected
  | missingField name => "missing field `" ++ name ++ "`"
  | duplicateField name => "duplicate field `" ++ name ++ "`"
  | unknownVariant name known =>
    "unknown variant `" ++ name ++ "`, expected one of " ++ variantList known

end Cause

/-- A place in a text: the line, counted from one, and the bytes consumed in that line. -/
structure Position where
  line : Nat
  column : Nat
deriving DecidableEq, Repr

/-- The place after `consumed` bytes of a text. A line feed ends its line. -/
def Position.after (text : List UInt8) (consumed : Nat) : Position :=
  let seen := text.take consumed
  { line := 1 + seen.count 10
    column := (seen.reverse.takeWhile (· != 10)).length }

/-- A cause, and where in the text it showed if there was a text. -/
structure Error where
  cause : Cause
  position : Option Position
deriving DecidableEq

/-- The wording of an error, the position last. -/
def Error.message (e : Error) : String :=
  match e.position with
  | none => e.cause.message
  | some p => e.cause.message ++ " at line " ++ toString p.line ++ " column " ++ toString p.column

end MailServer.Json
