import MailServer.Http.Error
import MailServer.Json.Parser

/-!
# Batches of invocations

The body of a request is a JSON list of invocations, each a list of a method name, an object of
arguments and a call id. The answer is a list of results of the same form.

Some clients send control characters inside JSON strings as they are. A pass over the bytes of a
body writes them as escapes before the body is read, and leaves every other byte alone. The pass
only knows where strings begin and end.

* `MailServer.Jmap.Quoting` is what the pass knows and `MailServer.Jmap.Quoting.next` how a byte
  changes it; `MailServer.Jmap.escapeControls` is the pass.
* `MailServer.Jmap.Invocation` and `MailServer.Jmap.Result` are the two triples.
* `MailServer.Jmap.readBatch` reads a list of triples.
* `MailServer.Jmap.Batch.parse` reads a body, raw control bytes and all.
* `MailServer.Jmap.Invocation.render` and `MailServer.Jmap.Result.renderAll` write triples.
-/

namespace MailServer.Jmap

/-! ## Raw control bytes -/

/-- Where a byte of a body stands. -/
inductive Quoting where
  | outside
  | inside
  /-- Inside a string, directly behind a backslash that is not itself escaped. -/
  | escaped
deriving DecidableEq, Repr

/-- Where the byte after `b` stands. -/
def Quoting.next : Quoting → UInt8 → Quoting
  | outside, b => if b = 0x22 then inside else outside
  | inside, b => if b = 0x5C then escaped else if b = 0x22 then outside else inside
  | escaped, _ => inside

/-- A digit of a hexadecimal number in lower case, as a byte. -/
def hexByte (n : UInt8) : UInt8 := if n < 10 then 0x30 + n else 0x57 + n

/-- The escape of a byte: a backslash, `u00` and its two digits. -/
def escapeOf (b : UInt8) : List UInt8 := [0x5C, 0x75, 0x30, 0x30, hexByte (b / 16), hexByte (b % 16)]

/-- The body from a byte that stands at `q` on, with its raw control bytes escaped: those below
0x20 inside a string that do not follow a backslash. -/
def escapeFrom : Quoting → List UInt8 → List UInt8
  | _, [] => []
  | q, b :: rest =>
    if q = .inside ∧ b < 0x20 then escapeOf b ++ escapeFrom q rest else b :: escapeFrom (q.next b) rest

/-- The body with its raw control bytes escaped. -/
def escapeControls (body : List UInt8) : List UInt8 := escapeFrom .outside body

/-! ## Triples -/

open Json (Fault RawControl Reader Value)

/-- A call of a method. -/
structure Invocation where
  method : String
  arguments : Value
  callId : String

/-- The answer to a call. -/
structure Result where
  name : String
  value : Value
  callId : String

/-- The name of the answer to a call that failed. -/
def errorName : String := "error"

namespace Result

/-- The answer to a call that failed. -/
def failed (value : Value) (callId : String) : Result := ⟨errorName, value, callId⟩

/-- The answer is that of a call that failed. -/
def isError (r : Result) : Bool := r.name == errorName

/-- The answer as a JSON value. -/
def toValue (r : Result) : Value := .array [.string r.name, r.value, .string r.callId]

/-- The JSON text of a list of answers. -/
def renderAll (results : List Result) : String := (Value.array (results.map toValue)).render

end Result

namespace Invocation

/-- The call as a JSON value. -/
def toValue (i : Invocation) : Value := .array [.string i.method, i.arguments, .string i.callId]

/-- The JSON text of a call. -/
def render (i : Invocation) : String := i.toValue.render

end Invocation

/-! ## Reading -/

/-- How a triple is described where it is missing or of another length. -/
def tripleName : String := "tuple struct Invocation"

/-- A list of fewer than three elements, seen when its closing bracket comes next. -/
def tooShort (count : Nat) (s : List UInt8) : Fault :=
  .before (.wrongLength count (tripleName ++ " with 3 elements")) (Json.skipBlank s).tail

/-- Reads a triple. Containers in its second part nest at most `depth` deep. -/
def readInvocation (raw : RawControl) (depth : Nat) : Reader Invocation := fun s =>
  match Json.skipBlank s with
  | [] => .error (.at .endInValue [])
  | b :: rest =>
    if b = Json.byte '[' then do
      let some s ← Json.nextElement true rest | .error (tooShort 0 rest)
      let (method, rest) ← Json.readText raw "a string" s
      let some s ← Json.nextElement false rest | .error (tooShort 1 rest)
      let (arguments, rest) ← Json.readValue raw depth s
      let some s ← Json.nextElement false rest | .error (tooShort 2 rest)
      let (callId, rest) ← Json.readText raw "a string" s
      let (_, rest) ← Json.closeList rest
      pure (⟨method, arguments, callId⟩, rest)
    else .error (Json.mismatchFault tripleName (b :: rest))

/-- Reads a list of triples. The list and the triples count as two containers. -/
def readBatch (raw : RawControl) : Reader (List Invocation) := fun s =>
  match Json.skipBlank s with
  | [] => .error (.at .endInValue [])
  | b :: rest =>
    if b = Json.byte '[' then
      Json.readElements (readInvocation raw (Json.maxDepth - 2)) (rest.length + 1) true rest
    else .error (Json.mismatchFault "a sequence" (b :: rest))

namespace Batch

/-- Refuses a batch in which the arguments of a call are no object; the first such call is named. -/
def checkArguments (batch : List Invocation) : Except Http.Error (List Invocation) :=
  match batch.find? fun i => !i.arguments.isObject with
  | some i => .error (.malformed ("arguments of call '" ++ i.callId ++ "' must be an object"))
  | none => .ok batch

/-- Reads a body as it is, with what a string may hold raw. -/
def parseAs (raw : RawControl) (body : List UInt8) : Except Http.Error (List Invocation) :=
  match Json.readAll (readBatch raw) body with
  | .error e => .error (.malformed e.message)
  | .ok batch => checkArguments batch

/-- Reads a body whose raw control bytes inside strings count as escaped. -/
def parse (body : List UInt8) : Except Http.Error (List Invocation) :=
  parseAs .refused (escapeControls body)

end Batch

end MailServer.Jmap
