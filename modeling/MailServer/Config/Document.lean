import MailServer.Config.Settings
import MailServer.Json.Parser
import MailServer.Json.Skip

/-!
# Configurations as JSON

A configuration is a JSON object with a member for each field, or a list of the fields in order.
What is left out is as by default; members of other names are passed over.

* `MailServer.Config.readField` reads the value of a field.
* `MailServer.Config.parse` reads a configuration.
* `MailServer.Config.render` writes one.
-/

namespace MailServer.Config

open Json (Fault Reader)

/-! ## Values of fields -/

/-- Reads the limit on names: a natural number of 64 bits. -/
def readLength : Reader UInt64 := fun s =>
  let accept : Json.Number × List UInt8 → Except Fault (UInt64 × List UInt8)
    | (.natural n, rest) => .ok (n, rest)
    | (.double x, rest) => .error (.before (.mismatch (.number (.double x)) "usize") rest)
    | (n, rest) => .error (.before (.notAdmitted (.number n) "usize") rest)
  match Json.skipBlank s with
  | [] => .error (.at .endInValue [])
  | b :: rest =>
    if b = Json.byte '-' then Json.readNumber true rest >>= accept
    else if (Json.digit? b).isSome then Json.readNumber false (b :: rest) >>= accept
    else .error (Json.mismatchFault "usize" (b :: rest))

/-- The form of the log that a name stands for, in front of `rest`. -/
def formatOf (name : String) (rest : List UInt8) : Except Fault LogFormat :=
  match LogFormat.ofName? name with
  | some format => .ok format
  | none => .error (.before (.unknownVariant name (LogFormat.all.map LogFormat.name)) rest)

/-- Reads the word `null`. -/
def readNull : Reader Unit := fun s =>
  match Json.skipBlank s with
  | [] => .error (.at .endInValue [])
  | b :: rest =>
    if b = Json.byte 'n' then Json.readWord (['u', 'l', 'l'].map Json.byte) rest
    else .error (Json.mismatchFault "unit" (b :: rest))

/-- Reads the quote that opens the name of a first member, which has to be there. -/
def openName : Reader Unit := fun s =>
  match Json.skipBlank s with
  | [] => .error (.at .endInObject [])
  | b :: rest =>
    if b = Json.byte '"' then .ok ((), rest)
    else if b = Json.byte '\x7d' then .error (.at .expectedValue (b :: rest))
    else .error (.at .expectedKey (b :: rest))

/-- Reads an object whose only member has the name of a form and the value `null`, behind its
opening brace. -/
def readTaggedFormat : Reader LogFormat := fun s => do
  let (_, rest) ← openName s
  let (name, rest) ← Json.readString .refused rest
  let format ← formatOf name rest
  let (_, rest) ← Json.readColon rest
  let (_, rest) ← readNull rest
  match Json.skipBlank rest with
  | [] => .error (.before .endInObject [])
  | b :: after =>
    if b = Json.byte '\x7d' then pure (format, after) else .error (.before .expectedValue (b :: after))

/-- Reads a form of the log: its name, alone or as the name of a member. -/
def readFormat : Reader LogFormat := fun s =>
  match Json.skipBlank s with
  | [] => .error (.at .endInValue [])
  | b :: rest =>
    if b = Json.byte '"' then do
      let (name, rest) ← Json.readString .refused rest
      let format ← formatOf name rest
      pure (format, rest)
    else if b = Json.byte '\x7b' then readTaggedFormat rest
    else .error (.at .expectedValue (b :: rest))

/-- Reads the value of a field. -/
def readField : (f : Field) → Reader f.Value
  | .logFormat => readFormat
  | .maxNameLength => readLength
  | .logFilter | .endpoint | .pathDelimiter | .allowOrigin | .localUser =>
    Json.readText .refused "a string"

/-! ## Configurations -/

/-- A field that is there twice. The failure is seen behind its second name, and behind a closing
brace that follows. -/
def duplicateFault (f : Field) (s : List UInt8) : Fault :=
  match Json.skipBlank s with
  | b :: rest =>
    .before (.duplicateField f.name) (if b = Json.byte '\x7d' then rest else b :: rest)
  | [] => .before (.duplicateField f.name) []

/-- Reads the value of a member behind its name. -/
def readMember (settings : Settings) (name : String) : Reader Settings := fun s =>
  match Field.ofName? name with
  | none => do
    let (_, rest) ← Json.readColon s
    let (_, rest) ← Json.skipValue rest
    pure (settings, rest)
  | some f =>
    if (settings.value? f).isSome then .error (duplicateFault f s)
    else do
      let (_, rest) ← Json.readColon s
      let (v, rest) ← readField f rest
      pure (settings.set f v, rest)

/-- Reads the members of an object behind its opening brace, through its closing one. Every member
takes a byte, and `count` is more than there are. -/
def readMembers : (count : Nat) → (first : Bool) → Settings → Reader Settings
  | 0, _, _, s => .error (.at .expectedObjectComma s)
  | count + 1, first, settings, s => do
    match ← Json.nextMember first s with
    | none => pure (settings, (Json.skipBlank s).tail)
    | some s =>
      let (name, rest) ← Json.readString .refused s
      let (settings, rest) ← readMember settings name rest
      readMembers count false settings rest

/-- Reads the given fields as elements of a list, through its closing bracket. The list may end
early. -/
def readElements : List Field → (first : Bool) → Settings → Reader Settings
  | [], _, settings, s => do
    let (_, rest) ← Json.closeList s
    pure (settings, rest)
  | f :: fields, first, settings, s => do
    match ← Json.nextElement first s with
    | none => pure (settings, (Json.skipBlank s).tail)
    | some s =>
      let (v, rest) ← readField f s
      readElements fields false (settings.set f v) rest

/-- Reads settings. -/
def readSettings : Reader Settings := fun s =>
  match Json.skipBlank s with
  | [] => .error (.at .endInValue [])
  | b :: rest =>
    if b = Json.byte '\x7b' then readMembers (rest.length + 1) true .empty rest
    else if b = Json.byte '[' then readElements Field.all true .empty rest
    else .error (Json.mismatchFault "struct Config" (b :: rest))

/-- The configuration that a JSON text holds. -/
def parse (text : String) : Except Json.Error Config :=
  (Json.readAll readSettings (Text.utf8 text)).map Settings.complete

/-- The value of a field as a JSON value. -/
def fieldValue : (f : Field) → f.Value → Json.Value
  | .logFormat, format => .string format.name
  | .maxNameLength, length => .ofNat length
  | .logFilter, text | .endpoint, text | .pathDelimiter, text | .allowOrigin, text
  | .localUser, text => .string text

/-- The JSON text of a configuration, in the order of the fields. -/
def render (c : Config) : String :=
  (Json.Value.object (Field.all.map fun f => (f.name, fieldValue f (c.get f)))).render

end MailServer.Config
