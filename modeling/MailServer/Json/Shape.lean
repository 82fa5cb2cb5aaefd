import MailServer.Json.Error

/-!
# Values of an expected shape

The arguments of a method are a JSON value that has to have a certain shape. A record may be given
as an object with its field names or as a list of its fields in order. Fields that the record does
not have are ignored, and fields that may be absent take their default.

* `MailServer.Json.Shape` is a reader of values.
* `MailServer.Json.Shape.text`, `MailServer.Json.Shape.listOf`, `MailServer.Json.Shape.optional` and
  `MailServer.Json.Shape.tableOf` are the shapes of texts, lists, values that may be `null` and
  objects used as tables.
* `MailServer.Json.Shape.field` reads one field of a record given as an object.
-/

namespace MailServer.Json

/-- Takes a value of some shape apart, or says why it has another. -/
abbrev Shape (α : Type) := Value → Except Cause α

namespace Shape

variable {α : Type}

/-- The value has another kind than the expected one. -/
def refuse (expected : String) (v : Value) : Except Cause α :=
  .error (.mismatch (.ofValue v) expected)

/-- A string. -/
def text : Shape String
  | .string s => .ok s
  | v => refuse "a string" v

/-- A list whose items have the given shape. -/
def listOf (item : Shape α) : Shape (List α)
  | .array items => items.mapM item
  | v => refuse "a sequence" v

/-- A value of the given shape or `null`. -/
def optional (shape : Shape α) : Shape (Option α)
  | .null => .ok none
  | v => some <$> shape v

/-- An object whose values have the given shape, in the order of the names. -/
def tableOf (value : Shape α) : Shape (List (String × α))
  | .object members => members.mapM fun (name, v) => do pure (name, ← value v)
  | v => refuse "a map" v

/-- The field `name` of an object, read by `shape`; `none` where the object has no such field. -/
def field (name : String) (shape : Shape α) (members : List (String × Value)) :
    Except Cause (Option α) :=
  match Keyed.find? name members with
  | some v => some <$> shape v
  | none => .ok none

/-- A record given as a list may not hold more than its fields. -/
def noMore (items : List Value) (fields : Nat) : Except Cause Unit :=
  if items.length ≤ fields then .ok ()
  else .error (.wrongLength items.length "fewer elements in array")

end Shape

end MailServer.Json
