import MailServer.Json.Printer
import MailServer.Text.Basic

/-!
# Requests and responses

A message has header fields, in the order in which they were last written. Names are compared
without case, and a message has at most one field of a name.

* `MailServer.Http.Headers.insert` writes a field; an earlier one of the same name goes away.
* `MailServer.Http.Headers.get?` is the value of a field.
* `MailServer.Http.Request` is a request with its body as bytes.
* `MailServer.Http.Response` is a response with its body as text.
-/

namespace MailServer.Http

/-! ## Header fields -/

/-- The header fields of a message. -/
structure Headers where
  fields : List (String × String)
deriving DecidableEq, Repr

namespace Headers

/-- No fields. -/
def empty : Headers := ⟨[]⟩

/-- Writes a field at the end, in place of any earlier field of the same name. -/
def insert (name value : String) (h : Headers) : Headers :=
  ⟨h.fields.filter (fun (n, _) => !Text.sameFolded n name) ++ [(name, value)]⟩

/-- The value of the field with the given name. -/
def get? (name : String) (h : Headers) : Option String :=
  (h.fields.find? fun (n, _) => Text.sameFolded n name).map (·.2)

/-- The fields written one after the other. -/
def ofList (fields : List (String × String)) : Headers :=
  fields.foldl (fun h (name, value) => h.insert name value) empty

end Headers

/-! ## Messages -/

/-- The methods that routes tell apart. -/
inductive Method where
  | get
  | post
  | options
deriving DecidableEq, Repr

/-- The name of a method. -/
def Method.name : Method → String
  | get => "GET"
  | post => "POST"
  | options => "OPTIONS"

/-- A request. -/
structure Request where
  method : Method
  path : String
  headers : Headers
  body : List UInt8
deriving DecidableEq, Repr

/-- The value of a header field of a request. -/
def Request.header? (r : Request) (name : String) : Option String := r.headers.get? name

/-- A response. -/
structure Response where
  status : Nat
  headers : Headers
  body : String
deriving DecidableEq, Repr

/-- The content type of JSON texts. -/
def jsonContent : String := "application/json; charset=UTF-8"

namespace Response

/-- A response without header fields and body. -/
def ofStatus (status : Nat) : Response := ⟨status, .empty, ""⟩

/-- The response with a header field written. -/
def withHeader (r : Response) (name value : String) : Response :=
  { r with headers := r.headers.insert name value }

/-- A response whose body is a JSON text. -/
def ofJson (status : Nat) (text : String) : Response :=
  { (ofStatus status).withHeader "Content-Type" jsonContent with body := text }

end Response

end MailServer.Http
