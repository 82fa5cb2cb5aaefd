import MailServer.Http.Error
import MailServer.Service.Script

/-!
# Routes

A client asks for a version of the mail protocol by the parameter `jmapVersion` of its `Accept`
field; without one it gets the draft. A table of routes sends a request to the first route of its
version whose endpoint matches it. Browsers ask with `OPTIONS` before they send a request to
another origin; such a request is answered by the route for it, whatever version it asks for.

* `MailServer.Http.Version.parse` reads the name of a version, and
  `MailServer.Http.Version.ofRequest` is the version that a request asks for.
* `MailServer.Http.Endpoint` is a method with a path, which stands for all paths below it.
* `MailServer.Http.Route` is an endpoint with a version and a handler.
* `MailServer.Http.Origins` are the header fields that admit other origins.
* `MailServer.Http.Routes` is the table; `MailServer.Http.Routes.dispatch` answers a request.
-/

namespace MailServer.Http

open Service (Script)

/-! ## Versions -/

/-- The versions of the mail protocol. -/
inductive Version where
  | draft
  | rfc8621
deriving DecidableEq, Repr

namespace Version

/-- The name of a version. -/
def name : Version → String
  | draft => "draft"
  | rfc8621 => "rfc-8621"

/-- The version with the given name, blanks around it aside. -/
def parse (value : String) : Except Error Version :=
  let value := Text.trim value
  if value = "draft" then .ok .draft
  else if value = "rfc-8621" then .ok .rfc8621
  else .error (.unsupportedVersion value)

/-- The name of the parameter that asks for a version. -/
def parameter : String := "jmapVersion"

/-- The value of a segment of the form `jmapVersion=value`, blanks aside. -/
def parameterValue? (segment : List Char) : Option String :=
  match Text.cutFirst '=' (Text.trimChars segment) with
  | some (name, value) =>
    if Text.sameFolded (String.ofList (Text.trimChars name)) parameter then
      some (String.ofList value)
    else none
  | none => none

/-- The version that an `Accept` field asks for: its segments end at commas and semicolons, and
the first one that names a version decides. -/
def ofAccept (accept : String) : Except Error Version :=
  match (Text.pieces (fun c => c == ',' || c == ';') accept.toList).findSome? parameterValue? with
  | some value => parse value
  | none => .ok .draft

/-- The version that a request asks for. -/
def ofRequest (r : Request) : Except Error Version :=
  match r.header? "Accept" with
  | some accept => ofAccept accept
  | none => .ok .draft

end Version

/-! ## Endpoints -/

/-- A method and a path. -/
structure Endpoint where
  method : Method
  path : String
deriving DecidableEq, Repr

namespace Endpoint

/-- The endpoint as it is shown. -/
def render (e : Endpoint) : String := e.method.name ++ " " ++ e.path

/-- A path is the given one, or it is the given one followed by a slash and anything. -/
def covers (path target : List Char) : Bool :=
  target == path ||
    (path.isPrefixOf target && (target.drop path.length).head? == some '/')

/-- A request has the method of the endpoint and a path that it covers. -/
def isMatch (e : Endpoint) (r : Request) : Bool :=
  r.method == e.method && covers e.path.toList r.path.toList

end Endpoint

/-! ## Routes -/

/-- What answers the requests of a route. -/
abbrev Handler := Request → Script Response

/-- An endpoint in a version of the protocol, with its handler. -/
structure Route where
  endpoint : Endpoint
  version : Version
  handler : Handler

/-- The origin that responses admit, written into their header fields. -/
structure Origins where
  allowed : String
deriving DecidableEq, Repr

namespace Origins

/-- The header fields that admit the origin, in the order in which they are written. -/
def fields (o : Origins) : List (String × String) := [
  ("Access-Control-Allow-Origin", o.allowed),
  ("Access-Control-Allow-Methods", "GET, POST, DELETE, PUT"),
  ("Access-Control-Allow-Headers", "Content-Type, Authorization, Accept"),
  ("Access-Control-Max-Age", "86400")]

/-- The response with the fields that admit the origin, in place of any it had. -/
def apply (o : Origins) (r : Response) : Response :=
  o.fields.foldl (fun r (name, value) => r.withHeader name value) r

/-- The handler whose responses admit the origin. -/
def wrap (o : Origins) (handler : Handler) : Handler := fun r => o.apply <$> handler r

end Origins

/-- The handler of the requests that browsers send ahead. -/
def preflight : Handler := fun _ => pure (.ofStatus 200)

/-! ## Tables of routes -/

/-- Routes in the order in which they are tried. -/
structure Routes where
  routes : List Route

namespace Routes

/-- No routes. -/
def empty : Routes := ⟨[]⟩

/-- Adds a route behind the others. -/
def add (t : Routes) (route : Route) : Routes := ⟨t.routes ++ [route]⟩

/-- Adds a route that admits an origin, and the route for what browsers send ahead of it. -/
def addWithPreflight (t : Routes) (endpoint : Endpoint) (version : Version) (handler : Handler)
    (origins : Origins) : Routes :=
  (t.add ⟨endpoint, version, origins.wrap handler⟩).add
    ⟨⟨.options, endpoint.path⟩, version, origins.wrap preflight⟩

/-- The route of a request: the first that matches it, in the version that it asks for. For
`OPTIONS` the version is not looked at. -/
def find (t : Routes) (r : Request) : Except Error (Option Route) :=
  if r.method = .options then .ok (t.routes.find? (·.endpoint.isMatch r))
  else do
    let version ← Version.ofRequest r
    pure (t.routes.find? fun route => route.version == version && route.endpoint.isMatch r)

/-- Answers a request by its route. -/
def dispatch (t : Routes) (r : Request) : Script Response :=
  match t.find r with
  | .ok (some route) => route.handler r
  | .ok none => pure (.ofStatus 404)
  | .error cause => do
    let context := Log.Context.ofList [("method", r.method.name), ("path", r.path)]
    let verdict := transportRules.resolve cause context
    Service.log verdict.event
    pure (failureResponse verdict.action)

/-- Answers a request unless its connection is closed. -/
def dispatchUnlessClosed (t : Routes) (closed : Bool) (r : Request) : Script (Option Response) :=
  if closed then pure none else some <$> t.dispatch r

end Routes

end MailServer.Http
