import MailServer.Server
import MailServer.Service.Script

/-!
# Answering one request

A single run starts a server with nothing in it, sends it one batch on behalf of the configured
user, and shows the answer.

* `MailServer.Replay.run` is the output and the exit code of a run, given the reader of log filters.
* `MailServer.Replay.looksReadable` stands in for that reader where a run names none.
-/

namespace MailServer.Replay

open Service (Backend)

/-- The token under which the configured user is known. -/
def localToken : String := "postbox-local"

/-- What a run leaves: its exit code and its output. -/
structure Outcome where
  exitCode : UInt32
  output : String
deriving DecidableEq, Repr

/-- A run in which no server started. -/
def Outcome.notStarted : Outcome := ⟨1, ""⟩

/-- The exit code for the status of a response. -/
def exitCode (status : Nat) : UInt32 :=
  if 200 ≤ status ∧ status < 300 then 0 else if 400 ≤ status ∧ status < 500 then 2 else 1

/-- The request that carries a body to the endpoint. -/
def request (config : Config) (body : List UInt8) : Http.Request where
  method := .post
  path := config.endpoint
  headers := .ofList [("Authorization", "Bearer " ++ localToken), ("Content-Type", Http.jsonContent)]
  body := body

/-- The tokens of a run: the one of the configured user. -/
def tokens (config : Config) : Http.Tokens :=
  (Http.Tokens.empty config.delimiter).register localToken config.localUser

/-- Stands in for the reader of log filters, which comes with a log: there are commas between
directives, and a directive has one equals sign at most. This is only what most filters look like. The
level of a directive can be a word that is none, and the fields of a span can have equals signs of their
own. -/
def looksReadable (filter : String) : Bool :=
  (Text.pieces (· == ',') filter.toList).all fun directive => directive.count '=' ≤ 1

/-- A run with a command line, an environment and an input, where `readable` tells the log filters
that can be read. -/
def run (arguments : List String) (environment : Config.Environment) (input : List UInt8)
    (readable : String → Bool := looksReadable) : Outcome :=
  match Config.load arguments environment with
  | .error _ => .notStarted
  | .ok config =>
    match (Server.start (.ok config) (tokens config) false readable).1 with
    | .error _ => .notStarted
    | .ok server =>
      let backend := Backend.empty config.maxNameLength.toNat config.delimiter
      let (response, _) := backend.run (server.routes.dispatch (request config input))
      ⟨exitCode response.status, response.body⟩

end MailServer.Replay
