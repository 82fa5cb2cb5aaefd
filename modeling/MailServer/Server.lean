import MailServer.Config.Load
import MailServer.Imap.Command
import MailServer.Jmap.Dispatch

/-!
# Starting a server

A server starts from a configuration that has been loaded and holds. Its routes answer the JMAP
requests of the configured endpoint. What happens on the way is reported, and so is a failure.

The log filter is a text in the language of the log that the server is run with. Its reader comes with
that log, so it is a parameter: `readable` tells which filters it accepts.

* `MailServer.Server` is a running server.
* `MailServer.Server.start` starts one; `MailServer.Server.StartError` is why there is none.
-/

namespace MailServer

/-- A running server. -/
structure Server where
  config : Config
  routes : Http.Routes

namespace Server

/-! ## Failures -/

/-- Why a server did not start. -/
inductive StartError where
  | noConfiguration
  | invalid (cause : Config.Error)
  | badLogFilter (filter : String)
deriving DecidableEq, Repr

/-- The wording of a failure, where the server has one of its own. -/
def StartError.message? : StartError → Option String
  | noConfiguration => none
  | invalid cause => some ("invalid configuration: " ++ cause.message)
  | badLogFilter _ => none

/-! ## Events -/

/-- An event about the start, with its kind as the first field. -/
def startEvent (level : Log.Level) (message kind : String) (fields : List (String × String)) :
    Log.Event :=
  ⟨.health, level, message, ("event", kind) :: fields⟩

/-- The start begins. -/
def starting : Log.Event := startEvent .info "starting server bootstrap" "bootstrap_starting" []

/-- A route is there. -/
def installed (route : Http.Route) : Log.Event :=
  startEvent .info "route installed" "routes_installed"
    [("endpoint", route.endpoint.render), ("version", route.version.name)]

/-- The server has started. -/
def started (config : Config) : Log.Event :=
  startEvent .info "server bootstrap completed" "bootstrap_succeeded"
    [("jmap_endpoint", config.endpoint), ("log_filter", config.logFilter),
      ("log_format", config.logFormat.name)]

/-- The server has not started. -/
def failed (cause : StartError) : Log.Event :=
  startEvent .error "server bootstrap failed" "bootstrap_failed"
    (cause.message?.toList.map fun message => ("error", message))

/-! ## Starting -/

/-- The routes of a server: its endpoint, and what browsers send ahead of a request to it. -/
def apiRoutes (config : Config) (tokens : Http.Tokens) : Http.Routes :=
  Http.Routes.empty.addWithPreflight ⟨.post, config.endpoint⟩ .draft
    (Jmap.stages tokens .mailboxMethods).handler ⟨config.allowOrigin⟩

/-- Checks what a server is to be started with. The log filter is read only where there is no log
yet: a log is set up once and then stays as it is. -/
def check (loaded : Except Config.LoadError Config) (hasLog : Bool) (readable : String → Bool) :
    Except StartError Config :=
  match loaded with
  | .error _ => .error .noConfiguration
  | .ok config =>
    match config.validate with
    | .error cause => .error (.invalid cause)
    | .ok () =>
      if hasLog || readable config.logFilter then .ok config
      else .error (.badLogFilter config.logFilter)

/-- Starts a server for the users with the given tokens, and reports how that went. Without a reader
of log filters none can be read, so the log must be there. -/
def start (loaded : Except Config.LoadError Config) (tokens : Http.Tokens) (hasLog : Bool)
    (readable : String → Bool := fun _ => false) : Except StartError Server × List Log.Event :=
  match check loaded hasLog readable with
  | .error cause => (.error cause, [starting, failed cause])
  | .ok config =>
    let routes := apiRoutes config tokens
    (.ok ⟨config, routes⟩, starting :: routes.routes.map installed ++ [started config])

/-- An IMAP session of a user. -/
def session (s : Server) (user : String) : Imap.Session := .start ⟨user, s.config.delimiter⟩

end Server

end MailServer
