import MailServer.Account.Provision
import MailServer.Text.Basic

/-!
# Configuration

What a server is set up with, and what has to hold of it before a server may start.

* `MailServer.Config` is a configuration and `MailServer.Config.standard` the one used by default.
* `MailServer.Config.validate` checks a configuration; `MailServer.Config.Error` is what can be
  wrong with it.
-/

namespace MailServer

/-! ## The form of the log -/

/-- The form in which the log is written. -/
inductive LogFormat where
  | json
  | compact
  | pretty
deriving DecidableEq, Repr

namespace LogFormat

/-- All forms. -/
def all : List LogFormat := [json, compact, pretty]

/-- The name of a form. -/
def name : LogFormat → String
  | json => "json"
  | compact => "compact"
  | pretty => "pretty"

/-- The form of the given name. -/
def ofName? (name : String) : Option LogFormat := all.find? (·.name == name)

/-- The form of the given name, in any letter case. -/
def ofFoldedName? (name : String) : Option LogFormat := all.find? (Text.sameFolded ·.name name)

/-- The wording for a name that is that of no form. -/
def unknownName : String := "Matching variant not found"

theorem ofName?_name (f : LogFormat) : ofName? f.name = some f := by cases f <;> decide +kernel

end LogFormat

/-! ## Configurations -/

/-- A configuration. -/
structure Config where
  /-- Which events are logged. -/
  logFilter : String
  logFormat : LogFormat
  /-- The path under which requests are answered. -/
  endpoint : String
  /-- The most characters that a mailbox name may have. -/
  maxNameLength : UInt64
  /-- The delimiter of mailbox names, to be a single character. -/
  pathDelimiter : String
  /-- The origin that browsers are told to admit. -/
  allowOrigin : String
  /-- The user whose requests a single run answers. -/
  localUser : String
deriving DecidableEq, Repr

namespace Config

/-- The delimiter where the configuration has none. -/
def defaultDelimiter : Char := '.'

/-- The configuration used by default. -/
def standard : Config where
  logFilter := "info"
  logFormat := .json
  endpoint := "/jmap"
  maxNameLength := 200
  pathDelimiter := String.singleton defaultDelimiter
  allowOrigin := "*"
  localUser := "postmaster@localhost"

/-- The delimiter of mailbox names. -/
def delimiter (c : Config) : Char := c.pathDelimiter.toList.headD defaultDelimiter

/-- The least limit on names that admits every default mailbox. -/
def minNameLength : Nat := (Account.defaultMailboxes.map String.length).foldl max 0

/-- What can be wrong with a configuration. -/
inductive Error where
  | relativeEndpoint (endpoint : String)
  | nameLengthTooSmall (length : UInt64)
  | badDelimiter (delimiter : String)
deriving DecidableEq, Repr

/-- The wording of an error. -/
def Error.message : Error → String
  | relativeEndpoint endpoint => "jmap endpoint '" ++ endpoint ++ "' must start with '/'"
  | nameLengthTooSmall length =>
    "max mailbox name length " ++ toString length.toNat ++ " is below " ++ toString minNameLength ++
      ", the longest default mailbox name"
  | badDelimiter delimiter => "path delimiter '" ++ delimiter ++ "' must be a single character"

/-- Checks a configuration. The first thing wrong with it counts. -/
def validate (c : Config) : Except Error Unit :=
  if c.endpoint.toList.head? ≠ some '/' then .error (.relativeEndpoint c.endpoint)
  else if c.maxNameLength.toNat < minNameLength then .error (.nameLengthTooSmall c.maxNameLength)
  else if c.pathDelimiter.length ≠ 1 then .error (.badDelimiter c.pathDelimiter)
  else .ok ()

end Config

end MailServer
