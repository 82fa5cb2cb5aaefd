/-!
# The log

What the server reports while it works. Events are values, returned beside the answers in the
order in which they happened. Every error that reaches a client is first classified: the first
rule of a table that applies to the error names the answer, and one event records which rule that
was. An error that no rule applies to gets the fallback of the table.

Events that only trace what goes well are not kept: that a request changed its state, which route was
selected, who was authenticated, that a mailbox was created or selected, how many were listed, that a
connection closed. Nothing reads them, and no answer depends on them.

* `MailServer.Log.Event` is one event with its named fields; `MailServer.Log.Level` and
  `MailServer.Log.Source` say how heavy it is and which part of the server reports it.
* `MailServer.Log.Context` is what was being done when an error came up.
* `MailServer.Log.Rule` and `MailServer.Log.Classifier` are rules and tables of rules.
* `MailServer.Log.Classifier.find?` is the first rule that applies and
  `MailServer.Log.Classifier.resolve` gives the answer and the event.
* `MailServer.Log.Classifier.unreachable` names the rules that are first for no sample.
-/

namespace MailServer.Log

/-! ## Events -/

/-- The weight of an event. -/
inductive Level where
  | debug
  | info
  | warn
  | error
deriving DecidableEq, Repr

/-- The name of a level in a log. -/
def Level.name : Level → String
  | debug => "DEBUG"
  | info => "INFO"
  | warn => "WARN"
  | error => "ERROR"

/-- The part of the server that reports an event. -/
inductive Source where
  /-- The choice of an answer to an error. -/
  | classify
  /-- Start-up. -/
  | health
  /-- What a user is given on first contact. -/
  | provision
  /-- The states of a request. -/
  | request
deriving DecidableEq, Repr

/-- The name of a source in a log. -/
def Source.name : Source → String
  | classify => "classify"
  | health => "health"
  | provision => "provision"
  | request => "request"

/-- One event. The fields are in the order in which they are reported. -/
structure Event where
  source : Source
  level : Level
  message : String
  fields : List (String × String)
deriving DecidableEq, Repr

/-! ## The context of an error

An error is reported together with what was being done: the protocol, the action, the call. The
context is a list of named values in the order in which the names first came up. -/

/-- Named values, each name once. -/
structure Context where
  entries : List (String × String)
deriving DecidableEq, Repr

namespace Context

/-- The context that says nothing. -/
def empty : Context := ⟨[]⟩

/-- Replaces the value of a name that is among the entries, or adds the name at the end. -/
def put (key value : String) : List (String × String) → List (String × String)
  | [] => [(key, value)]
  | (k, v) :: rest => if k = key then (k, value) :: rest else (k, v) :: put key value rest

/-- The context with `key` naming `value`. -/
def insert (key value : String) (c : Context) : Context := ⟨put key value c.entries⟩

/-- The value that `key` names. -/
def get? (key : String) (c : Context) : Option String := c.entries.lookup key

/-- The context that names the given values one after the other. -/
def ofList (entries : List (String × String)) : Context :=
  entries.foldl (fun c (key, value) => c.insert key value) empty

/-- The entries as `name=value`, separated by blanks. -/
def render (c : Context) : String :=
  " ".intercalate (c.entries.map fun (key, value) => key ++ "=" ++ value)

end Context

/-! ## Classifying errors -/

/-- A rule: the errors it applies to, the answer to them, and how they are reported. -/
structure Rule (ε α : Type) where
  name : String
  applies : ε → Bool
  action : α
  level : Level
  message : String

/-- A table of rules, tried in order, with the answer to errors that no rule applies to. -/
structure Classifier (ε α : Type) where
  rules : List (Rule ε α)
  fallback : α
  fallbackMessage : String
  /-- The text of an error in the events. -/
  describe : ε → String

/-- What a table says about an error: the rule, the answer, and the event that records it. -/
structure Verdict (α : Type) where
  rule : String
  action : α
  event : Event

/-- The name that stands for the absence of a rule. -/
def fallbackName : String := "fallback"

/-- The verdict came, by its name, from no rule. -/
def Verdict.isFallback {α : Type} (v : Verdict α) : Bool := v.rule == fallbackName

namespace Classifier

variable {ε α : Type}

/-- The first rule that applies to an error. -/
def find? (c : Classifier ε α) (e : ε) : Option (Rule ε α) := c.rules.find? (·.applies e)

/-- The event that records the classification of an error. -/
def report (c : Classifier ε α) (rule : String) (level : Level) (message : String)
    (e : ε) (context : Context) : Event where
  source := .classify
  level := level
  message := message
  fields := [("rule", rule), ("error", c.describe e), ("context", context.render)]

/-- Classifies an error. -/
def resolve (c : Classifier ε α) (e : ε) (context : Context) : Verdict α :=
  match c.find? e with
  | some rule => ⟨rule.name, rule.action, c.report rule.name rule.level rule.message e context⟩
  | none =>
    ⟨fallbackName, c.fallback, c.report fallbackName .error c.fallbackMessage e context⟩

/-- The place in the table of the first rule that applies to an error. -/
def place? (c : Classifier ε α) (e : ε) : Option Nat := c.rules.findIdx? (·.applies e)

/-- The names, in table order, of the rules that are the first to apply for none of the samples. -/
def unreachable (c : Classifier ε α) (samples : List ε) : List String :=
  (c.rules.zipIdx.filter fun (_, i) => !samples.any fun e => c.place? e == some i).map (·.1.name)

end Classifier

end MailServer.Log
