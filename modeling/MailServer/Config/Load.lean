import MailServer.Config.Flags
import MailServer.Config.Plain
import MailServer.Config.Settings
import MailServer.Text.Basic

/-!
# Putting a configuration together

The command line comes before the environment, and the environment before the defaults. A command
line that only repeats all defaults says nothing: the environment then comes first.

Every field has an environment variable. What the variable holds is given a type by its looks, and
a field accepts only the type that it has. A variable can also name a place below its field, which
makes the field a table.

* `MailServer.Config.Environment` are the variables.
* `MailServer.Config.variablePath?` is the path of names that a variable stands for.
* `MailServer.Config.Environment.find?` is what the environment holds for a field, and
  `MailServer.Config.Field.ofPlain?` gives it the type of the field.
* `MailServer.Config.load` is the configuration for a command line and an environment;
  `MailServer.Config.LoadError` is why there is none.
-/

namespace MailServer.Config

/-! ## Variables -/

/-- Variables with their values, in the order in which they came to be. -/
abbrev Environment := List (String × String)

/-- Sets a variable. One that is there keeps its place. -/
def Environment.set (name value : String) : Environment → Environment
  | [] => [(name, value)]
  | (other, old) :: rest =>
    if other = name then (name, value) :: rest else (other, old) :: Environment.set name value rest

/-- The environment after setting the variables one after the other. -/
def Environment.ofList (entries : List (String × String)) : Environment :=
  entries.foldl (fun environment (name, value) => Environment.set name value environment) []

/-- The variable that an entry of the form `name=value` sets. -/
def Environment.entry? (bytes : List UInt8) : Option (String × String) := do
  let (name, value) ← Text.cutFirst '=' (← Text.ofUtf8? bytes).toList
  pure (String.ofList name, String.ofList value)

/-- The variables of a block of entries that a zero byte ends each. An entry that is no text is
left out. -/
def Environment.ofBlock (bytes : List UInt8) : Environment :=
  (bytes.splitBy fun b _ => b != 0).filterMap fun entry => entry? (entry.filter (· != 0))

/-! ## Names of variables -/

/-- The beginning of the names of all variables that set something. -/
def variableStart : String := "POSTBOX_"

/-- Two underscores are read as a point, from left to right. -/
def withPoints : List Char → List Char
  | '_' :: '_' :: cs => '.' :: withPoints cs
  | c :: cs => c :: withPoints cs
  | [] => []

/-- The characters behind the beginning of all names, if they begin with it in any letter case. -/
def dropStart (cs : List Char) : Option (List Char) :=
  let start := variableStart.toList
  if (cs.take start.length).map Char.toLower = start.map Char.toLower then
    some (cs.drop start.length)
  else none

/-- The path that the name of a variable stands for: what is behind the beginning of all names, in
small letters, cut at the points. No part of a path is empty. Blanks around a name do not count,
nor do blanks around what is behind the beginning. -/
def variablePath? (name : String) : Option (List String) := do
  let rest ← dropStart (Text.trimChars name.toList)
  let parts := Text.pieces (· == '.') (Text.trimChars (withPoints (rest.map Char.toLower)))
  if parts.any List.isEmpty then none else some (parts.map String.ofList)

/-- What the last variable at or below a field makes of it. -/
def Environment.find? (environment : Environment) (f : Field) : Option Plain :=
  environment.reverse.findSome? fun (name, value) =>
    match variablePath? name with
    | some (part :: below) =>
      if part = f.name then some ((Plain.parse value).under below) else none
    | _ => none

/-! ## Values of variables -/

namespace Field

/-- The environment variable of a field. -/
def variableName (f : Field) : String :=
  variableStart ++ String.ofList (f.name.toList.map Char.toUpper)

/-- The form of the log for a value: its name, or a table with only that name. -/
def formatOfPlain? : Plain → Option LogFormat
  | .text name | .label name => LogFormat.ofName? name
  | _ => none

/-- The value of a field that a variable holds. -/
def ofPlain? : (f : Field) → Plain → Option f.Value
  | .logFormat, v => formatOfPlain? v
  | .maxNameLength, .natural n => some n
  | .maxNameLength, _ => none
  | .logFilter, .text s | .endpoint, .text s | .pathDelimiter, .text s | .allowOrigin, .text s
  | .localUser, .text s => some s
  | _, _ => none

end Field

/-! ## The layers -/

/-- Why there is no configuration. -/
inductive LoadError where
  | malformedArguments
  | unusableVariable (field : Field)
  /-- The command line is malformed, and the variable of a field holds no value of it either. -/
  | nothingUsable (field : Field)
deriving DecidableEq, Repr

/-- Sets the fields that are not set from their variables, as far as there are any. Fails at a field
whose variable holds no value of it. -/
def readVariables (environment : Environment) (s : Settings) : List Field → Except Field Settings
  | [] => .ok s
  | f :: fields =>
    match s.value? f, environment.find? f with
    | none, some found =>
      match f.ofPlain? found with
      | some v => readVariables environment (s.set f v) fields
      | none => .error f
    | _, _ => readVariables environment s fields

/-- The configuration for a command line and an environment. A variable counts only where the
command line says nothing about its field. -/
def load (arguments : List String) (environment : Environment) : Except LoadError Config :=
  match parseFlags arguments with
  | none =>
    match readVariables environment .empty Field.all with
    | .ok _ => .error .malformedArguments
    | .error f => .error (.nothingUsable f)
  | some flags =>
    let said := if flags.isStandard then .empty else flags
    match readVariables environment said Field.all with
    | .ok s => .ok s.complete
    | .error f => .error (.unusableVariable f)

end MailServer.Config
