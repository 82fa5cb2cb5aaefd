import MailServer.Config.Settings
import MailServer.Text.Basic

/-!
# Settings on the command line

Every field has a flag of a name and a flag of a letter. Its value is behind an equals sign or is
the next argument; behind a letter it may also stand at once. A field may be given once, and
nothing else may stand on the command line.

* `MailServer.Config.Field.flag` and `MailServer.Config.Field.letter` are the flags of a field.
* `MailServer.Config.Flag.read?` takes an argument apart.
* `MailServer.Config.parseFlags` reads the arguments of a command line.
-/

namespace MailServer.Config

namespace Field

/-- The flag of a field: its name with hyphens behind two hyphens. -/
def flag (f : Field) : String :=
  "--" ++ String.ofList (f.name.toList.map fun c => if c = '_' then '-' else c)

/-- The letter of a field, which is a flag behind one hyphen: the first letter of its name that is
still free, as a small letter or else as a capital one. -/
def letter : Field → Char
  | logFilter => 'l'
  | logFormat => 'L'
  | endpoint => 'j'
  | maxNameLength => 'm'
  | pathDelimiter => 'p'
  | allowOrigin => 'c'
  | localUser => 'o'

/-- The field of the given flag. -/
def ofFlag? (flag : String) : Option Field := all.find? (·.flag == flag)

/-- The field of the given letter. -/
def ofLetter? (letter : Char) : Option Field := all.find? (·.letter == letter)

/-- The value that an argument stands for. The form of the log may be in any letter case. -/
def ofArgument? : (f : Field) → String → Option f.Value
  | .logFormat, text => LogFormat.ofFoldedName? text
  | .maxNameLength, text => Text.natural? text.toList
  | .logFilter, text | .endpoint, text | .pathDelimiter, text | .allowOrigin, text
  | .localUser, text => some text

end Field

/-- A flag of a field with the value that stands in the same argument, if one does. -/
structure Flag where
  field : Field
  value? : Option String
deriving DecidableEq, Repr

namespace Flag

/-- The flag in an argument that begins with two hyphens. -/
def ofName? (argument : List Char) : Option Flag :=
  match Text.cutFirst '=' argument with
  | some (flag, value) =>
    (Field.ofFlag? (String.ofList flag)).map (⟨·, some (String.ofList value)⟩)
  | none => (Field.ofFlag? (String.ofList argument)).map (⟨·, none⟩)

/-- The flag with the given letter and what is behind the letter. -/
def ofLetter? (letter : Char) (behind : List Char) : Option Flag :=
  let value? := match behind with
    | [] => none
    | '=' :: value | value => some (String.ofList value)
  (Field.ofLetter? letter).map (⟨·, value?⟩)

/-- The flag in an argument. -/
def read? (argument : String) : Option Flag :=
  match argument.toList with
  | '-' :: '-' :: rest => ofName? ('-' :: '-' :: rest)
  | '-' :: letter :: behind => ofLetter? letter behind
  | _ => none

end Flag

/-- An argument can be the value of a flag before it: it does not look like a flag itself. -/
def isValue (argument : String) : Bool :=
  argument == "-" || argument.toList.head? != some '-'

/-- Sets a field that is not yet set to the value that an argument stands for. -/
def setFlag (s : Settings) (f : Field) (argument : String) : Option Settings :=
  if (s.value? f).isSome then none else (f.ofArgument? argument).map (s.set f)

/-- Reads arguments behind those that have given `s`. Two hyphens alone end the flags, and nothing
may follow them. -/
def readFlags (s : Settings) : List String → Option Settings
  | [] => some s
  | argument :: rest =>
    if argument = "--" then if rest.isEmpty then some s else none
    else match Flag.read? argument, rest with
      | some ⟨f, some value⟩, rest => do readFlags (← setFlag s f value) rest
      | some ⟨f, none⟩, value :: rest =>
        if isValue value then do readFlags (← setFlag s f value) rest else none
      | _, _ => none

/-- The settings on a command line; `none` where it is malformed. -/
def parseFlags (arguments : List String) : Option Settings := readFlags .empty arguments

end MailServer.Config
