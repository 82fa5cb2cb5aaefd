import MailServer.Config.Basic

/-!
# Settings

A configuration is put together from layers, each of which sets some of its fields. A layer is a
partial configuration: a value for some of the fields.

* `MailServer.Config.Field` are the fields with their names and the types of their values.
* `MailServer.Config.Settings` are the values that a layer sets.
* `MailServer.Config.Settings.set` sets a field, and `MailServer.Config.Settings.complete` fills
  what is missing with `MailServer.Config.Field.fallback`.
* `MailServer.Config.Settings.isStandard` tells the layer that repeats the defaults.
-/

namespace MailServer.Config

/-! ## Fields -/

/-- The fields of a configuration. -/
inductive Field where
  | logFilter
  | logFormat
  | endpoint
  | maxNameLength
  | pathDelimiter
  | allowOrigin
  | localUser
deriving DecidableEq, Repr

namespace Field

/-- All fields, in the order in which a configuration is written. -/
def all : List Field :=
  [logFilter, logFormat, endpoint, maxNameLength, pathDelimiter, allowOrigin, localUser]

/-- The name of a field. -/
def name : Field → String
  | logFilter => "log_filter"
  | logFormat => "log_format"
  | endpoint => "jmap_endpoint"
  | maxNameLength => "max_mailbox_name_length"
  | pathDelimiter => "path_delimiter"
  | allowOrigin => "cors_allow_origin"
  | localUser => "local_user"

/-- The field of the given name. -/
def ofName? (name : String) : Option Field := all.find? (·.name == name)

/-- The type of the values of a field. -/
abbrev Value : Field → Type
  | logFormat => LogFormat
  | maxNameLength => UInt64
  | _ => String

theorem ofName?_name (f : Field) : ofName? f.name = some f := by cases f <;> decide +kernel

/-- The value of a field that no layer sets. -/
def fallback : (f : Field) → f.Value
  | logFilter => "info"
  | logFormat => .json
  | endpoint => "/jmap"
  | maxNameLength => 200
  | pathDelimiter => String.singleton defaultDelimiter
  | allowOrigin => "*"
  | localUser => "postmaster@localhost"

end Field

/-- The value of a field in a configuration. -/
def get (c : Config) : (f : Field) → f.Value
  | .logFilter => c.logFilter
  | .logFormat => c.logFormat
  | .endpoint => c.endpoint
  | .maxNameLength => c.maxNameLength
  | .pathDelimiter => c.pathDelimiter
  | .allowOrigin => c.allowOrigin
  | .localUser => c.localUser

/-- The configuration with the given values. -/
def ofFields (value : (f : Field) → f.Value) : Config where
  logFilter := value .logFilter
  logFormat := value .logFormat
  endpoint := value .endpoint
  maxNameLength := value .maxNameLength
  pathDelimiter := value .pathDelimiter
  allowOrigin := value .allowOrigin
  localUser := value .localUser

@[simp] theorem ofFields_get (c : Config) : ofFields c.get = c := rfl

@[simp] theorem get_ofFields (value : (f : Field) → f.Value) : (ofFields value).get = value := by
  funext f
  cases f <;> rfl

/-- Each field that is left out is as in the default configuration. -/
theorem fallback_eq (f : Field) : f.fallback = get standard f := by cases f <;> rfl

/-! ## Layers -/

instance (f : Field) : DecidableEq f.Value := by cases f <;> infer_instance

/-- Values for some of the fields. -/
structure Settings where
  value? : (f : Field) → Option f.Value

namespace Settings

/-- No values. -/
def empty : Settings := ⟨fun _ => none⟩

/-- Sets a field. -/
def set (s : Settings) (f : Field) (v : f.Value) : Settings :=
  ⟨fun g => if h : f = g then some (h ▸ v) else s.value? g⟩

/-- The configuration with the given settings, each field by default where there is none for it. -/
def complete (s : Settings) : Config := ofFields fun f => (s.value? f).getD f.fallback

/-- Every field is set, and to its default. -/
def isStandard (s : Settings) : Bool := Field.all.all fun f => s.value? f = some (standard.get f)

@[simp] theorem value?_set_same (s : Settings) (f : Field) (v : f.Value) :
    (s.set f v).value? f = some v := by
  simp [set]

theorem value?_set_other (s : Settings) {f g : Field} (v : f.Value) (h : f ≠ g) :
    (s.set f v).value? g = s.value? g := by
  simp [set, h]

end Settings

end MailServer.Config
