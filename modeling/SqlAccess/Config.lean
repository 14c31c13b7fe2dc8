/-
Configuration groups: per connection name the type of the database, its settings, and a few options.

Groups come from code or from a TOML document whose top-level tables are the groups. Keys that mean nothing here are
ignored; a value of the wrong kind makes the document unreadable.
-/
import SqlAccess.Text.Reading
import SqlAccess.Toml.Reader

namespace SqlAccess

structure Config where
  driver : Option Text
  settings : Table Text
  charset : Option Text
  persistent : Bool
  tablePrefix : Text
  deriving DecidableEq, Repr

namespace Config

def empty : Config := ⟨none, [], none, false, []⟩

/-- the type of the database, which must be named -/
def driverName (config : Config) (group : Text) : Except Error Text :=
  match config.driver with
  | some (c :: r) => .ok (c :: r)
  | _ => .error (.configuration (.typeMissing group))

/-- every key must have a setting -/
def require (config : Config) (group : Text) (keys : List Text) : Except Error Unit :=
  let missing := keys.filter fun key => (config.settings.lookup key).isNone
  if missing.isEmpty then .ok () else .error (.configuration (.keysMissing group missing))

/-- a setting through a reader, blanks around it ignored; none without a setting -/
def read {α : Type} (reader : Text → Except Unreadable α) (config : Config) (group key : Text) :
    Except Error (Option α) :=
  match config.settings.lookup key with
  | none => .ok none
  | some value =>
    match reader value.trim with
    | .ok a => .ok (some a)
    | .error _ => .error (.configuration (.badSetting group key value))

def seconds (config : Config) (group key : Text) : Except Error (Option Duration) :=
  (config.read (Text.readInteger (.unsigned 64)) group key).map (·.map fun n => Duration.ofSeconds n.toNat)

/-! ## From TOML -/

def string? : Toml.Value → Option Text
  | .string t => some t
  | _ => none

def boolean? : Toml.Value → Option Bool
  | .boolean b => some b
  | _ => none

/-- the key under which a moment stands where a table is asked for -/
def momentKey : Text := "$__toml_private_datetime"

/-- a table of strings; a moment is a table of its own text -/
def settings? : Toml.Value → Option (Table Text)
  | .table entries => entries.mapM fun (key, v) => (string? v).map fun t => (key, t)
  | .moment m => some [(momentKey, m.text)]
  | _ => none

/-- A field that may be absent but not of the wrong kind. -/
def field {α : Type} (reader : Toml.Value → Option α) (absent : α) : Option Toml.Value → Option α
  | none => some absent
  | some v => reader v

/-- A group from a table of its fields. What else stands in the table is ignored, but has to be readable. -/
def ofTable (entries : List (Text × Toml.Value)) : Option Config := do
  guard (Toml.entriesReadable entries)
  let find (key : Text) := entries.lookup key
  let driver ← field (fun v => (string? v).map some) none (find "type")
  let settings ← field settings? [] (find "connection")
  let charset ← field (fun v => (string? v).map some) none (find "character_set")
  let persistent ← field boolean? false (find "persistent")
  let tablePrefix ← field string? [] (find "table_prefix")
  return ⟨driver, settings, charset, persistent, tablePrefix⟩

/-- A group from its fields in order; the first three have to be there, and nobody looks at a sixth. -/
def ofFields : List Toml.Value → Option Config
  | driver :: settings :: charset :: others => do
    let driver ← string? driver
    let settings ← settings? settings
    let charset ← string? charset
    let persistent ← field boolean? false others[0]?
    let tablePrefix ← field string? [] others[1]?
    return ⟨some driver, settings, some charset, persistent, tablePrefix⟩
  | _ => none

/-- A group from a value of the document. A moment is a table without any field of a group. -/
def ofToml : Toml.Value → Option Config
  | .table entries => ofTable entries
  | .array items => ofFields items
  | .moment _ => some empty
  | _ => none

def readAll (source : Text) : Except Error (Table Config) :=
  let groups := (Toml.read source).bind (·.mapM fun (name, v) => (ofToml v).map fun config => (name, config))
  groups.elim (.error (.configuration .unreadable)) .ok

end Config

end SqlAccess
