/-
A registry of connections by name.

The first call for a name builds its connection through the factory of the group's type, and every later call hands out the
same one. The group is used up by a build that succeeds and stays untouched by one that fails. Connections are handles in a
world that the factories act on, so the registry itself is a plain value.
-/
import SqlAccess.Config
import SqlAccess.Event
import SqlAccess.Text.Inspected

namespace SqlAccess

/-- what a registry does to the connections it holds: the world notes events and closes connections by handle -/
class ConnectionWorld (ω κ : Type) where
  note : Event → ω → ω
  disconnect : κ → ω → Bool × ω

/-- how a connection is built from its name and group -/
abbrev Factory (ω κ : Type) : Type := Text → Config → ω → Except Error κ × ω

/-- the groups not used yet, the factories by type in lower case, and the connections built -/
structure Registry (ω κ : Type) where
  configs : Table Config
  drivers : Table (Factory ω κ)
  instances : Table κ

namespace Registry

variable {ω κ : Type}

/-- the types under which the PostgreSQL factory is registered from the start -/
def postgresTypes : List Text := ["postgresql", "postgres", "pgsql"]

/-- a registry with groups, the PostgreSQL factory, and no connections -/
def of (postgres : Factory ω κ) (configs : Table Config) : Registry ω κ :=
  ⟨configs, Table.ofList (postgresTypes.map fun type => (type, postgres)), []⟩

/-- a factory for a type, in place of one with the same name in any case -/
def register (registry : Registry ω κ) (driver : Text) (factory : Factory ω κ) : Registry ω κ :=
  { registry with drivers := Table.put driver.lower factory registry.drivers }

/-- a group for a name, in place of one not used yet -/
def configure (registry : Registry ω κ) (name : Text) (config : Config) : Registry ω κ :=
  { registry with configs := Table.put name config registry.configs }

/-- The group of a name, its type in lower case and the factory of that type; or what is missing first. -/
def plan (registry : Registry ω κ) (name : Text) : Except Error (Config × Text × Factory ω κ) :=
  match registry.configs.lookup name with
  | none => .error (.configuration (.unknownConnection name))
  | some config =>
    match config.driverName name with
    | .error e => .error e
    | .ok driver =>
      match registry.drivers.lookup driver.lower with
      | none => .error (.configuration (.unknownType driver.lower name))
      | some factory => .ok (config, driver.lower, factory)

/-- the connection of a name, built when there is none yet -/
def connection [ConnectionWorld ω κ] (name : Text) (registry : Registry ω κ) (world : ω) :
    Except Error κ × Registry ω κ × ω :=
  match registry.instances.lookup name with
  | some handle => (.ok handle, registry, world)
  | none =>
    match registry.plan name with
    | .error e => (.error e, registry, world)
    | .ok (config, driver, factory) =>
      match factory name config world with
      | (.error e, world) => (.error e, registry, world)
      | (.ok handle, world) =>
        let registry :=
          { registry with
            configs := registry.configs.erase name
            instances := Table.put name handle registry.instances }
        (.ok handle, registry, ConnectionWorld.note κ (.created name driver) world)

/-- the name of the connection that is meant when none is given -/
def defaultName : Text := "default"

def contains (registry : Registry ω κ) (name : Text) : Bool :=
  (registry.instances.lookup name).isSome || (registry.configs.lookup name).isSome

/-- Connections disconnected one after the other, whether all say that they are closed. They go in the order of their
names, where a hash table gives them in no order at all. -/
def disconnectEach [ConnectionWorld ω κ] : List (Text × κ) → ω → Bool × ω
  | [], world => (true, world)
  | (_, handle) :: r, world =>
    let (closed, world) := ConnectionWorld.disconnect handle world
    let (others, world) := disconnectEach r world
    (closed && others, world)

/-- every connection disconnected; all stay registered -/
def disconnectAll [ConnectionWorld ω κ] (registry : Registry ω κ) (world : ω) : Bool × ω :=
  disconnectEach registry.instances world

/-- Connections disconnected and let go, one after the other and in the same order as in `disconnectEach`. -/
def releaseEach [ConnectionWorld ω κ] : List (Text × κ) → ω → ω
  | [], world => world
  | (name, handle) :: r, world =>
    let (_, world) := ConnectionWorld.disconnect handle world
    releaseEach r (ConnectionWorld.note κ (.released name) world)

/-- every connection disconnected and let go, in the order of their names -/
def clear [ConnectionWorld ω κ] (registry : Registry ω κ) (world : ω) : Registry ω κ × ω :=
  ({ registry with instances := [] }, releaseEach registry.instances world)

/-- the registry, for inspection: the names of groups, types and connections -/
def inspected (registry : Registry ω κ) : Text :=
  "Registry \x7b configured: " ++ Text.inspectedList registry.configs.keys ++ ", drivers: " ++
    Text.inspectedList registry.drivers.keys ++ ", instances: " ++ Text.inspectedList registry.instances.keys ++ " \x7d"

end Registry

end SqlAccess
