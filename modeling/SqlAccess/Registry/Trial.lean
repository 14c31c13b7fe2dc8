/-
A world for trying a registry out: recorders and unreachable PostgreSQL connections, built by factories that note every
call and succeed or fail as told.
-/
import SqlAccess.Postgres.Session
import SqlAccess.Recorder
import SqlAccess.Registry

namespace SqlAccess

/-- How a trial factory behaves: it makes a recorder that bears the connection's name, one with the group's table prefix,
or one that never says it is closed; or it fails, always or the first time. -/
inductive TrialFactory where
  | named
  | prefixed
  | sticky
  | failing
  | failingOnce
  deriving DecidableEq, Repr

inductive NoServer where
  | nowhere
  deriving DecidableEq, Repr

open Postgres in
instance : Server NoServer where
  listens _ _ _ := false
  greet _ s := (.verdict .closed, s)
  authenticate _ s := (.closed, s)
  answer _ s := (⟨false, .closed⟩, s)

/-- a connection of the trial world; a sticky recorder never says that it is closed -/
inductive TrialConnection where
  | recorder (name tablePrefix : Text) (sticky : Bool) (state : Recorder)
  | postgres (settings : Postgres.Settings) (session : Postgres.Session NoServer)

namespace TrialConnection

def name : TrialConnection → Text
  | .recorder name _ _ _ => name
  | .postgres settings _ => settings.name

def tablePrefix : TrialConnection → Text
  | .recorder _ tablePrefix _ _ => tablePrefix
  | .postgres settings _ => settings.tablePrefix

def isConnected : TrialConnection → Bool
  | .recorder _ _ _ state => state.connected
  | .postgres _ session => session.isConnected

def connect : Action TrialConnection Unit
  | .recorder name tablePrefix sticky state => (.ok (), .recorder name tablePrefix sticky state.connect)
  | .postgres settings session =>
    let (answer, session) := Postgres.Session.connect settings session
    (answer, .postgres settings session)

/-- disconnected, and what the connection says of it -/
def disconnect : TrialConnection → Bool × TrialConnection
  | .recorder name tablePrefix sticky state => (!sticky, .recorder name tablePrefix sticky state.disconnect)
  | .postgres settings session =>
    let (closed, session) := Postgres.Session.disconnect settings session
    (closed, .postgres settings session)

def quote (value : Value) : Action TrialConnection Text
  | .recorder name tablePrefix sticky state =>
    let (answer, state) := (Recorder.connection tablePrefix).quote value state
    (answer, .recorder name tablePrefix sticky state)
  | .postgres settings session =>
    let (answer, session) := (Postgres.Session.connection settings).quote value session
    (answer, .postgres settings session)

def quoteTable (table : Identifier) (connection : TrialConnection) : Except Error Text :=
  table.asTable connection.tablePrefix

/-- the events of a connection that it has not handed on yet, and the connection without them -/
def takeEvents : TrialConnection → List Event × TrialConnection
  | .recorder name tablePrefix sticky state => ([], .recorder name tablePrefix sticky state)
  | .postgres settings session => (session.events, .postgres settings { session with events := [] })

end TrialConnection

/-- the connections built so far by handle, the calls of factories, the events, and how often each factory has failed -/
structure TrialWorld where
  connections : List TrialConnection
  built : List (TrialFactory × Text × Config)
  events : List Event
  failed : List Nat

namespace TrialWorld

def empty : TrialWorld := ⟨[], [], [], []⟩

/-- an action on the connection of a handle, its events handed on to the world -/
def act {α : Type} (handle : Nat) (action : TrialConnection → α × TrialConnection) (world : TrialWorld) :
    Option α × TrialWorld :=
  match world.connections[handle]? with
  | none => (none, world)
  | some connection =>
    let (answer, connection) := action connection
    let (events, connection) := connection.takeEvents
    (some answer,
      { world with connections := world.connections.set handle connection, events := world.events ++ events })

def add (connection : TrialConnection) (world : TrialWorld) : Nat × TrialWorld :=
  let (events, connection) := connection.takeEvents
  (world.connections.length,
    { world with connections := world.connections ++ [connection], events := world.events ++ events })

instance : ConnectionWorld TrialWorld Nat where
  note event world := { world with events := world.events ++ [event] }
  disconnect handle world :=
    let (closed, world) := world.act handle TrialConnection.disconnect
    (closed.getD true, world)

/-- the factory of PostgreSQL connections, none of which has a server -/
def postgres : Factory TrialWorld Nat := fun name config world =>
  match Postgres.Settings.ofConfig name config with
  | .error e => (.error e, world)
  | .ok (settings, events) =>
    let (handle, world) := world.add (.postgres settings (Postgres.Session.fresh .nowhere events))
    (.ok handle, world)

def prefixedName : Text := "stub"

/-- A trial factory. `number` tells factories of the same behaviour apart. -/
def factory (behaviour : TrialFactory) (number : Nat) : Factory TrialWorld Nat := fun name config world =>
  let world := { world with built := world.built ++ [(behaviour, name, config)] }
  let make (connection : TrialConnection) : Except Error Nat × TrialWorld :=
    let (handle, world) := world.add connection
    (.ok handle, world)
  match behaviour with
  | .named => make (.recorder name [] false .fresh)
  | .prefixed => make (.recorder prefixedName config.tablePrefix false .fresh)
  | .sticky => make (.recorder name [] true .fresh)
  | .failing => (.error (.connection "08001" ("no route to " ++ name)), world)
  | .failingOnce =>
    if number ∈ world.failed then make (.recorder name [] false .fresh)
    else (.error (.validation (.other "first build fails")), { world with failed := number :: world.failed })

end TrialWorld

end SqlAccess
