/-
The PostgreSQL connection: one link to the server, opened when it is needed and again when it has closed.

A session holds at most one link, the server at its other end, and the events noted so far. Opening a link says hello,
sets the character set when one is configured, and reads the setting that decides how string literals are escaped. A
failed statement leaves the link in place unless the server closed it; a failed opening leaves none.
-/
import SqlAccess.Connection
import SqlAccess.Postgres.Server
import SqlAccess.Postgres.Settings
import SqlAccess.Text.Inspected

namespace SqlAccess

def Action.mapError {σ α : Type} (change : Error → Error) (action : Action σ α) : Action σ α := fun state =>
  match action state with
  | (.ok a, state) => (.ok a, state)
  | (.error e, state) => (.error (change e), state)

/-- a failed statement as a failure to connect, with the code for lost connections where the server gave none -/
def Error.asConnection : Error → Error
  | .query code message _ => .connection (code.getD "08000") message
  | e => e

namespace Postgres

/-- the condition of a link; `severed` means that the server has closed it and the client has not noticed -/
inductive Health where
  | live
  | severed
  | closed
  deriving DecidableEq, Repr

/-- an open link: whether backslashes are plain in its string literals, and its condition -/
structure Link where
  standardStrings : Bool
  health : Health
  deriving DecidableEq, Repr

structure Session (S : Type) where
  link : Option Link
  server : S
  events : List Event

namespace Session

def fresh {S : Type} (server : S) (events : List Event) : Session S := ⟨none, server, events⟩

variable {S : Type}

/-- whether a link is held and not known to be closed -/
def isConnected (session : Session S) : Bool := session.link.any (·.health != .closed)

def note (session : Session S) (event : Event) : Session S := { session with events := session.events ++ [event] }

/-! ## Talking to the server -/

/-- a failure without a code of the server's, while connecting -/
def lost (message : Text) : Error := .connection "08000" message

/-- the words for a message that cannot be put into the protocol -/
def unencodable : Text := "error encoding message to server"

def linkClosed : Text := "connection closed"

/-- the words for a message that the protocol does not allow -/
def unparsable : Text := "error parsing response from server"

/-- Rows and affected count with one more message of an answer. A refusal, or a row that does not fit the columns named
before it, makes the statement fail. -/
def collectMessage (sql : Text) : RowSet × Nat → Message → Except Error (RowSet × Nat)
  | (set, count), .columns names => .ok ({ set with columns := names }, count)
  | (set, count), .row values =>
    if values.length = set.columns.length then .ok ({ set with rows := set.rows ++ [values] }, count)
    else .error (.query none unparsable sql)
  | (set, _), .complete n => .ok (set, n)
  | _, .refused code message => .error (.query (some code) message sql)

/-- Rows and affected count of an answer: the columns named last stand over all rows, and the last count holds. -/
def collect (sql : Text) (messages : List Message) : Except Error (RowSet × Nat) :=
  messages.foldlM (collectMessage sql) (RowSet.empty, 0)

/-- A statement and what becomes of it, with the condition of the link afterwards. NUL cannot be sent. A late answer counts
as none where there is a time limit. -/
def exchange [Server S] (limit : Option Duration) (sql : Text) (server : S) :
    (Except Error (RowSet × Nat) × Health) × S :=
  if '\x00' ∈ sql then ((.error (.query none unencodable sql), .live), server)
  else
    let (answer, server) := Server.answer sql server
    match answer.late, limit, answer.reply with
    | true, some limit, .closed => ((.error (.timeout limit), .severed), server)
    | true, some limit, _ => ((.error (.timeout limit), .live), server)
    | _, _, .messages messages => ((collect sql messages, .live), server)
    | _, _, .closed => ((.error (.query none linkClosed sql), .closed), server)

/-- a statement on a link that is not held yet -/
def converse [Server S] (sql : Text) : Action (Session S) (RowSet × Nat) := fun session =>
  let ((answer, _), server) := exchange none sql session.server
  (answer, { session with server })

/-- A statement on the held link, whose condition it may change. What cannot be sent leaves the link alone, and on a severed
link the loss is noticed. -/
def ask [Server S] (link : Link) (limit : Option Duration) (sql : Text) : Action (Session S) (RowSet × Nat) :=
  fun session =>
    if '\x00' ∈ sql then (.error (.query none unencodable sql), session)
    else if link.health = .severed then
      (.error (.query none linkClosed sql), { session with link := some { link with health := .closed } })
    else
      let ((answer, health), server) := exchange limit sql session.server
      (answer, { session with server, link := some { link with health } })

/-! ## Opening a link -/

/-- the verdict on a new link, as an answer -/
def settle (verdict : Verdict) : Except Error Unit :=
  match verdict with
  | .accepted => .ok ()
  | .refused code message => .error (.connection code message)
  | .closed => .error (lost linkClosed)

/-- The start of a link up to the server's verdict, with a password if it is wanted. A process that cannot set up what
drives the link, an error of the connection with the code `58000` before anything is sent, is left out: it is no doing of
the server's and ends as a refused opening does. -/
def startUp [Server S] (settings : Settings) : Action (Session S) Unit := fun session =>
  if !Server.listens settings.host settings.port session.server then
    (.error (lost "error connecting to server"), session)
  else if '\x00' ∈ settings.user ∨ '\x00' ∈ settings.database then (.error (lost unencodable), session)
  else
    match Server.greet ⟨settings.user, settings.database⟩ session.server with
    | (.verdict verdict, server) => (settle verdict, { session with server })
    | (.passwordWanted, server) =>
      match settings.password with
      | none => (.error (lost "invalid configuration"), { session with server })
      | some password =>
        if '\x00' ∈ password then (.error (lost unencodable), { session with server })
        else
          let (verdict, server) := Server.authenticate password server
          (settle verdict, { session with server })

def setEncoding : Text := "SET client_encoding TO 'UTF8'"

def showStandardStrings : Text := "SHOW standard_conforming_strings"

/-- the statement that asks for the id given out last -/
def lastValue : Text := "SELECT lastval()"

/-- Only UTF-8 is spoken, under any of its spellings. -/
def applyCharset (run : Text → Action (Session S) (RowSet × Nat)) (charset : Text) : Action (Session S) Unit :=
  let spelling := Text.lower (charset.filter fun c => c != '-' && c != '_')
  if spelling = "utf8" ∨ spelling = "unicode" then do
    let _ ← run setEncoding
    return ()
  else
    throw (.connection "22023" ("unsupported character set '" ++ charset ++ "', only UTF-8 is available"))

/-- whether backslashes are plain in string literals; so they are when the server does not say otherwise -/
def readStandardStrings (run : Text → Action (Session S) (RowSet × Nat)) : Action (Session S) Bool := do
  let (set, _) ← run showStandardStrings
  return set.firstValue?.all fun value : Text => value.lower = "on"

/-- the configured character set, if there is one, on a link being opened -/
def applyConfiguredCharset [Server S] (settings : Settings) : Action (Session S) Unit :=
  match settings.charset with
  | none => pure ()
  | some charset => applyCharset converse charset

/-- A new link, ready for statements. It is driven from the start, see `startUp` for what is left out. -/
def openLink [Server S] (settings : Settings) : Action (Session S) Link := do
  startUp settings
  (applyConfiguredCharset settings).mapError Error.asConnection
  let standardStrings ← (readStandardStrings converse).mapError Error.asConnection
  modify (·.note (.connected settings.name))
  return ⟨standardStrings, .live⟩

/-- The held link, or a new one in its place when there is none or it has closed. -/
def theLink [Server S] (settings : Settings) : Action (Session S) Link := fun session =>
  let renew (session : Session S) :=
    match openLink settings session with
    | (.ok link, session) => (.ok link, { session with link := some link })
    | (.error e, session) => (.error e, session)
  match session.link with
  | some link => if link.health = .closed then renew { session with link := none } else (.ok link, session)
  | none => renew session

/-! ## The operations of a connection -/

def connect [Server S] (settings : Settings) : Action (Session S) Unit := do
  let _ ← theLink settings
  return ()

/-- No link afterwards. Whether it closed in order: not if the server had closed it. A live link is taken to close in
order; that its closing takes too long or breaks off, which answers false as well and leaves no link either, is left
out. -/
def disconnect (settings : Settings) (session : Session S) : Bool × Session S :=
  match session.link with
  | none => (true, session)
  | some link =>
    let session := { session with link := none }
    if link.health = .live then (true, session.note (.disconnected settings.name))
    else (false, session.note (.closingFailed settings.name linkClosed))

/-- The end of a session where nothing may wait for the link to close. -/
def dropInRuntime (settings : Settings) (session : Session S) : Session S :=
  match session.link with
  | none => session
  | some _ => { session with link := none }.note (.droppedInRuntime settings.name)

def setCharset [Server S] (settings : Settings) (charset : Text) : Action (Session S) Unit := do
  let link ← theLink settings
  applyCharset (ask link none) charset

/-- The body of a string literal: quotes doubled, and backslashes too unless they are plain. -/
def escapeLiteral (standardStrings : Bool) (t : Text) : Text :=
  Text.doubled (fun c => c == '\'' || (!standardStrings && c == '\\')) t

/-- a text for a string literal on the link, which is opened for its setting; NUL is refused before -/
def escape [Server S] (settings : Settings) (t : Text) : Action (Session S) Text :=
  if '\x00' ∈ t then throw (.validation .nulForServer)
  else do
    let link ← theLink settings
    return escapeLiteral link.standardStrings t

/-- where the id of an insert comes from -/
inductive IdSource where
  | returned (id : Option Int)
  | lastValue
  | unknown
  deriving DecidableEq, Repr

def id? (t : Text) : Option Int := (Integer.read (.twosComplement 64) t).toOption

/-- A returned value is the id; the server's last value is asked for only when exactly one row went in without one. -/
def idSource (returned : Option Text) (affected : Nat) : IdSource :=
  match returned with
  | some t => .returned (id? t)
  | none => if affected = 1 then .lastValue else .unknown

/-- the id the server gave out last; a failure to tell is noted and no more -/
def lastInsertId [Server S] (settings : Settings) (link : Link) : Action (Session S) (Option Int) := fun session =>
  match ask link none lastValue session with
  | (.ok (set, _), session) => (.ok (set.firstValue?.bind id?), session)
  | (.error e, session) => (.ok none, session.note (.noInsertId settings.name e.message))

def insertId [Server S] (settings : Settings) (link : Link) (set : RowSet) (affected : Nat) :
    Action (Session S) (Option Int) :=
  match idSource set.firstValue? affected with
  | .returned id => pure id
  | .lastValue => lastInsertId settings link
  | .unknown => pure none

/-- a statement noted, sent, and its answer by kind -/
def execute [Server S] (settings : Settings) (kind : StatementKind) (sql : Text) : Action (Session S) Outcome := do
  modify (·.note (.executing settings.name kind sql))
  let link ← theLink settings
  let (set, affected) ← ask link settings.queryTimeout sql
  match kind with
  | .select => return .ofRowSet set
  | .insert => do
    let id ← insertId settings link set affected
    return .receipt (.inserted id affected)
  | _ => return .receipt (.affected affected)

def connection [Server S] (settings : Settings) : Connection (Session S) :=
  ⟨settings.tablePrefix, escape settings, execute settings⟩

def inspected (settings : Settings) (session : Session S) : Text :=
  "PgConnection \x7b name: " ++ settings.name.inspected ++ ", connected: " ++
    (if session.isConnected then "true" else "false") ++ " \x7d"

end Session

end Postgres

end SqlAccess
