/-
Calls on a session, and what passes over its links.

`Call` lists what can be asked of a session, and the server's closing of its link between two calls; `run` makes calls
one after the other. A `Wire` is a server with a log of what has passed over its links: the signals of the client, and
the ends of links in the place of answers. A session does the same with a server that `Mirrors` its own, whatever has
been noted before (`run_seen`). A wire mirrors its server (`run_wire`), so what the log shows holds of every session.
-/
import SqlAccess.Proofs.Action
import SqlAccess.Postgres.Session

namespace SqlAccess

namespace Postgres

/-! ## Calls -/

/-- what can be asked of a session, and the closing of its link by the server, noticed at once or not -/
inductive Call where
  | connect
  | execute (kind : StatementKind) (sql : Text)
  | escape (t : Text)
  | setCharset (charset : Text)
  | isConnected
  | disconnect
  | closing (noticed : Bool)
  deriving DecidableEq, Repr

namespace Call

def needsLink : Call → Bool
  | .connect => true
  | .execute _ _ => true
  | .escape t => '\x00' ∉ t
  | .setCharset _ => true
  | _ => false

/-- whether a call is the end of the link that is held -/
def endsLink : Call → Bool
  | .disconnect => true
  | .closing _ => true
  | _ => false

/-- the statements that a call may send, apart from those that open a link -/
def texts : Call → List Text
  | .execute .insert sql => [sql, Session.lastValue]
  | .execute _ sql => [sql]
  | .setCharset _ => [Session.setEncoding]
  | _ => []

end Call

namespace Session

def failure? {α : Type} : Except Error α → Option Error
  | .ok _ => none
  | .error e => some e

/-- a run of an action as its failure, if it fails, and the state behind it -/
def outcome {α σ : Type} (action : Action σ α) (state : σ) : Option Error × σ :=
  (failure? (action state).1, (action state).2)

/-- the link closed by the server -/
def lose {S : Type} (noticed : Bool) (session : Session S) : Session S :=
  { session with
    link := session.link.map fun link =>
      { link with health := if noticed ∨ link.health = .closed then .closed else .severed } }

/-- one call: its failure, if it fails, and the session behind it -/
def step {S : Type} [Server S] (settings : Settings) (session : Session S) : Call → Option Error × Session S
  | .connect => outcome (connect settings) session
  | .execute kind sql => outcome (execute settings kind sql) session
  | .escape t => outcome (escape settings t) session
  | .setCharset charset => outcome (setCharset settings charset) session
  | .isConnected => (none, session)
  | .disconnect => (none, (disconnect settings session).2)
  | .closing noticed => (none, session.lose noticed)

def run {S : Type} [Server S] (settings : Settings) (session : Session S) (calls : List Call) : Session S :=
  calls.foldl (fun session call => (step settings session call).2) session

/-! ## Views of a session -/

section Shows

variable {σ τ α : Type} {view : σ → τ} {x : Action σ α} {y : Action τ α}

theorem shows_mapError (h : Action.Shows view x y) (change : Error → Error) :
    Action.Shows view (x.mapError change) (y.mapError change) := by
  intro state
  simp only [Action.mapError, h state]
  rcases x state with ⟨answer, state'⟩
  cases answer <;> rfl

theorem shows_outcome (h : Action.Shows view x y) (state : σ) :
    outcome y (view state) = ((outcome x state).1, view (outcome x state).2) := by
  simp only [outcome, h state]

theorem shows_applyCharset {S T : Type} {view : Session S → Session T} {run : Text → Action (Session S) (RowSet × Nat)}
    {run' : Text → Action (Session T) (RowSet × Nat)} (h : ∀ sql, Action.Shows view (run sql) (run' sql))
    (charset : Text) : Action.Shows view (applyCharset run charset) (applyCharset run' charset) := by
  simp only [applyCharset]
  split
  · exact (h setEncoding).bind fun _ => Action.Shows.ofExcept (.ok ())
  · exact Action.Shows.ofExcept (.error _)

end Shows

end Session

/-! ## What passes over the links -/

/-- what a client sends over a link, and the end of a link by the server -/
inductive Signal where
  | startup (login : Login)
  | password (password : Text)
  | statement (sql : Text)
  | closing
  deriving DecidableEq, Repr

namespace Signal

def isStartup : Signal → Bool
  | .startup _ => true
  | _ => false

def sql? : Signal → Option Text
  | .statement sql => some sql
  | _ => none

/-- the statements of each link with one more signal, newest link first -/
def onto (links : List (List Text)) : Signal → List (List Text)
  | .startup _ => [] :: links
  | .statement sql => links.modifyHead (· ++ [sql])
  | _ => links

end Signal

def opens (signals : List Signal) : Bool := signals.any Signal.isStartup

def statements (signals : List Signal) : List Text := signals.filterMap Signal.sql?

/-- the statements of each link, newest link first -/
def perLink (log : List Signal) : List (List Text) := log.foldl Signal.onto []

@[simp] theorem opens_nil : opens [] = false := rfl

@[simp] theorem opens_cons (signal : Signal) (signals : List Signal) :
    opens (signal :: signals) = (signal.isStartup || opens signals) := List.any_cons

@[simp] theorem opens_append (signals more : List Signal) : opens (signals ++ more) = (opens signals || opens more) :=
  List.any_append

@[simp] theorem statements_nil : statements [] = [] := rfl

@[simp] theorem statements_cons (signal : Signal) (signals : List Signal) :
    statements (signal :: signals) = signal.sql?.toList ++ statements signals := by
  cases signal <;> rfl

@[simp] theorem statements_append (signals more : List Signal) :
    statements (signals ++ more) = statements signals ++ statements more := List.filterMap_append

/-- Signals that begin no link go on with the newest one. -/
theorem foldl_onto_of_not_opens (links : List (List Text)) {signals : List Signal} (h : opens signals = false) :
    signals.foldl Signal.onto links = links.modifyHead (· ++ statements signals) := by
  induction signals generalizing links with
  | nil => cases links <;> simp
  | cons signal signals ih =>
    obtain ⟨hsignal, hsignals⟩ := Bool.or_eq_false_iff.1 h
    rw [List.foldl_cons, ih _ hsignals]
    cases signal with
    | startup login => cases hsignal
    | statement sql => cases links <;> simp [Signal.onto, Signal.sql?]
    | _ => rfl

theorem perLink_append (log : List Signal) {signals : List Signal} (h : opens signals = false) :
    perLink (log ++ signals) = (perLink log).modifyHead (· ++ statements signals) := by
  rw [perLink, List.foldl_append]
  exact foldl_onto_of_not_opens _ h

theorem perLink_append_startup (log : List Signal) (login : Login) {signals : List Signal} (h : opens signals = false) :
    perLink (log ++ .startup login :: signals) = statements signals :: perLink log := by
  rw [perLink, List.foldl_append, List.foldl_cons, foldl_onto_of_not_opens _ h]
  rfl

/-- a statement, and the end of the link if that is the reply -/
def exchanged (sql : Text) (reply : Reply) : List Signal :=
  .statement sql :: if reply = .closed then [.closing] else []

@[simp] theorem opens_exchanged (sql : Text) (reply : Reply) : opens (exchanged sql reply) = false := by
  cases reply <;> rfl

@[simp] theorem statements_exchanged (sql : Text) (reply : Reply) : statements (exchanged sql reply) = [sql] := by
  cases reply <;> rfl

/-- a server, and the signals of all its links so far -/
structure Wire (S : Type) where
  server : S
  log : List Signal

variable {S : Type} [Server S]

/-- Everything is passed on, and written down. -/
instance : Server (Wire S) where
  listens host port wire := Server.listens host port wire.server
  greet login wire :=
    let (greeting, server) := Server.greet login wire.server
    (greeting, ⟨server, wire.log ++ [.startup login]⟩)
  authenticate password wire :=
    let (verdict, server) := Server.authenticate password wire.server
    (verdict, ⟨server, wire.log ++ [.password password]⟩)
  answer sql wire :=
    let (answer, server) := Server.answer sql wire.server
    (answer, ⟨server, wire.log ++ exchanged sql answer.reply⟩)

theorem Wire.log_greet (login : Login) (wire : Wire S) :
    (Server.greet login wire).2.log = wire.log ++ [.startup login] := rfl

theorem Wire.log_authenticate (password : Text) (wire : Wire S) :
    (Server.authenticate password wire).2.log = wire.log ++ [.password password] := rfl

theorem Wire.log_answer (sql : Text) (wire : Wire S) :
    (Server.answer sql wire).2.log = wire.log ++ exchanged sql (Server.answer sql wire).1.reply := rfl

/-! ## Sessions that do the same -/

/-- a map of servers that changes nothing in what they do -/
structure Mirrors {S T : Type} [Server S] [Server T] (f : S → T) : Prop where
  listens : ∀ host port server, Server.listens host port (f server) = Server.listens host port server
  greet : ∀ login server,
    Server.greet login (f server) = ((Server.greet login server).1, f (Server.greet login server).2)
  authenticate : ∀ password server, Server.authenticate password (f server) =
    ((Server.authenticate password server).1, f (Server.authenticate password server).2)
  answer : ∀ sql server, Server.answer sql (f server) = ((Server.answer sql server).1, f (Server.answer sql server).2)

theorem mirrors_id : Mirrors (id : S → S) where
  listens _ _ _ := rfl
  greet _ _ := rfl
  authenticate _ _ := rfl
  answer _ _ := rfl

theorem mirrors_wire : Mirrors (Wire.server : Wire S → S) where
  listens _ _ _ := rfl
  greet _ _ := rfl
  authenticate _ _ := rfl
  answer _ _ := rfl

namespace Session

/-- the session with its server mapped, and with events noted before its own -/
def seen {S T : Type} (f : S → T) (earlier : List Event) (session : Session S) : Session T :=
  ⟨session.link, f session.server, earlier ++ session.events⟩

section Seen

variable {T : Type} [Server T] {f : S → T} (h : Mirrors f) (earlier : List Event)

open SqlAccess.Action

theorem seen_note {S T : Type} (f : S → T) (earlier : List Event) (session : Session S) (event : Event) :
    (session.seen f earlier).note event = (session.note event).seen f earlier := by
  simp [seen, note]

theorem shows_note {S T : Type} (f : S → T) (earlier : List Event) (event : Event) :
    Shows (seen f earlier) (modify (·.note event)) (modify (·.note event)) := fun session =>
  congrArg (Prod.mk (Except.ok () : Except Error Unit)) (seen_note f earlier session event)

include h

theorem exchange_mirrored (limit : Option Duration) (sql : Text) (server : S) :
    exchange limit sql (f server) = ((exchange limit sql server).1, f (exchange limit sql server).2) := by
  unfold exchange
  split
  · rfl
  · rcases hanswer : Server.answer sql server with ⟨⟨late, reply⟩, after⟩
    simp only [h.answer, hanswer]
    split <;> rfl

theorem shows_converse (sql : Text) : Shows (seen f earlier) (converse sql) (converse sql) := by
  intro session
  simp only [converse, seen, exchange_mirrored h]

theorem shows_ask (link : Link) (limit : Option Duration) (sql : Text) :
    Shows (seen f earlier) (ask link limit sql) (ask link limit sql) := by
  intro session
  unfold ask
  split
  · rfl
  · split
    · rfl
    · simp only [seen, exchange_mirrored h]

theorem shows_startUp (settings : Settings) : Shows (seen f earlier) (startUp settings) (startUp settings) := by
  intro session
  have hserver : (session.seen f earlier).server = f session.server := rfl
  unfold startUp
  rw [hserver, h.listens]
  split
  · rfl
  · split
    · rfl
    · rcases hgreet : Server.greet ⟨settings.user, settings.database⟩ session.server with ⟨greeting, server⟩
      simp only [h.greet, hgreet]
      cases greeting with
      | verdict verdict => rfl
      | passwordWanted =>
        cases settings.password with
        | none => rfl
        | some password =>
          by_cases hnul : '\x00' ∈ password
          · simp only [if_pos hnul]
            rfl
          · simp only [if_neg hnul, h.authenticate]
            rfl

theorem shows_openLink (settings : Settings) : Shows (seen f earlier) (openLink settings) (openLink settings) := by
  have hcharset : Shows (seen f earlier) (applyConfiguredCharset settings) (applyConfiguredCharset settings) := by
    unfold applyConfiguredCharset
    split
    · exact Shows.ofExcept (.ok ())
    · exact shows_applyCharset (shows_converse h earlier) _
  have hshow : Shows (seen f earlier) (readStandardStrings converse) (readStandardStrings converse) :=
    (shows_converse h earlier showStandardStrings).bind fun _ => Shows.ofExcept (.ok _)
  exact (shows_startUp h earlier settings).bind fun _ => (shows_mapError hcharset _).bind fun _ =>
    (shows_mapError hshow _).bind fun _ => (shows_note f earlier _).bind fun _ => Shows.ofExcept (.ok _)

theorem shows_theLink (settings : Settings) : Shows (seen f earlier) (theLink settings) (theLink settings) := by
  intro session
  obtain ⟨held, server, events⟩ := session
  have hopening := shows_openLink h earlier settings ⟨none, server, events⟩
  rcases hr : openLink settings ⟨none, server, events⟩ with ⟨answer, opened⟩
  simp only [hr, seen] at hopening
  cases held with
  | none =>
    simp only [theLink, seen, hr, hopening]
    cases answer <;> rfl
  | some link =>
    by_cases hclosed : link.health = .closed
    · simp only [theLink, seen, if_pos hclosed, hr, hopening]
      cases answer <;> rfl
    · simp only [theLink, seen, if_neg hclosed]

theorem shows_insertId (settings : Settings) (link : Link) (set : RowSet) (affected : Nat) :
    Shows (seen f earlier) (insertId settings link set affected) (insertId settings link set affected) := by
  unfold insertId
  split
  · exact Shows.ofExcept (.ok _)
  · intro session
    simp only [lastInsertId, shows_ask h earlier link none lastValue session]
    rcases ask link none lastValue session with ⟨answer, session'⟩
    cases answer with
    | ok _ => rfl
    | error e => exact Prod.ext rfl (seen_note f earlier session' _)
  · exact Shows.ofExcept (.ok none)

theorem shows_execute (settings : Settings) (kind : StatementKind) (sql : Text) :
    Shows (seen f earlier) (execute settings kind sql) (execute settings kind sql) := by
  refine (shows_note f earlier _).bind fun _ => (shows_theLink h earlier settings).bind fun link =>
    (shows_ask h earlier link _ sql).bind fun a => ?_
  cases kind with
  | insert => exact (shows_insertId h earlier settings link a.1 a.2).bind fun id => Shows.ofExcept (.ok _)
  | _ => exact Shows.ofExcept (.ok _)

/-- One call does the same. -/
theorem step_seen (settings : Settings) (session : Session S) (call : Call) :
    step settings (session.seen f earlier) call =
      ((step settings session call).1, (step settings session call).2.seen f earlier) := by
  cases call with
  | connect =>
    exact shows_outcome ((shows_theLink h earlier settings).bind fun _ => Shows.ofExcept (.ok ())) session
  | execute kind sql => exact shows_outcome (shows_execute h earlier settings kind sql) session
  | escape t =>
    refine shows_outcome ?_ session
    unfold escape
    split
    · exact Shows.ofExcept (.error _)
    · exact (shows_theLink h earlier settings).bind fun _ => Shows.ofExcept (.ok _)
  | setCharset charset =>
    refine shows_outcome ?_ session
    exact (shows_theLink h earlier settings).bind fun link => shows_applyCharset (shows_ask h earlier link none) charset
  | isConnected => rfl
  | disconnect =>
    obtain ⟨held, server, events⟩ := session
    cases held with
    | none => rfl
    | some link =>
      simp only [step, disconnect, seen]
      split <;> exact Prod.ext rfl (seen_note f earlier ⟨none, server, events⟩ _)
  | closing noticed => rfl

/-- So do any calls. -/
theorem run_seen (settings : Settings) (session : Session S) (calls : List Call) :
    run settings (session.seen f earlier) calls = (run settings session calls).seen f earlier := by
  induction calls generalizing session with
  | nil => rfl
  | cons call calls ih =>
    change run settings (step settings (session.seen f earlier) call).2 calls = _
    rw [step_seen h, ih]
    rfl

end Seen

/-- A link is had in the same way behind one more event. -/
theorem theLink_note {settings : Settings} {session had : Session S} {link : Link}
    (h : theLink settings session = (.ok link, had)) (event : Event) :
    ∃ noted, theLink settings (session.note event) = (.ok link, noted) ∧ noted.server = had.server := by
  let start : Session S := { session with events := [] }
  have hsession : session = start.seen id session.events := by simp [start, seen]
  have hevent : session.note event = start.seen id (session.events ++ [event]) := by simp [start, seen, note]
  rw [hsession, shows_theLink mirrors_id] at h
  rw [hevent, shows_theLink mirrors_id]
  obtain ⟨hanswer, rfl⟩ := Prod.mk.inj h
  exact ⟨_, Prod.ext hanswer rfl, rfl⟩

/-! ## A session with a wire does what one with the server does -/

/-- the session with the server itself -/
def unwired {S : Type} (session : Session (Wire S)) : Session S :=
  ⟨session.link, session.server.server, session.events⟩

/-- **A wire changes nothing.** -/
theorem run_wire (settings : Settings) (session : Session (Wire S)) (calls : List Call) :
    run settings session.unwired calls = (run settings session calls).unwired :=
  run_seen mirrors_wire [] settings session calls

end Session

end Postgres

end SqlAccess
