/-
Which errors come of a session.

The statements that open a link go the way of all statements, so what goes wrong with them is at first an error of a
statement. `OpeningFault` lists what may go wrong on the way to a link, step by step, each with the code and the words
of the error that comes of it. These are the failures of an opening, all of them errors of the connection
(`openLink_fails_iff`), and `failures_surface` says what that means for connecting, escaping and running statements.
-/
import SqlAccess.Proofs.Postgres.Link

namespace SqlAccess

/-! ## Errors changed on the way -/

namespace Action

variable {σ α : Type} {state : σ} {e : Error}

theorem mapError_fails_iff {x : Action σ α} {change : Error → Error} :
    (x.mapError change state).1 = .error e ↔ ∃ d, (x state).1 = .error d ∧ change d = e := by
  unfold mapError
  rcases x state with ⟨answer, middle⟩
  cases answer <;> simp

theorem mapError_fails {x : Action σ α} (h : (x state).1 = .error e) (change : Error → Error) :
    (x.mapError change state).1 = .error (change e) := mapError_fails_iff.2 ⟨e, h, rfl⟩

theorem mapError_eq_ok {x : Action σ α} {change : Error → Error} {a : α} {state' : σ} :
    x.mapError change state = (.ok a, state') ↔ x state = (.ok a, state') := by
  unfold mapError
  rcases x state with ⟨answer, middle⟩
  cases answer with
  | ok b => rfl
  | error d => exact iff_of_false nofun nofun

end Action

namespace Postgres

namespace Session

variable {S : Type} [Server S]

/-- A statement on a link being opened fails with the fault of the reply. -/
theorem converse_fails_iff {sql : Text} (hnul : '\x00' ∉ sql) {session : Session S} {e : Error} :
    (converse sql session).1 = .error e ↔
      ∃ fault, (Server.answer sql session.server).1.reply.fault? = some fault ∧ fault.ofStatement sql = e := by
  rcases hanswer : Server.answer sql session.server with ⟨⟨late, reply⟩, server⟩
  cases reply with
  | messages parts =>
    have hconverse : (converse sql session).1 = collect sql parts := by
      cases late <;> simp only [converse, exchange, if_neg hnul, hanswer]
    rw [hconverse, collect_fails_iff, Reply.fault?]
  | closed =>
    have hconverse : (converse sql session).1 = .error (.query none linkClosed sql) := by
      cases late <;> simp only [converse, exchange, if_neg hnul, hanswer]
    rw [hconverse]
    simp [Reply.fault?, Fault.ofStatement]

/-! ## What goes wrong on the way to a link -/

/-- whether a character set is UTF-8 under one of its spellings -/
def Spoken (charset : Text) : Prop :=
  Text.lower (charset.filter fun c => c != '-' && c != '_') = "utf8" ∨
    Text.lower (charset.filter fun c => c != '-' && c != '_') = "unicode"

def unspoken (charset : Text) : Text := "unsupported character set '" ++ charset ++ "', only UTF-8 is available"

/-- What may go wrong when a link is opened from a session, with the code and the words of it: the login; a character
set that is not spoken; the statement that sets the encoding; the question how strings are read. Where the server gives
no code for a statement, the code is the one for lost connections. -/
inductive OpeningFault (settings : Settings) (start : Session S) : (code message : Text) → Prop
  | login {code message : Text} : (startUp settings start).1 = .error (.connection code message) →
      OpeningFault settings start code message
  | charset {charset : Text} {entered : Session S} : startUp settings start = (.ok (), entered) →
      settings.charset = some charset → ¬Spoken charset →
      OpeningFault settings start "22023" (unspoken charset)
  | encoding {charset : Text} {entered : Session S} {fault : Fault} : startUp settings start = (.ok (), entered) →
      settings.charset = some charset → Spoken charset →
      (Server.answer setEncoding entered.server).1.reply.fault? = some fault →
      OpeningFault settings start (fault.code.getD "08000") fault.message
  | strings {entered encoded : Session S} {fault : Fault} : startUp settings start = (.ok (), entered) →
      applyConfiguredCharset settings entered = (.ok (), encoded) →
      (Server.answer showStandardStrings encoded.server).1.reply.fault? = some fault →
      OpeningFault settings start (fault.code.getD "08000") fault.message

/-- Setting the configured character set fails where there is one that is not spoken or that the server objects to. -/
theorem applyConfiguredCharset_fails_iff {settings : Settings} {entered : Session S} {e : Error} :
    (applyConfiguredCharset settings entered).1 = .error e ↔ ∃ charset, settings.charset = some charset ∧
      ((¬Spoken charset ∧ .connection "22023" (unspoken charset) = e) ∨
        (Spoken charset ∧ ∃ fault, (Server.answer setEncoding entered.server).1.reply.fault? = some fault ∧
          fault.ofStatement setEncoding = e)) := by
  unfold applyConfiguredCharset
  cases settings.charset with
  | none => exact iff_of_false nofun nofun
  | some charset =>
    by_cases hspoken : Spoken charset
    · have happly : applyCharset converse charset = (do
          let _ ← converse (S := S) setEncoding
          return ()) := if_pos hspoken
      have hnul : '\x00' ∉ setEncoding := by decide +kernel
      simp only [happly, Action.map_fails_iff]
      rw [converse_fails_iff hnul]
      simp [hspoken]
    · have happly : applyCharset (converse (S := S)) charset = throw (.connection "22023" (unspoken charset)) :=
        if_neg hspoken
      simp [happly, Action.throw_run, hspoken]

/-- Asking how strings are read fails with the fault of the reply, turned into an error of the connection. -/
theorem readStandardStrings_fails_iff {encoded : Session S} {e : Error} :
    ((readStandardStrings converse).mapError Error.asConnection encoded).1 = .error e ↔
      ∃ fault, (Server.answer showStandardStrings encoded.server).1.reply.fault? = some fault ∧
        e = .connection (fault.code.getD "08000") fault.message := by
  have hnul : '\x00' ∉ showStandardStrings := by decide +kernel
  rw [Action.mapError_fails_iff]
  simp only [readStandardStrings, Action.map_fails_iff, converse_fails_iff hnul]
  constructor
  · intro h
    obtain ⟨d, ⟨fault, hfault, rfl⟩, rfl⟩ := h
    exact ⟨fault, hfault, rfl⟩
  · intro h
    obtain ⟨fault, hfault, rfl⟩ := h
    exact ⟨fault.ofStatement showStandardStrings, ⟨fault, hfault, rfl⟩, rfl⟩

variable {settings : Settings} {start : Session S} {e : Error}

/-- An opening fails with one of its faults. -/
theorem exists_openingFault (h : (openLink settings start).1 = .error e) :
    ∃ code message, e = .connection code message ∧ OpeningFault settings start code message := by
  rcases Action.bind_fails_iff.1 h with h | ⟨⟨⟩, entered, hentered, h⟩
  · obtain ⟨code, message, rfl⟩ := ofOpening_startUp h
    exact ⟨code, message, rfl, .login h⟩
  rcases Action.bind_fails_iff.1 h with h | ⟨⟨⟩, encoded, hencoded, h⟩
  · obtain ⟨d, hcharset, rfl⟩ := Action.mapError_fails_iff.1 h
    obtain ⟨charset, hconfigured, ⟨hspoken, rfl⟩ | ⟨hspoken, fault, hfault, rfl⟩⟩ :=
      applyConfiguredCharset_fails_iff.1 hcharset
    · exact ⟨_, _, rfl, .charset hentered hconfigured hspoken⟩
    · exact ⟨_, _, rfl, .encoding hentered hconfigured hspoken hfault⟩
  rcases Action.bind_fails_iff.1 h with h | ⟨standardStrings, shown, -, h⟩
  · obtain ⟨fault, hfault, rfl⟩ := readStandardStrings_fails_iff.1 h
    exact ⟨_, _, rfl, .strings hentered (Action.mapError_eq_ok.1 hencoded) hfault⟩
  · cases h

/-- Every fault of an opening makes it fail. -/
theorem openLink_fails {code message : Text} (h : OpeningFault settings start code message) :
    (openLink settings start).1 = .error (.connection code message) := by
  unfold openLink
  rw [Action.bind_fails_iff]
  cases h with
  | login hlogin => exact Or.inl hlogin
  | @charset charset entered hentered hconfigured hspoken =>
    have hcharset : (applyConfiguredCharset settings entered).1 = .error (.connection "22023" (unspoken charset)) :=
      applyConfiguredCharset_fails_iff.2 ⟨charset, hconfigured, Or.inl ⟨hspoken, rfl⟩⟩
    have hchanged := Action.mapError_fails hcharset Error.asConnection
    exact Or.inr ⟨(), entered, hentered, Action.bind_fails_iff.2 (Or.inl hchanged)⟩
  | @encoding charset entered fault hentered hconfigured hspoken hfault =>
    have hcharset := applyConfiguredCharset_fails_iff.2 ⟨charset, hconfigured, Or.inr ⟨hspoken, fault, hfault, rfl⟩⟩
    have hchanged := Action.mapError_fails hcharset Error.asConnection
    exact Or.inr ⟨(), entered, hentered, Action.bind_fails_iff.2 (Or.inl hchanged)⟩
  | @strings entered encoded fault hentered hencoded hfault =>
    have hshow := readStandardStrings_fails_iff.2 ⟨fault, hfault, rfl⟩
    refine Or.inr ⟨(), entered, hentered, Action.bind_fails_iff.2 (Or.inr ⟨(), encoded, ?_, ?_⟩)⟩
    · exact Action.mapError_eq_ok.2 hencoded
    · exact Action.bind_fails_iff.2 (Or.inl hshow)

theorem openLink_fails_iff : (openLink settings start).1 = .error e ↔
    ∃ code message, e = .connection code message ∧ OpeningFault settings start code message := by
  constructor
  · exact exists_openingFault
  · intro h
    obtain ⟨code, message, rfl, hfault⟩ := h
    exact openLink_fails hfault

/-! ## What surfaces -/

def unlinked (session : Session S) : Session S := { session with link := none }

/-- A link is had, unless none is held and open and a new one cannot be opened. -/
theorem theLink_fails_iff {session : Session S} :
    (theLink settings session).1 = .error e ↔ session.isConnected = false ∧
      ∃ code message, e = .connection code message ∧ OpeningFault settings session.unlinked code message := by
  rw [← openLink_fails_iff]
  cases hconnected : session.isConnected with
  | true =>
    obtain ⟨link, hlink, hopen⟩ := isConnected_iff.1 hconnected
    rw [theLink_of_held settings hlink hopen]
    exact iff_of_false nofun nofun
  | false =>
    rw [theLink_of_not_connected settings hconnected]
    rcases hrun : openLink settings session.unlinked with ⟨answer, opened⟩
    have hsame : openLink settings { session with link := none } = (answer, opened) := hrun
    cases answer <;> simp only [theLink, hsame] <;> simp

/-- So does a statement on the held link, whatever its condition. -/
theorem ask_fails {link : Link} {limit : Option Duration} {sql : Text} {session : Session S}
    (h : (ask link limit sql session).1 = .error e) :
    (∃ code message, e = .query code message sql) ∨ ∃ given, limit = some given ∧ e = .timeout given := by
  unfold ask at h
  split at h
  · cases h
    exact Or.inl ⟨_, _, rfl⟩
  · split at h
    · cases h
      exact Or.inl ⟨_, _, rfl⟩
    · exact exchange_fails h

/-- The id of an insert that went through may be unknown, but asking for it does not make the insert fail. -/
theorem insertId_answers (link : Link) (set : RowSet) (affected : Nat) (session : Session S) :
    (insertId settings link set affected session).1 ≠ .error e := by
  intro h
  unfold insertId at h
  cases hsource : idSource set.firstValue? affected with
  | lastValue =>
    simp only [hsource, lastInsertId] at h
    rcases hasked : ask link none lastValue session with ⟨answer, asked⟩
    rw [hasked] at h
    cases answer <;> cases h
  | _ =>
    rw [hsource] at h
    cases h

/-- what a session promises of its errors -/
structure Surfaces (settings : Settings) (session : Session S) : Prop where
  /-- connecting fails with the errors of the connection that opening a link gives, and only without an open link -/
  connecting : ∀ e, (connect settings session).1 = .error e ↔ session.isConnected = false ∧
    ∃ code message, e = .connection code message ∧ OpeningFault settings session.unlinked code message
  /-- a validation error of escaping is the one for NUL -/
  validation : ∀ t cause, (escape settings t session).1 = .error (.validation cause) ↔
    '\x00' ∈ t ∧ cause = .nulForServer
  /-- and then nothing has been done -/
  untouched : ∀ t, '\x00' ∈ t → (escape settings t session).2 = session
  /-- other texts fail to be escaped as connecting fails -/
  escaping : ∀ t, '\x00' ∉ t → ∀ e, (escape settings t session).1 = .error e ↔ (connect settings session).1 = .error e
  /-- a statement fails as an opening does, with an error of its own text, or at the time limit -/
  executing : ∀ kind sql e, (execute settings kind sql session).1 = .error e →
    (session.isConnected = false ∧ ∃ code message, e = .connection code message ∧
      OpeningFault settings (session.note (.executing settings.name kind sql)).unlinked code message) ∨
    (∃ code message, e = .query code message sql) ∨ ∃ limit, settings.queryTimeout = some limit ∧ e = .timeout limit

/-- **Every failure to open a link is an error of the connection.** Whatever the settings, the server and the link,
nothing else comes of connecting, the character set and the question how strings are read included, and a statement
that is run shows such an error, an error with its own text, or the time limit. -/
theorem failures_surface (settings : Settings) (session : Session S) : Surfaces settings session := by
  have hconnect (e : Error) : (connect settings session).1 = .error e ↔ (theLink settings session).1 = .error e :=
    Action.map_fails_iff
  constructor
  case connecting =>
    intro e
    rw [hconnect, theLink_fails_iff]
  case validation =>
    intro t cause
    unfold Session.escape
    split
    case isTrue hnul =>
      rw [Action.throw_run]
      simp [hnul, eq_comm]
    case isFalse hnul =>
      rw [Action.map_fails_iff, theLink_fails_iff]
      simp [hnul]
  case untouched =>
    intro t hnul
    rw [Session.escape, if_pos hnul, Action.throw_run]
  case escaping =>
    intro t hnul e
    rw [Session.escape, if_neg hnul, Action.map_fails_iff, hconnect]
  case executing =>
    intro kind sql e h
    rw [execute_eq] at h
    rcases Action.bind_fails_iff.1 h with h | ⟨link, had, -, h⟩
    · exact Or.inl (theLink_fails_iff.1 h)
    rcases Action.bind_fails_iff.1 h with h | ⟨⟨set, affected⟩, asked, -, h⟩
    · exact Or.inr (ask_fails h)
    -- with the answer in hand nothing fails any more
    cases kind with
    | insert => exact (insertId_answers link set affected asked (Action.map_fails_iff.1 h)).elim
    | _ => cases h

/-- a script that refuses to set the encoding, and closes the second link when it is asked how strings are read -/
def failsTwice : Script :=
  ⟨Settings.defaultPort, [], [(setEncoding, [.results [.error "22023" "no"]]), (showStandardStrings, [.drop])], [], []⟩

/-- The server's code is kept, and a link that closes gets the code for lost connections. Escaping on the session behind
the first failure fails as connecting there does. -/
theorem failures_surface_twice :
    let first := connect toScript (fresh failsTwice [])
    first.1 = .error (.connection "22023" "no") ∧
      (connect toScript first.2).1 = .error (.connection "08000" linkClosed) ∧
      OpeningFault toScript first.2.unlinked "08000" linkClosed ∧
      (escape toScript ['a'] first.2).1 = .error (.connection "08000" linkClosed) := by
  intro first
  have hsecond : (connect toScript first.2).1 = .error (.connection "08000" linkClosed) := by decide +kernel
  have hsurfaces := failures_surface toScript first.2
  obtain ⟨-, code, message, hfault, hopening⟩ := (hsurfaces.connecting _).1 hsecond
  cases hfault
  refine ⟨by decide +kernel, hsecond, hopening, ?_⟩
  exact (hsurfaces.escaping ['a'] (by decide) _).2 hsecond

end Session

end Postgres

end SqlAccess
