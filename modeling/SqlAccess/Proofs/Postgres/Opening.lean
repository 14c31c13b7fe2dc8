/-
What is sent while a link is opened.

`Reply.fault?` tells from the server's reply alone whether a statement fails and with what (`collect_fails_iff`): a code
where the server gives one, and none where a row does not fit its columns or the link closes.

An action on a link being opened `Recites` its statements: all of them where it answers, and a front of them where it
fails. The login goes in front if it can be sent at all (`Begins`). `openLink_begins` is the outcome: over a new link go
the login, the statement that sets the encoding when a character set is configured, and the question how strings are
read, and an opening that fails has sent no more than a front of these.
-/
import SqlAccess.Proofs.Postgres.Wire

namespace SqlAccess

namespace Postgres

/-! ## What a reply does to its statement -/

/-- why a statement fails: the server's code, where it gives one, and the words -/
structure Fault where
  code : Option Text
  message : Text
  deriving DecidableEq, Repr

def Fault.ofStatement (fault : Fault) (sql : Text) : Error := .query fault.code fault.message sql

/-- the fault of a message of a reply, with as many columns as there are -/
def Message.fault? (width : Nat) : Message → Option Fault
  | .row values => if values.length = width then none else some ⟨none, Session.unparsable⟩
  | .refused code message => some ⟨some code, message⟩
  | _ => none

/-- how many columns there are behind a message -/
def Message.widthAfter (width : Nat) : Message → Nat
  | .columns names => names.length
  | _ => width

def firstFault? (width : Nat) : List Message → Option Fault
  | [] => none
  | message :: messages => (message.fault? width).or (firstFault? (message.widthAfter width) messages)

/-- the fault of a reply: its first one, or the end of the link -/
def Reply.fault? : Reply → Option Fault
  | .messages parts => firstFault? 0 parts
  | .closed => some ⟨none, Session.linkClosed⟩

namespace Session

theorem collectMessage_of_fault {sql : Text} {gathered : RowSet × Nat} {message : Message} {fault : Fault}
    (h : message.fault? gathered.1.columns.length = some fault) :
    collectMessage sql gathered message = .error (fault.ofStatement sql) := by
  cases message with
  | row values =>
    simp only [Message.fault?] at h
    split at h
    case isTrue => cases h
    case isFalse hwidth =>
      cases h
      exact if_neg hwidth
  | refused code words =>
    cases h
    rfl
  | _ => cases h

theorem collectMessage_of_no_fault {sql : Text} {gathered : RowSet × Nat} {message : Message}
    (h : message.fault? gathered.1.columns.length = none) : ∃ more, collectMessage sql gathered message = .ok more ∧
      more.1.columns.length = message.widthAfter gathered.1.columns.length := by
  cases message with
  | row values =>
    simp only [Message.fault?] at h
    split at h
    case isTrue hwidth => exact ⟨_, if_pos hwidth, rfl⟩
    case isFalse => cases h
  | refused code words => cases h
  | _ => exact ⟨_, rfl, rfl⟩

/-- Gathering an answer fails with its first fault. -/
theorem collect_fails_iff {sql : Text} {messages : List Message} {e : Error} :
    collect sql messages = .error e ↔ ∃ fault, firstFault? 0 messages = some fault ∧ fault.ofStatement sql = e := by
  suffices hfrom : ∀ gathered : RowSet × Nat, messages.foldlM (collectMessage sql) gathered = .error e ↔
      ∃ fault, firstFault? gathered.1.columns.length messages = some fault ∧ fault.ofStatement sql = e from
    hfrom (RowSet.empty, 0)
  intro gathered
  induction messages generalizing gathered with
  | nil => simp [firstFault?, pure, Except.pure]
  | cons message messages ih =>
    rw [List.foldlM_cons, firstFault?]
    cases hfault : message.fault? gathered.1.columns.length with
    | some fault =>
      rw [collectMessage_of_fault hfault]
      simp [bind, Except.bind]
    | none =>
      obtain ⟨more, hmore, hwidth⟩ : ∃ more, collectMessage sql gathered message = .ok more ∧
          more.1.columns.length = message.widthAfter gathered.1.columns.length := collectMessage_of_no_fault hfault
      rw [hmore, Option.none_or, ← hwidth]
      exact ih more

variable {S : Type} [Server S]

/-! ## One statement on the wire -/

/-- A statement fails with an error of its own text, or because it took too long where there is a limit. -/
theorem exchange_fails {limit : Option Duration} {sql : Text} {server : S} {e : Error}
    (h : (exchange limit sql server).1.1 = .error e) :
    (∃ code message, e = .query code message sql) ∨ ∃ given, limit = some given ∧ e = .timeout given := by
  unfold exchange at h
  split at h
  · cases h
    exact Or.inl ⟨_, _, rfl⟩
  · rcases hanswer : Server.answer sql server with ⟨⟨late, reply⟩, server'⟩
    simp only [hanswer] at h
    split at h
    case h_1 given =>
      cases h
      exact Or.inr ⟨given, rfl, rfl⟩
    case h_2 given _ =>
      cases h
      exact Or.inr ⟨given, rfl, rfl⟩
    case h_3 =>
      obtain ⟨fault, -, rfl⟩ := collect_fails_iff.1 h
      exact Or.inl ⟨_, _, rfl⟩
    case h_4 =>
      cases h
      exact Or.inl ⟨_, _, rfl⟩

/-- one statement: the signals it sends, and how they go with its answer and the condition of the link -/
structure Exchanged (limit : Option Duration) (sql : Text) (answer : Except Error (RowSet × Nat)) (health : Health)
    (signals : List Signal) : Prop where
  quiet : opens signals = false
  front : statements signals <+: [sql]
  live : .closing ∉ signals → health = .live
  answered : ∀ a, answer = .ok a → statements signals = [sql] ∧ health = .live
  failed : ∀ e, answer = .error e →
    (∃ code message, e = .query code message sql) ∨ ∃ given, limit = some given ∧ e = .timeout given

/-- What a statement sends, and how it ends. -/
theorem exchange_sends {limit : Option Duration} {sql : Text} {wire wire' : Wire S}
    {answer : Except Error (RowSet × Nat)} {health : Health}
    (h : exchange limit sql wire = ((answer, health), wire')) :
    ∃ signals, wire'.log = wire.log ++ signals ∧ Exchanged limit sql answer health signals := by
  have hfailed (e : Error) (he : answer = .error e) :
      (∃ code message, e = .query code message sql) ∨ ∃ given, limit = some given ∧ e = .timeout given := by
    have hanswer : (exchange limit sql wire).1.1 = .error e := by rw [h, he]
    exact exchange_fails hanswer
  unfold exchange at h
  split at h
  case isTrue hnul =>
    cases h
    exact ⟨[], (List.append_nil _).symm, rfl, List.nil_prefix, fun _ => rfl, nofun, hfailed⟩
  case isFalse hnul =>
    have hlog := Wire.log_answer sql wire
    rcases hanswer : Server.answer sql wire with ⟨⟨late, reply⟩, wire''⟩
    simp only [hanswer] at h hlog
    have hquiet := opens_exchanged sql reply
    have hfront : statements (exchanged sql reply) <+: [sql] := by simp
    refine ⟨exchanged sql reply, by split at h <;> (cases h; exact hlog), ?_⟩
    split at h
    case h_1 =>
      cases h
      exact ⟨hquiet, hfront, fun hclosing => (hclosing (by simp [exchanged])).elim, nofun, hfailed⟩
    case h_2 =>
      cases h
      exact ⟨hquiet, hfront, fun _ => rfl, nofun, hfailed⟩
    case h_3 messages _ =>
      cases h
      exact ⟨hquiet, hfront, fun _ => rfl, fun a ha => ⟨statements_exchanged sql _, rfl⟩, hfailed⟩
    case h_4 =>
      cases h
      exact ⟨hquiet, hfront, fun hclosing => (hclosing (by simp [exchanged])).elim, nofun, hfailed⟩

/-! ## Statements in a fixed order -/

section Recites

variable {S α β : Type} {refusal : Error → Prop} {texts more : List Text}

/-- An action on a link being opened that says these texts, all of them where it answers, and a front of them where it
fails, with an error of this kind. -/
def Recites (refusal : Error → Prop) (texts : List Text) (x : Action (Session (Wire S)) α) : Prop :=
  ∀ (session session' : Session (Wire S)) (answer : Except Error α), x session = (answer, session') →
    session'.link = session.link ∧ ∃ signals, session'.server.log = session.server.log ++ signals ∧
      opens signals = false ∧ statements signals <+: texts ∧
      (∀ a, answer = .ok a → statements signals = texts) ∧ ∀ e, answer = .error e → refusal e

theorem Recites.pure (a : α) : Recites (S := S) refusal [] (Pure.pure a) := by
  intro session session' answer h
  cases h
  exact ⟨rfl, [], (List.append_nil _).symm, rfl, List.nil_prefix, fun _ _ => rfl, nofun⟩

theorem Recites.throw {e : Error} (h : refusal e) :
    Recites refusal texts (MonadExcept.throw e : Action (Session (Wire S)) α) := by
  intro session session' answer hr
  cases hr
  refine ⟨rfl, [], (List.append_nil _).symm, rfl, List.nil_prefix, nofun, ?_⟩
  intro d hd
  cases hd
  exact h

theorem Recites.bind {x : Action (Session (Wire S)) α} {f : α → Action (Session (Wire S)) β}
    (hx : Recites refusal texts x) (hf : ∀ a, Recites refusal more (f a)) :
    Recites refusal (texts ++ more) (x >>= f) := by
  intro session session' answer h
  rcases hr : x session with ⟨first, middle⟩
  obtain ⟨hlink, signals, hlog, hquiet, hfront, hwhole, hrefused⟩ := hx _ _ _ hr
  cases first with
  | error e =>
    rw [Action.bind_of_error hr] at h
    cases h
    refine ⟨hlink, signals, hlog, hquiet, hfront.trans (List.prefix_append _ _), nofun, ?_⟩
    intro d hd
    cases hd
    exact hrefused e rfl
  | ok a =>
    rw [Action.bind_of_ok hr] at h
    obtain ⟨hlink', signals', hlog', hquiet', hfront', hwhole', hrefused'⟩ := hf a _ _ _ h
    have hall : statements signals = texts := hwhole a rfl
    refine ⟨hlink'.trans hlink, signals ++ signals', ?_, ?_, ?_, ?_, hrefused'⟩
    · rw [hlog', hlog, List.append_assoc]
    · rw [opens_append, hquiet, hquiet', Bool.or_false]
    · rw [statements_append, hall]
      exact (List.prefix_append_right_inj _).2 hfront'
    · intro b hb
      rw [statements_append, hall, hwhole' b hb]

/-- Errors may be changed on the way. -/
theorem Recites.mapError {x : Action (Session (Wire S)) α} {change : Error → Error}
    (hx : Recites (fun e => refusal (change e)) texts x) : Recites refusal texts (x.mapError change) := by
  intro session session' answer h
  rcases hr : x session with ⟨first, middle⟩
  obtain ⟨hlink, signals, hlog, hquiet, hfront, hwhole, hrefused⟩ := hx _ _ _ hr
  simp only [Action.mapError, hr] at h
  cases first with
  | error e =>
    cases h
    refine ⟨hlink, signals, hlog, hquiet, hfront, ?_, ?_⟩
    · intro a ha
      cases ha
    · intro d hd
      cases hd
      exact hrefused e rfl
  | ok a =>
    cases h
    refine ⟨hlink, signals, hlog, hquiet, hfront, fun _ _ => hwhole a rfl, ?_⟩
    intro d hd
    cases hd

end Recites

/-! ## The statements of an opening -/

def openingTexts (settings : Settings) : List Text :=
  (if settings.charset.isSome then [setEncoding] else []) ++ [showStandardStrings]

def OfOpening (e : Error) : Prop := ∃ code message, e = .connection code message

/-- A statement on a link being opened can only fail with an error that counts as one of the opening. -/
theorem recites_converse (sql : Text) :
    Recites (fun e => OfOpening e.asConnection) [sql] (converse (S := Wire S) sql) := by
  intro session session' answer h
  rcases hexchange : exchange none sql session.server with ⟨⟨answer', health⟩, wire⟩
  simp only [converse, hexchange] at h
  cases h
  obtain ⟨signals, hlog, hexchanged⟩ := exchange_sends hexchange
  refine ⟨rfl, signals, hlog, hexchanged.quiet, hexchanged.front, fun a ha => (hexchanged.answered a ha).1, ?_⟩
  intro e he
  rcases hexchanged.failed e he with ⟨code, message, rfl⟩ | ⟨given, hgiven, -⟩
  · exact ⟨_, _, rfl⟩
  · cases hgiven

/-- The encoding is set when a character set is configured; one that is not spoken is refused before. -/
theorem recites_applyConfiguredCharset (settings : Settings) :
    Recites (S := S) (fun e => OfOpening e.asConnection) (if settings.charset.isSome then [setEncoding] else [])
      (applyConfiguredCharset settings) := by
  unfold applyConfiguredCharset
  cases settings.charset with
  | none => exact Recites.pure ()
  | some charset =>
    have hset : Recites (S := S) (fun e => OfOpening e.asConnection) [setEncoding] (converse setEncoding) :=
      recites_converse setEncoding
    change Recites _ [setEncoding] (applyCharset converse charset)
    simp only [applyCharset]
    split
    · exact hset.bind fun _ => Recites.pure ()
    · refine Recites.throw ?_
      exact ⟨_, _, rfl⟩

/-- What follows the login recites the opening statements. -/
theorem recites_openingTexts (settings : Settings) :
    Recites (S := S) OfOpening (openingTexts settings) (do
      (applyConfiguredCharset settings).mapError Error.asConnection
      let standardStrings ← (readStandardStrings converse).mapError Error.asConnection
      modify (·.note (.connected settings.name))
      return (⟨standardStrings, .live⟩ : Link)) := by
  have hnote : Recites (S := S) OfOpening [] (modify (·.note (.connected settings.name))) := by
    intro session session' answer h
    cases h
    exact ⟨rfl, [], (List.append_nil _).symm, rfl, List.nil_prefix, fun _ _ => rfl, nofun⟩
  have hshow : Recites (S := S) (fun e => OfOpening e.asConnection) [showStandardStrings]
      (readStandardStrings converse) := (recites_converse showStandardStrings).bind fun _ => Recites.pure _
  exact (recites_applyConfiguredCharset settings).mapError.bind fun _ =>
    hshow.mapError.bind fun _ => hnote.bind fun _ => Recites.pure _

/-! ## The login and what follows it -/

/-- whether a login can be sent to the server -/
def Reachable (settings : Settings) (server : Wire S) : Prop :=
  Server.listens settings.host settings.port server = true ∧ '\x00' ∉ settings.user ∧ '\x00' ∉ settings.database

/-- the login goes first if it can be sent, and nothing is sent otherwise -/
def Begins (settings : Settings) (before : Session (Wire S)) (signals : List Signal) : Prop :=
  (Reachable settings before.server ∧
      ∃ rest, signals = .startup ⟨settings.user, settings.database⟩ :: rest ∧ opens rest = false) ∨
    (¬Reachable settings before.server ∧ signals = [])

theorem ofOpening_lost {α : Type} (message : Text) (e : Error)
    (h : (.error (lost message) : Except Error α) = .error e) : OfOpening e := by
  cases h
  exact ⟨_, _, rfl⟩

theorem ofOpening_settle (verdict : Verdict) (e : Error) (h : settle verdict = .error e) : OfOpening e := by
  cases verdict <;> cases h <;> exact ⟨_, _, rfl⟩

/-- A login that fails is an error of the connection. -/
theorem ofOpening_startUp {settings : Settings} {session : Session S} {e : Error}
    (h : (startUp settings session).1 = .error e) : OfOpening e := by
  unfold startUp at h
  split at h
  · exact ofOpening_lost _ e h
  · split at h
    · exact ofOpening_lost _ e h
    · split at h
      · exact ofOpening_settle _ e h
      · split at h
        · exact ofOpening_lost _ e h
        · split at h
          · exact ofOpening_lost _ e h
          · exact ofOpening_settle _ e h

/-- The login is all that a start sends, with the password where it is wanted. -/
theorem startUp_begins {settings : Settings} {session session' : Session (Wire S)} {answer : Except Error Unit}
    (h : startUp settings session = (answer, session')) :
    session'.link = session.link ∧ ∃ signals, session'.server.log = session.server.log ++ signals ∧
      Begins settings session signals ∧ statements signals = [] ∧ (answer = .ok () → signals ≠ []) ∧
      ∀ e, answer = .error e → OfOpening e := by
  have hrefused (e : Error) (he : answer = .error e) : OfOpening e := by
    have hanswer : (startUp settings session).1 = .error e := by rw [h, he]
    exact ofOpening_startUp hanswer
  unfold startUp at h
  split at h
  case isTrue hlistens =>
    cases h
    have hreach : ¬Reachable settings session.server := fun hreach => by simp [hreach.1] at hlistens
    exact ⟨rfl, [], (List.append_nil _).symm, Or.inr ⟨hreach, rfl⟩, rfl, nofun, hrefused⟩
  case isFalse hlistens =>
    split at h
    case isTrue hnul =>
      cases h
      have hreach : ¬Reachable settings session.server := fun hreach => hnul.elim hreach.2.1 hreach.2.2
      exact ⟨rfl, [], (List.append_nil _).symm, Or.inr ⟨hreach, rfl⟩, rfl, nofun, hrefused⟩
    case isFalse hnul =>
      obtain ⟨huser, hdatabase⟩ := not_or.1 hnul
      have hreach : Reachable settings session.server := ⟨by simpa using hlistens, huser, hdatabase⟩
      have hlog := Wire.log_greet ⟨settings.user, settings.database⟩ session.server
      rcases hgreet : Server.greet ⟨settings.user, settings.database⟩ session.server with ⟨greeting, wire⟩
      rw [hgreet] at hlog
      simp only [hgreet] at h
      split at h
      case h_1 verdict _ heq =>
        cases heq
        cases h
        exact ⟨rfl, _, hlog, Or.inl ⟨hreach, [], rfl, rfl⟩, rfl, nofun, hrefused⟩
      case h_2 heq =>
        cases heq
        split at h
        case h_1 =>
          cases h
          exact ⟨rfl, _, hlog, Or.inl ⟨hreach, [], rfl, rfl⟩, rfl, nofun, hrefused⟩
        case h_2 password _ =>
          split at h
          case isTrue =>
            cases h
            exact ⟨rfl, _, hlog, Or.inl ⟨hreach, [], rfl, rfl⟩, rfl, nofun, hrefused⟩
          case isFalse =>
            cases h
            refine ⟨rfl, [.startup ⟨settings.user, settings.database⟩, .password password], ?_,
              Or.inl ⟨hreach, [.password password], rfl, rfl⟩, rfl, nofun, hrefused⟩
            rw [Wire.log_authenticate, hlog, List.append_assoc]
            rfl

/-- What is sent behind a login belongs to its link. -/
theorem Begins.append {settings : Settings} {before : Session (Wire S)} {signals more : List Signal}
    (h : Begins settings before signals) (hsent : signals ≠ []) (hmore : opens more = false) :
    Begins settings before (signals ++ more) := by
  rcases h with ⟨hreach, rest, rfl, hrest⟩ | ⟨-, rfl⟩
  · exact Or.inl ⟨hreach, rest ++ more, rfl, by rw [opens_append, hrest, hmore, Bool.or_false]⟩
  · exact (hsent rfl).elim

theorem openingTexts_ne_nil (settings : Settings) : openingTexts settings ≠ [] := by
  simp [openingTexts]

/-- An opening says the opening statements behind the login, all of them if it succeeds. -/
theorem openLink_begins {settings : Settings} {session session' : Session (Wire S)} {answer : Except Error Link}
    (h : openLink settings session = (answer, session')) :
    session'.link = session.link ∧ ∃ signals, session'.server.log = session.server.log ++ signals ∧
      Begins settings session signals ∧ statements signals <+: openingTexts settings ∧
      (∀ link, answer = .ok link → statements signals = openingTexts settings) ∧
      ∀ e, answer = .error e → OfOpening e := by
  unfold openLink at h
  rcases hstart : startUp settings session with ⟨first, middle⟩
  obtain ⟨hlink, signals, hlog, hbegins, hnone, hsent, hrefused⟩ := startUp_begins hstart
  cases first with
  | error e =>
    rw [Action.bind_of_error hstart] at h
    cases h
    refine ⟨hlink, signals, hlog, hbegins, hnone ▸ List.nil_prefix, nofun, ?_⟩
    intro d hd
    cases hd
    exact hrefused e rfl
  | ok =>
    rw [Action.bind_of_ok hstart] at h
    obtain ⟨hlink', more, hlog', hquiet, hfront, hwhole, hrefused'⟩ := recites_openingTexts settings _ _ _ h
    refine ⟨hlink'.trans hlink, signals ++ more, ?_, hbegins.append (hsent rfl) hquiet, ?_, ?_, hrefused'⟩
    · rw [hlog', hlog, List.append_assoc]
    · rwa [statements_append, hnone]
    · intro link hlink
      rw [statements_append, hnone, hwhole link hlink]
      rfl

end Session

end Postgres

end SqlAccess
