/-
The link of a session, over any run of calls.

`Turn` is what is promised of one call, whatever the server does: when a link is opened, which failures leave it in
place, and what is sent over a new one first. `Orderly` is what the log shows of every link. What is done on a held link
`Uses` it: it says its own statements and leaves the link held. A call either opens a link or uses one, and
`run_keeps_link` puts this together for every call in every run.
-/
import SqlAccess.Proofs.Literal
import SqlAccess.Proofs.Postgres.Opening
import SqlAccess.Postgres.Script

namespace SqlAccess

namespace Postgres

theorem Health.eq_live {health : Health} (hopen : health ≠ .closed) (hsevered : health ≠ .severed) :
    health = .live := by
  cases health with
  | live => rfl
  | severed => exact (hsevered rfl).elim
  | closed => exact (hopen rfl).elim

namespace Session

variable {S : Type} [Server S]

/-! ## What is promised -/

/-- the link is held, as live as it was unless the server has closed it -/
def Stays (link : Link) (signals : List Signal) (after : Session (Wire S)) : Prop :=
  ∃ health, after.link = some { link with health } ∧ (link.health = .live → .closing ∉ signals → health = .live)

/-- an error of a statement: the server refuses it, does not answer it in time, or closes the link -/
def OfStatement (e : Error) : Prop := (∃ code message sql, e = .query code message sql) ∨ ∃ limit, e = .timeout limit

/-- A link is opened: the login goes first if it can be sent. Where that succeeds the opening statements come before
those of the call, and where it fails no link is held and no statement of the call is sent. -/
structure Opening (settings : Settings) (texts : List Text) (before after : Session (Wire S)) (failure : Option Error)
    (signals : List Signal) : Prop where
  login : Begins settings before signals
  result : ∃ start : Session (Wire S), start.link = none ∧ start.server = before.server ∧
    ((∃ link opened own, openLink settings start = (.ok link, opened) ∧ Stays link signals after ∧
        statements signals = openingTexts settings ++ own ∧ own ⊆ texts) ∨
      ∃ e, openLink settings start = (.error e, after) ∧ OfOpening e ∧ failure = some e ∧ after.link = none ∧
        statements signals <+: openingTexts settings)

/-- What one call does to the link, with the signals it sends and its failure. -/
structure Turn (settings : Settings) (call : Call) (before after : Session (Wire S)) (failure : Option Error)
    (signals : List Signal) : Prop where
  /-- the signals are written down behind those from before -/
  log : after.server.log = before.server.log ++ signals
  /-- a link that is held and open is not opened anew -/
  once : opens signals = true → before.isConnected = false
  /-- a link that is held and open stays, however the call ends, unless it is the end of the link -/
  stays : ∀ link, before.link = some link → link.health ≠ .closed → call.endsLink = false →
    Stays link signals after ∧ statements signals ⊆ call.texts
  /-- a failed statement leaves a link, and one that is live if the server has not closed it -/
  failed : ∀ e, failure = some e → OfStatement e → ∃ link, after.link = some link ∧
    ((∀ held, before.link = some held → held.health ≠ .severed) → .closing ∉ signals → link.health = .live)
  /-- without an open link, what is made on one begins with an opening -/
  opening : call.needsLink = true → before.isConnected = false →
    Opening settings call.texts before after failure signals
  /-- what is not made on a link sends nothing and opens none -/
  idle : call.needsLink = false → opens signals = false ∧ statements signals = [] ∧
    (before.link = none → after.link = none)
  /-- no link is held behind an ending -/
  ended : call = .disconnect → after.link = none

/-- Over every link nothing but the opening statements was sent before they were through, and they are through for the
link that is held. -/
structure Orderly (settings : Settings) (session : Session (Wire S)) : Prop where
  each : ∀ sent ∈ perLink session.server.log, sent <+: openingTexts settings ∨ openingTexts settings <+: sent
  held : ∀ link, session.link = some link →
    ∃ sent earlier, perLink session.server.log = sent :: earlier ∧ openingTexts settings <+: sent

/-! ## Using a link -/

section Uses

variable {S α β : Type} {texts : List Text} {link : Link}

/-- on the held link, an action that says only these texts and leaves the link held -/
def Uses (texts : List Text) (link : Link) (x : Action (Session (Wire S)) α) : Prop :=
  ∀ (session session' : Session (Wire S)) (answer : Except Error α), session.link = some link →
    x session = (answer, session') → ∃ signals, session'.server.log = session.server.log ++ signals ∧
      opens signals = false ∧ statements signals ⊆ texts ∧ Stays link signals session'

/-- A link that is held as it was. -/
theorem Stays.of_held {signals : List Signal} {after : Session (Wire S)} (h : after.link = some link) :
    Stays link signals after := ⟨link.health, h, fun hlive _ => hlive⟩

/-- What stays over the last signals stays over all of them. -/
theorem Stays.append {more : List Signal} {after : Session (Wire S)} (h : Stays link more after)
    (signals : List Signal) : Stays link (signals ++ more) after := by
  obtain ⟨health, hafter, hlive⟩ := h
  exact ⟨health, hafter, fun hl hclosing => hlive hl fun hmem => hclosing (List.mem_append_right _ hmem)⟩

theorem Uses.ofExcept (answer : Except Error α) : Uses (S := S) texts link (Action.ofExcept answer) := by
  intro session session' answer' hlink h
  cases h
  exact ⟨[], (List.append_nil _).symm, rfl, List.nil_subset _, .of_held hlink⟩

theorem Uses.map {x : Action (Session (Wire S)) α} (hx : Uses texts link x) (f : α → β) :
    Uses texts link (do let a ← x; return f a) := by
  intro session session' answer hlink h
  rcases hr : x session with ⟨first, middle⟩
  obtain ⟨signals, hsignals⟩ := hx session middle first hlink hr
  cases first with
  | error e =>
    rw [Action.bind_of_error hr] at h
    cases h
    exact ⟨signals, hsignals⟩
  | ok a =>
    rw [Action.bind_of_ok hr] at h
    cases h
    exact ⟨signals, hsignals⟩

end Uses

variable {texts : List Text} {link : Link}

/-- A statement on the held link. Where it is answered the link is as it was. -/
theorem ask_sends {limit : Option Duration} {sql : Text} {session session' : Session (Wire S)}
    {answer : Except Error (RowSet × Nat)} (hopen : link.health ≠ .closed) (hlink : session.link = some link)
    (h : ask link limit sql session = (answer, session')) :
    ∃ signals, session'.server.log = session.server.log ++ signals ∧ opens signals = false ∧
      statements signals <+: [sql] ∧ Stays link signals session' ∧ ∀ a, answer = .ok a → session'.link = some link := by
  unfold ask at h
  split at h
  case isTrue hnul =>
    cases h
    exact ⟨[], (List.append_nil _).symm, rfl, List.nil_prefix, .of_held hlink, nofun⟩
  case isFalse hnul =>
    split at h
    case isTrue hsevered =>
      cases h
      refine ⟨[], (List.append_nil _).symm, rfl, List.nil_prefix, ⟨.closed, rfl, fun hlive => ?_⟩, nofun⟩
      cases hsevered.symm.trans hlive
    case isFalse hsevered =>
      have hlive : link.health = .live := Health.eq_live hopen hsevered
      rcases hexchange : exchange limit sql session.server with ⟨⟨answer', health⟩, wire⟩
      simp only [hexchange] at h
      cases h
      obtain ⟨signals, hlog, hexchanged⟩ := exchange_sends hexchange
      refine ⟨signals, hlog, hexchanged.quiet, hexchanged.front, ⟨health, rfl, fun _ => hexchanged.live⟩, ?_⟩
      intro a ha
      rw [(hexchanged.answered a ha).2, ← hlive]

theorem uses_ask (limit : Option Duration) {sql : Text} (hopen : link.health ≠ .closed) (hsql : sql ∈ texts) :
    Uses (S := S) texts link (ask link limit sql) := by
  intro session session' answer hlink h
  obtain ⟨signals, hlog, hquiet, hfront, hstays, -⟩ := ask_sends hopen hlink h
  refine ⟨signals, hlog, hquiet, fun t ht => ?_, hstays⟩
  rwa [List.mem_singleton.1 (hfront.subset ht)]

/-- Whatever follows a statement finds the link as it was. -/
theorem uses_ask_bind {α : Type} {limit : Option Duration} {sql : Text}
    {f : RowSet × Nat → Action (Session (Wire S)) α} (hopen : link.health ≠ .closed) (hsql : sql ∈ texts)
    (hf : ∀ a, Uses texts link (f a)) : Uses texts link (ask link limit sql >>= f) := by
  intro session session' answer hlink h
  rcases hask : ask link limit sql session with ⟨first, middle⟩
  obtain ⟨signals, hlog, hquiet, hfront, hstays, hheld⟩ := ask_sends hopen hlink hask
  have hsubset : statements signals ⊆ texts := fun t ht => by rwa [List.mem_singleton.1 (hfront.subset ht)]
  cases first with
  | error e =>
    rw [Action.bind_of_error hask] at h
    cases h
    exact ⟨signals, hlog, hquiet, hsubset, hstays⟩
  | ok a =>
    rw [Action.bind_of_ok hask] at h
    obtain ⟨more, hlog', hquiet', hsubset', hstays'⟩ := hf a middle session' answer (hheld a rfl) h
    refine ⟨signals ++ more, ?_, ?_, ?_, hstays'.append signals⟩
    · rw [hlog', hlog, List.append_assoc]
    · rw [opens_append, hquiet, hquiet', Bool.or_false]
    · rw [statements_append]
      exact List.append_subset.2 ⟨hsubset, hsubset'⟩

theorem uses_applyCharset (charset : Text) (hopen : link.health ≠ .closed) :
    Uses (S := S) [setEncoding] link (applyCharset (ask link none) charset) := by
  have hset : Uses (S := S) [setEncoding] link (ask link none setEncoding) :=
    uses_ask none hopen (List.mem_singleton_self _)
  simp only [applyCharset]
  split
  · exact hset.map _
  · exact Uses.ofExcept (.error _)

theorem uses_lastInsertId (settings : Settings) (hopen : link.health ≠ .closed) (htexts : lastValue ∈ texts) :
    Uses (S := S) texts link (lastInsertId settings link) := by
  intro session session' answer hlink h
  rcases hask : ask link none lastValue session with ⟨first, middle⟩
  obtain ⟨signals, hlog, hquiet, hsubset, health, hafter, hlive⟩ :=
    uses_ask none hopen htexts session middle first hlink hask
  simp only [lastInsertId, hask] at h
  cases first with
  | ok a =>
    cases h
    exact ⟨signals, hlog, hquiet, hsubset, health, hafter, hlive⟩
  | error e =>
    cases h
    exact ⟨signals, hlog, hquiet, hsubset, health, hafter, hlive⟩

theorem uses_insertId (settings : Settings) (set : RowSet) (affected : Nat) (hopen : link.health ≠ .closed)
    (htexts : lastValue ∈ texts) : Uses (S := S) texts link (insertId settings link set affected) := by
  unfold insertId
  split
  · exact Uses.ofExcept (.ok _)
  · exact uses_lastInsertId settings hopen htexts
  · exact Uses.ofExcept (.ok none)

/-- What an execution does on its link. -/
theorem uses_statement (settings : Settings) (kind : StatementKind) (sql : Text) (hopen : link.health ≠ .closed) :
    Uses (S := S) (Call.execute kind sql).texts link (do
      let (set, affected) ← ask link settings.queryTimeout sql
      match kind with
      | .select => return Outcome.ofRowSet set
      | .insert => do
        let id ← insertId settings link set affected
        return .receipt (.inserted id affected)
      | _ => return .receipt (.affected affected)) := by
  refine uses_ask_bind hopen (by cases kind <;> exact List.mem_cons_self) fun a => ?_
  cases kind with
  | insert => exact (uses_insertId settings a.1 a.2 hopen (by simp [Call.texts])).map _
  | _ => exact Uses.ofExcept (.ok _)

/-- Running a statement begins with having its link. -/
theorem execute_eq {S : Type} [Server S] (settings : Settings) (kind : StatementKind) (sql : Text)
    (session : Session S) :
    execute settings kind sql session = (theLink settings >>= fun link => do
      let (set, affected) ← ask link settings.queryTimeout sql
      match kind with
      | .select => return Outcome.ofRowSet set
      | .insert => do
        let id ← insertId settings link set affected
        return .receipt (.inserted id affected)
      | _ => return .receipt (.affected affected)) (session.note (.executing settings.name kind sql)) := rfl

/-! ## One call -/

theorem isConnected_iff {S : Type} {session : Session S} :
    session.isConnected = true ↔ ∃ link, session.link = some link ∧ link.health ≠ .closed := by
  unfold isConnected
  cases session.link <;> simp

/-- A closed link counts as none. -/
theorem theLink_of_not_connected {S : Type} [Server S] (settings : Settings) {session : Session S}
    (h : session.isConnected = false) : theLink settings session = theLink settings { session with link := none } := by
  cases hlink : session.link with
  | none => rw [← hlink]
  | some link =>
    have hclosed : link.health = .closed := by simpa [isConnected, hlink] using h
    simp only [theLink, hlink, if_pos hclosed]

variable {settings : Settings} {α : Type} {f : Link → Action (Session (Wire S)) α} {session session' : Session (Wire S)}
  {answer : Except Error α}

/-- Without an open link, an action on one begins with an opening. -/
theorem opening_of_not_connected (hclosed : session.isConnected = false)
    (hf : ∀ link, link.health ≠ .closed → Uses texts link (f link))
    (h : (theLink settings >>= f) session = (answer, session')) :
    ∃ signals, session'.server.log = session.server.log ++ signals ∧
      Opening settings texts session session' (failure? answer) signals := by
  rcases hopening : openLink settings { session with link := none } with ⟨first, opened⟩
  obtain ⟨hnone, signals, hlog, hbegins, hfront, hwhole, hrefused⟩ := openLink_begins hopening
  cases first with
  | error e =>
    have hlink : theLink settings session = (.error e, opened) := by
      rw [theLink_of_not_connected settings hclosed]
      simp only [theLink, hopening]
    rw [Action.bind_of_error hlink] at h
    cases h
    exact ⟨signals, hlog, hbegins, { session with link := none }, rfl, rfl,
      Or.inr ⟨e, hopening, hrefused e rfl, rfl, hnone, hfront⟩⟩
  | ok link =>
    have hlink : theLink settings session = (.ok link, { opened with link := some link }) := by
      rw [theLink_of_not_connected settings hclosed]
      simp only [theLink, hopening]
    rw [Action.bind_of_ok hlink] at h
    have hlive : link.health ≠ .closed := by
      rw [openLink_live hopening]
      decide
    obtain ⟨own, hlog', hquiet, hsubset, hstays⟩ := hf link hlive _ _ answer rfl h
    have hsent : signals ≠ [] := by
      rintro rfl
      exact openingTexts_ne_nil settings (hwhole link rfl).symm
    refine ⟨signals ++ own, ?_, hbegins.append hsent hquiet, { session with link := none }, rfl, rfl,
      Or.inl ⟨link, opened, statements own, hopening, hstays.append signals, ?_, hsubset⟩⟩
    · rw [hlog', hlog, List.append_assoc]
    · rw [statements_append, hwhole link rfl]

/-- An error of an opening is none of a statement. -/
theorem not_ofStatement_of_ofOpening {e : Error} (h : OfOpening e) : ¬OfStatement e := by
  obtain ⟨code, message, rfl⟩ := h
  rintro (⟨_, _, _, h⟩ | ⟨_, h⟩) <;> cases h

variable {call : Call} {failure : Option Error} {signals : List Signal}

/-- A call that opens a link. -/
theorem Opening.turn (h : Opening settings call.texts session session' failure signals)
    (hneeds : call.needsLink = true) (hclosed : session.isConnected = false)
    (hlog : session'.server.log = session.server.log ++ signals) :
    Turn settings call session session' failure signals where
  log := hlog
  once := fun _ => hclosed
  stays := by
    intro link hlink hopen
    rw [isConnected_iff.2 ⟨link, hlink, hopen⟩] at hclosed
    cases hclosed
  failed := by
    intro e he hstatement
    obtain ⟨start, -, -, hresult⟩ := h.result
    rcases hresult with ⟨link, opened, own, hopening, ⟨health, hafter, hlive⟩, -⟩ | ⟨d, -, hd, hfailure, -⟩
    · exact ⟨_, hafter, fun _ => hlive (openLink_live hopening)⟩
    · cases hfailure.symm.trans he
      exact (not_ofStatement_of_ofOpening hd hstatement).elim
  opening := fun _ _ => h
  idle := by
    intro hidle
    rw [hneeds] at hidle
    cases hidle
  ended := by
    rintro rfl
    cases hneeds

/-- A call that uses the link that is held. -/
theorem Stays.turn (h : Stays link signals session') (hneeds : call.needsLink = true)
    (hlink : session.link = some link) (hopen : link.health ≠ .closed)
    (hlog : session'.server.log = session.server.log ++ signals) (hquiet : opens signals = false)
    (hsubset : statements signals ⊆ call.texts) : Turn settings call session session' failure signals where
  log := hlog
  once := by
    intro hopens
    rw [hquiet] at hopens
    cases hopens
  stays := by
    intro held hheld _ _
    cases hlink.symm.trans hheld
    exact ⟨h, hsubset⟩
  failed := by
    intro e he hstatement
    obtain ⟨health, hafter, hlive⟩ := h
    exact ⟨_, hafter, fun hsevered => hlive (Health.eq_live hopen (hsevered link hlink))⟩
  opening := by
    intro _ hclosed
    rw [isConnected_iff.2 ⟨link, hlink, hopen⟩] at hclosed
    cases hclosed
  idle := by
    intro hidle
    rw [hneeds] at hidle
    cases hidle
  ended := by
    rintro rfl
    cases hneeds

/-- A call that is made on a link, held or new. -/
theorem turn_on_link (hneeds : call.needsLink = true)
    (hf : ∀ link, link.health ≠ .closed → Uses call.texts link (f link))
    (h : (theLink settings >>= f) session = (answer, session')) :
    ∃ signals, Turn settings call session session' (failure? answer) signals := by
  cases hconnected : session.isConnected with
  | false =>
    obtain ⟨signals, hlog, hopening⟩ := opening_of_not_connected hconnected hf h
    exact ⟨signals, hopening.turn hneeds hconnected hlog⟩
  | true =>
    obtain ⟨link, hlink, hopen⟩ := isConnected_iff.1 hconnected
    rw [Action.bind_of_ok (theLink_of_held settings hlink hopen)] at h
    obtain ⟨signals, hlog, hquiet, hsubset, hstays⟩ := hf link hopen session session' answer hlink h
    exact ⟨signals, hstays.turn hneeds hlink hopen hlog hquiet hsubset⟩

/-- An event that is noted before a call has nothing to do with its link. -/
theorem Turn.of_note {event : Event} (h : Turn settings call (session.note event) session' failure signals) :
    Turn settings call session session' failure signals where
  log := h.log
  once := h.once
  stays := h.stays
  failed := h.failed
  opening := by
    intro hneeds hclosed
    have hopening := h.opening hneeds hclosed
    exact ⟨hopening.login, hopening.result⟩
  idle := h.idle
  ended := h.ended

/-- A call that is not made on a link and leaves the link and the server alone. -/
theorem turn_of_unchanged (hneeds : call.needsLink = false) (hended : call ≠ .disconnect)
    (hfailure : ∀ e, failure = some e → ¬OfStatement e) :
    Turn settings call session session failure [] where
  log := (List.append_nil _).symm
  once := nofun
  stays := fun link hlink _ _ => ⟨.of_held hlink, List.nil_subset _⟩
  failed := fun e he hstatement => (hfailure e he hstatement).elim
  opening := by
    intro hn
    rw [hneeds] at hn
    cases hn
  idle := fun _ => ⟨rfl, rfl, id⟩
  ended := fun hd => (hended hd).elim

theorem turn_disconnect (settings : Settings) (session : Session (Wire S)) :
    Turn settings .disconnect session (disconnect settings session).2 none [] where
  log := by
    unfold disconnect
    split
    · exact (List.append_nil _).symm
    · split <;> exact (List.append_nil _).symm
  once := nofun
  stays := nofun
  failed := nofun
  opening := nofun
  idle := fun _ => ⟨rfl, rfl, fun h => by simp [disconnect, h]⟩
  ended := by
    intro _
    unfold disconnect
    split
    · assumption
    · split <;> rfl

theorem turn_closing (settings : Settings) (session : Session (Wire S)) (noticed : Bool) :
    Turn settings (.closing noticed) session (session.lose noticed) none [] where
  log := (List.append_nil _).symm
  once := nofun
  stays := nofun
  failed := nofun
  opening := nofun
  idle := fun _ => ⟨rfl, rfl, fun h => by simp [lose, h]⟩
  ended := nofun

/-- **One call.** -/
theorem step_turn (settings : Settings) (session : Session (Wire S)) (call : Call) :
    ∃ signals, Turn settings call session (step settings session call).2 (step settings session call).1 signals := by
  cases call with
  | connect => exact turn_on_link rfl (fun link _ => Uses.ofExcept (.ok ())) rfl
  | execute kind sql =>
    have hturn : ∃ signals, Turn settings (.execute kind sql) (session.note (.executing settings.name kind sql))
        (step settings session (.execute kind sql)).2 (step settings session (.execute kind sql)).1 signals :=
      turn_on_link rfl (fun link hopen => uses_statement settings kind sql hopen) rfl
    obtain ⟨signals, hturn⟩ := hturn
    exact ⟨signals, hturn.of_note⟩
  | escape t =>
    by_cases hnul : '\x00' ∈ t
    · have hstep : step settings session (.escape t) = (some (.validation .nulForServer), session) := by
        simp only [step, outcome, escape, if_pos hnul]
        rfl
      rw [hstep]
      refine ⟨[], turn_of_unchanged ?_ (by simp) ?_⟩
      · simpa [Call.needsLink] using hnul
      · intro e he
        cases he
        rintro (⟨_, _, _, h⟩ | ⟨_, h⟩) <;> cases h
    · simp only [step, outcome, escape, if_neg hnul]
      refine turn_on_link ?_ (fun link _ => Uses.ofExcept (.ok _)) rfl
      simpa [Call.needsLink] using hnul
  | setCharset charset => exact turn_on_link rfl (fun link hopen => uses_applyCharset charset hopen) rfl
  | isConnected =>
    have hfailure : ∀ e, (step settings session .isConnected).1 = some e → ¬OfStatement e := by
      intro e he
      cases he
    exact ⟨[], turn_of_unchanged rfl (by decide) hfailure⟩
  | disconnect => exact ⟨[], turn_disconnect settings session⟩
  | closing noticed => exact ⟨[], turn_closing settings session noticed⟩

/-! ## Any run -/

theorem orderly_fresh {T : Type} (settings : Settings) (server : T) (events : List Event) :
    Orderly settings (fresh (⟨server, []⟩ : Wire T) events) where
  each := nofun
  held := nofun

/-- An opening puts its statements in front of what is sent over the new link. -/
theorem Opening.orderly (h : Opening settings texts session session' failure signals)
    (hsession : Orderly settings session) (hlog : session'.server.log = session.server.log ++ signals) :
    Orderly settings session' := by
  obtain ⟨start, -, -, hresult⟩ := h.result
  rcases h.login with ⟨-, rest, rfl, hrest⟩ | ⟨-, rfl⟩
  · have hlinks : perLink session'.server.log = statements rest :: perLink session.server.log := by
      rw [hlog, perLink_append_startup _ _ hrest]
    have hothers := hsession.each
    rcases hresult with ⟨link, opened, own, -, -, hsent, -⟩ | ⟨e, -, -, -, hnone, hsent⟩
    · have hfirst : openingTexts settings <+: statements rest := ⟨own, hsent.symm⟩
      refine ⟨?_, fun held _ => ⟨_, _, hlinks, hfirst⟩⟩
      rw [hlinks]
      exact List.forall_mem_cons.2 ⟨Or.inr hfirst, hothers⟩
    · refine ⟨?_, fun held hheld => ?_⟩
      · rw [hlinks]
        exact List.forall_mem_cons.2 ⟨Or.inl hsent, hothers⟩
      · rw [hnone] at hheld
        cases hheld
  · rw [List.append_nil] at hlog
    rcases hresult with ⟨link, opened, own, -, -, hsent, -⟩ | ⟨e, -, -, -, hnone, -⟩
    · exact (openingTexts_ne_nil settings (List.append_eq_nil_iff.1 hsent.symm).1).elim
    · refine ⟨by rw [hlog]; exact hsession.each, fun held hheld => ?_⟩
      rw [hnone] at hheld
      cases hheld

/-- What a call does keeps the links in order. -/
theorem Turn.orderly (h : Turn settings call session session' failure signals) (hsession : Orderly settings session) :
    Orderly settings session' := by
  cases hneeds : call.needsLink with
  | true =>
    cases hconnected : session.isConnected with
    | false => exact (h.opening hneeds hconnected).orderly hsession h.log
    | true =>
      -- the newest link is the one that is held, and it goes on
      obtain ⟨link, hlink, hopen⟩ := isConnected_iff.1 hconnected
      obtain ⟨sent, earlier, hlinks, hfirst⟩ := hsession.held link hlink
      have hquiet : opens signals = false := by
        by_contra ho
        rw [h.once (by simpa using ho)] at hconnected
        cases hconnected
      have hlinks' : perLink session'.server.log = (sent ++ statements signals) :: earlier := by
        rw [h.log, perLink_append _ hquiet, hlinks]
        rfl
      have hfirst' : openingTexts settings <+: sent ++ statements signals := hfirst.trans (List.prefix_append _ _)
      refine ⟨?_, fun held _ => ⟨_, _, hlinks', hfirst'⟩⟩
      have heach := hsession.each
      rw [hlinks] at heach
      rw [hlinks']
      exact List.forall_mem_cons.2 ⟨Or.inr hfirst', (List.forall_mem_cons.1 heach).2⟩
  | false =>
    obtain ⟨hquiet, hnone, hstill⟩ := h.idle hneeds
    have hlinks : perLink session'.server.log = perLink session.server.log := by
      rw [h.log, perLink_append _ hquiet, hnone]
      cases perLink session.server.log <;> simp
    refine ⟨by rw [hlinks]; exact hsession.each, fun held hheld => ?_⟩
    rw [hlinks]
    cases hlink : session.link with
    | none =>
      rw [hstill hlink] at hheld
      cases hheld
    | some link => exact hsession.held link hlink

theorem orderly_run (settings : Settings) {session : Session (Wire S)} (h : Orderly settings session)
    (calls : List Call) : Orderly settings (run settings session calls) := by
  induction calls generalizing session with
  | nil => exact h
  | cons call calls ih =>
    obtain ⟨signals, hturn⟩ := step_turn settings session call
    exact ih (hturn.orderly h)

/-- Where no link is held, none is held behind calls that are not made on one. -/
theorem run_idle (settings : Settings) {session : Session (Wire S)} (h : session.link = none) {idle : List Call}
    (hidle : ∀ call ∈ idle, call.needsLink = false) : (run settings session idle).link = none := by
  induction idle generalizing session with
  | nil => exact h
  | cons call idle ih =>
    obtain ⟨signals, hturn⟩ := step_turn settings session call
    obtain ⟨hcall, hidle⟩ := List.forall_mem_cons.1 hidle
    exact ih ((hturn.idle hcall).2.2 h) hidle

/-- **The link in any run.** Whatever the server does, every call of every run keeps what `Turn` promises, the log shows
the opening statements first on every link, and where a call leaves no link, the next one that is made on a link opens
one. -/
theorem run_keeps_link (settings : Settings) (server : S) (events : List Event) (calls : List Call) (call : Call) :
    let before := run settings (fresh (⟨server, []⟩ : Wire S) events) calls
    let after := (step settings before call).2
    (∃ signals, Turn settings call before after (step settings before call).1 signals) ∧
      Orderly settings before ∧
      (after.link = none → ∀ (idle : List Call) (next : Call), (∀ call ∈ idle, call.needsLink = false) →
        next.needsLink = true →
        let later := run settings after idle
        ∃ signals, Opening settings next.texts later (step settings later next).2 (step settings later next).1
          signals) := by
  intro before after
  refine ⟨step_turn settings before call, orderly_run settings (orderly_fresh settings server events) calls, ?_⟩
  intro hnone idle next hidle hnext later
  have hlater : later.link = none := run_idle settings hnone hidle
  have hclosed : later.isConnected = false := by
    rw [isConnected, hlater]
    rfl
  obtain ⟨signals, hturn⟩ := step_turn settings later next
  exact ⟨signals, hturn.opening hnext hclosed⟩

/-- a server that drops the link at a statement, once -/
def dropsOnce : Script := ⟨Settings.defaultPort, [], [("SELECT 1", [.drop])], [], []⟩

/-- the settings of a connection to a script that sets the encoding -/
def toScript : Settings := ⟨"db", Script.host, "d", "u", none, Settings.defaultPort, none, none, some "utf8", []⟩

/-- The statement finds its link dropped, and made once more it opens another, the opening statements first. -/
theorem run_keeps_link_dropped :
    let again : Call := .execute .select "SELECT 1"
    let dropped := run toScript (fresh (⟨dropsOnce, []⟩ : Wire Script) []) [again]
    dropped.isConnected = false ∧
    (∃ signals, Opening toScript ["SELECT 1"] dropped (step toScript dropped again).2 (step toScript dropped again).1
      signals) ∧
    perLink (step toScript dropped again).2.server.log =
      [[setEncoding, showStandardStrings, "SELECT 1"], [setEncoding, showStandardStrings, "SELECT 1"]] := by
  intro again dropped
  have hclosed : dropped.isConnected = false := by decide +kernel
  obtain ⟨⟨signals, hturn⟩, -⟩ := run_keeps_link toScript dropsOnce [] [again] again
  refine ⟨hclosed, ⟨signals, hturn.opening rfl hclosed⟩, ?_⟩
  decide +kernel

end Session

end Postgres

end SqlAccess
