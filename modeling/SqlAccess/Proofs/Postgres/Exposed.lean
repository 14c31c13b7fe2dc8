/-
The literals of a text and the link that the text is sent on.

A statement escapes its literals one by one and is sent in the end, and each of these calls takes the link that there
is. An `Exposed` session may lose its link between any two of them. `Deed` lists what is done with such a connection:
calls on its session, and statements and queries compiled or run on it. `OpenedWith` says which setting was read when
the newest link was opened. `literals_for_link` is what holds in any run: as long as the client notices no loss behind
the first call of a statement, the text it sends is the one that is written for the setting of the link it goes over.
-/
import SqlAccess.Proofs.Postgres.Link
import SqlAccess.Proofs.Recipe

namespace SqlAccess

namespace Postgres

/-! ## A link that may be lost between two calls -/

/-- a session, and what befalls its link before each of the next calls: nothing, or a closing, noticed at once or not -/
structure Exposed (S : Type) where
  session : Session S
  losses : List (Option Bool)

namespace Exposed

variable {S α : Type}

/-- the session as the next call finds it -/
def next (exposed : Exposed S) : Session S :=
  match exposed.losses.head?.join with
  | none => exposed.session
  | some noticed => exposed.session.lose noticed

/-- a call behind what befalls the link -/
def suffer (x : Action (Session S) α) : Action (Exposed S) α := fun exposed =>
  ((x exposed.next).1, ⟨(x exposed.next).2, exposed.losses.tail⟩)

def connection [Server S] (settings : Settings) : Connection (Exposed S) :=
  ⟨settings.tablePrefix, fun t => suffer (Session.escape settings t),
    fun kind sql => suffer (Session.execute settings kind sql)⟩

end Exposed

/-- what is compiled and run: a statement, or a query with the cells that its bindings look into -/
inductive Request where
  | statement (s : Statement)
  | query (cells : Cells) (q : Query)

namespace Request

variable {σ : Type}

def kind : Request → StatementKind
  | .statement s => s.kind
  | .query _ q => q.kind

def compile (conn : Connection σ) : Request → Action σ Text
  | .statement s => s.compile conn
  | .query cells q => q.compile conn cells

def execute (conn : Connection σ) : Request → Action σ Outcome
  | .statement s => s.execute conn
  | .query cells q => q.execute conn cells

theorem execute_eq (conn : Connection σ) (request : Request) :
    request.execute conn = request.compile conn >>= conn.execute request.kind := by
  cases request <;> rfl

theorem asks_compile (tablePrefix : Text) (request : Request) :
    Asks tablePrefix fun _ conn => request.compile conn := by
  cases request with
  | statement s => exact s.asks_compile
  | query cells q => exact q.asks_compile cells

end Request

/-- what is done with a connection, with what befalls its link before the calls of a request -/
inductive Deed where
  | call (call : Call)
  | compile (request : Request) (losses : List (Option Bool))
  | execute (request : Request) (losses : List (Option Bool))

namespace Session

def perform {S : Type} [Server S] (settings : Settings) (session : Session S) : Deed → Session S
  | .call call => (step settings session call).2
  | .compile request losses => (request.compile (Exposed.connection settings) ⟨session, losses⟩).2.session
  | .execute request losses => (request.execute (Exposed.connection settings) ⟨session, losses⟩).2.session

def performAll {S : Type} [Server S] (settings : Settings) (session : Session S) (deeds : List Deed) : Session S :=
  deeds.foldl (perform settings) session

variable {S : Type} [Server S]

/-- Without losses an exposed session does what the session does. -/
theorem shows_exposed (settings : Settings) (request : Request) :
    Action.Shows (fun session : Session S => (⟨session, []⟩ : Exposed S)) (request.execute (connection settings))
      (request.execute (Exposed.connection settings)) := by
  obtain ⟨recipe, hrecipe⟩ := request.asks_compile settings.tablePrefix
  have hheld : request.compile (connection (S := S) settings) = recipe.run _ := hrecipe _ _ rfl
  have hexposed : request.compile (Exposed.connection (S := S) settings) = recipe.run _ := hrecipe _ _ rfl
  rw [Request.execute_eq, Request.execute_eq, hheld, hexposed]
  refine (recipe.shows fun t => ?_).bind fun sql => ?_
  · exact fun session => rfl
  · exact fun session => rfl

/-! ## The link opened last -/

/-- the link opened last was opened where strings were read like this -/
def OpenedWith (settings : Settings) (standard : Bool) (session : Session (Wire S)) : Prop :=
  ∃ (start opened : Session (Wire S)) (rest : List Signal), openLink settings start = (.ok ⟨standard, .live⟩, opened) ∧
    session.server.log = opened.server.log ++ rest ∧ opens rest = false

/-- the link that is held is the one opened last, and has the setting it was opened with -/
def Opened (settings : Settings) (session : Session (Wire S)) : Prop :=
  ∀ link, session.link = some link → OpenedWith settings link.standardStrings session

variable {settings : Settings} {before middle after : Session (Wire S)}

theorem OpenedWith.append {standard : Bool} {signals : List Signal} (h : OpenedWith settings standard before)
    (hlog : after.server.log = before.server.log ++ signals) (hquiet : opens signals = false) :
    OpenedWith settings standard after := by
  obtain ⟨start, opened, rest, hopening, hrest, hnone⟩ := h
  refine ⟨start, opened, rest ++ signals, hopening, ?_, ?_⟩
  · rw [hlog, hrest, List.append_assoc]
  · rw [opens_append, hnone, hquiet, Bool.or_false]

/-- nothing has been sent but statements that open links, and a link that is held has the setting it was opened with -/
structure Prepares (settings : Settings) (before after : Session (Wire S)) : Prop where
  opened : Opened settings after
  sent : ∃ openings, after.server.log = before.server.log ++ openings ∧ statements openings ⊆ openingTexts settings

theorem Prepares.refl (h : Opened settings before) : Prepares settings before before :=
  ⟨h, [], (List.append_nil _).symm, List.nil_subset _⟩

theorem Prepares.trans (h : Prepares settings before middle) (h' : Prepares settings middle after) :
    Prepares settings before after := by
  obtain ⟨signals, hlog, hsubset⟩ := h.sent
  obtain ⟨more, hlog', hsubset'⟩ := h'.sent
  refine ⟨h'.opened, signals ++ more, ?_, ?_⟩
  · rw [hlog', hlog, List.append_assoc]
  · rw [statements_append]
    exact List.append_subset.2 ⟨hsubset, hsubset'⟩

/-- A loss changes the health of a link and nothing else. -/
theorem opened_lose (h : Opened settings before) (noticed : Bool) : Opened settings (before.lose noticed) := by
  intro link hlink
  obtain ⟨held, hheld, rfl⟩ := Option.map_eq_some_iff.1 hlink
  exact h held hheld

theorem prepares_next {exposed : Exposed (Wire S)} (h : Opened settings exposed.session) :
    Prepares settings exposed.session exposed.next := by
  unfold Exposed.next
  split
  · exact .refl h
  · exact ⟨opened_lose h _, [], (List.append_nil _).symm, List.nil_subset _⟩

/-- A link that is had is held and open. -/
theorem held_of_theLink {S : Type} [Server S] {before after : Session S} {link : Link}
    (h : theLink settings before = (.ok link, after)) : after.link = some link ∧ link.health ≠ .closed := by
  rcases theLink_cases h with ⟨hlink, hopen, rfl⟩ | ⟨start, opened, hopening, rfl⟩
  · exact ⟨hlink, hopen⟩
  · refine ⟨rfl, ?_⟩
    rw [openLink_live hopening]
    decide

/-- A link is had with the setting it was opened with, held or new. -/
theorem prepares_theLink {answer : Except Error Link} (h : Opened settings before)
    (hrun : theLink settings before = (answer, after)) : Prepares settings before after := by
  cases hconnected : before.isConnected with
  | true =>
    obtain ⟨link, hlink, hopen⟩ := isConnected_iff.1 hconnected
    rw [theLink_of_held settings hlink hopen] at hrun
    cases hrun
    exact .refl h
  | false =>
    rcases hopening : openLink settings { before with link := none } with ⟨first, opened⟩
    obtain ⟨hnone, signals, hlog, -, hfront, -⟩ := openLink_begins hopening
    rw [theLink_of_not_connected settings hconnected] at hrun
    simp only [theLink, hopening] at hrun
    cases first with
    | error e =>
      cases hrun
      refine ⟨fun link hlink => ?_, signals, hlog, hfront.subset⟩
      cases hnone.symm.trans hlink
    | ok link =>
      cases hrun
      refine ⟨fun held hheld => ?_, signals, hlog, hfront.subset⟩
      cases hheld
      obtain ⟨standard, health⟩ := link
      cases openLink_live hopening
      exact ⟨_, opened, [], hopening, (List.append_nil _).symm, rfl⟩

/-- What is done on a link that is had leaves it the one opened last. -/
theorem Opened.of_uses {α : Type} {texts : List Text} {link : Link} {f : Action (Session (Wire S)) α}
    {answer : Except Error α} (h : Opened settings before) (hlink : before.link = some link)
    (hf : Uses texts link f) (hrun : f before = (answer, after)) :
    Opened settings after ∧ ∃ own, after.server.log = before.server.log ++ own ∧ opens own = false ∧
      statements own ⊆ texts := by
  obtain ⟨own, hlog, hquiet, hsubset, health, hafter, -⟩ := hf before after answer hlink hrun
  refine ⟨fun held hheld => ?_, own, hlog, hquiet, hsubset⟩
  cases hafter.symm.trans hheld
  exact (h link hlink).append hlog hquiet

/-- What is made on a link leaves the link that is held the one opened last. -/
theorem opened_on_link {α : Type} {texts : List Text} {f : Link → Action (Session (Wire S)) α}
    (h : Opened settings before) (hf : ∀ link, link.health ≠ .closed → Uses texts link (f link)) :
    Opened settings ((theLink settings >>= f) before).2 := by
  rcases hrun : theLink settings before with ⟨answer, reached⟩
  have hprepares := prepares_theLink h hrun
  cases answer with
  | error e =>
    rw [Action.bind_of_error hrun]
    exact hprepares.opened
  | ok link =>
    obtain ⟨hlink, hopen⟩ := held_of_theLink hrun
    rw [Action.bind_of_ok hrun]
    exact (hprepares.opened.of_uses hlink (hf link hopen) rfl).1

/-- Events do not count. -/
theorem prepares_note (h : Opened settings before) (event : Event) : Prepares settings before (before.note event) :=
  ⟨h, [], (List.append_nil _).symm, List.nil_subset _⟩

/-- **One call.** -/
theorem opened_step (h : Opened settings before) (call : Call) : Opened settings (step settings before call).2 := by
  cases call with
  | connect => exact opened_on_link h fun link _ => (Uses.ofExcept (.ok ()) : Uses [] link _)
  | execute kind sql =>
    exact opened_on_link (prepares_note h _).opened fun link hopen => uses_statement settings kind sql hopen
  | escape t =>
    simp only [step, outcome, escape]
    split
    · exact h
    · exact opened_on_link h fun link _ => (Uses.ofExcept (.ok _) : Uses [] link _)
  | setCharset charset => exact opened_on_link h fun link hopen => uses_applyCharset charset hopen
  | isConnected => exact h
  | disconnect =>
    simp only [step, disconnect]
    split
    · exact h
    · split <;>
      · intro link hlink
        cases hlink
  | closing noticed => exact opened_lose h noticed

/-! ## Compiling -/

/-- An escape opens a link at most. -/
theorem prepares_escape {exposed : Exposed (Wire S)} (h : Opened settings exposed.session) (t : Text) :
    Prepares settings exposed.session ((Exposed.connection settings).escape t exposed).2.session := by
  have hnext := prepares_next h
  refine hnext.trans ?_
  change Prepares settings exposed.next (escape settings t exposed.next).2
  unfold escape
  split
  · exact .refl hnext.opened
  · rcases hrun : theLink settings exposed.next with ⟨answer, reached⟩
    have hreached := prepares_theLink hnext.opened hrun
    cases answer with
    | error e => rwa [Action.bind_of_error hrun]
    | ok link => rwa [Action.bind_of_ok hrun]

/-- Whatever is written opens links at most. -/
theorem prepares_compile (exposed : Exposed (Wire S)) (h : Opened settings exposed.session) (request : Request) :
    Prepares settings exposed.session (request.compile (Exposed.connection settings) exposed).2.session := by
  obtain ⟨recipe, hrecipe⟩ := request.asks_compile settings.tablePrefix
  have hrun : request.compile (Exposed.connection (S := Wire S) settings) = recipe.run _ := hrecipe _ _ rfl
  rw [hrun]
  refine recipe.invariant (I := fun e : Exposed (Wire S) => Prepares settings exposed.session e.session) ?_ (.refl h)
  intro t state hstate
  exact hstate.trans (prepares_escape hstate.opened t)

/-- a link is held with this setting, and no loss of it will be noticed -/
structure Calm (standard : Bool) (exposed : Exposed S) : Prop where
  held : ∃ link, exposed.session.link = some link ∧ link.health ≠ .closed ∧ link.standardStrings = standard
  unnoticed : some true ∉ exposed.losses

/-- Without a loss that is noticed the next call finds the link held. -/
theorem Calm.next {S : Type} {standard : Bool} {exposed : Exposed S} (h : Calm standard exposed) :
    ∃ link, exposed.next.link = some link ∧ link.health ≠ .closed ∧ link.standardStrings = standard := by
  obtain ⟨link, hlink, hopen, hstandard⟩ := h.held
  unfold Exposed.next
  split
  · exact ⟨link, hlink, hopen, hstandard⟩
  · rename_i noticed hloss
    have hnoticed : noticed = false := by
      cases noticed with
      | false => rfl
      | true => exact absurd (List.mem_of_mem_head? (Option.join_eq_some_iff.1 hloss)) h.unnoticed
    refine ⟨{ link with health := .severed }, ?_, Health.noConfusion, hstandard⟩
    simp [lose, hlink, hnoticed, hopen]

/-- Where a link is held and no loss noticed, texts are escaped for its setting. -/
theorem exposed_escapes (settings : Settings) (standard : Bool) :
    (Exposed.connection (S := S) settings).Escapes standard (Calm standard) := by
  intro t
  by_cases hnul : '\x00' ∈ t
  · rw [if_pos hnul]
    refine Action.gives_none.2 fun exposed _ =>
      ⟨.validation .nulForServer, ⟨exposed.next, exposed.losses.tail⟩, ?_⟩
    simp only [Exposed.connection, Exposed.suffer, escape, if_pos hnul]
    rfl
  · rw [if_neg hnul]
    refine Action.gives_some.2 fun exposed h => ?_
    obtain ⟨link, hlink, hopen, rfl⟩ := h.next
    have hrun : escape settings t exposed.next = (.ok (escapeLiteral link.standardStrings t), exposed.next) := by
      rw [escape, if_neg hnul, Action.bind_of_ok (theLink_of_held settings hlink hopen), Action.pure_run]
    refine ⟨⟨exposed.next, exposed.losses.tail⟩, ?_, ⟨link, hlink, hopen, rfl⟩, ?_⟩
    · simp only [Exposed.connection, Exposed.suffer, hrun]
    · exact fun hloss => h.unnoticed (List.mem_of_mem_tail hloss)

/-- An escape takes the link there is and leaves it held. -/
theorem exposed_escape_eq_ok {exposed escaped : Exposed S} {t body : Text}
    (h : (Exposed.connection settings).escape t exposed = (.ok body, escaped)) : '\x00' ∉ t ∧
      ∃ link, body = escapeLiteral link.standardStrings t ∧ escaped.session.link = some link ∧ link.health ≠ .closed ∧
        escaped.losses = exposed.losses.tail := by
  simp only [Exposed.connection, Exposed.suffer, escape] at h
  split at h
  · cases h
  · rename_i hnul
    refine ⟨hnul, ?_⟩
    rcases hrun : theLink settings exposed.next with ⟨answer, had⟩
    cases answer with
    | error e =>
      rw [Action.bind_of_error hrun] at h
      cases h
    | ok link =>
      obtain ⟨hlink, hopen⟩ := held_of_theLink hrun
      rw [Action.bind_of_ok hrun] at h
      cases h
      exact ⟨link, rfl, hlink, hopen, rfl⟩

/-- The text that a request is sent as is the one for the setting of the link that the request is sent on, if no loss
behind its first call is noticed. -/
theorem compiled_for_link {exposed compiled : Exposed S} {request : Request} {sql : Text} {event : Event} {link : Link}
    {reached : Session S} (hcalm : some true ∉ exposed.losses.tail)
    (hcompile : request.compile (Exposed.connection settings) exposed = (.ok sql, compiled))
    (hlink : theLink settings (compiled.next.note event) = (.ok link, reached)) :
    (request.compile (Connection.onPaper settings.tablePrefix link.standardStrings) ()).1 = .ok sql := by
  obtain ⟨recipe, hrecipe⟩ := request.asks_compile settings.tablePrefix
  have hexposed : request.compile (Exposed.connection (S := S) settings) = recipe.run _ := hrecipe _ _ rfl
  have hpaper (standard : Bool) : request.compile (Connection.onPaper settings.tablePrefix standard) =
    recipe.run _ := hrecipe _ _ rfl
  rw [hexposed] at hcompile
  rw [hpaper]
  cases recipe with
  | settled answer => exact (Prod.mk.inj hcompile).1
  | escape t rest =>
    -- the first escape leaves its link held, and from there on every call finds it
    obtain ⟨body, escaped, hescape, hrest⟩ := Action.bind_eq_ok hcompile
    obtain ⟨hnul, first, rfl, hfirst, hopen, hlosses⟩ := exposed_escape_eq_ok hescape
    have hready : Calm first.standardStrings escaped := ⟨⟨first, hfirst, hopen, rfl⟩, hlosses ▸ hcalm⟩
    obtain ⟨hwritten, hcompiled⟩ :=
      (Recipe.gives (exposed_escapes settings _) settings.tablePrefix _).of_run hready hrest
    obtain ⟨held, hheld, hstill, hstandard⟩ := hcompiled.next
    have hnoted : theLink settings (compiled.next.note event) = (.ok held, compiled.next.note event) :=
      theLink_of_held settings hheld hstill
    cases hnoted.symm.trans hlink
    rw [hstandard, Recipe.run_onPaper_escape _ _ hnul]
    exact Recipe.text?_eq_some hwritten

/-! ## Any run -/

/-- What a request sends itself: nothing, or the text that is written for the setting of the link opened last, over that
link. -/
structure SentFor (settings : Settings) (request : Request) (reached : Session (Wire S))
    (own : List Signal) : Prop where
  quiet : opens own = false
  text : own ≠ [] → ∃ standard sql, OpenedWith settings standard reached ∧
    (request.compile (Connection.onPaper settings.tablePrefix standard) ()).1 = .ok sql ∧
    statements own ⊆ [sql, lastValue]

/-- Running a request opens links, and then sends the request itself. -/
theorem execute_sends (exposed : Exposed (Wire S)) {after : Exposed (Wire S)} {request : Request}
    {answer : Except Error Outcome}
    (h : Opened settings exposed.session)
    (hrun : request.execute (Exposed.connection settings) exposed = (answer, after)) :
    Opened settings after.session ∧ ∃ reached own, Prepares settings exposed.session reached ∧
      after.session.server.log = reached.server.log ++ own ∧
      (some true ∉ exposed.losses.tail → SentFor settings request reached own) := by
  have hnothing (reached : Session (Wire S)) : SentFor settings request reached [] := ⟨rfl, fun hne => absurd rfl hne⟩
  rcases hcompile : request.compile (Exposed.connection settings) exposed with ⟨written, compiled⟩
  have hcompiled : Prepares settings exposed.session compiled.session := by
    have hprepares := prepares_compile exposed h request
    rwa [hcompile] at hprepares
  rw [Request.execute_eq] at hrun
  cases written with
  | error e =>
    rw [Action.bind_of_error hcompile] at hrun
    cases hrun
    exact ⟨hcompiled.opened, after.session, [], hcompiled, (List.append_nil _).symm, fun _ => hnothing _⟩
  | ok sql =>
    have hnext := hcompiled.trans (prepares_next hcompiled.opened)
    rw [Action.bind_of_ok hcompile] at hrun
    have hsent : execute settings request.kind sql compiled.next = (answer, after.session) := by
      cases hrun
      rfl
    rw [execute_eq] at hsent
    rcases hlink : theLink settings (compiled.next.note (.executing settings.name request.kind sql)) with
      ⟨had, reached⟩
    have hnoted := hnext.trans (prepares_note hnext.opened (.executing settings.name request.kind sql))
    have hreached := hnoted.trans (prepares_theLink hnoted.opened hlink)
    cases had with
    | error e =>
      rw [Action.bind_of_error hlink] at hsent
      cases hsent
      exact ⟨hreached.opened, after.session, [], hreached, (List.append_nil _).symm, fun _ => hnothing _⟩
    | ok link =>
      rw [Action.bind_of_ok hlink] at hsent
      obtain ⟨hheld, hopen⟩ := held_of_theLink hlink
      obtain ⟨hopened, own, hlog, hquiet, hsubset⟩ :=
        hreached.opened.of_uses hheld (uses_statement settings request.kind sql hopen) hsent
      refine ⟨hopened, reached, own, hreached, hlog, fun hcalm => ⟨hquiet, fun _ => ?_⟩⟩
      refine ⟨link.standardStrings, sql, hreached.opened link hheld, compiled_for_link hcalm hcompile hlink, ?_⟩
      refine List.Subset.trans hsubset ?_
      cases request.kind <;> simp [Call.texts]

/-- **One deed.** -/
theorem opened_perform {session : Session (Wire S)} (h : Opened settings session) (deed : Deed) :
    Opened settings (perform settings session deed) := by
  cases deed with
  | call call => exact opened_step h call
  | compile request losses => exact (prepares_compile ⟨session, losses⟩ h request).opened
  | execute request losses => exact (execute_sends ⟨session, losses⟩ h rfl).1

theorem opened_performAll {session : Session (Wire S)} (h : Opened settings session) (deeds : List Deed) :
    Opened settings (performAll settings session deeds) := by
  induction deeds generalizing session with
  | nil => exact h
  | cons deed deeds ih => exact ih (opened_perform h deed)

/-- **Literals for the link they are sent on.** Behind any deeds, with whatever server and whatever losses of links, a
request that is run opens links if it has to and then sends itself at most. If no loss is noticed behind the first of
its calls, what it sends goes over the link opened last and is written for the setting that was read when that link was
opened, all its literals escaped for it. -/
theorem literals_for_link (settings : Settings) (server : S) (events : List Event) (deeds : List Deed)
    (request : Request) {losses : List (Option Bool)} (hcalm : some true ∉ losses.tail) :
    let before := performAll settings (fresh (⟨server, []⟩ : Wire S) events) deeds
    ∃ reached own, Prepares settings before reached ∧
      (perform settings before (.execute request losses)).server.log = reached.server.log ++ own ∧
      SentFor settings request reached own := by
  intro before
  have hfresh : Opened settings (fresh (⟨server, []⟩ : Wire S) events) := fun link hlink => by cases hlink
  have hopened : Opened settings before := opened_performAll hfresh deeds
  obtain ⟨-, reached, own, hprepares, hlog, hsent⟩ := execute_sends ⟨before, losses⟩ hopened rfl
  exact ⟨reached, own, hprepares, hlog, hsent hcalm⟩

/-- a server whose first link takes backslashes as plain, and whose second does not -/
def plainFirst : Script :=
  ⟨Settings.defaultPort, [], [(showStandardStrings, [.results [.rows [['s']] [[some "on".toList]] none],
    .results [.rows [['s']] [[some "off".toList]] none]])], [], []⟩

/-- the deletion of what has this text in its column -/
def deletion (t : Text) : Statement :=
  .delete ⟨some (.name ['t'] none), [.predicate .and (.name ['a'] none) ['='] (.text t)]⟩

/-- the text of a deletion with this literal -/
def deletionText (literal : Text) : Text := "DELETE FROM \"t\" WHERE \"a\" = ".toList ++ literal

/-- Run on both links, the second one found behind a loss, a deletion doubles its backslash for the second alone. -/
theorem literals_for_link_twice : some true ∉ [some true].tail ∧
    (let before := performAll toScript (fresh (⟨plainFirst, []⟩ : Wire Script) [])
        [.execute (.statement (deletion ['\\'])) []]
      let after := perform toScript before (.execute (.statement (deletion ['\\'])) [some true])
      perLink after.server.log =
        [[setEncoding, showStandardStrings, deletionText ['\'', '\\', '\\', '\'']],
          [setEncoding, showStandardStrings, deletionText ['\'', '\\', '\'']]] ∧
      ∃ reached own, Prepares toScript before reached ∧ after.server.log = reached.server.log ++ own ∧
        SentFor toScript (.statement (deletion ['\\'])) reached own) :=
  ⟨by decide, by decide +kernel, literals_for_link toScript plainFirst [] _ _ (by decide)⟩

/-- the end of a literal where backslashes are not plain, and a condition that holds of every row -/
def allRows : Text := "\\' OR TRUE --".toList

/-- A deletion that was written over the first link is sent over the second, which reads its literal as a shorter one
and the rest of it as SQL: when the link is lost behind the escape, and when the deletion was made a query on the first
link. Neither is the text that is written for the second link. -/
theorem literals_for_another_link :
    let start := fresh (⟨plainFirst, []⟩ : Wire Script) []
    let written := deletionText "'\\'' OR TRUE --'".toList
    let lost := perform toScript start (.execute (.statement (deletion allRows)) [none, some true])
    let kept := performAll toScript start [.compile (.statement (deletion allRows)) [], .call .disconnect,
      .execute (.query .empty (Query.of .delete written)) []]
    let sent := [[setEncoding, showStandardStrings, written], [setEncoding, showStandardStrings]]
    (perLink lost.server.log = sent ∧ lost.link = some ⟨false, .live⟩) ∧
      (((deletion allRows).toQuery (connection toScript) start).1.toOption.map Query.template = some written ∧
        perLink kept.server.log = sent ∧ kept.link = some ⟨false, .live⟩) ∧
      ((deletion allRows).compile (Connection.onPaper [] false) ()).1.toOption =
        some (deletionText "'\\\\'' OR TRUE --'".toList) := by
  decide +kernel

end Session

end Postgres

end SqlAccess
