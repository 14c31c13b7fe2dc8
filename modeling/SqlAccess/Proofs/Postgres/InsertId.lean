/-
The id of an insert, and when the server is asked for the last one it gave out.

An insert is sent and answered like any statement; its id is then the first value of the first row that came back, or
the last value of the server's sequences. `OwnId` says what keeps the id from being another insert's: the sequences are
asked only when no row came back and exactly one went in. A row whose first value is NULL looks like no row at all
(`RowSet.firstValue?`), so with one affected row the sequences are asked behind it: `insert_id_iff` says that an
answered insert has its own id exactly when its answer is not such a row.
-/
import SqlAccess.Proofs.Postgres.Link
import SqlAccess.Proofs.Postgres.Rows

namespace SqlAccess

namespace Postgres

def Message.values? : Message → Option (List (Option Text))
  | .row values => some values
  | _ => none

namespace Session

/-! ## What an answered statement has brought -/

/-- What has been gathered are all rows of the messages and the count given last. -/
theorem gathered_of_foldlM {sql : Text} {messages : List Message} {set set' : RowSet} {count count' : Nat}
    (h : messages.foldlM (collectMessage sql) (set, count) = .ok (set', count')) :
    set'.rows = set.rows ++ messages.filterMap Message.values? ∧ count' = Message.lastCount count messages := by
  induction messages generalizing set count with
  | nil =>
    cases h
    exact ⟨by simp, rfl⟩
  | cons message messages ih =>
    rw [List.foldlM_cons] at h
    cases message with
    | columns names =>
      have hrest : messages.foldlM (collectMessage sql) ({ set with columns := names }, count) =
        .ok (set', count') := h
      have hgathered := ih hrest
      exact hgathered
    | complete n =>
      have hrest : messages.foldlM (collectMessage sql) (set, n) = .ok (set', count') := h
      exact ih hrest
    | refused code text => cases h
    | row values =>
      rw [collectMessage] at h
      split at h
      · obtain ⟨hrows, hcount⟩ := ih h
        exact ⟨by rw [hrows, List.append_assoc]; rfl, hcount⟩
      · cases h

theorem gathered_of_collect {sql : Text} {messages : List Message} {set : RowSet} {count : Nat}
    (h : collect sql messages = .ok (set, count)) :
    set.rows = messages.filterMap Message.values? ∧ count = Message.lastCount 0 messages := gathered_of_foldlM h

variable {S : Type} [Server S]

/-- A statement that is answered was answered with messages that could be gathered, on a link that was not severed. -/
theorem ask_eq_ok {link : Link} {limit : Option Duration} {sql : Text} {session session' : Session S} {set : RowSet}
    {count : Nat} (h : ask link limit sql session = (.ok (set, count), session')) :
    link.health ≠ .severed ∧ ∃ late messages, (Server.answer sql session.server).1 = ⟨late, .messages messages⟩ ∧
      collect sql messages = .ok (set, count) := by
  unfold ask at h
  split at h
  · cases h
  · rename_i hnul
    split at h
    · cases h
    · rename_i hsevered
      refine ⟨hsevered, ?_⟩
      rcases hanswer : Server.answer sql session.server with ⟨⟨late, reply⟩, server⟩
      simp only [exchange, if_neg hnul, hanswer] at h
      split at h
      · cases h
      · cases h
      · rename_i messages _
        obtain ⟨hcollect, -⟩ := Prod.mk.inj h
        exact ⟨late, messages, rfl, hcollect⟩
      · cases h

/-- A statement without NUL goes over a link that is not severed, whatever becomes of it. -/
theorem ask_log {link : Link} (hsevered : link.health ≠ .severed) (limit : Option Duration) {sql : Text}
    (hnul : '\x00' ∉ sql) (session : Session (Wire S)) : (ask link limit sql session).2.server.log =
      session.server.log ++ exchanged sql (Server.answer sql session.server).1.reply := by
  have hlog := Wire.log_answer sql session.server
  rcases hanswer : Server.answer sql session.server with ⟨⟨late, reply⟩, server⟩
  rw [hanswer] at hlog
  simp only [ask, if_neg hnul, if_neg hsevered, exchange, hanswer]
  split <;> exact hlog

/-! ## Where the id comes from -/

/-- the id that the server's last value gives: none where it fails to tell one, or tells no number -/
def lastId : Except Error (RowSet × Nat) → Option Int
  | .ok (set, _) => set.firstValue?.bind id?
  | .error _ => none

/-- The last value is asked for, and a failure to tell it does not make the insert fail. -/
theorem lastInsertId_asks (settings : Settings) {link : Link} (hsevered : link.health ≠ .severed)
    (session : Session (Wire S)) : ∃ after signals,
      lastInsertId settings link session = (.ok (lastId (ask link none lastValue session).1), after) ∧
      after.server.log = session.server.log ++ signals ∧ statements signals = [lastValue] := by
  have hnul : '\x00' ∉ lastValue := by decide +kernel
  have hlog := ask_log hsevered none hnul session
  rcases hask : ask link none lastValue session with ⟨answer, asked⟩
  rw [hask] at hlog
  cases answer with
  | ok answer =>
    refine ⟨asked, _, ?_, hlog, statements_exchanged _ _⟩
    simp only [lastInsertId, hask, lastId]
  | error e =>
    refine ⟨asked.note (.noInsertId settings.name e.message), _, ?_, hlog, statements_exchanged _ _⟩
    simp only [lastInsertId, hask, lastId]

/-- Where the id of an answered insert may come from, given the rows and the count of the answer, what was sent behind
it, and what the server told or would tell as its last value. -/
structure OwnId (rows : List (List (Option Text))) (affected : Nat) (sent : List Text)
    (last : Except Error (RowSet × Nat)) (id : Option Int) : Prop where
  /-- the last value is asked for where no row came back and exactly one went in -/
  asks : lastValue ∈ sent ↔ rows = [] ∧ affected = 1
  /-- the first value of the first row is the id if it is one -/
  returned : ∀ row others, rows = row :: others → id = row.head?.join.bind id?
  /-- without a row, there is no id where not exactly one row went in -/
  unknown : rows = [] → affected ≠ 1 → id = none
  /-- without a row, the last value is the id of the one row that went in -/
  last : rows = [] → affected = 1 → id = lastId last

section OwnId

variable {row : List (Option Text)} {others : List (List (Option Text))} {affected : Nat} {sent : List Text}
  {last : Except Error (RowSet × Nat)} {id : Option Int}

/-- Behind a row nothing is asked for, and the first value is the id. -/
theorem OwnId.of_row (hid : id = row.head?.join.bind id?) : OwnId (row :: others) affected [] last id where
  asks := iff_of_false List.not_mem_nil nofun
  returned first rest hfirst := by
    cases hfirst
    exact hid
  unknown := nofun
  last := nofun

/-- Where nothing came back for one row that went in, the last value is asked for. -/
theorem OwnId.of_last (hasked : lastValue ∈ sent) : OwnId [] 1 sent last (lastId last) where
  asks := iff_of_true hasked ⟨rfl, rfl⟩
  returned := nofun
  unknown _ hnone := absurd rfl hnone
  last _ _ := rfl

/-- Where nothing came back and not exactly one row went in, nothing is asked for. -/
theorem OwnId.of_unknown (hnone : affected ≠ 1) : OwnId [] affected [] last none where
  asks := iff_of_false List.not_mem_nil fun h => hnone h.2
  returned := nofun
  unknown _ _ := rfl
  last _ hone := absurd hone hnone

end OwnId

/-- a row came back without a first value, as if none had come -/
def Unnumbered (rows : List (List (Option Text))) : Prop := ∃ row others, rows = row :: others ∧ row.head?.join = none

/-- The id of an insert is its own, except behind one row that went in and came back without a first value. -/
theorem insertId_own_iff (settings : Settings) {link : Link} (hsevered : link.health ≠ .severed) (set : RowSet)
    (affected : Nat) (session : Session (Wire S)) : ∃ id after signals,
      insertId settings link set affected session = (.ok id, after) ∧
      after.server.log = session.server.log ++ signals ∧
      (OwnId set.rows affected (statements signals) (ask link none lastValue session).1 id ↔
        ¬(affected = 1 ∧ Unnumbered set.rows)) := by
  obtain ⟨asked, signals, hasks, hlog, hsent⟩ := lastInsertId_asks settings hsevered session
  have hasked : lastValue ∈ statements signals := hsent ▸ List.mem_singleton_self _
  have hquiet : session.server.log = session.server.log ++ [] := (List.append_nil _).symm
  rcases hrows : set.rows with _ | ⟨row, others⟩
  · have hvalue : set.firstValue? = none := by simp [RowSet.firstValue?, hrows]
    have hnumbered : ¬(affected = 1 ∧ Unnumbered []) := fun h => by simp [Unnumbered] at h
    by_cases hone : affected = 1
    · subst hone
      refine ⟨_, asked, signals, ?_, hlog, iff_of_true (.of_last hasked) hnumbered⟩
      simp only [insertId, hvalue, idSource, if_pos, hasks]
    · refine ⟨none, session, [], ?_, hquiet, iff_of_true (.of_unknown hone) hnumbered⟩
      simp only [insertId, hvalue, idSource, if_neg hone]
      rfl
  · have hvalue : set.firstValue? = row.head?.join := by simp [RowSet.firstValue?, hrows]
    cases hfirst : row.head?.join with
    | some value =>
      have hnumbered : ¬(affected = 1 ∧ Unnumbered (row :: others)) := by
        rintro ⟨-, first, rest, hrow, hnone⟩
        cases hrow
        cases hfirst.symm.trans hnone
      refine ⟨id? value, session, [], ?_, hquiet, iff_of_true (.of_row (by rw [hfirst]; rfl)) hnumbered⟩
      simp only [insertId, hvalue, hfirst, idSource]
      rfl
    | none =>
      by_cases hone : affected = 1
      · -- the NULL counts as no row, so the last value is asked for all the same
        refine ⟨lastId (ask link none lastValue session).1, asked, signals, ?_, hlog,
          iff_of_false (fun h => ?_) (not_not.2 ⟨hone, row, others, rfl, hfirst⟩)⟩
        · simp only [insertId, hvalue, hfirst, idSource, if_pos hone, hasks]
        · cases (h.asks.1 hasked).1
      · refine ⟨none, session, [], ?_, hquiet,
          iff_of_true (.of_row (by rw [hfirst]; rfl)) fun h => hone h.1⟩
        simp only [insertId, hvalue, hfirst, idSource, if_neg hone]
        rfl

/-- **Where the id of an insert comes from.** An insert on a link fails as its statement does, and nothing is sent
behind it. Where the statement is answered the insert goes through, with the count the answer gives last, and its id
is the one that `OwnId` allows if and only if the answer is not one row gone in and come back without a first value. -/
theorem insert_id_iff {settings : Settings} {sql : Text} {before reached : Session (Wire S)} {link : Link}
    (hlink : theLink settings (before.note (.executing settings.name .insert sql)) = (.ok link, reached)) :
    (∀ e failed, ask link settings.queryTimeout sql reached = (.error e, failed) →
      execute settings .insert sql before = (.error e, failed)) ∧
    ∀ set affected answered, ask link settings.queryTimeout sql reached = (.ok (set, affected), answered) →
      ∃ late messages id after signals,
        (Server.answer sql reached.server).1 = ⟨late, .messages messages⟩ ∧
        affected = Message.lastCount 0 messages ∧
        execute settings .insert sql before = (.ok (.receipt (.inserted id affected)), after) ∧
        after.server.log = answered.server.log ++ signals ∧
        (OwnId (messages.filterMap Message.values?) affected (statements signals)
            (ask link none lastValue answered).1 id ↔
          ¬(affected = 1 ∧ Unnumbered (messages.filterMap Message.values?))) := by
  have hexecute : execute settings .insert sql before = _ := (execute_eq ..).trans (Action.bind_of_ok hlink)
  constructor
  · intro e failed hask
    rw [hexecute, Action.bind_of_error hask]
  · intro set affected answered hask
    obtain ⟨hsevered, late, messages, hanswer, hcollect⟩ := ask_eq_ok hask
    obtain ⟨hrows, hcount⟩ := gathered_of_collect hcollect
    obtain ⟨id, after, signals, hid, hlog, hown⟩ := insertId_own_iff settings hsevered set affected answered
    refine ⟨late, messages, id, after, signals, hanswer, hcount, ?_, hlog, hrows ▸ hown⟩
    rw [hexecute, Action.bind_of_ok hask]
    exact Action.bind_of_ok hid

/-- on a held link, a server that answers an insert with this result, and then tells 41 as its last value -/
def answersInsert (result : Script.Result) : Session (Wire Script) :=
  ⟨some ⟨true, .live⟩, ⟨⟨Settings.defaultPort, [], [(['I'], [.results [result]]),
    (lastValue, [.results [.rows [['v']] [[some ['4', '1']]] none]])], [], []⟩, []⟩, []⟩

/-- What was asked for back is 7, in the first of two rows, and the last value is not asked for. -/
theorem insert_id_returned : ∃ after signals,
    execute toScript .insert ['I'] (answersInsert (.rows [['n']] [[some ['7']], [none]] (some ['1']))) =
      (.ok (.receipt (.inserted (some 7) 1)), after) ∧
    after.server.log = .statement ['I'] :: signals ∧ lastValue ∉ statements signals := by
  let before := answersInsert (.rows [['n']] [[some ['7']], [none]] (some ['1']))
  let noted := before.note (.executing toScript.name .insert ['I'])
  have hlink : theLink toScript noted = (.ok ⟨true, .live⟩, noted) := theLink_of_held toScript rfl (by decide)
  obtain ⟨late, messages, id, after, signals, hanswer, -, hexecute, hlog, hown⟩ :=
    (insert_id_iff hlink).2 ⟨[['n']], [[some ['7']], [none]]⟩ 1 _ rfl
  cases hanswer
  have hid := hown.2 (by rintro ⟨-, row, others, hrow, hfirst⟩; cases hrow; cases hfirst)
  have hseven : id = some 7 := hid.returned _ _ rfl
  refine ⟨after, signals, hseven ▸ hexecute, hlog, fun hasked => ?_⟩
  cases (hid.asks.1 hasked).1

/-- The row that went in has come back as NULL: the last value is asked for, and becomes the id. -/
theorem insert_id_behind_null :
    let (answer, after) := execute toScript .insert ['I'] (answersInsert (.rows [['n']] [[none]] (some ['1'])))
    answer.toOption.map (fun outcome => (outcome.insertId, outcome.affected)) = some (some 41, 1) ∧
      after.server.log = [.statement ['I'], .statement lastValue] ∧
      ¬ OwnId [[none]] 1 (statements [.statement lastValue]) (.ok (⟨[['v']], [[some ['4', '1']]]⟩, 0)) (some 41) := by
  refine ⟨by decide +kernel, by decide +kernel, fun hown => ?_⟩
  cases (hown.asks.1 (List.mem_singleton_self _)).1

end Session

end Postgres

end SqlAccess
