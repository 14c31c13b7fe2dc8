/-
What is sent when tables and columns are looked up.

Both lookups write one statement with names as literals and run it: `Sends` says that this statement goes over the link
that can be had, behind what has been sent to have it, and `readTables` and `readColumns` read the literals in it back.
Names are quoted as values are, so one that is made of digits is written as a number. `literals_stand_for_names` says
for every prefix, pattern, schema and table which of the two it is.
-/
import SqlAccess.Postgres.Catalog
import SqlAccess.Proofs.Literal.Reader
import SqlAccess.Proofs.Postgres.InsertId

namespace SqlAccess

namespace Postgres

namespace Session

variable {S : Type} [Server S]

open SqlAccess.Action

/-! ## Statements written and sent -/

/-- What a call sends that writes one statement and runs it: that statement, on the link there is then, behind what has
been sent to have the link. On a link that the server has closed, nothing arrives. -/
structure Sends {α : Type} (link : Link) (before had : Session (Wire S)) (write : Action (Session (Wire S)) Text)
    (call : Action (Session (Wire S)) α) (sql : Text) : Prop where
  written : (write before).1 = .ok sql
  sent : ∃ own, (call before).2.server.log = had.server.log ++ own ∧ opens own = false ∧
    statements own = if link.health = .severed then [] else [sql]

variable {settings : Settings} {before had : Session (Wire S)} {link : Link}

/-- A statement that is run for its rows goes over the link that can be had. -/
theorem fetch_sends (hlink : Ready settings link had before) {sql : Text} (hnul : '\x00' ∉ sql) :
    ∃ own, (Catalog.fetch settings sql before).2.server.log = had.server.log ++ own ∧ opens own = false ∧
      statements own = if link.health = .severed then [] else [sql] := by
  obtain ⟨noted, hnoted, hserver⟩ := theLink_note hlink (.executing settings.name .select sql)
  have hlog : (Catalog.fetch settings sql before).2 = (ask link settings.queryTimeout sql noted).2 := by
    unfold Catalog.fetch
    rw [state_bind fun outcome state => rfl, execute_eq, bind_of_ok hnoted]
    exact state_bind (fun answer state => rfl) _ _
  rw [hlog, ← hserver]
  by_cases hsevered : link.health = .severed
  · refine ⟨[], ?_, rfl, (if_pos hsevered).symm⟩
    rw [ask, if_neg hnul, if_pos hsevered, List.append_nil]
  · refine ⟨_, ask_log hsevered _ hnul noted, opens_exchanged _ _, ?_⟩
    rw [statements_exchanged, if_neg hsevered]

/-- A call sends what it writes, if that holds no NUL. -/
theorem sends_of_gives {α : Type} {write : Action (Session (Wire S)) Text} {sql : Text}
    {finish : Cursor RowSet → Action (Session (Wire S)) α} (hlink : Ready settings link had before)
    (hwrite : Gives (Ready settings link had) write (some sql)) (hnul : '\x00' ∉ sql)
    (hfinish : ∀ cursor, Keeps id (finish cursor)) :
    Sends link before had write (write >>= fun sql => Catalog.fetch settings sql >>= finish) sql := by
  obtain ⟨ready, hrun, hready⟩ := gives_some.1 hwrite before hlink
  refine ⟨congrArg Prod.fst hrun, ?_⟩
  rw [bind_of_ok hrun, state_bind hfinish]
  exact fetch_sends hready hnul

end Session

namespace Catalog

open SqlAccess.Action

/-! ## Reading the statements -/

/-- how a statement for the names of tables begins, up to the literal that they are matched with -/
def tablesFront : Text :=
  "SELECT table_name FROM information_schema.tables WHERE table_schema = current_schema()" ++ " AND table_name LIKE "

/-- how a statement for the columns of a table begins, up to the schema -/
def columnsFront : Text :=
  "SELECT column_name, data_type, is_nullable, column_default, ordinal_position FROM information_schema.columns " ++
    "WHERE table_schema = "

/-- the literal that the names of tables are matched with -/
def readTables (standard : Bool) (sql : Text) : Option Literal := do
  let (literal, rest) ← (sql.dropPrefix? tablesFront).bind (Literal.readOne standard)
  if rest = " ORDER BY table_name" then some literal else none

/-- the literal that a schema is compared with, or none for the current one, and what follows it -/
def readSchema (standard : Bool) (s : Text) : Option (Option Literal × Text) :=
  match Literal.readOne standard s with
  | some (literal, rest) => some (some literal, rest)
  | none => (s.dropPrefix? (Text.lit "current_schema()")).map fun rest => (none, rest)

/-- the literals that the schema and the name of a table are compared with -/
def readColumns (standard : Bool) (sql : Text) : Option (Option Literal × Literal) := do
  let (schema, rest) ← (sql.dropPrefix? columnsFront).bind (readSchema standard)
  let (table, rest) ← (rest.dropPrefix? (Text.lit " AND table_name = ")).bind (Literal.readOne standard)
  if rest = " ORDER BY ordinal_position" then some (schema, table) else none

theorem dropPrefix?_append (front rest : Text) : (front ++ rest).dropPrefix? front = some rest :=
  List.dropPrefix?_append_of_beq rest (beq_self_eq_true front)

/-- The current schema is none that a literal says. -/
theorem readSchema_current (standard : Bool) (rest : Text) :
    readSchema standard ("current_schema()" ++ rest) = some (none, rest) := by
  have hword : Literal.readOne standard ("current_schema()" ++ rest) = none := by
    simp [Literal.readOne, Literal.readWord, Text.lit_eq]
  rw [readSchema, hword]
  simp only [dropPrefix?_append, Option.map_some]

/-! ## The statements as they are written -/

/-- the statement for the names of tables, matched with this text -/
def tablesText (standard : Bool) (t : Text) : Text :=
  tablesFront ++ (Value.text t).literal standard ++ " ORDER BY table_name"

/-- a schema as a literal, or the current one -/
def schemaText (standard : Bool) : Option Text → Text
  | some schema => (Value.text schema).literal standard
  | none => "current_schema()"

/-- the statement for the columns of the table with this name in this schema -/
def columnsText (standard : Bool) (schema : Option Text) (table : Text) : Text :=
  columnsFront ++ schemaText standard schema ++ " AND table_name = " ++ (Value.text table).literal standard ++
    " ORDER BY ordinal_position"

/-- A literal is read up to the blank behind it. -/
theorem readOne_blank (standard : Bool) (t : Text) {rest : Text} (hblank : rest.head? = some ' ') :
    Literal.readOne standard ((Value.text t).literal standard ++ rest) = some (.ofText t, rest) :=
  Literal.readOne_text standard t (by rw [hblank]; decide) (by simp [hblank])

theorem readTables_tablesText (standard : Bool) (t : Text) :
    readTables standard (tablesText standard t) = some (.ofText t) := by
  have hblank : (Text.lit " ORDER BY table_name").head? = some ' ' := by decide +kernel
  rw [tablesText, List.append_assoc, readTables, dropPrefix?_append, Option.bind_some, readOne_blank standard t hblank]
  exact if_pos rfl

theorem readSchema_schemaText (standard : Bool) (schema : Option Text) {rest : Text} (hblank : rest.head? = some ' ') :
    readSchema standard (schemaText standard schema ++ rest) = some (schema.map .ofText, rest) := by
  cases schema with
  | none => exact readSchema_current standard rest
  | some schema =>
    rw [readSchema, schemaText, readOne_blank standard schema hblank]
    rfl

theorem readColumns_columnsText (standard : Bool) (schema : Option Text) (table : Text) :
    readColumns standard (columnsText standard schema table) = some (schema.map .ofText, .ofText table) := by
  let behind : Text := (Value.text table).literal standard ++ " ORDER BY ordinal_position"
  have hblank : (Text.lit " ORDER BY ordinal_position").head? = some ' ' := by decide +kernel
  have hand : (Text.lit " AND table_name = " ++ behind).head? = some ' ' := by simp [Text.lit_eq]
  have htext : columnsText standard schema table =
      columnsFront ++ (schemaText standard schema ++ (" AND table_name = " ++ behind)) := by
    simp only [columnsText, behind, List.append_assoc]
  rw [htext, readColumns, dropPrefix?_append, Option.bind_some, readSchema_schemaText standard schema hand]
  change ((List.dropPrefix? _ _).bind _ >>= _) = _
  rw [dropPrefix?_append, Option.bind_some, readOne_blank standard table hblank]
  exact if_pos rfl

theorem nul_not_mem_literal {t : Text} (hnul : '\x00' ∉ t) (standard : Bool) :
    '\x00' ∉ (Value.text t).literal standard := by
  rw [Value.literal]
  split
  · exact hnul
  · simp [Session.escapeLiteral, Text.mem_doubled, hnul]

theorem nul_not_mem_tablesText {t : Text} (hnul : '\x00' ∉ t) (standard : Bool) : '\x00' ∉ tablesText standard t := by
  have hfront : '\x00' ∉ tablesFront := by decide +kernel
  have horder : '\x00' ∉ Text.lit " ORDER BY table_name" := by decide +kernel
  simp [tablesText, hfront, nul_not_mem_literal hnul, horder]

theorem nul_not_mem_columnsText {schema : Option Text} {table : Text} (hschema : ∀ s ∈ schema, '\x00' ∉ s)
    (htable : '\x00' ∉ table) (standard : Bool) : '\x00' ∉ columnsText standard schema table := by
  have hwritten : '\x00' ∉ schemaText standard schema := by
    cases schema with
    | none =>
      rw [schemaText]
      decide +kernel
    | some schema => exact nul_not_mem_literal (hschema schema rfl) standard
  have hfront : '\x00' ∉ columnsFront := by decide +kernel
  have hand : '\x00' ∉ Text.lit " AND table_name = " := by decide +kernel
  have horder : '\x00' ∉ Text.lit " ORDER BY ordinal_position" := by decide +kernel
  simp [columnsText, hfront, hwritten, hand, nul_not_mem_literal htable, horder]

/-! ## What is sent -/

section Sent

variable [Server S] {settings : Settings} {before had : Session (Wire S)} {link : Link}

/-- A text is quoted for the link that can be had. -/
theorem gives_quoteText (had : Session S) {t : Text} (hnul : '\x00' ∉ t) :
    Gives (Session.Ready settings link had) ((Session.connection settings).quoteText t)
      (some ((Value.text t).literal link.standardStrings)) := by
  have hwritten : (Value.text t).written? link.standardStrings = some ((Value.text t).literal link.standardStrings) := by
    simp [Value.written?, Value.leaves, Value.writable, Value.written, hnul]
  rw [← hwritten]
  exact Connection.gives_quoteText (Session.escapes_ready settings link had) t

/-- A text with NUL is refused before anything is done. -/
theorem quoteText_of_nul (settings : Settings) {t : Text} (hnul : '\x00' ∈ t) (session : Session S) :
    (Session.connection settings).quoteText t session = (.error (.validation .nulForServer), session) := by
  have hescape : (Session.connection settings).escape t session = (.error (.validation .nulForServer), session) := by
    change Session.escape settings t session = _
    rw [Session.escape, if_pos hnul]
    rfl
  rw [Connection.quoteText, if_neg (Bool.eq_false_iff.1 (Text.not_isDigits_of_mem hnul (by decide)))]
  exact bind_of_error hescape

/-- Tables are looked up with one literal, of the prefix and the pattern. -/
theorem tables_sends (hlink : Session.Ready settings link had before) {pattern : Text}
    (hnul : '\x00' ∉ settings.tablePrefix ++ pattern) :
    Session.Sends link before had (tablesSql settings (some pattern)) (tables settings (some pattern))
      (tablesText link.standardStrings (settings.tablePrefix ++ pattern)) := by
  refine Session.sends_of_gives hlink ?_ (nul_not_mem_tablesText hnul _) fun cursor => ?_
  · exact (gives_quoteText had hnul).bind fun literal _ => Gives.pure _
  · exact state_bind (fun names state => rfl) _

/-- Columns are looked up with the literal of the prefix and the table, and that of the schema if one is given. -/
theorem columns_sends (hlink : Session.Ready settings link had before) {name table : Text} {schema : Option Text}
    (hname : schemaAndTable name = (schema, table)) (hschema : ∀ s ∈ schema, '\x00' ∉ s)
    (htable : '\x00' ∉ settings.tablePrefix ++ table) :
    Session.Sends link before had (columnsSql settings name) (columns settings name)
      (columnsText link.standardStrings schema (settings.tablePrefix ++ table)) := by
  refine Session.sends_of_gives hlink ?_ (nul_not_mem_columnsText hschema htable _) fun cursor state => rfl
  unfold columnsSql
  rw [hname]
  cases schema with
  | none => exact (gives_quoteText had htable).bind fun literal _ => Gives.pure _
  | some schema =>
    exact (gives_quoteText had (hschema schema rfl)).bind fun written _ =>
      (gives_quoteText had htable).bind fun literal _ => Gives.pure _

end Sent

/-! ## What is compared -/

/-- the name of a table, in a schema or alone -/
def qualified : Option Text → Text → Text
  | some schema, table => schema ++ '.' :: table
  | none, table => table

theorem schemaAndTable_qualified (schema : Option Text) {table : Text} (h : '.' ∉ table) :
    schemaAndTable (qualified schema table) = (schema, table) := by
  cases schema with
  | none => rw [qualified, schemaAndTable, Text.splitLast_of_not_mem h]
  | some schema => rw [qualified, schemaAndTable, Text.splitLast_append h]

/-- A literal stands for a text: it is the string that says the text, except that a text of digits is a number. -/
structure StandsFor (literal : Literal) (t : Text) : Prop where
  string : literal = .string t ↔ t.isDigits = false
  number : t.isDigits = true → literal = .number false t

theorem standsFor_ofText (t : Text) : StandsFor (.ofText t) t where
  string := by simp [Literal.ofText_eq_string_iff]
  number h := if_pos h

/-- **When a looked-up name is a string.** On any link that can be had, tables are matched with one literal that stands
for the prefix and the pattern, and columns with one for the schema that is given and one for the prefix and the table.
The literal is the string that says this text if and only if the text is not made of digits. -/
theorem literals_stand_for_names [Server S] {settings : Settings} {before had : Session (Wire S)} {link : Link}
    (hlink : Session.theLink settings before = (.ok link, had)) (hlead : '\x00' ∉ settings.tablePrefix) :
    (∀ pattern, '\x00' ∉ pattern → ∃ sql literal,
      Session.Sends link before had (tablesSql settings (some pattern)) (tables settings (some pattern)) sql ∧
      readTables link.standardStrings sql = some literal ∧ StandsFor literal (settings.tablePrefix ++ pattern)) ∧
    ∀ schema table, (∀ s ∈ schema, '\x00' ∉ s) → '\x00' ∉ table → '.' ∉ table → ∃ sql schemaLiteral literal,
      Session.Sends link before had (columnsSql settings (qualified schema table))
        (columns settings (qualified schema table)) sql ∧
      readColumns link.standardStrings sql = some (schemaLiteral, literal) ∧
      Option.Rel StandsFor schemaLiteral schema ∧ StandsFor literal (settings.tablePrefix ++ table) := by
  constructor
  · intro pattern hpattern
    have hnul : '\x00' ∉ settings.tablePrefix ++ pattern := by simp [hlead, hpattern]
    exact ⟨_, _, tables_sends hlink hnul, readTables_tablesText _ _, standsFor_ofText _⟩
  · intro schema table hschema htable hdot
    have hnul : '\x00' ∉ settings.tablePrefix ++ table := by simp [hlead, htable]
    refine ⟨_, _, _, columns_sends hlink (schemaAndTable_qualified schema hdot) hschema hnul,
      readColumns_columnsText _ _ _, ?_, standsFor_ofText _⟩
    cases schema with
    | none => exact .none
    | some schema => exact .some (standsFor_ofText schema)

/-- a live link to a script that says all is well -/
def onScript (standard : Bool) : Session (Wire Script) :=
  ⟨some ⟨standard, .live⟩, ⟨⟨Settings.defaultPort, [], [], [], []⟩, []⟩, []⟩

/-- the settings of a connection to a script, with a table prefix -/
def prefixed : Settings := { Session.toScript with tablePrefix := "app_" }

/-- With a prefix of letters, digits are part of a string. A quote and a dot are part of it, too. -/
theorem literals_stand_for_names_prefixed :
    (∃ sql, statements (tables prefixed (some "2024") (onScript true)).2.server.log = [sql] ∧
      readTables true sql = some (.string "app_2024")) ∧
    ∃ sql, statements (columns prefixed "a.b.it's" (onScript false)).2.server.log = [sql] ∧
      readColumns false sql = some (some (.string "a.b"), .string "app_it's") := by
  have hlink (standard : Bool) :
      Session.theLink prefixed (onScript standard) = (.ok ⟨standard, .live⟩, onScript standard) :=
    Session.theLink_of_held prefixed rfl nofun
  have hlead : '\x00' ∉ prefixed.tablePrefix := by decide +kernel
  constructor
  · obtain ⟨sql, literal, ⟨-, own, hlog, -, hown⟩, hread, hliteral⟩ :=
      (literals_stand_for_names (hlink true) hlead).1 "2024" (by decide +kernel)
    have hstring : literal = .string "app_2024" := (hliteral.string.2 (by decide +kernel)).trans (by decide +kernel)
    exact ⟨sql, by rw [hlog]; exact hown, by rw [hread, hstring]⟩
  · obtain ⟨sql, schemaLiteral, literal, ⟨-, own, hlog, -, hown⟩, hread, hschema, hliteral⟩ :=
      (literals_stand_for_names (hlink false) hlead).2 (some "a.b") "it's" (by decide +kernel) (by decide +kernel)
        (by decide +kernel)
    have hname : qualified (some "a.b") "it's" = "a.b.it's" := by decide +kernel
    have hstring : literal = .string "app_it's" := (hliteral.string.2 (by decide +kernel)).trans (by decide +kernel)
    cases hschema with
    | some hfirst =>
      have hfirst' := hfirst.string.2 (by decide +kernel)
      rw [hname] at hlog
      exact ⟨sql, by rw [hlog]; exact hown, by rw [hread, hstring, hfirst']⟩

/-- Without a prefix, a pattern of digits is sent as a number and not as the string that says it, and so is a schema of
digits whatever the prefix. -/
theorem digits_stand_as_numbers :
    let tablesSent := statements (tables Session.toScript (some "2024") (onScript true)).2.server.log
    let columnsSent := statements (columns prefixed "5.6" (onScript true)).2.server.log
    tablesSent = [tablesFront ++ "2024 ORDER BY table_name"] ∧
      tablesSent.map (readTables true) ≠ [some (.string "2024")] ∧
      columnsSent.map (readColumns true) = [some (some (.number false "5"), .string "app_6")] ∧
      columnsSent.map (readColumns true) ≠ [some (some (.string "5"), .string "app_6")] := by
  intro tablesSent columnsSent
  have htables : tablesSent = [tablesFront ++ "2024 ORDER BY table_name"] := by decide +kernel
  have hcolumns : columnsSent.map (readColumns true) = [some (some (.number false "5"), .string "app_6")] := by
    decide +kernel
  refine ⟨htables, ?_, hcolumns, ?_⟩
  · rw [htables]
    decide +kernel
  · rw [hcolumns]
    decide +kernel

end Catalog

end Postgres

end SqlAccess
