/-
The table whose columns are looked up.

A table is rendered from the parts of its path, and its columns are looked up by what stands before and after the last
dot of the same text. `Path.schemaAndTable?` are the names that one or two parts stand for. A part in quotes is rendered
as the name between them and looked up with them, so the two agree on bare names alone: `columns_of_table_iff`.
-/
import SqlAccess.Proofs.Identifier.Reference
import SqlAccess.Proofs.Postgres.Catalog

namespace SqlAccess

/-! ## Names and how they are written -/

theorem Part.length_name_le {part : Part} (h : part ≠ .star) :
    part.name.length ≤ part.write.length ∧ (part.write.length = part.name.length ↔ ¬part.IsQuoted) := by
  cases part with
  | star => exact absurd rfl h
  | bare name => exact ⟨Nat.le_refl _, iff_of_true rfl id⟩
  | quoted name =>
    have hdoubled := Text.length_le_doubled (· == '"') name
    have hlength : (Part.quoted name).write.length = (Text.doubled (· == '"') name).length + 2 := by
      simp [Part.write, delimited]
    rw [hlength]
    exact ⟨by simp only [Part.name]; omega, iff_of_false (by simp only [Part.name]; omega) (not_not.2 trivial)⟩

theorem Part.head_write {part : Part} (h : part.WellFormed) : ∃ c rest, part.write = c :: rest ∧ c.isDigit = false := by
  cases part with
  | star => exact ⟨'*', [], rfl, by decide⟩
  | quoted name => exact ⟨'"', _, rfl, by decide⟩
  | bare name =>
    cases name with
    | nil => exact h.elim
    | cons c rest =>
      refine ⟨c, rest, rfl, ?_⟩
      have hstart : c.isAlpha = true ∨ c = '_' := by simpa [Text.isNameStart] using h.1
      rcases hstart with halpha | rfl
      · exact Bool.eq_false_iff.2 (Text.not_isDigit_of_isAlpha halpha)
      · decide

namespace Path

theorem head_write {path : Path} (h : path.WellFormed) : ∃ c rest, path.write = c :: rest ∧ c.isDigit = false := by
  obtain ⟨hne, hall, -⟩ := h
  obtain ⟨first, others, rfl⟩ := List.exists_cons_of_ne_nil hne
  obtain ⟨c, rest, hfirst, hc⟩ := Part.head_write (hall first List.mem_cons_self)
  cases others with
  | nil => exact ⟨c, rest, hfirst, hc⟩
  | cons second others =>
    refine ⟨c, rest ++ '.' :: write (second :: others), ?_, hc⟩
    rw [write_cons first (List.cons_ne_nil _ _), hfirst, List.cons_append]

/-- the schema and the table that one or two parts name -/
def schemaAndTable? : Path → Option (Option Text × Text)
  | [table] => some (none, table.name)
  | [schema, table] => some (some schema.name, table.name)
  | _ => none

/-- Requoted, the parts name the same schema, and the table with the prefix in front. -/
theorem schemaAndTable?_requoted {path : Path} (hstar : .star ∉ path) (tablePrefix : Text) :
    (path.requoted tablePrefix 1).schemaAndTable? =
      path.schemaAndTable?.map fun (schema, table) => (schema, tablePrefix ++ table) := by
  match path with
  | [] => rfl
  | [table] =>
    have htable : table ≠ .star := fun h => hstar (by simp [h])
    simp [requoted, schemaAndTable?, Part.requoted_of_ne_star htable, Part.name]
  | [schema, table] =>
    have hschema : schema ≠ .star := fun h => hstar (by simp [h])
    have htable : table ≠ .star := fun h => hstar (by simp [h])
    simp [requoted, schemaAndTable?, Part.requoted_of_ne_star hschema, Part.requoted_of_ne_star htable, Part.name]
  | first :: second :: third :: others => simp [requoted, schemaAndTable?]

end Path

namespace Postgres

namespace Catalog

/-! ## What a written path is split into -/

theorem qualified_of_schemaAndTable {name table : Text} {schema : Option Text}
    (h : schemaAndTable name = (schema, table)) : name = qualified schema table := by
  by_cases hdot : '.' ∈ name
  · obtain ⟨before, after, hname, hsplit⟩ := Text.exists_splitLast hdot
    rw [schemaAndTable, hsplit] at h
    cases h
    exact hname
  · rw [schemaAndTable, Text.splitLast_of_not_mem hdot] at h
    cases h
    rfl

section Split

variable {parts : Path} {schema : Option Text} {table : Text}

/-- One or two parts are written as a table that may be in a schema. -/
theorem write_eq_qualified (hne : parts ≠ []) (hlength : parts.length ≤ 2) :
    ∃ (front : Option Part) (last : Part), parts = front.toList ++ [last] ∧
      parts.write = qualified (front.map Part.write) last.write ∧
      parts.schemaAndTable? = some (front.map Part.name, last.name) := by
  match parts with
  | [] => exact absurd rfl hne
  | [last] => exact ⟨none, last, rfl, rfl, rfl⟩
  | [front, last] => exact ⟨some front, last, rfl, by simp [Path.write, qualified], rfl⟩
  | first :: second :: third :: others =>
    simp only [List.length_cons] at hlength
    omega

/-- What stands behind the last dot is not made of digits, whatever stands in front of it. -/
theorem exists_not_digit {front : Option Text} {last : Part} (hlast : last.WellFormed) (hstar : last ≠ .star)
    (h : schemaAndTable (qualified front last.write) = (schema, table)) : ∃ c ∈ table, c.isDigit = false := by
  cases last with
  | star => exact absurd rfl hstar
  | bare name =>
    have hdot : '.' ∉ name := Part.not_mem_of_isBareName hlast (by decide)
    rw [Part.write, schemaAndTable_qualified front hdot] at h
    cases h
    have hbare : (Part.bare table).WellFormed := hlast
    obtain ⟨c, rest, hname, hc⟩ := Part.head_write hbare
    have htable : table = c :: rest := hname
    exact ⟨c, htable ▸ List.mem_cons_self, hc⟩
  | quoted name =>
    -- the text ends in the closing quote
    have hsame := qualified_of_schemaAndTable h
    have hlast? : (qualified front (Part.quoted name).write).getLast? = some '"' := by
      cases front <;> simp [qualified, Part.write, delimited, List.getLast?_cons]
    rw [hsame] at hlast?
    refine ⟨'"', ?_, by decide⟩
    cases schema with
    | none => exact List.mem_of_getLast? hlast?
    | some schema =>
      rw [qualified, List.getLast?_append_cons] at hlast?
      have hmem := List.mem_of_getLast? hlast?
      simpa using hmem

/-- Neither half of a written path of one or two parts is made of digits. -/
theorem strings_of_split (hparts : parts.WellFormed) (hstar : .star ∉ parts) (hlength : parts.length ≤ 2)
    (h : schemaAndTable parts.write = (schema, table)) :
    (∀ s ∈ schema, s.isDigits = false) ∧ ∀ added, (added ++ table).isDigits = false := by
  constructor
  · intro s hs
    obtain rfl : schema = some s := hs
    obtain ⟨c, rest, hwrite, hc⟩ := Path.head_write hparts
    have hsame : c :: rest = s ++ '.' :: table := hwrite ▸ qualified_of_schemaAndTable h
    cases s with
    | nil => rfl
    | cons d s =>
      obtain ⟨rfl, -⟩ := List.cons.inj hsame
      exact Text.not_isDigits_of_mem List.mem_cons_self hc
  · intro added
    obtain ⟨hne, hall, -⟩ := hparts
    obtain ⟨front, last, rfl, hwrite, -⟩ := write_eq_qualified hne hlength
    have hmem : last ∈ front.toList ++ [last] := by simp
    rw [hwrite] at h
    obtain ⟨c, hc, hdigit⟩ := exists_not_digit (hall last hmem) (fun he => hstar (he ▸ hmem)) h
    exact Text.not_isDigits_of_mem (List.mem_append_right _ hc) hdigit

/-- The halves of a written path are the names of its parts if and only if no part is in quotes. -/
theorem split_names_iff (hparts : parts.WellFormed) (hstar : .star ∉ parts) (hlength : parts.length ≤ 2)
    (hnames : parts.schemaAndTable? = some (schema, table)) :
    schemaAndTable parts.write = (schema, table) ↔ ∀ part ∈ parts, ¬part.IsQuoted := by
  obtain ⟨hne, hall, -⟩ := hparts
  obtain ⟨front, last, rfl, hwrite, hhalves⟩ := write_eq_qualified hne hlength
  cases hhalves.symm.trans hnames
  have hmem : last ∈ front.toList ++ [last] := by simp
  have hlast : last ≠ .star := fun he => hstar (he ▸ hmem)
  obtain ⟨hlastSize, hlastBare⟩ := Part.length_name_le hlast
  rw [hwrite]
  constructor
  · intro h
    have hsize := congrArg List.length (qualified_of_schemaAndTable h)
    cases front with
    | none => simpa [qualified, hlastBare] using hsize
    | some front =>
      have hfront : front ≠ .star := fun he => hstar (by simp [he])
      obtain ⟨hfrontSize, hfrontBare⟩ := Part.length_name_le hfront
      simp only [Option.map_some, qualified, List.length_append, List.length_cons] at hsize
      have hboth : front.write.length = front.name.length ∧ last.write.length = last.name.length := by omega
      simpa [hfrontBare, hlastBare] using hboth
  · intro h
    have hbare : ∀ part ∈ front.toList ++ [last], part.write = part.name := by
      intro part hpart
      cases part with
      | bare name => rfl
      | quoted name => exact absurd trivial (h _ hpart)
      | star => exact absurd hpart hstar
    have hdot : '.' ∉ last.name := by
      cases last with
      | bare name => exact Part.not_mem_of_isBareName (hall _ hmem) (by decide)
      | quoted name => exact absurd trivial (h _ hmem)
      | star => exact absurd hmem hstar
    have hfront : front.map Part.write = front.map Part.name := by
      cases front with
      | none => rfl
      | some front => exact congrArg some (hbare front (by simp))
    rw [hbare last hmem, hfront, schemaAndTable_qualified _ hdot]

end Split

/-! ## What is looked up -/

section LookedUp

variable {S : Type} [Server S] {settings : Settings} {before had : Session (Wire S)} {link : Link} {t : Text}
  {parts : Path}

/-- A prefix with NUL is refused, before anything is sent but what a link takes. -/
theorem columns_of_nul (hlink : Session.Ready settings link had before) (hnul : '\x00' ∈ settings.tablePrefix)
    (ht : '\x00' ∉ t) : (columns settings t before).1 = .error (.validation .nulForServer) := by
  rcases hsplit : schemaAndTable t with ⟨schema, table⟩
  have hrefused (session : Session (Wire S)) : (Session.connection settings).quoteText (settings.tablePrefix ++ table)
      session = (.error (.validation .nulForServer), session) :=
    quoteText_of_nul settings (List.mem_append_left _ hnul) session
  have hwrite : ∃ after, columnsSql settings t before = (.error (.validation .nulForServer), after) := by
    unfold columnsSql
    rw [hsplit]
    cases schema with
    | none => exact ⟨before, (Action.bind_of_ok rfl).trans (Action.bind_of_error (hrefused before))⟩
    | some schema =>
      have hname := qualified_of_schemaAndTable hsplit
      have hschema : '\x00' ∉ schema := fun hmem => ht (by simp [hname, qualified, hmem])
      obtain ⟨after, hquoted, -⟩ := Action.gives_some.1 (gives_quoteText had hschema) before hlink
      exact ⟨after, (Action.bind_of_ok hquoted).trans (Action.bind_of_error (hrefused after))⟩
  obtain ⟨after, hwrite⟩ := hwrite
  exact congrArg Prod.fst (Action.bind_of_error hwrite)

/-- The columns of a written path are looked up by its halves, as strings. -/
theorem columns_sends_halves (hlink : Session.Ready settings link had before) (hnul : '\x00' ∉ settings.tablePrefix)
    (hparts : parts.WellFormed) (hstar : .star ∉ parts) (hlength : parts.length ≤ 2) {schema : Option Text}
    {table : Text} (hsplit : schemaAndTable parts.write = (schema, table)) :
    ∃ sql, Session.Sends link before had (columnsSql settings parts.write) (columns settings parts.write) sql ∧
      readColumns link.standardStrings sql = some (schema.map .string, .string (settings.tablePrefix ++ table)) := by
  have hhalves : '\x00' ∉ qualified schema table := qualified_of_schemaAndTable hsplit ▸ hparts.nul_not_mem_write
  have htable : '\x00' ∉ settings.tablePrefix ++ table := by
    cases schema <;> simp_all [qualified]
  have hschema : ∀ s ∈ schema, '\x00' ∉ s := by
    intro s hs hmem
    obtain rfl : schema = some s := hs
    exact hhalves (List.mem_append_left _ hmem)
  refine ⟨_, columns_sends hlink hsplit hschema htable, ?_⟩
  obtain ⟨hschemaText, htableText⟩ := strings_of_split hparts hstar hlength hsplit
  have hstrings : schema.map Literal.ofText = schema.map Literal.string := by
    cases schema with
    | none => rfl
    | some schema => exact congrArg some (Literal.ofText_eq_string_iff.2 ⟨hschemaText schema rfl, rfl⟩)
  rw [readColumns_columnsText, hstrings, Literal.ofText_eq_string_iff.2 ⟨htableText _, rfl⟩]

/-- **When the columns of the table meant are looked up.** A text of one or two parts that is no `*` names a schema, or
none, and a table, and it is rendered as a path that names the same with the prefix in front of the table. The columns
are looked up by strings, or refused where the prefix holds NUL. These strings are the names of the path rendered if and
only if no part of the text is in quotes. -/
theorem columns_of_table_iff (hlink : Session.theLink settings before = (.ok link, had))
    (hread : Path.read t = .ok parts) (hstar : .star ∉ parts) (hlength : parts.length ≤ 2) :
    ('\x00' ∈ settings.tablePrefix → (columns settings t before).1 = .error (.validation .nulForServer)) ∧
    ('\x00' ∉ settings.tablePrefix → ∃ sql schema table text rendered meant name,
      Session.Sends link before had (columnsSql settings t) (columns settings t) sql ∧
      readColumns link.standardStrings sql = some (schema.map .string, .string table) ∧
      (Session.connection settings).quoteTable (.name t none) before = (.ok text, before) ∧
      Path.read text = .ok rendered ∧ parts.schemaAndTable? = some (meant, name) ∧
      rendered.schemaAndTable? = some (meant, settings.tablePrefix ++ name) ∧
      ((schema, table) = (meant, settings.tablePrefix ++ name) ↔ ∀ part ∈ parts, ¬part.IsQuoted)) := by
  obtain ⟨hparts, rfl⟩ := Path.write_of_read hread
  refine ⟨fun hnul => columns_of_nul hlink hnul hparts.nul_not_mem_write, fun hnul => ?_⟩
  rcases hsplit : schemaAndTable parts.write with ⟨schema, table⟩
  obtain ⟨sql, hsends, hcompared⟩ := columns_sends_halves hlink hnul hparts hstar hlength hsplit
  obtain ⟨front, last, -, -, hnames⟩ := write_eq_qualified hparts.1 hlength
  have hrendered : (parts.requoted settings.tablePrefix 1).schemaAndTable? =
      some (front.map Part.name, settings.tablePrefix ++ last.name) := by
    rw [Path.schemaAndTable?_requoted hstar, hnames]
    rfl
  refine ⟨sql, schema, settings.tablePrefix ++ table, _, _, _, _, hsends, hcompared,
    Connection.quoteTable_name _ hread hstar none before, ?_, hnames, hrendered, ?_⟩
  · rw [Identifier.aliasText, List.append_nil]
    exact Path.read_write (hparts.requoted hnul 1)
  · rw [← split_names_iff hparts hstar hlength hnames, hsplit]
    simp

/-- A bare table in a bare schema. -/
theorem columns_of_table_bare :
    ∃ sql, statements (columns prefixed "public.users" (onScript true)).2.server.log = [sql] ∧
      readColumns true sql = some (some (.string "public"), .string "app_users") := by
  have hlink : Session.theLink prefixed (onScript true) = (.ok ⟨true, .live⟩, onScript true) :=
    Session.theLink_of_held prefixed rfl nofun
  have hread : Path.read "public.users" = .ok [.bare "public", .bare "users"] :=
    (Path.read_eq_ok_iff _ _).2 ⟨by decide +kernel, by decide +kernel⟩
  obtain ⟨-, hsends⟩ := columns_of_table_iff hlink hread (by decide +kernel) (by decide)
  obtain ⟨sql, schema, table, -, -, meant, name, ⟨-, own, hlog, -, hown⟩, hcompared, -, -, hmeant, -, hsame⟩ :=
    hsends (by decide +kernel)
  cases hmeant
  obtain ⟨rfl, rfl⟩ := Prod.mk.inj (hsame.2 (by simp [Part.IsQuoted]))
  have hname : prefixed.tablePrefix ++ (Part.bare "users").name = Text.lit "app_users" := by decide +kernel
  rw [hname] at hcompared
  exact ⟨sql, by rw [hlog]; exact hown, hcompared⟩

/-- A table in quotes is rendered by its name, and its columns are looked up by the name with the quotes. -/
theorem columns_of_quoted_table :
    let sent := statements (columns Session.toScript "\"User Table\"" (onScript true)).2.server.log
    Path.read "\"User Table\"" = .ok [.quoted "User Table"] ∧
      ((Session.connection Session.toScript).quoteTable (.name "\"User Table\"" none) (onScript true)).1 =
        .ok "\"User Table\"" ∧
      sent.map (readColumns true) = [some (none, .string "\"User Table\"")] ∧
      sent.map (readColumns true) ≠ [some (none, .string "User Table")] := by
  have hread : Path.read "\"User Table\"" = .ok [.quoted "User Table"] :=
    (Path.read_eq_ok_iff _ _).2 ⟨by decide +kernel, by decide +kernel⟩
  refine ⟨hread, ?_, by decide +kernel, by decide +kernel⟩
  rw [Connection.quoteTable_name _ hread (by decide +kernel)]
  decide +kernel

end LookedUp

end Catalog

end Postgres

end SqlAccess
