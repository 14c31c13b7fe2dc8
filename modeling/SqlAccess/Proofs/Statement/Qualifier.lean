/-
Columns qualified by a table of a select.

A column `q.c` means the table that is called `q`: the one with the alias `q`, or the one without an alias whose path
ends in `q`. The prefix goes in front of the qualifier and in front of a table's last name, and never in front of an
alias. Main result, `qualifier_refers_iff`: the qualifier comes out as the name that the table comes out with exactly
when there is no prefix or the table has no alias.
-/
import SqlAccess.Proofs.Identifier.Reference
import SqlAccess.Proofs.Statement.References

namespace SqlAccess

open SqlAccess.Action

/-! ## Qualifiers and what tables are called -/

namespace Identifier

def label? : Identifier → Option Text
  | .name _ label => label
  | .expression _ => none

/-- a column `q.c` with this `q` -/
def QualifiedBy (column : Identifier) (q : Text) : Prop :=
  ∃ path label table part, column = .name path label ∧ Path.read path = .ok [table, part] ∧ table.name = q

/-- a table with this alias, or without an alias and with this last name -/
def CalledAs (entry : Identifier) (q : Text) : Prop :=
  (∃ path, entry = .name path (some q)) ∨
    ∃ path front last, entry = .name path none ∧ Path.read path = .ok (front ++ [last]) ∧ last.name = q

variable {entry : Identifier} {path q : Text} {label : Option Text}

theorem CalledAs.exists_name (h : entry.CalledAs q) : ∃ path label, entry = .name path label := by
  rcases h with ⟨path, rfl⟩ | ⟨path, -, -, rfl, -⟩
  · exact ⟨path, some q, rfl⟩
  · exact ⟨path, none, rfl⟩

theorem CalledAs.label_or_last {front : Path} {last : Part} (h : CalledAs (.name path label) q)
    (hread : Path.read path = .ok (front ++ [last])) : label = some q ∨ label = none ∧ last.name = q := by
  rcases h with ⟨path', e⟩ | ⟨path', front', last', e, hread', hname⟩
  · cases e
    exact Or.inl rfl
  · cases e
    have happend : front ++ [last] = front' ++ [last'] := Except.ok.inj (hread.symm.trans hread')
    obtain ⟨-, hlast⟩ := List.append_inj' happend rfl
    cases hlast
    exact Or.inr ⟨rfl, hname⟩

end Identifier

variable {σ : Type}

/-- The action answers these parts, each in quotes or `*`, with the label in quotes behind them, and the text holds
what it answers. -/
structure RenderedIn (text : Text) (x : Action σ Text) (parts : Path) (label : Option Text) : Prop where
  quoted : ∀ part ∈ parts, part.IsQuoted
  answers : ∀ state, x state = (.ok (parts.write ++ Identifier.aliasText label), state)
  inside : parts.write ++ Identifier.aliasText label <:+: text

theorem RenderedIn.qualifier_unique {text : Text} {x : Action σ Text} {a b : Text} {part part' : Part}
    {label label' : Option Text} (ha : RenderedIn text x [.quoted a, part] label)
    (hb : RenderedIn text x [.quoted b, part'] label') (state : σ) : a = b := by
  have h := (ha.answers state).symm.trans (hb.answers state)
  have hsame := Except.ok.inj (Prod.mk.inj h).1
  rw [Path.write_cons _ (List.cons_ne_nil part []), Path.write_cons _ (List.cons_ne_nil part' []), Part.write,
    Part.write, List.append_assoc, List.append_assoc] at hsame
  exact Part.of_delimited_append hsame (by simp) (by simp)

/-- The qualifier of the column, and the alias of the table or else its last name, stand in the text as the same name in
quotes. -/
def Connection.Refers (conn : Connection σ) (text : Text) (column entry : Identifier) : Prop :=
  ∃ qualifier part front last,
    RenderedIn text (conn.quoteColumn column) [.quoted qualifier, part] column.label? ∧
    RenderedIn text (conn.quoteTable entry) (front ++ [.quoted last]) entry.label? ∧
    delimited qualifier = delimited (entry.label?.getD last)

namespace Connection

variable {conn : Connection σ} {x : Action σ Text} {state state' : σ} {text q : Text}

/-- A qualified column of a text comes out with the prefix in front of its qualifier. -/
theorem renderedIn_column {column : Identifier} (hx : Holds (conn.quoteColumn column) x)
    (h : x state = (.ok text, state')) (hq : column.QualifiedBy q) :
    ∃ part, RenderedIn text (conn.quoteColumn column) [.quoted (conn.tablePrefix ++ q), part] column.label? := by
  obtain ⟨path, label, table, part, rfl, hread, rfl⟩ := hq
  have hstar : table ≠ .star := by
    rintro rfl
    exact (Path.write_of_read hread).1.2.2 List.mem_cons_self
  have hparts : Path.requoted conn.tablePrefix 2 [table, part] =
      [.quoted (conn.tablePrefix ++ table.name), part.requoted []] := by
    rw [Path.requoted_pair, Part.requoted_of_ne_star hstar]
  have hquote := quoteColumn_name conn hread label
  rw [hparts] at hquote
  exact ⟨_, hparts ▸ Path.isQuoted_requoted, hquote, hx.inside hquote h⟩

/-- A table of a text comes out with the prefix in front of its last name, and with its alias as it is. -/
theorem renderedIn_table {entry : Identifier} (hx : Holds (conn.quoteTable entry) x)
    (h : x state = (.ok text, state')) (hcalled : entry.CalledAs q) :
    ∃ front last, RenderedIn text (conn.quoteTable entry) (front ++ [.quoted (conn.tablePrefix ++ last)]) entry.label? ∧
      (entry.label? = some q ∨ entry.label? = none ∧ last = q) := by
  obtain ⟨path, label, rfl⟩ := hcalled.exists_name
  obtain ⟨before, piece, after, hpiece, -⟩ := hx state text state' h
  obtain ⟨parts, hread, hstar⟩ := exists_of_quoteTable hpiece
  obtain ⟨front, last, rfl⟩ := (List.eq_nil_or_concat parts).resolve_left (Path.write_of_read hread).1.1
  rw [List.concat_eq_append] at hread hstar
  have hlast : last ≠ .star := by
    rintro rfl
    exact hstar (by simp)
  have hparts : Path.requoted conn.tablePrefix 1 (front ++ [last]) =
      front.map (Part.requoted []) ++ [.quoted (conn.tablePrefix ++ last.name)] := by
    rw [Path.requoted_concat, Part.requoted_of_ne_star hlast]
  have hquote := quoteTable_name conn hread hstar label
  rw [hparts] at hquote
  exact ⟨_, last.name, ⟨hparts ▸ Path.isQuoted_requoted, hquote, hx.inside hquote h⟩, hcalled.label_or_last hread⟩

end Connection

namespace Select

/-- **A qualifier refers to its table** exactly when there is no prefix or the table has no alias: in a select that
compiles, for a column `q.c` of any clause and a table called `q`. -/
theorem qualifier_refers_iff {conn : Connection σ} {s : Select} {state state' : σ} {text : Text}
    (h : s.compile conn state = (.ok text, state')) {column entry : Identifier} (hcolumn : column ∈ s.references)
    (hentry : entry ∈ s.entries) {q : Text} (hq : column.QualifiedBy q) (hcalled : entry.CalledAs q) :
    conn.Refers text column entry ↔ conn.tablePrefix = [] ∨ entry.label? = none := by
  obtain ⟨part, hrendered⟩ := Connection.renderedIn_column (compile_holds_column hcolumn) h hq
  obtain ⟨front, last, htable, hname⟩ := Connection.renderedIn_table (compile_holds_table hentry) h hcalled
  constructor
  · rintro ⟨qualifier, part', front', last', hrendered', -, hsame⟩
    rcases hname with hlabel | ⟨hlabel, -⟩
    · -- the qualifier is the prefix and `q`, the alias is `q`
      obtain rfl := hrendered.qualifier_unique hrendered' state
      rw [hlabel] at hsame
      have happend : conn.tablePrefix ++ q = q := Part.delimited_injective hsame
      exact Or.inl (by simpa using happend)
    · exact Or.inr hlabel
  · intro hcase
    refine ⟨_, part, front, _, hrendered, htable, ?_⟩
    rcases hname with hlabel | ⟨hlabel, rfl⟩
    · have hnone : conn.tablePrefix = [] := hcase.resolve_right (by simp [hlabel])
      simp [hlabel, hnone]
    · simp [hlabel]

/-! ### One column of one table -/

/-- one column of one table -/
def single (column entry : Identifier) : Select := { Select.of [column] with tables := [entry] }

theorem compile_single (conn : Connection σ) {column entry : Identifier} {columnText entryText : Text}
    (hcolumn : conn.quoteColumn column = pure columnText) (htable : conn.quoteTable entry = pure entryText) :
    (single column entry).compile conn = pure ("SELECT " ++ columnText ++ " FROM " ++ entryText) := by
  simp [single, Select.of, compile, compileColumns, compileTables, Connection.compileColumns, Connection.compileTables,
    hcolumn, htable, Connection.compileJoins, Connection.compileFilter, Connection.compileGroupBy,
    Connection.compileOrderBy, spaced, counted]

theorem mem_references_single (column entry : Identifier) : column ∈ (single column entry).references := by
  simp [references, single, Select.of]

theorem mem_entries_single (column entry : Identifier) : entry ∈ (single column entry).entries := by
  simp [entries, single]

/-- Behind a prefix, a table in a schema is referred to by its own name. -/
theorem qualifier_refers_iff_schema :
    (single (.name "users.id".toList none) (.name "public.users".toList none)).compile
      (Recorder.connection "app_".toList) .fresh =
        (.ok "SELECT \"app_users\".\"id\" FROM \"public\".\"app_users\"".toList, .fresh) ∧
    Identifier.QualifiedBy (.name "users.id".toList none) "users".toList ∧
    Identifier.CalledAs (.name "public.users".toList none) "users".toList ∧
    (Recorder.connection "app_".toList).Refers "SELECT \"app_users\".\"id\" FROM \"public\".\"app_users\"".toList
      (.name "users.id".toList none) (.name "public.users".toList none) := by
  have hcolumnParts : Path.WellFormed [.bare "users".toList, .bare "id".toList] := by decide
  have hcolumn : Path.read "users.id".toList = .ok [.bare "users".toList, .bare "id".toList] :=
    Path.read_write hcolumnParts
  have htableParts : Path.WellFormed [.bare "public".toList, .bare "users".toList] := by decide
  have htable : Path.read "public.users".toList = .ok [.bare "public".toList, .bare "users".toList] :=
    Path.read_write htableParts
  have hcompile := compile_single (Recorder.connection "app_".toList)
    (funext fun state => Connection.quoteColumn_name _ hcolumn none state)
    (funext fun state => Connection.quoteTable_name _ htable (by decide) none state)
  rw [Text.lit_eq, Text.lit_eq] at hcompile
  have hrun := congrFun hcompile .fresh
  have hq : Identifier.QualifiedBy (.name "users.id".toList none) "users".toList :=
    ⟨_, _, _, _, rfl, hcolumn, rfl⟩
  have hcalled : Identifier.CalledAs (.name "public.users".toList none) "users".toList :=
    Or.inr ⟨_, [.bare "public".toList], _, rfl, htable, rfl⟩
  refine ⟨hrun, hq, hcalled, ?_⟩
  exact (qualifier_refers_iff hrun (mem_references_single _ _) (mem_entries_single _ _) hq hcalled).2 (Or.inr rfl)

/-- Behind a prefix, a table with an alias is not referred to by its alias: the qualifier has the prefix and the alias
does not. -/
theorem alias_not_referred :
    (single (.name "u.name".toList none) (.name "users".toList (some ['u']))).compile
      (Recorder.connection "app_".toList) .fresh =
        (.ok "SELECT \"app_u\".\"name\" FROM \"app_users\" AS \"u\"".toList, .fresh) ∧
    .name "u.name".toList none ∈ (single (.name "u.name".toList none) (.name "users".toList (some ['u']))).references ∧
    .name "users".toList (some ['u']) ∈
      (single (.name "u.name".toList none) (.name "users".toList (some ['u']))).entries ∧
    Identifier.QualifiedBy (.name "u.name".toList none) ['u'] ∧
    Identifier.CalledAs (.name "users".toList (some ['u'])) ['u'] ∧
    ¬ (Recorder.connection "app_".toList).Refers "SELECT \"app_u\".\"name\" FROM \"app_users\" AS \"u\"".toList
      (.name "u.name".toList none) (.name "users".toList (some ['u'])) := by
  have hparts : Path.WellFormed [.bare ['u'], .bare "name".toList] := by decide
  have hcolumn : Path.read "u.name".toList = .ok [.bare ['u'], .bare "name".toList] := Path.read_write hparts
  have htable : Path.read "users".toList = .ok [.bare "users".toList] := Path.read_bareName (by decide)
  have hcompile := compile_single (Recorder.connection "app_".toList)
    (funext fun state => Connection.quoteColumn_name _ hcolumn none state)
    (funext fun state => Connection.quoteTable_name _ htable (by decide) (some ['u']) state)
  rw [Text.lit_eq, Text.lit_eq, Identifier.aliasText, Identifier.aliasText, Text.lit_eq] at hcompile
  have hrun := congrFun hcompile .fresh
  refine ⟨hrun, mem_references_single _ _, mem_entries_single _ _, ⟨_, _, _, _, rfl, hcolumn, rfl⟩,
    Or.inl ⟨_, rfl⟩, ?_⟩
  rintro ⟨qualifier, part, front, last, ⟨-, hquote, -⟩, -, hsame⟩
  obtain rfl : qualifier = ['u'] := Part.delimited_injective hsame
  have hcolumnText := Connection.quoteColumn_name (Recorder.connection "app_".toList) hcolumn none Recorder.fresh
  rw [hquote Recorder.fresh] at hcolumnText
  have htext := Except.ok.inj (Prod.mk.inj hcolumnText).1
  rw [Path.write_cons _ (List.cons_ne_nil part [])] at htext
  cases htext

end Select

end SqlAccess
