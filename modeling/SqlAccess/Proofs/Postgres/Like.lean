/-
The patterns that tables are matched with.

`like` is how the server matches a name with a pattern: a percent sign stands for any text, an underscore for any
character, and a backslash takes the sign of the character behind it. What is sent is the table prefix with the caller's
pattern behind it, so the prefix is a pattern too: `like_append_iff` says what it matches. `prefix_literal_iff` says
which prefixes stand for themselves.
-/
import SqlAccess.Proofs.Postgres.Catalog

namespace SqlAccess

namespace Postgres

namespace Like

/-! ## Matching -/

/-- one part of a pattern: any text, any character, or this character -/
inductive Part where
  | text
  | character
  | exactly (c : Char)
  deriving DecidableEq, Repr

/-- what a character stands for that is not escaped -/
def Part.ofChar (c : Char) : Part := if c = '%' then .text else if c = '_' then .character else .exactly c

/-- The parts of a pattern, behind a backslash or not. A backslash must not come last. -/
def read : (escaped : Bool) → Text → Option (List Part)
  | false, [] => some []
  | true, [] => none
  | true, c :: r => (read false r).map (.exactly c :: ·)
  | false, c :: r => if c = '\\' then read true r else (read false r).map (Part.ofChar c :: ·)

def Part.takes : Part → Text → Bool
  | .text, _ => true
  | .character, t => t.length == 1
  | .exactly c, t => t == [c]

/-- whether a name can be cut into texts that the parts stand for -/
def accepts : List Part → Text → Bool
  | [], name => name.isEmpty
  | part :: parts, name =>
    (List.range (name.length + 1)).any fun n => part.takes (name.take n) && accepts parts (name.drop n)

end Like

def like (pattern name : Text) : Bool := (Like.read false pattern).any fun parts => Like.accepts parts name

namespace Like

/-! ## One pattern behind another -/

theorem accepts_cons_iff {part : Part} {parts : List Part} {name : Text} : accepts (part :: parts) name = true ↔
    ∃ front rest, name = front ++ rest ∧ part.takes front = true ∧ accepts parts rest = true := by
  simp only [accepts, List.any_eq_true, List.mem_range, Bool.and_eq_true]
  constructor
  · intro h
    obtain ⟨n, -, hfront, hrest⟩ := h
    exact ⟨name.take n, name.drop n, (List.take_append_drop n name).symm, hfront, hrest⟩
  · intro h
    obtain ⟨front, rest, rfl, hfront, hrest⟩ := h
    have hlength : front.length < (front ++ rest).length + 1 := by
      rw [List.length_append]
      omega
    exact ⟨front.length, hlength, by rwa [List.take_left], by rwa [List.drop_left]⟩

/-- Parts behind others match what follows a text that the others match. -/
theorem accepts_append_iff {first second : List Part} {name : Text} : accepts (first ++ second) name = true ↔
    ∃ front rest, name = front ++ rest ∧ accepts first front = true ∧ accepts second rest = true := by
  induction first generalizing name with
  | nil => simp [accepts]
  | cons part first ih =>
    simp only [List.cons_append, accepts_cons_iff, ih]
    constructor
    · intro h
      obtain ⟨taken, _, rfl, htaken, front, rest, rfl, hfront, hrest⟩ := h
      exact ⟨taken ++ front, rest, (List.append_assoc ..).symm, ⟨taken, front, rfl, htaken, hfront⟩, hrest⟩
    · intro h
      obtain ⟨_, rest, rfl, ⟨taken, front, rfl, htaken, hfront⟩, hrest⟩ := h
      exact ⟨taken, front ++ rest, List.append_assoc .., htaken, front, rest, rfl, hfront, hrest⟩

/-- Behind a pattern that can be read, another one is read by itself. -/
theorem read_append {escaped : Bool} {pattern : Text} {parts : List Part} (h : read escaped pattern = some parts)
    (more : Text) : read escaped (pattern ++ more) = (read false more).map (parts ++ ·) := by
  fun_induction read escaped pattern generalizing parts with
  | case1 =>
    cases h
    simp
  | case2 => cases h
  | case3 c r ih =>
    obtain ⟨others, hothers, rfl⟩ := Option.map_eq_some_iff.1 h
    simp [read, ih hothers, Function.comp_def]
  | case4 r ih => simp [read, ih h]
  | case5 c r hc ih =>
    obtain ⟨others, hothers, rfl⟩ := Option.map_eq_some_iff.1 h
    simp [read, hc, ih hothers, Function.comp_def]

/-- A pattern behind another matches what follows a text that the other matches. -/
theorem like_append_iff {first second name : Text} (h : (read false first).isSome = true) :
    like (first ++ second) name = true ↔
      ∃ front rest, name = front ++ rest ∧ like first front = true ∧ like second rest = true := by
  obtain ⟨parts, hparts⟩ := Option.isSome_iff_exists.1 h
  cases hsecond : read false second with
  | none => simp [like, read_append hparts, hsecond]
  | some others => simp [like, read_append hparts, hsecond, hparts, accepts_append_iff]

/-! ## Patterns that stand for themselves -/

/-- whether no character of a text stands for anything but itself -/
def Plain (t : Text) : Prop := ∀ c ∈ t, c ≠ '%' ∧ c ≠ '_' ∧ c ≠ '\\'

theorem read_of_plain {t : Text} (h : Plain t) : read false t = some (t.map .exactly) := by
  induction t with
  | nil => rfl
  | cons c t ih =>
    obtain ⟨⟨hpercent, hunderscore, hbackslash⟩, hrest⟩ := List.forall_mem_cons.1 h
    simp [read, Part.ofChar, hpercent, hunderscore, hbackslash, ih hrest]

theorem accepts_exactly_self {t name : Text} : accepts (t.map .exactly) name = true ↔ name = t := by
  induction t generalizing name with
  | nil => simp [accepts]
  | cons c t ih => simp [accepts_cons_iff, Part.takes, ih]

theorem like_of_plain {t name : Text} (h : Plain t) : like t name = true ↔ name = t := by
  simp [like, read_of_plain h, accepts_exactly_self]

/-- a text that the parts match: nothing for any text, and one letter for any character -/
def sample : List Part → Text
  | [] => []
  | .text :: parts => sample parts
  | .character :: parts => 'a' :: sample parts
  | .exactly c :: parts => c :: sample parts

theorem accepts_sample (parts : List Part) : accepts parts (sample parts) = true := by
  induction parts with
  | nil => rfl
  | cons part parts ih =>
    cases part with
    | text => exact accepts_cons_iff.2 ⟨[], sample parts, rfl, rfl, ih⟩
    | character => exact accepts_cons_iff.2 ⟨['a'], sample parts, rfl, rfl, ih⟩
    | exactly c => exact accepts_cons_iff.2 ⟨[c], sample parts, rfl, beq_self_eq_true [c], ih⟩

/-- The sample is no longer than the pattern that is read, behind a backslash too. -/
theorem length_sample_le {escaped : Bool} {pattern : Text} {parts : List Part} (h : read escaped pattern = some parts) :
    (sample parts).length ≤ pattern.length := by
  fun_induction read escaped pattern generalizing parts with
  | case1 =>
    cases h
    exact Nat.le_refl _
  | case2 => cases h
  | case3 c r ih =>
    obtain ⟨others, hothers, rfl⟩ := Option.map_eq_some_iff.1 h
    exact Nat.succ_le_succ (ih hothers)
  | case4 r ih => exact Nat.le_succ_of_le (ih h)
  | case5 c r hc ih =>
    obtain ⟨others, hothers, rfl⟩ := Option.map_eq_some_iff.1 h
    have hlength := ih hothers
    unfold Part.ofChar
    split
    · exact Nat.le_succ_of_le hlength
    split
    · exact Nat.succ_le_succ hlength
    · exact Nat.succ_le_succ hlength

/-- A pattern whose sample is the pattern itself is plain. -/
theorem plain_of_sample {pattern : Text} {parts : List Part} (h : read false pattern = some parts)
    (hsample : sample parts = pattern) : Plain pattern := by
  induction pattern generalizing parts with
  | nil => exact nofun
  | cons c r ih =>
    rw [read] at h
    split at h
    case isTrue hc =>
      -- the backslash is not in the sample, which is too short then
      have hlength := length_sample_le h
      rw [hsample, List.length_cons] at hlength
      omega
    case isFalse hbackslash =>
      obtain ⟨others, hothers, rfl⟩ := Option.map_eq_some_iff.1 h
      unfold Part.ofChar at hsample
      split at hsample
      case isTrue hc =>
        have hlength := length_sample_le hothers
        rw [sample] at hsample
        rw [hsample, List.length_cons] at hlength
        omega
      case isFalse hpercent =>
        split at hsample
        case isTrue hc =>
          cases hc.symm.trans (List.cons.inj hsample).1.symm
        case isFalse hunderscore =>
          exact List.forall_mem_cons.2 ⟨⟨hpercent, hunderscore, hbackslash⟩, ih hothers (List.cons.inj hsample).2⟩

/-- A pattern matches itself and nothing else if and only if it is plain. -/
theorem plain_iff {pattern : Text} : Plain pattern ↔ ∀ name, like pattern name = true ↔ name = pattern := by
  constructor
  · exact fun h name => like_of_plain h
  · intro h
    cases hparts : read false pattern with
    | none =>
      have hself := (h pattern).2 rfl
      simp [like, hparts] at hself
    | some parts =>
      refine plain_of_sample hparts ((h _).1 ?_)
      simp [like, hparts, accepts_sample]

/-- A text in front of patterns stands for itself if and only if it is plain. Where digits alone are left out, too. -/
theorem plain_iff_in_front {front : Text} : Plain front ↔ ∀ pattern name, (front ++ pattern).isDigits = false →
    (like (front ++ pattern) name = true ↔ ∃ rest, name = front ++ rest ∧ like pattern rest = true) := by
  constructor
  · intro h pattern name _
    have hread : (read false front).isSome = true := by
      rw [read_of_plain h]
      rfl
    rw [like_append_iff hread]
    constructor
    · intro hmatch
      obtain ⟨taken, rest, hname, htaken, hrest⟩ := hmatch
      exact ⟨rest, by rw [hname, (like_of_plain h).1 htaken], hrest⟩
    · intro hname
      obtain ⟨rest, hname, hrest⟩ := hname
      exact ⟨front, rest, hname, (like_of_plain h).2 rfl, hrest⟩
  · intro h
    by_cases hdigits : front.isDigits = true
    · intro c hc
      have hdigit := (Text.isDigits_iff.1 hdigits).2 c hc
      refine ⟨?_, ?_, ?_⟩ <;>
      · rintro rfl
        revert hdigit
        decide
    · -- with the empty pattern behind it, it has to match itself alone
      refine plain_iff.2 fun name => ?_
      have hempty := h [] name (by rwa [List.append_nil, Bool.eq_false_iff])
      rw [List.append_nil] at hempty
      rw [hempty]
      simp [like_of_plain (t := []) nofun]

end Like

/-! ## The prefix in a pattern -/

namespace Catalog

variable {S : Type} [Server S] {settings : Settings} {before had : Session (Wire S)} {link : Link}

/-- **When the prefix is taken literally.** Tables are matched with the prefix and the pattern behind it, as one
pattern; NUL in it is refused. For every pattern this matches the names that consist of the prefix, letter by letter,
and a text that the pattern matches, if and only if no sign in the prefix stands for anything but itself. A prefix that
can be read as a pattern is matched as one. -/
theorem prefix_literal_iff (hlink : Session.theLink settings before = (.ok link, had)) :
    (∀ pattern, '\x00' ∈ settings.tablePrefix ++ pattern →
      tables settings (some pattern) before = (.error (.validation .nulForServer), before)) ∧
    (∀ pattern, '\x00' ∉ settings.tablePrefix ++ pattern → (settings.tablePrefix ++ pattern).isDigits = false →
      ∃ sql, Session.Sends link before had (tablesSql settings (some pattern)) (tables settings (some pattern)) sql ∧
        readTables link.standardStrings sql = some (.string (settings.tablePrefix ++ pattern))) ∧
    ((∀ pattern name, (settings.tablePrefix ++ pattern).isDigits = false →
        (like (settings.tablePrefix ++ pattern) name = true ↔
          ∃ rest, name = settings.tablePrefix ++ rest ∧ like pattern rest = true)) ↔
      Like.Plain settings.tablePrefix) ∧
    ((Like.read false settings.tablePrefix).isSome = true → ∀ pattern name,
      (like (settings.tablePrefix ++ pattern) name = true ↔
        ∃ front rest, name = front ++ rest ∧ like settings.tablePrefix front = true ∧ like pattern rest = true)) := by
  refine ⟨?_, ?_, Like.plain_iff_in_front.symm, fun hread pattern name => Like.like_append_iff hread⟩
  · intro pattern hnul
    have hwrite : tablesSql settings (some pattern) before = (.error (.validation .nulForServer), before) :=
      Action.bind_of_error (quoteText_of_nul settings hnul before)
    exact Action.bind_of_error hwrite
  · intro pattern hnul hdigits
    refine ⟨_, tables_sends hlink hnul, ?_⟩
    rw [readTables_tablesText, Literal.ofText_eq_string_iff.2 ⟨hdigits, rfl⟩]

/-- A prefix of letters alone. -/
theorem prefix_literal_letters :
    let settings : Settings := { Session.toScript with tablePrefix := "app" }
    (∃ sql, statements (tables settings (some "\\_%") (onScript true)).2.server.log = [sql] ∧
      readTables true sql = some (.string "app\\_%")) ∧
    (like "app\\_%" "app_users" = true ↔ ∃ rest, Text.lit "app_users" = "app" ++ rest ∧ like "\\_%" rest = true) := by
  intro settings
  have hlink : Session.theLink settings (onScript true) = (.ok ⟨true, .live⟩, onScript true) :=
    Session.theLink_of_held settings rfl nofun
  have hpattern : settings.tablePrefix ++ Text.lit "\\_%" = "app\\_%" := by decide +kernel
  obtain ⟨-, hsends, hliteral, -⟩ := prefix_literal_iff hlink
  obtain ⟨sql, ⟨-, own, hlog, -, hown⟩, hread⟩ := hsends "\\_%" (by decide +kernel) (by decide +kernel)
  rw [hpattern] at hread
  refine ⟨⟨sql, by rw [hlog]; exact hown, hread⟩, ?_⟩
  have hplain : Like.Plain settings.tablePrefix := by simp [Like.Plain, settings, Text.lit_eq]
  have hmatches := hliteral.2 hplain "\\_%" "app_users" (by decide +kernel)
  rwa [hpattern] at hmatches

/-- The underscore of a prefix stands for any letter: a table of another application is listed. -/
theorem underscore_in_prefix :
    let sent := statements (tables prefixed (some "%") (onScript true)).2.server.log
    sent.map (readTables true) = [some (.string "app_%")] ∧ like "app_%" "apps" = true ∧
      ¬ ∃ rest, Text.lit "apps" = prefixed.tablePrefix ++ rest ∧ like "%" rest = true := by
  refine ⟨by decide +kernel, by decide +kernel, ?_⟩
  intro h
  obtain ⟨rest, hname, -⟩ := h
  have hfront : prefixed.tablePrefix <+: Text.lit "apps" := ⟨rest, hname.symm⟩
  revert hfront
  decide +kernel

end Catalog

end Postgres

end SqlAccess
