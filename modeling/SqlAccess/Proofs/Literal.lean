/-
The text of a value: its leaves as literals, one behind the other.

A list is written as the literals of its items, an empty one as NULL, so a value comes out as the literals of its
leaves with a comma and a blank between neighbours (`Value.written`). `Escapes conn standard ready` says what is
needed of a connection for that: from every ready state it doubles the marks of a text, and refuses one that holds
NUL. `gives_quote` is the outcome of quoting for each value. The connection in the process escapes like that from
every state (`Recorder.escapes`), a connection to a server from every state in which a link can be had
(`Postgres.Session.escapes`). For what quoting answers where it does, `Doubles` is enough, which a session does from
every state (`Postgres.Session.exists_doubles`): `returns_quote`.
-/
import SqlAccess.Proofs.Action
import SqlAccess.Proofs.Text
import SqlAccess.Postgres.Session
import SqlAccess.Recorder

namespace SqlAccess

theorem Text.isDigits_ofNat (n : Nat) : (Text.ofNat n).isDigits = true :=
  isDigits_iff.2 ⟨Nat.toDigits_ne_nil, fun _ h => Nat.isDigit_of_mem_toDigits (by decide) (by decide) h⟩

namespace Value

mutual

/-- the leaves of a value from left to right; an empty list counts as one null -/
def leaves : Value → List Value
  | .null => [.null]
  | .boolean b => [.boolean b]
  | .integer n => [.integer n]
  | .float x => [.float x]
  | .text t => [.text t]
  | .list [] => [.null]
  | .list (v :: vs) => leaves v ++ leavesOf vs
  | .expression sql => [.expression sql]

def leavesOf : List Value → List Value
  | [] => []
  | v :: vs => leaves v ++ leavesOf vs

end

def literal (standard : Bool) : Value → Text
  | .null => "NULL"
  | .boolean b => if b then "TRUE" else "FALSE"
  | .integer n => Text.ofInt n
  | .float x => Connection.floatLiteral x
  | .text t => if t.isDigits then t else '\'' :: (Postgres.Session.escapeLiteral standard t ++ ['\''])
  | .list _ => "NULL"
  | .expression sql => sql

/-- whether a leaf has a literal: a text that needs quotes must not hold NUL -/
def writable : Value → Bool
  | .text t => t.isDigits || !t.elem '\x00'
  | _ => true

def written (standard : Bool) (v : Value) : Text := Text.joined [',', ' '] (v.leaves.map (literal standard))

/-- a value as literals if all its leaves have one -/
def written? (standard : Bool) (v : Value) : Option Text :=
  if v.leaves.all writable then some (v.written standard) else none

theorem leaves_ne_nil : ∀ v : Value, v.leaves ≠ []
  | .null | .boolean _ | .integer _ | .float _ | .text _ | .expression _ | .list [] => by simp [leaves]
  | .list (v :: vs) => by
    rw [leaves]
    exact List.append_ne_nil_of_left_ne_nil (leaves_ne_nil v) _

mutual

theorem leaf_ne_list : ∀ v : Value, ∀ leaf ∈ v.leaves, ∀ items, leaf ≠ .list items
  | .null | .boolean _ | .integer _ | .float _ | .text _ | .expression _ | .list [] => by simp [leaves]
  | .list (v :: vs) => by
    intro leaf h
    rw [leaves] at h
    rcases List.mem_append.1 h with h | h
    · exact leaf_ne_list v leaf h
    · exact leaf_ne_list_of vs leaf h

theorem leaf_ne_list_of : ∀ vs : List Value, ∀ leaf ∈ leavesOf vs, ∀ items, leaf ≠ .list items
  | [] => by simp [leavesOf]
  | v :: vs => by
    intro leaf h
    rw [leavesOf] at h
    rcases List.mem_append.1 h with h | h
    · exact leaf_ne_list v leaf h
    · exact leaf_ne_list_of vs leaf h

end

theorem leavesOf_eq (vs : List Value) : leavesOf vs = (vs.map leaves).flatten := by
  induction vs with
  | nil => rfl
  | cons v vs ih => rw [leavesOf, ih, List.map_cons, List.flatten_cons]

/-- A list that is not empty is written as its items, one behind the other. -/
theorem written_list (standard : Bool) (v : Value) (vs : List Value) :
    (Value.list (v :: vs)).written standard = Text.joined [',', ' '] ((v :: vs).map (written standard)) := by
  have h : ∀ l ∈ (v :: vs).map (fun w => w.leaves.map (literal standard)), l ≠ [] := by
    intro l hl
    obtain ⟨w, -, rfl⟩ := List.mem_map.1 hl
    simp [leaves_ne_nil]
  have e : (v :: vs).map (written standard)
      = ((v :: vs).map fun w => w.leaves.map (literal standard)).map (Text.joined [',', ' ']) := by
    rw [List.map_map]
    rfl
  rw [e, Text.joined_map_joined _ h, written, leaves, leavesOf_eq]
  congr 1
  rw [List.map_append, List.map_flatten, List.map_map]
  rfl

end Value

/-! ## Connections that double the marks -/

namespace Connection

variable {σ : Type}

/-- from every ready state a text is escaped, or refused when it holds NUL -/
def Escapes (conn : Connection σ) (standard : Bool) (ready : σ → Prop) : Prop :=
  ∀ t, Action.Gives ready (conn.escape t)
    (if '\x00' ∈ t then none else some (Postgres.Session.escapeLiteral standard t))

variable {conn : Connection σ} {standard : Bool} {ready : σ → Prop}

theorem gives_quoteText (h : conn.Escapes standard ready) (t : Text) :
    Action.Gives ready (conn.quoteText t) ((Value.text t).written? standard) := by
  unfold quoteText
  by_cases hd : t.isDigits = true
  · rw [if_pos hd]
    have e : (Value.text t).written? standard = some t := by
      simp [Value.written?, Value.leaves, Value.writable, Value.written, Value.literal, hd]
    rw [e]
    exact Action.Gives.pure t
  · rw [if_neg hd]
    have e : (Value.text t).written? standard
        = (if '\x00' ∈ t then none else some (Postgres.Session.escapeLiteral standard t)).bind
            fun body => some ('\'' :: (body ++ ['\''])) := by
      by_cases hn : '\x00' ∈ t <;>
        simp [Value.written?, Value.leaves, Value.writable, Value.written, Value.literal, hd, hn]
    rw [e]
    exact (h t).bind fun body _ => Action.Gives.pure _

mutual

/-- **What quoting a value gives.** Its leaves as literals, or an error if one of them has none. -/
theorem gives_quote (h : conn.Escapes standard ready) :
    ∀ v : Value, Action.Gives ready (conn.quote v) (v.written? standard)
  | .null => by rw [quote]; exact Action.Gives.pure _
  | .boolean b => by rw [quote]; exact Action.Gives.pure _
  | .integer n => by rw [quote]; exact Action.Gives.pure _
  | .float x => by rw [quote]; exact Action.Gives.pure _
  | .text t => by rw [quote]; exact gives_quoteText h t
  | .list [] => by rw [quote]; exact Action.Gives.pure _
  | .expression sql => by rw [quote]; exact Action.Gives.pure _
  | .list (v :: vs) => by
    have e : (Value.list (v :: vs)).written? standard
        = (v.written? standard).bind fun first =>
            (if (Value.leavesOf vs).all Value.writable then some (vs.map (Value.written standard)) else none).bind
              fun others => some (Text.joined [',', ' '] (first :: others)) := by
      by_cases hv : v.leaves.all Value.writable = true
      · by_cases hvs : (Value.leavesOf vs).all Value.writable = true
        · simp only [Value.written?, Value.leaves, List.all_append, hv, hvs, Value.written_list]
          rfl
        · simp [Value.written?, Value.leaves, List.all_append, hv, hvs]
      · simp [Value.written?, Value.leaves, List.all_append, hv]
    rw [quote, e]
    exact (gives_quote h v).bind fun first _ => (gives_quoteAll h vs).bind fun others _ => Action.Gives.pure _

/-- the texts of values, or an error if a leaf of theirs has none -/
theorem gives_quoteAll (h : conn.Escapes standard ready) :
    ∀ vs : List Value, Action.Gives ready (conn.quoteAll vs)
      (if (Value.leavesOf vs).all Value.writable then some (vs.map (Value.written standard)) else none)
  | [] => by rw [quoteAll]; exact Action.Gives.pure _
  | v :: vs => by
    have e : (if (Value.leavesOf (v :: vs)).all Value.writable then
          some ((v :: vs).map (Value.written standard)) else none)
        = (v.written? standard).bind fun first =>
            (if (Value.leavesOf vs).all Value.writable then some (vs.map (Value.written standard)) else none).bind
              fun others => some (first :: others) := by
      by_cases hv : v.leaves.all Value.writable = true
      · by_cases hvs : (Value.leavesOf vs).all Value.writable = true <;>
          simp [Value.written?, Value.leavesOf, List.all_append, hv, hvs]
      · simp [Value.written?, Value.leavesOf, List.all_append, hv]
    rw [quoteAll, e]
    exact (gives_quote h v).bind fun first _ => (gives_quoteAll h vs).bind fun others _ => Action.Gives.pure _

end

/-- where a text is escaped from a ready state, its marks are doubled -/
def Doubles (conn : Connection σ) (standard : Bool) (ready : σ → Prop) : Prop :=
  ∀ t, Action.Returns ready (Postgres.Session.escapeLiteral standard t = ·) (conn.escape t)

theorem Escapes.doubles (h : conn.Escapes standard ready) : conn.Doubles standard ready := by
  intro t
  refine (h t).returns.mono fun body hbody => ?_
  by_cases hnul : '\x00' ∈ t
  · rw [if_pos hnul] at hbody
    cases hbody
  · rw [if_neg hnul] at hbody
    exact Option.some.inj hbody

theorem returns_quoteText (h : conn.Doubles standard ready) (t : Text) :
    Action.Returns ready ((Value.text t).written standard = ·) (conn.quoteText t) := by
  unfold quoteText
  by_cases hdigits : t.isDigits = true
  · rw [if_pos hdigits]
    exact Action.Returns.pure (if_pos hdigits)
  · rw [if_neg hdigits]
    refine (h t).bind fun body hbody => Action.Returns.pure ?_
    rw [← hbody]
    exact if_neg hdigits

mutual

/-- What quoting a value answers are the literals of its leaves. -/
theorem returns_quote (h : conn.Doubles standard ready) :
    ∀ v : Value, Action.Returns ready (v.written standard = ·) (conn.quote v)
  | .null => by rw [quote]; exact Action.Returns.pure rfl
  | .boolean b => by rw [quote]; exact Action.Returns.pure rfl
  | .integer n => by rw [quote]; exact Action.Returns.pure rfl
  | .float x => by rw [quote]; exact Action.Returns.pure rfl
  | .text t => by rw [quote]; exact returns_quoteText h t
  | .list [] => by rw [quote]; exact Action.Returns.pure rfl
  | .expression sql => by rw [quote]; exact Action.Returns.pure rfl
  | .list (v :: vs) => by
    rw [quote, Value.written_list]
    refine (returns_quote h v).bind fun first hfirst => (returns_quoteAll h vs).bind fun others hothers => ?_
    rw [List.map_cons, hfirst, hothers]
    exact Action.Returns.pure rfl

theorem returns_quoteAll (h : conn.Doubles standard ready) :
    ∀ vs : List Value, Action.Returns ready (vs.map (Value.written standard) = ·) (conn.quoteAll vs)
  | [] => by rw [quoteAll]; exact Action.Returns.pure rfl
  | v :: vs => by
    rw [quoteAll, List.map_cons]
    refine (returns_quote h v).bind fun first hfirst => (returns_quoteAll h vs).bind fun others hothers => ?_
    rw [hfirst, hothers]
    exact Action.Returns.pure rfl

end

end Connection

/-- With standard strings quotes alone are doubled. -/
theorem Postgres.Session.escapeLiteral_standard (t : Text) : escapeLiteral true t = Text.doubled (· == '\'') t := by
  simp [escapeLiteral]

theorem Recorder.escapes (tablePrefix : Text) : (Recorder.connection tablePrefix).Escapes true fun _ => True := by
  intro t
  rw [Postgres.Session.escapeLiteral_standard]
  by_cases hn : '\x00' ∈ t
  · rw [if_pos hn]
    exact Action.gives_none.2 fun r _ => ⟨_, _, if_pos hn⟩
  · rw [if_neg hn]
    exact Action.gives_some.2 fun r _ => ⟨_, if_neg hn, trivial⟩

namespace Postgres.Session

variable {S : Type} [Server S]

/-- a session from which a link with this setting can be had -/
def CanLink (settings : Settings) (standard : Bool) (session : Session S) : Prop :=
  ∃ link session', theLink settings session = (.ok link, session') ∧ link.standardStrings = standard

theorem theLink_of_held (settings : Settings) {session : Session S} {link : Link} (h : session.link = some link)
    (hc : link.health ≠ .closed) : theLink settings session = (.ok link, session) := by
  simp only [theLink, h, if_neg hc]

/-- A new link is live. -/
theorem openLink_live {settings : Settings} {session session' : Session S} {link : Link}
    (h : openLink settings session = (.ok link, session')) : link.health = .live := by
  obtain ⟨_, _, -, h⟩ := Action.bind_eq_ok h
  obtain ⟨_, _, -, h⟩ := Action.bind_eq_ok h
  obtain ⟨standard, _, -, h⟩ := Action.bind_eq_ok h
  obtain ⟨_, _, -, h⟩ := Action.bind_eq_ok h
  rw [Action.pure_run] at h
  cases h
  rfl

/-- A link is had because it was held and open, or it is new. -/
theorem theLink_cases {settings : Settings} {session session' : Session S} {link : Link}
    (h : theLink settings session = (.ok link, session')) :
    (session.link = some link ∧ link.health ≠ .closed ∧ session' = session) ∨
      ∃ s s', openLink settings s = (.ok link, s') ∧ session' = { s' with link := some link } := by
  simp only [theLink] at h
  split at h
  case h_1 held hl =>
    split at h
    case isFalse hc =>
      cases h
      exact Or.inl ⟨hl, hc, rfl⟩
    case isTrue hc =>
      split at h
      case h_1 ho =>
        cases h
        exact Or.inr ⟨_, _, ho, rfl⟩
      case h_2 => cases h
  case h_2 hl =>
    split at h
    case h_1 ho =>
      cases h
      exact Or.inr ⟨_, _, ho, rfl⟩
    case h_2 => cases h

/-- The link that is had is held from then on. -/
theorem theLink_again {settings : Settings} {session session' : Session S} {link : Link}
    (h : theLink settings session = (.ok link, session')) : theLink settings session' = (.ok link, session') := by
  rcases theLink_cases h with ⟨hl, hc, rfl⟩ | ⟨s, s', ho, rfl⟩
  · exact theLink_of_held settings hl hc
  · refine theLink_of_held settings rfl ?_
    rw [openLink_live ho]
    decide

/-- the sessions from which this link can be had, with this session behind it -/
def Ready (settings : Settings) (link : Link) (had session : Session S) : Prop :=
  theLink settings session = (.ok link, had)

/-- From where a link can be had, texts are escaped for its setting, and then it can be had again. -/
theorem escapes_ready (settings : Settings) (link : Link) (had : Session S) :
    (connection settings : Connection (Session S)).Escapes link.standardStrings (Ready settings link had) := by
  intro t
  change Action.Gives _ (escape settings t) _
  unfold escape
  by_cases hn : '\x00' ∈ t
  · rw [if_pos hn, if_pos hn]
    exact Action.Gives.throw _
  · rw [if_neg hn, if_neg hn]
    exact Action.gives_some.2 fun session hl => ⟨had, Action.bind_of_ok hl, theLink_again hl⟩

theorem escapes (settings : Settings) (standard : Bool) :
    (connection settings : Connection (Session S)).Escapes standard (CanLink settings standard) := by
  intro t session hs
  obtain ⟨link, had, hl, rfl⟩ := hs
  obtain ⟨hbody, hrefused⟩ := escapes_ready settings link had t session hl
  refine ⟨fun body h => ?_, hrefused⟩
  obtain ⟨after, hrun, hready⟩ := hbody body h
  exact ⟨after, hrun, link, had, hready, rfl⟩

/-- A session doubles the marks for the link that it has or gets, whichever that is and whether there is one or not. -/
theorem exists_doubles (settings : Settings) (session : Session S) :
    ∃ standard ready, (connection settings : Connection (Session S)).Doubles standard ready ∧ ready session := by
  -- the setting of the link that can be had; any, if none can be
  have hone : ∃ standard, ∀ link s', theLink settings session = (.ok link, s') → link.standardStrings = standard := by
    rcases hlink : theLink settings session with ⟨answer, s'⟩
    cases answer with
    | error e => exact ⟨true, fun link s hr => by cases hr⟩
    | ok link => exact ⟨link.standardStrings, fun other s hr => by cases hr; rfl⟩
  obtain ⟨standard, hstandard⟩ := hone
  refine ⟨standard, fun s => ∀ link s', theLink settings s = (.ok link, s') → link.standardStrings = standard, ?_,
    hstandard⟩
  intro t s body s' hs hr
  change escape settings t s = (.ok body, s') at hr
  unfold escape at hr
  split at hr
  · cases hr
  · obtain ⟨link, hlink, rfl⟩ := Action.map_eq_ok_iff.1 hr
    have hlinked := hs link s' hlink
    refine ⟨by rw [hlinked], fun other s'' hother => ?_⟩
    rw [theLink_again hlink] at hother
    cases hother
    exact hlinked

end Postgres.Session

end SqlAccess
