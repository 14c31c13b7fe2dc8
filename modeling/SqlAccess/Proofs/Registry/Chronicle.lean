/-
What becomes of connections over a run of a registry.

A registry is watched while calls are made on it in any order: a `Chronicle` is everything that happened, with an entry
for every build that a factory has finished. From the chronicle alone follow the connection a name has (`live`), the
group it has left (`pending`) and the factory for a type (`registered`). The tables of the registry hold just these
(`Reflects`), and every entry fits what stands before it (`Sound`); nobody notices the watch (`Mirrors`). What a call for
a connection can come to is said once (`Asked`). `run_orderly` puts together what this means: one build a name between
two clears, out of the newest group and by the newest factory, one connection for all who ask, the one that the factory
made, and a reason for all who are refused.
-/
import Mathlib.Data.List.Induction
import Mathlib.Tactic.Set
import SqlAccess.Registry.Trial

namespace SqlAccess

namespace Registry

variable {ω κ : Type}

inductive Happening (ω κ : Type) where
  | configured (name : Text) (config : Config)
  | registered (driver : Text) (factory : Factory ω κ)
  | built (name : Text) (config : Config) (factory : Factory ω κ) (handle : κ)
  | answered (name : Text) (answer : Except Error κ)
  | told (name : Text) (contained : Bool)
  | disconnected (closed : Bool)
  | cleared

/-- what happened, oldest first -/
abbrev Chronicle (ω κ : Type) : Type := List (Happening ω κ)

/-! ## What follows from a chronicle -/

namespace Chronicle

def pendingStep (name : Text) (now : Option Config) : Happening ω κ → Option Config
  | .configured other config => if other = name then some config else now
  | .built other _ _ _ => if other = name then none else now
  | _ => now

/-- the newest group given for a name, unless a build has used it up -/
def pending (groups : Table Config) (name : Text) (chronicle : Chronicle ω κ) : Option Config :=
  chronicle.foldl (pendingStep name) (groups.lookup name)

def liveStep (name : Text) (now : Option κ) : Happening ω κ → Option κ
  | .built other _ _ handle => if other = name then some handle else now
  | .cleared => none
  | _ => now

/-- the connection built for a name since the last clear -/
def live (name : Text) (chronicle : Chronicle ω κ) : Option κ := chronicle.foldl (liveStep name) none

def registeredStep (type : Text) (now : Option (Factory ω κ)) : Happening ω κ → Option (Factory ω κ)
  | .registered driver factory => if driver.lower = type.lower then some factory else now
  | _ => now

/-- the factory registered last for a type, in any case -/
def registered (postgres : Factory ω κ) (type : Text) (chronicle : Chronicle ω κ) : Option (Factory ω κ) :=
  chronicle.foldl (registeredStep type) (if postgresTypes.elem type.lower then some postgres else none)

theorem pending_concat (groups : Table Config) (name : Text) (chronicle : Chronicle ω κ) (entry : Happening ω κ) :
    pending groups name (chronicle ++ [entry]) = pendingStep name (pending groups name chronicle) entry := by
  rw [pending, List.foldl_append]
  rfl

theorem live_concat (name : Text) (chronicle : Chronicle ω κ) (entry : Happening ω κ) :
    live name (chronicle ++ [entry]) = liveStep name (live name chronicle) entry := by
  rw [live, List.foldl_append]
  rfl

theorem registered_concat (postgres : Factory ω κ) (type : Text) (chronicle : Chronicle ω κ) (entry : Happening ω κ) :
    registered postgres type (chronicle ++ [entry]) =
      registeredStep type (registered postgres type chronicle) entry := by
  rw [registered, List.foldl_append]
  rfl

variable (postgres : Factory ω κ) (groups : Table Config)

/-- Why a name is refused a connection: it has no group, the group has no type, nothing is registered for the type, or
the factory that is has answered with this very error. -/
inductive Denied (before : Chronicle ω κ) (name : Text) : Error → Prop
  | unknown : pending groups name before = none → Denied before name (.configuration (.unknownConnection name))
  | untyped {config : Config} : pending groups name before = some config →
      config.driver = none ∨ config.driver = some [] → Denied before name (.configuration (.typeMissing name))
  | unregistered {config : Config} {type : Text} : pending groups name before = some config →
      config.driver = some type → type ≠ [] → registered postgres type before = none →
      Denied before name (.configuration (.unknownType type.lower name))
  | failed {config : Config} {type : Text} {factory : Factory ω κ} {e : Error} {world world' : ω} :
      pending groups name before = some config → config.driver = some type →
      registered postgres type before = some factory → factory name config world = (.error e, world') →
      Denied before name e

/-- what an entry says is so behind what stands before it -/
def Fits (before : Chronicle ω κ) : Happening ω κ → Prop
  | .built name config factory handle =>
    live name before = none ∧
      (pending groups name before = some config ∧
        ∃ type, config.driver = some type ∧ registered postgres type before = some factory) ∧
      ∃ world world', factory name config world = (.ok handle, world')
  | .answered name (.ok handle) => live name before = some handle
  | .answered name (.error e) => live name before = none ∧ Denied postgres groups before name e
  | .told name contained => contained = ((live name before).isSome || (pending groups name before).isSome)
  | _ => True

/-- every connection that is built is handed out at once -/
def Delivered (chronicle : Chronicle ω κ) : Prop :=
  ∀ before name config factory handle after, chronicle = before ++ .built name config factory handle :: after →
    ∃ later, after = .answered name (.ok handle) :: later

/-- every entry fits what stands before it -/
def Sound (chronicle : Chronicle ω κ) : Prop :=
  ∀ before entry after, chronicle = before ++ entry :: after → Fits postgres groups before entry

variable {postgres groups}

/-- An entry of a chronicle with one entry more is that entry, or it was there before. -/
theorem split_concat {chronicle before after : Chronicle ω κ} {last entry : Happening ω κ}
    (h : chronicle ++ [last] = before ++ entry :: after) : (before = chronicle ∧ entry = last ∧ after = []) ∨
      ∃ earlier, after = earlier ++ [last] ∧ chronicle = before ++ entry :: earlier := by
  rcases List.eq_nil_or_concat after with rfl | ⟨earlier, other, rfl⟩
  · obtain ⟨hbefore, hlast⟩ := List.append_inj' h rfl
    exact Or.inl ⟨hbefore.symm, (List.cons.inj hlast).1.symm, rfl⟩
  · have h' : chronicle ++ [last] = (before ++ entry :: earlier) ++ [other] := by simpa using h
    obtain ⟨hinit, hlast⟩ := List.append_inj' h' rfl
    exact Or.inr ⟨earlier, by rw [hlast, List.concat_eq_append], hinit⟩

theorem sound_nil : Sound postgres groups ([] : Chronicle ω κ) := by
  intro before entry after h
  cases before <;> cases h

theorem Sound.concat {chronicle : Chronicle ω κ} {entry : Happening ω κ} (h : Sound postgres groups chronicle)
    (hentry : Fits postgres groups chronicle entry) : Sound postgres groups (chronicle ++ [entry]) := by
  intro before other after hsplit
  rcases split_concat hsplit with ⟨rfl, rfl, -⟩ | ⟨earlier, -, hearlier⟩
  · exact hentry
  · exact h before other earlier hearlier

theorem delivered_nil : Delivered ([] : Chronicle ω κ) := by
  intro before name config factory handle after h
  cases before <;> cases h

theorem Delivered.concat {chronicle : Chronicle ω κ} {entry : Happening ω κ} (h : Delivered chronicle)
    (hentry : ∀ name config factory handle, .built name config factory handle ≠ entry) :
    Delivered (chronicle ++ [entry]) := by
  intro before name config factory handle after hsplit
  rcases split_concat hsplit with ⟨-, hbuilt, -⟩ | ⟨earlier, rfl, hearlier⟩
  · exact absurd hbuilt (hentry name config factory handle)
  · obtain ⟨later, rfl⟩ := h before name config factory handle earlier hearlier
    exact ⟨later ++ [entry], rfl⟩

/-- A build with its answer behind it. -/
theorem Delivered.build {chronicle : Chronicle ω κ} (h : Delivered chronicle) (name : Text) (config : Config)
    (factory : Factory ω κ) (handle : κ) :
    Delivered (chronicle ++ [.built name config factory handle] ++ [.answered name (.ok handle)]) := by
  intro before other config' factory' handle' after hsplit
  rcases split_concat hsplit with ⟨-, hbuilt, -⟩ | ⟨earlier, rfl, hearlier⟩
  · cases hbuilt
  rcases split_concat hearlier with ⟨-, hbuilt, rfl⟩ | ⟨oldest, rfl, holdest⟩
  · cases hbuilt
    exact ⟨[], rfl⟩
  · obtain ⟨later, rfl⟩ := h before other config' factory' handle' oldest holdest
    exact ⟨later ++ [.built name config factory handle, .answered name (.ok handle)], by simp⟩

/-- A build uses the group up. -/
theorem pending_built (groups : Table Config) (before : Chronicle ω κ) (name : Text) (config : Config)
    (factory : Factory ω κ) (handle : κ) :
    pending groups name (before ++ [.built name config factory handle]) = none := by
  rw [pending_concat]
  exact if_pos rfl

/-- A build makes the connection live. -/
theorem live_built (before : Chronicle ω κ) (name : Text) (config : Config) (factory : Factory ω κ) (handle : κ) :
    live name (before ++ [.built name config factory handle]) = some handle := by
  rw [live_concat]
  exact if_pos rfl

/-- A connection that is live was built, and nothing has been cleared since. -/
theorem exists_built_of_live {name : Text} {handle : κ} {chronicle : Chronicle ω κ}
    (h : live name chronicle = some handle) : ∃ before config factory between,
      chronicle = before ++ .built name config factory handle :: between ∧ .cleared ∉ between := by
  induction chronicle using List.reverseRecOn with
  | nil => cases h
  | append_singleton chronicle entry ih =>
    rw [live_concat] at h
    have earlier (hentry : .cleared ≠ entry) (hlive : live name chronicle = some handle) :
        ∃ before config factory between,
          chronicle ++ [entry] = before ++ .built name config factory handle :: between ∧ .cleared ∉ between := by
      obtain ⟨before, config, factory, between, rfl, hclear⟩ := ih hlive
      exact ⟨before, config, factory, between ++ [entry], by simp, by simp [hclear, hentry]⟩
    cases entry with
    | built other config factory built =>
      by_cases hother : other = name
      · subst hother
        rw [liveStep, if_pos rfl] at h
        cases h
        exact ⟨chronicle, config, factory, [], rfl, by simp⟩
      · rw [liveStep, if_neg hother] at h
        exact earlier nofun h
    | cleared => cases h
    | _ => exact earlier nofun h

/-- Without a new group a name that has none gets none. -/
theorem pending_between {name : Text} (before between : Chronicle ω κ) (h : pending groups name before = none)
    (hbetween : ∀ config, .configured name config ∉ between) : pending groups name (before ++ between) = none := by
  induction between generalizing before with
  | nil => rwa [List.append_nil]
  | cons entry between ih =>
    have hentry : pending groups name (before ++ [entry]) = none := by
      rw [pending_concat, h]
      cases entry with
      | configured other config =>
        have hother : other ≠ name := by
          intro hname
          exact hbetween config (hname ▸ List.mem_cons_self)
        exact if_neg hother
      | built other config factory handle => exact ite_self none
      | _ => rfl
    have hrest := ih (before ++ [entry]) hentry fun config hmem => hbetween config (List.mem_cons_of_mem _ hmem)
    rwa [List.append_assoc] at hrest

/-- A connection lives until the next clear, for nothing is built where one lives. -/
theorem Sound.live_between {name : Text} {handle : κ} {chronicle before between after : Chronicle ω κ}
    (h : Sound postgres groups chronicle) (hsplit : chronicle = before ++ (between ++ after))
    (hlive : live name before = some handle) (hclear : .cleared ∉ between) :
    live name (before ++ between) = some handle := by
  induction between generalizing before with
  | nil => rwa [List.append_nil]
  | cons entry between ih =>
    have hentry : live name (before ++ [entry]) = some handle := by
      rw [live_concat, hlive]
      cases entry with
      | built other config factory built =>
        have hother : other ≠ name := by
          intro hname
          have hfits : live other before = none := (h before _ _ hsplit).1
          rw [hname, hlive] at hfits
          cases hfits
        exact if_neg hother
      | cleared => exact absurd List.mem_cons_self hclear
      | _ => rfl
    have hrest := ih (by simpa using hsplit) hentry fun hmem => hclear (List.mem_cons_of_mem _ hmem)
    rwa [List.append_assoc] at hrest

/-- Without a group there is one reason to refuse a connection. -/
theorem Denied.of_not_pending {before : Chronicle ω κ} {name : Text} {e : Error}
    (h : Denied postgres groups before name e) (hpending : pending groups name before = none) :
    e = .configuration (.unknownConnection name) := by
  cases h with
  | unknown => rfl
  | untyped hconfig => cases hpending.symm.trans hconfig
  | unregistered hconfig => cases hpending.symm.trans hconfig
  | failed hconfig => cases hpending.symm.trans hconfig

/-- Without a group and without a connection a name gets no connection before it gets a group. -/
theorem Sound.not_live_between {name : Text} {chronicle before between after : Chronicle ω κ}
    (h : Sound postgres groups chronicle) (hsplit : chronicle = before ++ (between ++ after))
    (hpending : pending groups name before = none) (hlive : live name before = none)
    (hbetween : ∀ config, .configured name config ∉ between) : live name (before ++ between) = none := by
  induction between generalizing before with
  | nil => rwa [List.append_nil]
  | cons entry between ih =>
    have hpending' : pending groups name (before ++ [entry]) = none := by
      refine pending_between before [entry] hpending fun config hmem => hbetween config ?_
      exact List.mem_cons.2 (Or.inl (List.mem_singleton.1 hmem))
    have hentry : live name (before ++ [entry]) = none := by
      rw [live_concat, hlive]
      cases entry with
      | built other config factory built =>
        have hother : other ≠ name := by
          intro hname
          have hfits : pending groups other before = some config := (h before _ _ hsplit).2.1.1
          rw [hname, hpending] at hfits
          cases hfits
        exact if_neg hother
      | _ => rfl
    have hrest := ih (by simpa using hsplit) hpending' hentry fun config hmem =>
      hbetween config (List.mem_cons_of_mem _ hmem)
    rwa [List.append_assoc] at hrest

/-- Who asks for a name that was answered before gets the same answer, as long as nothing is cleared. -/
theorem Sound.answer_again {name : Text} {handle : κ} {answer : Except Error κ}
    {chronicle before between after : Chronicle ω κ} (h : Sound postgres groups chronicle)
    (hsplit : chronicle = before ++ .answered name (.ok handle) :: (between ++ .answered name answer :: after))
    (hclear : .cleared ∉ between) : answer = .ok handle := by
  have hfirst : live name before = some handle := h before _ _ hsplit
  set asked := before ++ .answered name (.ok handle) :: between with hasked
  have hstill : live name asked = some handle := by
    refine h.live_between hsplit hfirst fun hmem => ?_
    rcases List.mem_cons.1 hmem with hmem | hmem
    · cases hmem
    · exact hclear hmem
  have hagain := h asked (.answered name answer) after (by simpa [hasked] using hsplit)
  cases answer with
  | ok other =>
    have hother : live name asked = some other := hagain
    rw [hstill] at hother
    cases hother
    rfl
  | error e =>
    have hnone : live name asked = none := hagain.1
    rw [hstill] at hnone
    cases hnone

/-- Between two builds of a name there is a clear. -/
theorem Sound.cleared_between {name : Text} {config config' : Config} {factory factory' : Factory ω κ}
    {handle handle' : κ} {chronicle before between after : Chronicle ω κ} (h : Sound postgres groups chronicle)
    (hsplit : chronicle = before ++ .built name config factory handle ::
      (between ++ .built name config' factory' handle' :: after)) : .cleared ∈ between := by
  by_contra hclear
  have hlive := live_built before name config factory handle
  have hstill : live name (before ++ [.built name config factory handle] ++ between) = some handle :=
    h.live_between (by simpa using hsplit) hlive hclear
  have hnone : live name (before ++ [.built name config factory handle] ++ between) = none :=
    (h _ (.built name config' factory' handle') after (by simpa using hsplit)).1
  rw [hstill] at hnone
  cases hnone

/-- A name that was built and cleared, and has been given no group since the build, is not known. -/
theorem Sound.answer_unknown {name : Text} {config : Config} {factory : Factory ω κ} {handle : κ}
    {answer : Except Error κ} {chronicle before between later after : Chronicle ω κ}
    (h : Sound postgres groups chronicle)
    (hsplit : chronicle = before ++ .built name config factory handle ::
      (between ++ .cleared :: (later ++ .answered name answer :: after)))
    (hgiven : ∀ given, .configured name given ∉ between ++ later) :
    answer = .error (.configuration (.unknownConnection name)) := by
  have hbuilt := pending_built groups before name config factory handle
  set cleared := before ++ [.built name config factory handle] ++ (between ++ [.cleared]) with hcleared
  have hspent : pending groups name cleared = none := by
    refine pending_between _ _ hbuilt fun given hmem => ?_
    rcases List.mem_append.1 hmem with hmem | hmem
    · exact hgiven given (List.mem_append_left _ hmem)
    · cases List.mem_singleton.1 hmem
  have hgone : live name cleared = none := by
    rw [hcleared, ← List.append_assoc, live_concat]
    rfl
  have hlater : ∀ given, .configured name given ∉ later := fun given hmem =>
    hgiven given (List.mem_append_right _ hmem)
  have hnot : live name (cleared ++ later) = none :=
    h.not_live_between (by simpa [hcleared] using hsplit) hspent hgone hlater
  have hanswer := h (cleared ++ later) (.answered name answer) after (by simpa [hcleared] using hsplit)
  cases answer with
  | ok other =>
    have hother : live name (cleared ++ later) = some other := hanswer
    rw [hnot] at hother
    cases hother
  | error e => rw [hanswer.2.of_not_pending (pending_between _ later hspent hlater)]

end Chronicle

/-! ## A registry under watch -/

structure Watched (ω κ : Type) where
  world : ω
  chronicle : Chronicle ω κ

namespace Watched

def enter (w : Watched ω κ) (entry : Happening ω κ) : Watched ω κ := { w with chronicle := w.chronicle ++ [entry] }

instance [ConnectionWorld ω κ] : ConnectionWorld (Watched ω κ) κ where
  note event w := { w with world := ConnectionWorld.note κ event w.world }
  disconnect handle w :=
    let (closed, world) := ConnectionWorld.disconnect handle w.world
    (closed, { w with world })

/-- the factory, with an entry for every build it finishes -/
def watch (factory : Factory ω κ) : Factory (Watched ω κ) κ := fun name config w =>
  match factory name config w.world with
  | (.error e, world) => (.error e, { w with world })
  | (.ok handle, world) => (.ok handle, { w with world }.enter (.built name config factory handle))

end Watched

inductive Call (ω κ : Type) where
  | configure (name : Text) (config : Config)
  | register (driver : Text) (factory : Factory ω κ)
  | connection (name : Text)
  | contains (name : Text)
  | disconnectAll
  | clear

structure Stage (ω κ : Type) where
  registry : Registry (Watched ω κ) κ
  world : Watched ω κ

namespace Stage

open Watched

def start (postgres : Factory ω κ) (groups : Table Config) (world : ω) : Stage ω κ :=
  ⟨.of (watch postgres) groups, ⟨world, []⟩⟩

/-- one call, and an entry for what it did or answered -/
def step [ConnectionWorld ω κ] (s : Stage ω κ) : Call ω κ → Stage ω κ
  | .configure name config => ⟨s.registry.configure name config, s.world.enter (.configured name config)⟩
  | .register driver factory => ⟨s.registry.register driver (watch factory), s.world.enter (.registered driver factory)⟩
  | .connection name =>
    let (answer, registry, world) := s.registry.connection name s.world
    ⟨registry, world.enter (.answered name answer)⟩
  | .contains name => ⟨s.registry, s.world.enter (.told name (s.registry.contains name))⟩
  | .disconnectAll =>
    let (closed, world) := s.registry.disconnectAll s.world
    ⟨s.registry, world.enter (.disconnected closed)⟩
  | .clear =>
    let (registry, world) := s.registry.clear s.world
    ⟨registry, world.enter .cleared⟩

def run [ConnectionWorld ω κ] (s : Stage ω κ) (calls : List (Call ω κ)) : Stage ω κ := calls.foldl step s

end Stage

/-! ## The tables hold what the chronicle says -/

/-- what a plan is made of -/
theorem plan_eq_ok {registry : Registry ω κ} {name driver : Text} {config : Config} {factory : Factory ω κ}
    (h : registry.plan name = .ok (config, driver, factory)) : registry.configs.lookup name = some config ∧
      ∃ type, config.driver = some type ∧ registry.drivers.lookup type.lower = some factory := by
  unfold plan at h
  split at h
  case h_1 => cases h
  case h_2 config' hconfig =>
    split at h
    case h_1 => cases h
    case h_2 type htype =>
      split at h
      case h_1 => cases h
      case h_2 factory' hfactory =>
        cases h
        refine ⟨hconfig, type, ?_, hfactory⟩
        unfold Config.driverName at htype
        split at htype
        case h_1 hdriver =>
          cases htype
          exact hdriver
        case h_2 => cases htype

theorem plan_of_not_configured {registry : Registry ω κ} {name : Text} (h : registry.configs.lookup name = none) :
    registry.plan name = .error (.configuration (.unknownConnection name)) := by
  rw [plan, h]

/-- what is missing before any factory is asked -/
inductive Unplanned (registry : Registry ω κ) (name : Text) : Error → Prop
  | unknown : registry.configs.lookup name = none → Unplanned registry name (.configuration (.unknownConnection name))
  | untyped {config : Config} : registry.configs.lookup name = some config →
      config.driver = none ∨ config.driver = some [] → Unplanned registry name (.configuration (.typeMissing name))
  | unregistered {config : Config} {type : Text} : registry.configs.lookup name = some config →
      config.driver = some type → type ≠ [] → registry.drivers.lookup type.lower = none →
      Unplanned registry name (.configuration (.unknownType type.lower name))

theorem plan_eq_error_iff {registry : Registry ω κ} {name : Text} {e : Error} :
    registry.plan name = .error e ↔ registry.Unplanned name e := by
  constructor
  · intro h
    unfold plan at h
    split at h
    case h_1 hconfig =>
      cases h
      exact .unknown hconfig
    case h_2 config hconfig =>
      cases hdriver : config.driver with
      | none =>
        simp only [Config.driverName, hdriver] at h
        cases h
        exact .untyped hconfig (Or.inl hdriver)
      | some type =>
        cases type with
        | nil =>
          simp only [Config.driverName, hdriver] at h
          cases h
          exact .untyped hconfig (Or.inr hdriver)
        | cons c rest =>
          simp only [Config.driverName, hdriver] at h
          split at h
          case h_1 hfactory =>
            cases h
            exact .unregistered hconfig hdriver (by simp) hfactory
          case h_2 => cases h
  · intro h
    cases h with
    | unknown hconfig => exact plan_of_not_configured hconfig
    | untyped hconfig hdriver =>
      simp only [plan, hconfig, Config.driverName]
      rcases hdriver with hdriver | hdriver <;> simp only [hdriver]
    | @unregistered config type hconfig hdriver htype hfactory =>
      obtain ⟨c, rest, rfl⟩ := List.exists_cons_of_ne_nil htype
      simp only [plan, hconfig, Config.driverName, hdriver, hfactory]

/-- Entries that are all the same are found by their keys. -/
theorem lookup_sameForAll {α : Type} (types : List Text) (value : α) (type : Text) :
    List.lookup type (Table.ofList (types.map fun key => (key, value))) =
      if types.elem type then some value else none := by
  induction types using List.reverseRecOn with
  | nil => rfl
  | append_singleton types last ih =>
    rw [Table.ofList, List.map_append, List.foldl_append]
    change List.lookup type (Table.put last value (Table.ofList _)) = _
    rw [Table.lookup_put, ih]
    by_cases hlast : type = last
    · simp [hlast]
    · simp [hlast]

open Chronicle Watched

/-- the tables of a registry hold what follows from its chronicle -/
structure Stage.Reflects (postgres : Factory ω κ) (groups : Table Config) (s : Stage ω κ) : Prop where
  configs : ∀ name, s.registry.configs.lookup name = pending groups name s.world.chronicle
  instances : ∀ name, s.registry.instances.lookup name = live name s.world.chronicle
  drivers : ∀ type : Text, s.registry.drivers.lookup type.lower =
    (registered postgres type s.world.chronicle).map watch
  sound : Sound postgres groups s.world.chronicle

variable {postgres : Factory ω κ} {groups : Table Config} {s : Stage ω κ}

theorem Stage.reflects_start (world : ω) : (Stage.start postgres groups world).Reflects postgres groups where
  configs := fun name => rfl
  instances := fun name => rfl
  drivers := by
    intro type
    simp only [start, of, lookup_sameForAll, registered, List.foldl_nil]
    split <;> rfl
  sound := sound_nil

/-- Tables that change with an entry as what follows from the chronicle does. -/
theorem Stage.Reflects.enter {s' : Stage ω κ} (h : s.Reflects postgres groups) (entry : Happening ω κ)
    (hentry : s'.world.chronicle = s.world.chronicle ++ [entry])
    (hfits : Fits postgres groups s.world.chronicle entry)
    (hconfigs : ∀ name, s'.registry.configs.lookup name =
      pendingStep name (s.registry.configs.lookup name) entry)
    (hinstances : ∀ name, s'.registry.instances.lookup name =
      liveStep name (s.registry.instances.lookup name) entry)
    (hdrivers : ∀ type : Text, s'.registry.drivers.lookup type.lower =
      (registeredStep type (registered postgres type s.world.chronicle) entry).map watch) :
    s'.Reflects postgres groups where
  configs := by
    intro name
    rw [hconfigs, h.configs, hentry, pending_concat]
  instances := by
    intro name
    rw [hinstances, h.instances, hentry, live_concat]
  drivers := by
    intro type
    rw [hdrivers, hentry, registered_concat]
  sound := hentry ▸ h.sound.concat hfits

/-- What is missing in the tables is missing in the chronicle. -/
theorem Stage.Reflects.denied (h : s.Reflects postgres groups) {name : Text} {e : Error}
    (hmissing : s.registry.Unplanned name e) : Denied postgres groups s.world.chronicle name e := by
  cases hmissing with
  | unknown hconfig => exact .unknown ((h.configs name).symm.trans hconfig)
  | untyped hconfig hdriver => exact .untyped ((h.configs name).symm.trans hconfig) hdriver
  | unregistered hconfig hdriver htype hnone =>
    rw [h.drivers, Option.map_eq_none_iff] at hnone
    exact .unregistered ((h.configs name).symm.trans hconfig) hdriver htype hnone

/-- What a call for a connection comes to: the one there is, a refusal, or a build, which leaves two entries, the
factory's own and the answer. -/
inductive Stage.Asked (postgres : Factory ω κ) (groups : Table Config) (s : Stage ω κ) (name : Text) :
    Stage ω κ → Prop
  | live {handle : κ} : Fits postgres groups s.world.chronicle (.answered name (.ok handle)) →
      Asked postgres groups s name ⟨s.registry, s.world.enter (.answered name (.ok handle))⟩
  | refused {e : Error} {world : ω} : Fits postgres groups s.world.chronicle (.answered name (.error e)) →
      Asked postgres groups s name ⟨s.registry, { s.world with world }.enter (.answered name (.error e))⟩
  | built {config : Config} {factory : Factory ω κ} {handle : κ} {world : ω} :
      Fits postgres groups s.world.chronicle (.built name config factory handle) →
      Asked postgres groups s name
        ⟨{ s.registry with
            configs := s.registry.configs.erase name
            instances := Table.put name handle s.registry.instances },
          ({ s.world with world }.enter (.built name config factory handle)).enter (.answered name (.ok handle))⟩

theorem Stage.Reflects.of_asked (h : s.Reflects postgres groups) {name : Text} {s' : Stage ω κ}
    (hasked : s.Asked postgres groups name s') : s'.Reflects postgres groups := by
  cases hasked with
  | @live handle hfits =>
    exact h.enter (.answered name (.ok handle)) rfl hfits (fun _ => rfl) (fun _ => rfl) h.drivers
  | @refused e world hfits =>
    exact h.enter (.answered name (.error e)) rfl hfits (fun _ => rfl) (fun _ => rfl) h.drivers
  | @built config factory handle world hfits =>
    have hbuilt : Stage.Reflects postgres groups
        ⟨{ s.registry with
            configs := s.registry.configs.erase name
            instances := Table.put name handle s.registry.instances },
          { s.world with world }.enter (.built name config factory handle)⟩ := by
      refine h.enter (.built name config factory handle) rfl hfits (fun other => ?_) (fun other => ?_) h.drivers
      · simp only [Table.lookup_erase, pendingStep, eq_comm]
      · simp only [Table.lookup_put, liveStep, eq_comm]
    exact hbuilt.enter (.answered name (.ok handle)) rfl (live_built ..) (fun _ => rfl) (fun _ => rfl) hbuilt.drivers

/-! ## Watching changes nothing -/

/-- a registry with its world, and the same under watch -/
structure Stage.Mirrors (registry : Registry ω κ) (world : ω) (s : Stage ω κ) : Prop where
  configs : s.registry.configs = registry.configs
  instances : s.registry.instances = registry.instances
  drivers : ∀ type, s.registry.drivers.lookup type = (registry.drivers.lookup type).map watch
  world : s.world.world = world

variable {registry : Registry ω κ} {world : ω}

theorem Stage.mirrors_start (world : ω) :
    (Stage.start postgres groups world).Mirrors (.of postgres groups) world where
  configs := rfl
  instances := rfl
  drivers := by
    intro type
    simp only [start, of, lookup_sameForAll]
    split <;> rfl
  world := rfl

theorem Stage.Mirrors.plan (h : s.Mirrors registry world) (name : Text) :
    s.registry.plan name = (registry.plan name).map fun planned => (planned.1, planned.2.1, watch planned.2.2) := by
  unfold Registry.plan
  rw [h.configs]
  cases registry.configs.lookup name with
  | none => rfl
  | some config =>
    cases hdriver : config.driverName name with
    | error e => simp only [hdriver, Except.map]
    | ok driver =>
      simp only [hdriver, h.drivers]
      cases registry.drivers.lookup driver.lower <;> rfl

section Run

variable [ConnectionWorld ω κ]

theorem chronicle_disconnectEach (connections : List (Text × κ)) (w : Watched ω κ) :
    (disconnectEach connections w).2.chronicle = w.chronicle := by
  induction connections generalizing w with
  | nil => rfl
  | cons connection connections ih => exact ih _

theorem chronicle_releaseEach (connections : List (Text × κ)) (w : Watched ω κ) :
    (releaseEach connections w).chronicle = w.chronicle := by
  induction connections generalizing w with
  | nil => rfl
  | cons connection connections ih => exact ih _

theorem Stage.Reflects.asked (h : s.Reflects postgres groups) (name : Text) :
    s.Asked postgres groups name (s.step (.connection name)) := by
  simp only [step, Registry.connection]
  cases hlive : s.registry.instances.lookup name with
  | some handle => exact .live ((h.instances name).symm.trans hlive)
  | none =>
    have hnone : Chronicle.live name s.world.chronicle = none := (h.instances name).symm.trans hlive
    cases hplan : s.registry.plan name with
    | error e => exact .refused ⟨hnone, h.denied (plan_eq_error_iff.1 hplan)⟩
    | ok planned =>
      obtain ⟨config, driver, watched⟩ := planned
      obtain ⟨hconfig, type, htype, hwatched⟩ := plan_eq_ok hplan
      have hpending : pending groups name s.world.chronicle = some config := (h.configs name).symm.trans hconfig
      rw [h.drivers type] at hwatched
      obtain ⟨factory, hfactory, rfl⟩ := Option.map_eq_some_iff.1 hwatched
      rcases hrun : factory name config s.world.world with ⟨answer, world⟩
      cases answer with
      | error e =>
        have hbuild : watch factory name config s.world = (.error e, { s.world with world }) := by
          rw [watch, hrun]
        simp only [hbuild]
        exact .refused ⟨hnone, .failed hpending htype hfactory hrun⟩
      | ok handle =>
        have hbuild : watch factory name config s.world =
            (.ok handle, { s.world with world }.enter (.built name config factory handle)) := by
          rw [watch, hrun]
        simp only [hbuild]
        exact .built ⟨hnone, ⟨hpending, type, htype, hfactory⟩, _, _, hrun⟩

theorem Stage.Reflects.step (h : s.Reflects postgres groups) (call : Call ω κ) :
    (s.step call).Reflects postgres groups := by
  cases call with
  | connection name => exact h.of_asked (h.asked name)
  | configure name config =>
    refine h.enter (.configured name config) rfl trivial (fun other => ?_) (fun other => rfl) h.drivers
    simp only [Stage.step, configure, Table.lookup_put, pendingStep, eq_comm]
  | register driver factory =>
    refine h.enter (.registered driver factory) rfl trivial (fun other => rfl) (fun other => rfl) fun type => ?_
    simp only [Stage.step, register, Table.lookup_put, registeredStep, h.drivers, eq_comm]
    split <;> rfl
  | contains name =>
    refine h.enter (.told name (s.registry.contains name)) rfl ?_ (fun other => rfl) (fun other => rfl) h.drivers
    simp only [Fits, Registry.contains, h.instances, h.configs]
  | disconnectAll =>
    refine h.enter (.disconnected (s.registry.disconnectAll s.world).1) ?_ trivial (fun other => rfl) (fun other => rfl)
      h.drivers
    simp only [Stage.step, Watched.enter]
    rw [disconnectAll, chronicle_disconnectEach]
  | clear =>
    refine h.enter .cleared ?_ trivial (fun other => rfl) (fun other => rfl) h.drivers
    simp only [Stage.step, Watched.enter]
    rw [clear, chronicle_releaseEach]

theorem Stage.Reflects.delivered_step (h : s.Reflects postgres groups) (hdelivered : Delivered s.world.chronicle)
    (call : Call ω κ) : Delivered (s.step call).world.chronicle := by
  cases call with
  | connection name =>
    have hasked := h.asked name
    generalize s.step (.connection name) = s' at hasked
    cases hasked with
    | live => exact hdelivered.concat nofun
    | refused => exact hdelivered.concat nofun
    | built => exact hdelivered.build _ _ _ _
  | disconnectAll =>
    simp only [Stage.step, Watched.enter, disconnectAll, chronicle_disconnectEach]
    exact hdelivered.concat nofun
  | clear =>
    simp only [Stage.step, Watched.enter, clear, chronicle_releaseEach]
    exact hdelivered.concat nofun
  | _ => exact hdelivered.concat nofun

theorem Stage.Reflects.run (h : s.Reflects postgres groups) (calls : List (Call ω κ)) :
    (s.run calls).Reflects postgres groups := by
  induction calls generalizing s with
  | nil => exact h
  | cons call calls ih => exact ih (h.step call)

theorem Stage.Reflects.delivered_run (h : s.Reflects postgres groups) (hdelivered : Delivered s.world.chronicle)
    (calls : List (Call ω κ)) : Delivered (s.run calls).world.chronicle := by
  induction calls generalizing s with
  | nil => exact hdelivered
  | cons call calls ih => exact ih (h.step call) (h.delivered_step hdelivered call)

/-- one call on a registry that nobody watches -/
def Call.make (registry : Registry ω κ) (world : ω) : Call ω κ → Registry ω κ × ω
  | .configure name config => (registry.configure name config, world)
  | .register driver factory => (registry.register driver factory, world)
  | .connection name => (registry.connection name world).2
  | .contains _ => (registry, world)
  | .disconnectAll => (registry, (registry.disconnectAll world).2)
  | .clear => registry.clear world

theorem world_disconnectEach (connections : List (Text × κ)) (w : Watched ω κ) :
    (disconnectEach connections w).2.world = (disconnectEach connections w.world).2 := by
  induction connections generalizing w with
  | nil => rfl
  | cons connection connections ih => exact ih _

theorem world_releaseEach (connections : List (Text × κ)) (w : Watched ω κ) :
    (releaseEach connections w).world = releaseEach connections w.world := by
  induction connections generalizing w with
  | nil => rfl
  | cons connection connections ih => exact ih _

/-- Who asks for a connection gets the same answer. -/
theorem Stage.Mirrors.connection (h : s.Mirrors registry world) (name : Text) :
    (s.registry.connection name s.world).1 = (registry.connection name world).1 ∧
      (s.step (.connection name)).Mirrors (registry.connection name world).2.1
        (registry.connection name world).2.2 := by
  have hplan := h.plan name
  simp only [Stage.step, Registry.connection, h.instances]
  cases registry.instances.lookup name with
  | some handle => exact ⟨rfl, h.configs, h.instances, h.drivers, h.world⟩
  | none =>
    cases hplanned : registry.plan name with
    | error e =>
      rw [hplanned] at hplan
      simp only [hplan, Except.map]
      exact ⟨trivial, h.configs, h.instances, h.drivers, h.world⟩
    | ok planned =>
      obtain ⟨config, driver, factory⟩ := planned
      rw [hplanned] at hplan
      simp only [hplan, Except.map]
      rcases hrun : factory name config world with ⟨answer, world'⟩
      cases answer with
      | error e =>
        have hbuild : watch factory name config s.world = (.error e, { s.world with world := world' }) := by
          rw [watch, h.world, hrun]
        simp only [hbuild]
        exact ⟨trivial, h.configs, h.instances, h.drivers, rfl⟩
      | ok handle =>
        have hbuild : watch factory name config s.world =
            (.ok handle, { s.world with world := world' }.enter (.built name config factory handle)) := by
          rw [watch, h.world, hrun]
        simp only [hbuild]
        exact ⟨trivial, congrArg (Table.erase · name) h.configs, rfl, h.drivers, rfl⟩

theorem Stage.Mirrors.step (h : s.Mirrors registry world) (call : Call ω κ) :
    (s.step call).Mirrors (call.make registry world).1 (call.make registry world).2 := by
  cases call with
  | connection name => exact (h.connection name).2
  | configure name config => exact ⟨congrArg (Table.put name config) h.configs, h.instances, h.drivers, h.world⟩
  | register driver factory =>
    refine ⟨h.configs, h.instances, fun type => ?_, h.world⟩
    simp only [Stage.step, Call.make, register, Table.lookup_put, h.drivers]
    split <;> rfl
  | contains name => exact ⟨h.configs, h.instances, h.drivers, h.world⟩
  | disconnectAll =>
    refine ⟨h.configs, h.instances, h.drivers, ?_⟩
    simp only [Stage.step, Call.make, Watched.enter, disconnectAll]
    rw [world_disconnectEach, h.instances, h.world]
  | clear =>
    refine ⟨h.configs, rfl, h.drivers, ?_⟩
    simp only [Stage.step, Call.make, Watched.enter, clear]
    rw [world_releaseEach, h.instances, h.world]

/-- Under watch a registry goes through the same states. -/
theorem Stage.Mirrors.run (h : s.Mirrors registry world) (calls : List (Call ω κ)) :
    (s.run calls).Mirrors (calls.foldl (fun now call => call.make now.1 now.2) (registry, world)).1
      (calls.foldl (fun now call => call.make now.1 now.2) (registry, world)).2 := by
  induction calls generalizing s registry world with
  | nil => exact h
  | cons call calls ih => exact ih (h.step call)

/-! ## What a run comes to -/

/-- what a chronicle and the registry behind it have to do with each other -/
structure Orderly (postgres : Factory ω κ) (groups : Table Config) (registry : Registry (Watched ω κ) κ)
    (chronicle : Chronicle ω κ) : Prop where
  /-- what was handed out once is handed out to all who ask before the next clear -/
  same : ∀ before name handle between answer after,
    chronicle = before ++ .answered name (.ok handle) :: (between ++ .answered name answer :: after) →
    .cleared ∉ between → answer = .ok handle
  /-- a name is built once between two clears -/
  once : ∀ before name config factory handle between config' factory' handle' after,
    chronicle = before ++ .built name config factory handle ::
      (between ++ .built name config' factory' handle' :: after) →
    .cleared ∈ between
  /-- a build takes the newest group that no build has used up, and the newest factory for its type -/
  source : ∀ before name config factory handle after,
    chronicle = before ++ .built name config factory handle :: after →
    pending groups name before = some config ∧
      ∃ type, config.driver = some type ∧ registered postgres type before = some factory
  /-- a connection that is built is the one that the factory made -/
  made : ∀ before name config factory handle after,
    chronicle = before ++ .built name config factory handle :: after →
    ∃ world world', factory name config world = (.ok handle, world')
  /-- and it is what the call is answered with -/
  delivered : ∀ before name config factory handle after,
    chronicle = before ++ .built name config factory handle :: after →
    ∃ later, after = .answered name (.ok handle) :: later
  /-- a connection that is handed out is the one that was built for the name, with nothing cleared since -/
  handed : ∀ before name handle after, chronicle = before ++ .answered name (.ok handle) :: after →
    ∃ front config factory between,
      before = front ++ .built name config factory handle :: between ∧ .cleared ∉ between
  /-- who is refused has no connection, and the newest group of the name, if it has one, has no type or no factory, or
  this error is what the factory made of it -/
  refused : ∀ before name e after, chronicle = before ++ .answered name (.error e) :: after →
    live name before = none ∧ Denied postgres groups before name e
  /-- a build leaves no group behind -/
  spent : ∀ before name config factory handle after,
    chronicle = before ++ .built name config factory handle :: after →
    (∀ given, .configured name given ∉ after) → registry.configs.lookup name = none
  /-- a name that was built and cleared is unknown until it is given a group again -/
  unknown : ∀ before name config factory handle between later answer after,
    chronicle = before ++ .built name config factory handle ::
      (between ++ .cleared :: (later ++ .answered name answer :: after)) →
    (∀ given, .configured name given ∉ between ++ later) →
    answer = .error (.configuration (.unknownConnection name))
  /-- a name is contained while it has a connection or a group -/
  contained : ∀ before name told after, chronicle = before ++ .told name told :: after →
    (told = true ↔ (live name before).isSome ∨ (pending groups name before).isSome)

/-- **One build, one connection.** Whatever calls are made on a registry, what happened is orderly. -/
theorem run_orderly (postgres : Factory ω κ) (groups : Table Config) (world : ω) (calls : List (Call ω κ)) :
    Orderly postgres groups ((Stage.start postgres groups world).run calls).registry
      ((Stage.start postgres groups world).run calls).world.chronicle := by
  have hstart : (Stage.start postgres groups world).Reflects postgres groups := Stage.reflects_start world
  have hdelivered := hstart.delivered_run delivered_nil calls
  obtain ⟨hconfigs, -, -, hsound⟩ := hstart.run calls
  generalize (Stage.start postgres groups world).run calls = s at hconfigs hsound hdelivered ⊢
  constructor
  case same =>
    intro before name handle between answer after hchronicle hclear
    exact hsound.answer_again hchronicle hclear
  case once =>
    intro before name config factory handle between config' factory' handle' after hchronicle
    exact hsound.cleared_between hchronicle
  case source =>
    intro before name config factory handle after hchronicle
    exact (hsound before _ after hchronicle).2.1
  case made =>
    intro before name config factory handle after hchronicle
    exact (hsound before _ after hchronicle).2.2
  case delivered => exact hdelivered
  case handed =>
    intro before name handle after hchronicle
    exact exists_built_of_live (hsound before _ after hchronicle)
  case refused =>
    intro before name e after hchronicle
    exact hsound before _ after hchronicle
  case spent =>
    intro before name config factory handle after hchronicle hgiven
    have hstill := pending_between _ after (pending_built groups before name config factory handle) hgiven
    rw [hconfigs, hchronicle]
    simpa using hstill
  case unknown =>
    intro before name config factory handle between later answer after hchronicle hgiven
    exact hsound.answer_unknown hchronicle hgiven
  case contained =>
    intro before name told after hchronicle
    have htold : told = ((live name before).isSome || (pending groups name before).isSome) :=
      hsound before _ after hchronicle
    rw [htold, Bool.or_eq_true]

end Run

/-- a group of a type that nothing is registered for from the start -/
def trialGroup : Config := ⟨some "Trial".toList, [], none, false, "p_".toList⟩

/-- two groups for a name, the second while the first one's connection lives, and two factories for their type, the first
of which fails once; a connection is asked for at every point -/
def trialCalls : List (Call TrialWorld Nat) :=
  [.configure "db".toList trialGroup, .connection "db".toList,
    .register "TRIAL".toList (TrialWorld.factory .failingOnce 0), .connection "db".toList, .connection "db".toList,
    .configure "db".toList trialGroup, .connection "db".toList, .clear,
    .register "trial".toList (TrialWorld.factory .prefixed 0), .connection "db".toList, .clear,
    .connection "db".toList]

def Happening.answer? : Happening ω κ → Option (Text × Except Error κ)
  | .answered name answer => some (name, answer)
  | _ => none

/-- The first factory fails and then makes a connection, which is handed out until the clear. The second one makes another
of the group that was left, and then there is none. -/
theorem run_orderly_trial :
    ((Stage.start TrialWorld.postgres [] .empty).run trialCalls).world.chronicle.filterMap Happening.answer? =
      [("db".toList, .error (.configuration (.unknownType "trial".toList "db".toList))),
        ("db".toList, .error (.validation (.other "first build fails".toList))), ("db".toList, .ok 0),
        ("db".toList, .ok 0), ("db".toList, .ok 1),
        ("db".toList, .error (.configuration (.unknownConnection "db".toList)))] ∧
    Orderly TrialWorld.postgres [] ((Stage.start TrialWorld.postgres [] .empty).run trialCalls).registry
      ((Stage.start TrialWorld.postgres [] .empty).run trialCalls).world.chronicle := by
  refine ⟨?_, run_orderly TrialWorld.postgres [] .empty trialCalls⟩
  decide +kernel

end Registry

end SqlAccess
