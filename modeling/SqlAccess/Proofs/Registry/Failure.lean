/-
A registry that fails to build a connection is as it was.

`connection` leaves the registry alone until the factory has succeeded. `connectionTaking` goes the way of a registry
that owns its groups: the group is taken out, handed to the factory, and put back when that fails. On tables in key
order, and no run of a registry leaves any other (`ordered_makeAll`), taking out and putting back comes to nothing
(`Table.put_erase`), so both are the same (`connectionTaking_eq`). What is left is to tell why a name got no connection
(`Unbuilt`), and that the group is still there for the next try: `failed_build_reverts`.
-/
import Mathlib.Data.Char
import Mathlib.Data.List.Lex
import SqlAccess.Proofs.Registry.Chronicle
import SqlAccess.Registry.Trial

namespace SqlAccess

/-! ## Tables in key order -/

namespace Table

variable {α : Type} {key : Text} {value : α} {table : Table α}

/-- each key once, in order -/
def Ordered (table : Table α) : Prop := table.Pairwise fun entry later => entry.1 < later.1

theorem mem_put {entry : Text × α} (h : entry ∈ put key value table) : entry = (key, value) ∨ entry ∈ table := by
  induction table with
  | nil => exact Or.inl (List.mem_singleton.1 h)
  | cons first others ih =>
    obtain ⟨k, v⟩ := first
    unfold put at h
    split at h
    · exact (List.mem_cons.1 h).imp_right (List.mem_cons_of_mem _)
    · split at h
      · exact List.mem_cons.1 h
      · rcases List.mem_cons.1 h with rfl | h
        · exact Or.inr List.mem_cons_self
        · exact (ih h).imp_right (List.mem_cons_of_mem _)

theorem Ordered.put (h : Ordered table) (key : Text) (value : α) : Ordered (table.put key value) := by
  induction table with
  | nil => exact List.pairwise_singleton _ _
  | cons first others ih =>
    obtain ⟨k, v⟩ := first
    obtain ⟨hfirst, hothers⟩ := List.pairwise_cons.1 h
    unfold Table.put
    split
    case isTrue hkey =>
      subst hkey
      exact List.pairwise_cons.2 ⟨hfirst, hothers⟩
    case isFalse hkey =>
      split
      case isTrue hbelow =>
        refine List.pairwise_cons.2 ⟨?_, h⟩
        intro entry hentry
        rcases List.mem_cons.1 hentry with rfl | hentry
        · exact hbelow
        · exact lt_trans hbelow (hfirst entry hentry)
      case isFalse hbelow =>
        refine List.pairwise_cons.2 ⟨?_, ih hothers⟩
        intro entry hentry
        rcases mem_put hentry with rfl | hentry
        · exact lt_of_le_of_ne (not_lt.1 hbelow) (Ne.symm hkey)
        · exact hfirst entry hentry

theorem Ordered.erase (h : Ordered table) (key : Text) : Ordered (table.erase key) := List.Pairwise.filter _ h

theorem ordered_ofList (entries : List (Text × α)) : Ordered (ofList entries) := by
  induction entries using List.reverseRecOn with
  | nil => exact List.Pairwise.nil
  | append_singleton entries last ih =>
    rw [ofList, List.foldl_append]
    exact ih.put last.1 last.2

/-- An entry below all others stands in front of them. -/
theorem put_below (h : ∀ entry ∈ table, key < entry.1) : table.put key value = (key, value) :: table := by
  cases table with
  | nil => rfl
  | cons first others =>
    have hfirst : key < first.1 := h first List.mem_cons_self
    simp only [put, if_neg (ne_of_lt hfirst), if_pos hfirst]

/-- An entry that is taken out of a table in order and put back is where it was. -/
theorem put_erase (h : Ordered table) (hvalue : table.lookup key = some value) :
    (table.erase key).put key value = table := by
  induction table with
  | nil => cases hvalue
  | cons first others ih =>
    obtain ⟨k, v⟩ := first
    obtain ⟨hfirst, hothers⟩ := List.pairwise_cons.1 h
    rw [lookup_cons] at hvalue
    split at hvalue
    case isTrue hkey =>
      obtain rfl := hkey
      obtain rfl := Option.some.inj hvalue
      have herase : erase ((key, v) :: others) key = others := by
        simp only [erase, List.filter_cons, bne_self_eq_false, Bool.false_eq_true, if_false]
        apply List.filter_eq_self.2
        intro entry hentry
        exact bne_iff_ne.2 (ne_of_gt (hfirst entry hentry))
      -- the entry was the first, and all that is left is above it
      rw [herase, put_below hfirst]
    case isFalse hkey =>
      have hmem : (key, value) ∈ others := by
        obtain ⟨before, after, rfl, -⟩ := List.lookup_eq_some_iff.1 hvalue
        exact List.mem_append_right _ List.mem_cons_self
      -- the entry is further on, so what stands first is below it and both ways go past
      have habove : k < key := hfirst (key, value) hmem
      have herase : erase ((k, v) :: others) key = (k, v) :: erase others key := by
        simp only [erase, List.filter_cons, bne_iff_ne.2 (Ne.symm hkey), if_true]
      rw [herase, put, if_neg hkey, if_neg (lt_asymm habove), ih hothers hvalue]

end Table

namespace Registry

variable {ω κ : Type}

/-! ## With the group taken out -/

/-- The connection of a name, with its group out of the registry while the factory works on it, and back when that
fails. -/
def connectionTaking [ConnectionWorld ω κ] (name : Text) (registry : Registry ω κ) (world : ω) :
    Except Error κ × Registry ω κ × ω :=
  match registry.instances.lookup name with
  | some handle => (.ok handle, registry, world)
  | none =>
    match registry.plan name with
    | .error e => (.error e, registry, world)
    | .ok (config, driver, factory) =>
      let taken := { registry with configs := registry.configs.erase name }
      match factory name config world with
      | (.error e, world) => (.error e, taken.configure name config, world)
      | (.ok handle, world) =>
        (.ok handle, { taken with instances := Table.put name handle taken.instances },
          ConnectionWorld.note κ (.created name driver) world)

/-- A group that is taken out and put back is where it was, so nobody can tell that it was out. -/
theorem connectionTaking_eq [ConnectionWorld ω κ] {registry : Registry ω κ} (h : registry.configs.Ordered)
    (name : Text) (world : ω) : registry.connectionTaking name world = registry.connection name world := by
  unfold connectionTaking connection
  cases registry.instances.lookup name with
  | some handle => rfl
  | none =>
    cases hplan : registry.plan name with
    | error e => rfl
    | ok planned =>
      obtain ⟨config, driver, factory⟩ := planned
      have hback : (registry.configs.erase name).put name config = registry.configs :=
        Table.put_erase h (plan_eq_ok hplan).1
      rcases hrun : factory name config world with ⟨answer, world'⟩
      cases answer with
      | error e => simp only [hrun, configure, hback]
      | ok handle => simp only [hrun]

/-! ## The groups stay in order -/

def Call.makeAll [ConnectionWorld ω κ] (calls : List (Call ω κ)) (registry : Registry ω κ) (world : ω) :
    Registry ω κ × ω := calls.foldl (fun now call => call.make now.1 now.2) (registry, world)

theorem ordered_connection [ConnectionWorld ω κ] {registry : Registry ω κ} (h : registry.configs.Ordered) (name : Text)
    (world : ω) : (registry.connection name world).2.1.configs.Ordered := by
  unfold connection
  split
  · exact h
  · split
    · exact h
    · split
      · exact h
      · exact h.erase name

/-- One call leaves the groups in order. -/
theorem ordered_make [ConnectionWorld ω κ] {registry : Registry ω κ} (h : registry.configs.Ordered) (world : ω)
    (call : Call ω κ) : (call.make registry world).1.configs.Ordered := by
  cases call with
  | configure name config => exact h.put name config
  | connection name => exact ordered_connection h name world
  | _ => exact h

theorem ordered_makeAll [ConnectionWorld ω κ] {registry : Registry ω κ} (h : registry.configs.Ordered) (world : ω)
    (calls : List (Call ω κ)) : (Call.makeAll calls registry world).1.configs.Ordered := by
  induction calls generalizing registry world with
  | nil => exact h
  | cons call calls ih => exact ih (ordered_make h world call) _

/-! ## Why a name has no connection -/

/-- why a name got no connection, and in which world that left -/
inductive Unbuilt (registry : Registry ω κ) (name : Text) (world : ω) : Error → ω → Prop
  | unplanned {e : Error} : registry.Unplanned name e → Unbuilt registry name world e world
  | failed {config : Config} {driver : Text} {factory : Factory ω κ} {e : Error} {world' : ω} :
      registry.plan name = .ok (config, driver, factory) → factory name config world = (.error e, world') →
      Unbuilt registry name world e world'

/-- A group of a registered type has a plan. -/
theorem plan_of_registered {registry : Registry ω κ} {name type : Text} {config : Config} {factory : Factory ω κ}
    (hconfig : registry.configs.lookup name = some config) (hdriver : config.driver = some type) (htype : type ≠ [])
    (hfactory : registry.drivers.lookup type.lower = some factory) :
    registry.plan name = .ok (config, type.lower, factory) := by
  obtain ⟨c, rest, rfl⟩ := List.exists_cons_of_ne_nil htype
  simp only [plan, hconfig, Config.driverName, hdriver, hfactory]

section Connection

variable [ConnectionWorld ω κ] {registry : Registry ω κ} {name : Text} {world : ω}

/-- A name gets no connection where it has none and none can be built, and that is all. -/
theorem connection_eq_error_iff {e : Error} {registry' : Registry ω κ} {world' : ω} :
    registry.connection name world = (.error e, registry', world') ↔
      registry' = registry ∧ registry.instances.lookup name = none ∧ registry.Unbuilt name world e world' := by
  constructor
  · intro h
    unfold connection at h
    split at h
    case h_1 => cases h
    case h_2 hnone =>
      split at h
      case h_1 hplan =>
        cases h
        exact ⟨rfl, hnone, .unplanned (plan_eq_error_iff.1 hplan)⟩
      case h_2 config driver factory hplan =>
        split at h
        case h_1 hrun =>
          cases h
          exact ⟨rfl, hnone, .failed hplan hrun⟩
        case h_2 => cases h
  · intro h
    obtain ⟨rfl, hnone, hcause⟩ := h
    cases hcause with
    | unplanned hplan => simp only [connection, hnone, plan_eq_error_iff.2 hplan]
    | failed hplan hrun => simp only [connection, hnone, hplan, hrun]

/-- A factory that succeeds on the group of a name makes its connection. -/
theorem connection_of_build {type : Text} {config : Config} {factory : Factory ω κ} {handle : κ} {world' : ω}
    (hnone : registry.instances.lookup name = none) (hconfig : registry.configs.lookup name = some config)
    (hdriver : config.driver = some type) (htype : type ≠ [])
    (hfactory : registry.drivers.lookup type.lower = some factory)
    (hbuild : factory name config world = (.ok handle, world')) :
    (registry.connection name world).1 = .ok handle := by
  simp only [connection, hnone, plan_of_registered hconfig hdriver htype hfactory, hbuild]

end Connection

/-! ## Failing leaves everything -/

/-- **A build that fails leaves the registry as it was.** Whatever calls a registry has seen, asking it for a connection
does the same whether the group is taken out for the factory or not. Where it fails, the groups, the factories and the
connections are those from before, the name had no connection, and one of four things was wrong: there is no group, the
group has no type, nothing is registered for its type, or the factory failed. So a factory that is registered for the
type afterwards, in whatever case, and succeeds on the very group that was there gives the connection. -/
theorem failed_build_reverts [ConnectionWorld ω κ] (postgres : Factory ω κ) (entries : List (Text × Config)) (start : ω)
    (calls : List (Call ω κ)) (name : Text) (world : ω) :
    let registry := (Call.makeAll calls (.of postgres (Table.ofList entries)) start).1
    let tried := registry.connectionTaking name world
    tried = registry.connection name world ∧
    ∀ e, tried.1 = .error e →
      tried.2.1 = registry ∧ registry.instances.lookup name = none ∧ registry.Unbuilt name world e tried.2.2 ∧
      ∀ config type, registry.configs.lookup name = some config → config.driver = some type → type ≠ [] →
        ∀ driver factory, Text.lower driver = Text.lower type →
        ∀ later handle behind, factory name config later = (.ok handle, behind) →
          ((tried.2.1.register driver factory).connectionTaking name later).1 = .ok handle := by
  intro registry tried
  have hordered : registry.configs.Ordered := ordered_makeAll (Table.ordered_ofList entries) start calls
  have heq : tried = registry.connection name world := connectionTaking_eq hordered name world
  refine ⟨heq, fun e he => ?_⟩
  have hfailed : registry.connection name world = (.error e, tried.2.1, tried.2.2) := by
    rw [← heq, ← he]
  obtain ⟨hregistry, hnone, hcause⟩ := connection_eq_error_iff.1 hfailed
  refine ⟨hregistry, hnone, hcause, ?_⟩
  intro config type hconfig hdriver htype driver factory hlower later handle behind hbuild
  have hfactory : (registry.register driver factory).drivers.lookup type.lower = some factory := by
    rw [register, Table.lookup_put, if_pos hlower.symm]
  have hregistered : (registry.register driver factory).configs.Ordered := hordered
  rw [hregistry, connectionTaking_eq hregistered]
  exact connection_of_build hnone hconfig hdriver htype hfactory hbuild

/-- a group of a type written in two cases -/
def mixedCase : Config := ⟨some "Trial".toList, [("host".toList, "db".toList)], none, false, "p_".toList⟩

/-- a registry with that group, and with a factory for its type that always fails -/
def failingTrial : Registry TrialWorld Nat :=
  (Call.makeAll [.register "trial".toList (TrialWorld.factory .failing 0)]
    (.of TrialWorld.postgres (Table.ofList [("db".toList, mixedCase)])) TrialWorld.empty).1

/-- A factory that fails is given the group, and the next one the same group again. -/
theorem failed_build_reverts_trial :
    (failingTrial.connectionTaking "db".toList .empty).1 = .error (.connection "08001" "no route to db".toList) ∧
    (failingTrial.connectionTaking "db".toList .empty).2.1 = failingTrial ∧
    (((failingTrial.connectionTaking "db".toList .empty).2.1.register "TRIAL".toList
      (TrialWorld.factory .prefixed 0)).connectionTaking "db".toList .empty).1 = .ok 0 := by
  have hfails : (failingTrial.connectionTaking "db".toList .empty).1 =
      .error (.connection "08001" "no route to db".toList) := by decide +kernel
  obtain ⟨-, hreverts⟩ := failed_build_reverts TrialWorld.postgres [("db".toList, mixedCase)] TrialWorld.empty
    [.register "trial".toList (TrialWorld.factory .failing 0)] "db".toList TrialWorld.empty
  obtain ⟨hregistry, -, -, hretry⟩ := hreverts _ hfails
  refine ⟨hfails, hregistry, ?_⟩
  exact hretry mixedCase "Trial".toList (by decide +kernel) rfl (by decide) "TRIAL".toList
    (TrialWorld.factory .prefixed 0) (by decide) .empty 0 _ rfl

end Registry

end SqlAccess
