/-
Runs of actions.

`Gives ready action answer` says what an action answers from every ready state: this value, or some error where there
is no value. `Returns ready P action` says what holds of the value where there is one. `Follows ready R x y` is a
simulation: wherever `x` answers a value, `y` answers a related one, from whatever ready state it starts. They all go
through the steps of an action one by one, so what is known of the parts of a compiled text is put together the way the
text is.
-/
import Mathlib.Data.List.Forall2
import SqlAccess.Connection

namespace SqlAccess

namespace Action

variable {σ α β γ δ : Type}

/-! ## One step after another -/

theorem bind_of_ok {x : Action σ α} {f : α → Action σ β} {state state' : σ} {a : α}
    (h : x state = (.ok a, state')) : (x >>= f) state = f a state' := by
  simp only [bind, ExceptT.bind, ExceptT.mk, StateT.bind, h, ExceptT.bindCont]

theorem bind_of_error {x : Action σ α} {f : α → Action σ β} {state state' : σ} {e : Error}
    (h : x state = (.error e, state')) : (x >>= f) state = (.error e, state') := by
  simp only [bind, ExceptT.bind, ExceptT.mk, StateT.bind, h, ExceptT.bindCont]
  rfl

theorem bind_eq_ok {x : Action σ α} {f : α → Action σ β} {state final : σ} {b : β}
    (h : (x >>= f) state = (.ok b, final)) : ∃ a middle, x state = (.ok a, middle) ∧ f a middle = (.ok b, final) := by
  rcases hx : x state with ⟨answer, middle⟩
  cases answer with
  | error e => rw [bind_of_error hx] at h; cases h
  | ok a => exact ⟨a, middle, rfl, by rwa [bind_of_ok hx] at h⟩

/-- A sequence fails at its first step or behind it. -/
theorem bind_eq_error {x : Action σ α} {f : α → Action σ β} {state final : σ} {e : Error}
    (h : (x >>= f) state = (.error e, final)) :
    x state = (.error e, final) ∨ ∃ a middle, x state = (.ok a, middle) ∧ f a middle = (.error e, final) := by
  rcases hx : x state with ⟨answer, middle⟩
  cases answer with
  | error d =>
    rw [bind_of_error hx] at h
    cases h
    exact Or.inl rfl
  | ok a =>
    rw [bind_of_ok hx] at h
    exact Or.inr ⟨a, middle, rfl, h⟩

/-- The same, told by the answers alone. -/
theorem bind_fails_iff {x : Action σ α} {f : α → Action σ β} {state : σ} {e : Error} : ((x >>= f) state).1 = .error e ↔
    (x state).1 = .error e ∨ ∃ a middle, x state = (.ok a, middle) ∧ (f a middle).1 = .error e := by
  constructor
  · intro h
    rcases hrun : (x >>= f) state with ⟨answer, final⟩
    rw [hrun] at h
    obtain rfl : answer = .error e := h
    rcases bind_eq_error hrun with hx | ⟨a, middle, hx, hf⟩
    · exact Or.inl (congrArg Prod.fst hx)
    · exact Or.inr ⟨a, middle, hx, congrArg Prod.fst hf⟩
  · intro h
    rcases h with h | ⟨a, middle, hx, hf⟩
    · rcases hx : x state with ⟨answer, middle⟩
      rw [hx] at h
      obtain rfl : answer = .error e := h
      exact congrArg Prod.fst (bind_of_error hx)
    · rwa [bind_of_ok hx]

theorem map_fails_iff {x : Action σ α} {f : α → β} {state : σ} {e : Error} :
    ((do let a ← x; return f a : Action σ β) state).1 = .error e ↔ (x state).1 = .error e := by
  rw [bind_fails_iff]
  apply or_iff_left
  intro h
  obtain ⟨a, middle, -, hpure⟩ := h
  cases hpure

theorem pure_run (a : α) (state : σ) : (pure a : Action σ α) state = (.ok a, state) := rfl

theorem throw_run (e : Error) (state : σ) : (throw e : Action σ α) state = (.error e, state) := rfl

/-- An action with its answer changed fails as the action does. -/
theorem map_eq_error_iff {x : Action σ α} {f : α → β} {state state' : σ} {e : Error} :
    (do let a ← x; return f a : Action σ β) state = (.error e, state') ↔ x state = (.error e, state') := by
  rcases hx : x state with ⟨answer, middle⟩
  cases answer with
  | error d =>
    rw [bind_of_error hx]
    constructor <;> (intro h; cases h; rfl)
  | ok a =>
    rw [bind_of_ok hx, pure_run]
    constructor <;> (intro h; cases h)

theorem map_eq_ok_iff {x : Action σ α} {f : α → β} {state state' : σ} {b : β} :
    (do let a ← x; return f a : Action σ β) state = (.ok b, state') ↔ ∃ a, x state = (.ok a, state') ∧ f a = b := by
  constructor
  · intro h
    obtain ⟨a, middle, hx, hb⟩ := bind_eq_ok h
    cases hb
    exact ⟨a, hx, rfl⟩
  · rintro ⟨a, hx, rfl⟩
    rw [bind_of_ok hx, pure_run]

/-- Items taken one after the other fail at the first item that fails, in the state that the items before it have
reached. -/
theorem mapM_eq_error_iff {f : α → Action σ β} {items : List α} {state state' : σ} {e : Error} :
    items.mapM f state = (.error e, state') ↔ ∃ before item after answers middle, items = before ++ item :: after ∧
      before.mapM f state = (.ok answers, middle) ∧ f item middle = (.error e, state') := by
  induction items generalizing state with
  | nil =>
    constructor
    · intro h
      cases h
    · rintro ⟨before, item, after, -, -, h, -⟩
      cases before <;> cases h
  | cons i items ih =>
    rw [List.mapM_cons]
    constructor
    · intro h
      rcases hi : f i state with ⟨answer, middle⟩
      cases answer with
      | error d =>
        rw [bind_of_error hi] at h
        cases h
        exact ⟨[], i, items, [], state, rfl, rfl, hi⟩
      | ok b =>
        rw [bind_of_ok hi, map_eq_error_iff, ih] at h
        obtain ⟨before, item, after, answers, middle', rfl, hbefore, hitem⟩ := h
        refine ⟨i :: before, item, after, b :: answers, middle', rfl, ?_, hitem⟩
        rw [List.mapM_cons, bind_of_ok hi, bind_of_ok hbefore, pure_run]
    · rintro ⟨before, item, after, answers, middle, hitems, hbefore, hitem⟩
      cases before with
      | nil =>
        obtain ⟨rfl, rfl⟩ := List.cons.inj hitems
        cases hbefore
        exact bind_of_error hitem
      | cons b before =>
        obtain ⟨rfl, rfl⟩ := List.cons.inj hitems
        rw [List.mapM_cons] at hbefore
        obtain ⟨first, middle', hi, hbefore⟩ := bind_eq_ok hbefore
        obtain ⟨others, hothers, -⟩ := map_eq_ok_iff.1 hbefore
        rw [bind_of_ok hi, map_eq_error_iff, ih]
        exact ⟨before, item, after, others, middle, rfl, hothers, hitem⟩

/-- Where items taken one after the other all answer, each of them has answered one of the answers. -/
theorem exists_of_mapM_ok {f : α → Action σ β} {items : List α} {state state' : σ} {answers : List β}
    (h : items.mapM f state = (.ok answers, state')) {item : α} (hi : item ∈ items) :
    ∃ before answer after, f item before = (.ok answer, after) ∧ answer ∈ answers := by
  induction items generalizing state answers with
  | nil => cases hi
  | cons i items ih =>
    rw [List.mapM_cons] at h
    obtain ⟨first, middle, hfirst, h⟩ := bind_eq_ok h
    obtain ⟨others, hothers, rfl⟩ := map_eq_ok_iff.1 h
    rcases List.mem_cons.1 hi with rfl | hi
    · exact ⟨state, first, middle, hfirst, List.mem_cons_self⟩
    · obtain ⟨before, answer, after, hanswer, hmem⟩ := ih hothers hi
      exact ⟨before, answer, after, hanswer, List.mem_cons_of_mem _ hmem⟩

/-- Where items taken one after the other all answer, the answers are those of the items, in order. -/
theorem forall₂_of_mapM_ok {f : α → Action σ β} {items : List α} {state state' : σ} {answers : List β}
    (h : items.mapM f state = (.ok answers, state')) :
    List.Forall₂ (fun item answer => ∃ before after, f item before = (.ok answer, after)) items answers := by
  induction items generalizing state answers with
  | nil =>
    cases h
    exact .nil
  | cons i items ih =>
    rw [List.mapM_cons] at h
    obtain ⟨first, middle, hfirst, h⟩ := bind_eq_ok h
    obtain ⟨others, hothers, rfl⟩ := map_eq_ok_iff.1 h
    exact .cons ⟨state, middle, hfirst⟩ (ih hothers)

/-- Where items taken one after the other all answer, each answer is that of an item. -/
theorem exists_item_of_mapM_ok {f : α → Action σ β} {items : List α} {state state' : σ} {answers : List β}
    (h : items.mapM f state = (.ok answers, state')) {answer : β} (ha : answer ∈ answers) :
    ∃ item ∈ items, ∃ before after, f item before = (.ok answer, after) := by
  induction items generalizing state answers with
  | nil =>
    cases h
    cases ha
  | cons i items ih =>
    rw [List.mapM_cons] at h
    obtain ⟨first, middle, hfirst, h⟩ := bind_eq_ok h
    obtain ⟨others, hothers, rfl⟩ := map_eq_ok_iff.1 h
    rcases List.mem_cons.1 ha with rfl | ha
    · exact ⟨i, List.mem_cons_self, state, middle, hfirst⟩
    · obtain ⟨item, hitem, hrun⟩ := ih hothers ha
      exact ⟨item, List.mem_cons_of_mem _ hitem, hrun⟩

/-! ## What an action leaves as it was -/

/-- whatever it answers, what `view` shows of the state stays -/
def Keeps (view : σ → γ) (x : Action σ α) : Prop := ∀ state, view (x state).2 = view state

variable {view : σ → γ}

theorem Keeps.of_run {x : Action σ α} (h : Keeps view x) {state state' : σ} {answer : Except Error α}
    (hr : x state = (answer, state')) : view state' = view state := by
  have hview := h state
  rwa [hr] at hview

theorem Keeps.pure (a : α) : Keeps view (Pure.pure a : Action σ α) := fun _ => rfl

theorem Keeps.throw (e : Error) : Keeps view (MonadExcept.throw e : Action σ α) := fun _ => rfl

theorem Keeps.bind {x : Action σ α} {f : α → Action σ β} (hx : Keeps view x) (hf : ∀ a, Keeps view (f a)) :
    Keeps view (x >>= f) := by
  intro state
  rcases hr : x state with ⟨answer, middle⟩
  have hmiddle : view middle = view state := hx.of_run hr
  cases answer with
  | error e => rw [bind_of_error hr, hmiddle]
  | ok a => rw [bind_of_ok hr, hf a middle, hmiddle]

/-- A last step that only settles the answer leaves the state of the steps before it. -/
theorem state_bind {f : α → Action σ β} (hf : ∀ a, Keeps id (f a)) (x : Action σ α)
    (state : σ) : ((x >>= f) state).2 = (x state).2 := by
  rcases hx : x state with ⟨answer, middle⟩
  cases answer with
  | error e => rw [bind_of_error hx]
  | ok a =>
    rw [bind_of_ok hx]
    exact hf a middle

/-! ## An action seen through a view of the state -/

/-- `y` does with what `view` shows of a state what `x` does with the state -/
def Shows {τ : Type} (view : σ → τ) (x : Action σ α) (y : Action τ α) : Prop :=
  ∀ state, y (view state) = ((x state).1, view (x state).2)

theorem Shows.ofExcept {τ : Type} {view : σ → τ} (answer : Except Error α) :
    Shows view (Action.ofExcept answer) (Action.ofExcept answer) := fun _ => rfl

theorem Shows.bind {τ : Type} {view : σ → τ} {x : Action σ α} {y : Action τ α} {f : α → Action σ β} {g : α → Action τ β}
    (h : Shows view x y) (hf : ∀ a, Shows view (f a) (g a)) : Shows view (x >>= f) (y >>= g) := by
  intro state
  have hy := h state
  rcases hx : x state with ⟨answer, middle⟩
  rw [hx] at hy
  cases answer with
  | error e => rw [bind_of_error hx, bind_of_error hy]
  | ok a => rw [bind_of_ok hx, bind_of_ok hy, hf a middle]

/-! ## What an action gives -/

/-- from every ready state the value, after which the state is ready again, or else an error -/
def Gives (ready : σ → Prop) (x : Action σ α) (answer : Option α) : Prop :=
  ∀ state, ready state →
    (∀ a, answer = some a → ∃ state', x state = (.ok a, state') ∧ ready state') ∧
    (answer = none → ∃ e state', x state = (.error e, state'))

variable {ready : σ → Prop}

theorem gives_some {x : Action σ α} {a : α} :
    Gives ready x (some a) ↔ ∀ state, ready state → ∃ state', x state = (.ok a, state') ∧ ready state' := by
  simp [Gives]

theorem gives_none {x : Action σ α} :
    Gives ready x none ↔ ∀ state, ready state → ∃ e state', x state = (.error e, state') := by
  simp [Gives]

theorem Gives.pure (a : α) : Gives ready (Pure.pure a : Action σ α) (some a) :=
  gives_some.2 fun state h => ⟨state, rfl, h⟩

theorem Gives.throw (e : Error) : Gives ready (MonadExcept.throw e : Action σ α) none :=
  gives_none.2 fun state _ => ⟨e, state, rfl⟩

theorem Gives.bind {x : Action σ α} {f : α → Action σ β} {answer : Option α} {g : α → Option β}
    (hx : Gives ready x answer) (hf : ∀ a, answer = some a → Gives ready (f a) (g a)) :
    Gives ready (x >>= f) (answer.bind g) := by
  cases answer with
  | none =>
    refine gives_none.2 fun state h => ?_
    obtain ⟨e, state', hs⟩ := gives_none.1 hx state h
    exact ⟨e, state', bind_of_error hs⟩
  | some a =>
    intro state h
    obtain ⟨state', hs, h'⟩ := gives_some.1 hx state h
    rw [bind_of_ok hs]
    exact hf a rfl state' h'

/-- What a run answers is what the action gives. -/
theorem Gives.of_run {x : Action σ α} {answer : Option α} (hx : Gives ready x answer) {state state' : σ}
    (h : ready state) {a : α} (hr : x state = (.ok a, state')) : answer = some a ∧ ready state' := by
  cases answer with
  | none =>
    obtain ⟨e, s, hs⟩ := gives_none.1 hx state h
    rw [hs] at hr
    cases hr
  | some b =>
    obtain ⟨s, hs, h'⟩ := gives_some.1 hx state h
    rw [hs] at hr
    cases hr
    exact ⟨rfl, h'⟩

/-! ## What an action answers where it does -/

/-- where it answers a value from a ready state, the value has the property and the state is ready again -/
def Returns (ready : σ → Prop) (P : α → Prop) (x : Action σ α) : Prop :=
  ∀ state a state', ready state → x state = (.ok a, state') → P a ∧ ready state'

theorem Returns.pure {P : α → Prop} {a : α} (h : P a) : Returns ready P (Pure.pure a : Action σ α) := by
  intro state a' state' hs hr
  cases hr
  exact ⟨h, hs⟩

theorem Returns.bind {P : α → Prop} {Q : β → Prop} {x : Action σ α} {f : α → Action σ β} (hx : Returns ready P x)
    (hf : ∀ a, P a → Returns ready Q (f a)) : Returns ready Q (x >>= f) := by
  intro state b final hs hr
  obtain ⟨a, middle, ha, hb⟩ := bind_eq_ok hr
  obtain ⟨hp, hm⟩ := hx state a middle hs ha
  exact hf a hp middle b final hm hb

theorem Returns.mono {P P' : α → Prop} {x : Action σ α} (h : Returns ready P x) (hP : ∀ a, P a → P' a) :
    Returns ready P' x := by
  intro state a state' hs hr
  exact (h state a state' hs hr).imp_left (hP a)

theorem Returns.ofExcept {answer : Except Error α} :
    Returns ready (fun a => answer = .ok a) (Action.ofExcept answer) := by
  intro state a state' hs hr
  obtain ⟨ha, rfl⟩ := Prod.mk.inj hr
  exact ⟨ha, hs⟩

/-- What returns from states of every kind leaves the state alone. -/
theorem Returns.of_run {P : α → Prop} {x : Action σ α} (h : ∀ ready : σ → Prop, Returns ready P x) {state state' : σ}
    {a : α} (hr : x state = (.ok a, state')) : P a ∧ state' = state := h (· = state) state a state' rfl hr

/-- Items taken one after the other answer item by item. -/
theorem Returns.mapM {ι : Type} {R : ι → α → Prop} {f : ι → Action σ α} (h : ∀ i, Returns ready (R i) (f i))
    (items : List ι) : Returns ready (List.Forall₂ R items) (items.mapM f) := by
  induction items with
  | nil => exact Returns.pure .nil
  | cons i items ih =>
    rw [List.mapM_cons]
    refine (h i).bind fun a ha => ih.bind fun as has => ?_
    exact Returns.pure (.cons ha has)

theorem Gives.returns {x : Action σ α} {answer : Option α} (h : Gives ready x answer) :
    Returns ready (fun a => answer = some a) x := by
  intro state a state' hs hr
  exact h.of_run hs hr

/-! ## An action that follows another -/

/-- where `x` answers a value, `y` answers a related one from every ready state -/
def Follows (ready : σ → Prop) (R : α → β → Prop) (x : Action σ α) (y : Action σ β) : Prop :=
  ∀ state a state', ready state → x state = (.ok a, state') → ready state' ∧
    ∀ other, ready other → ∃ b other', y other = (.ok b, other') ∧ ready other' ∧ R a b

variable {R : α → β → Prop} {Q : γ → δ → Prop}

theorem Follows.pure {a : α} {b : β} (h : R a b) : Follows ready R (Pure.pure a : Action σ α) (Pure.pure b) := by
  intro state a' state' hs hr
  rw [pure_run] at hr
  cases hr
  exact ⟨hs, fun other ho => ⟨b, other, rfl, ho, h⟩⟩

theorem Follows.throw (e : Error) (y : Action σ β) : Follows ready R (MonadExcept.throw e : Action σ α) y := by
  intro state a state' _ hr
  rw [throw_run] at hr
  cases hr

theorem Follows.bind {x : Action σ α} {y : Action σ β} {f : α → Action σ γ} {g : β → Action σ δ}
    (h : Follows ready R x y) (hf : ∀ a b, R a b → Follows ready Q (f a) (g b)) :
    Follows ready Q (x >>= f) (y >>= g) := by
  intro state c final hs hr
  obtain ⟨a, middle, hx, hfa⟩ := bind_eq_ok hr
  obtain ⟨hm, hy⟩ := h state a middle hs hx
  refine ⟨?_, fun other ho => ?_⟩
  · obtain ⟨b, -, -, -, hab⟩ := hy state hs
    exact (hf a b hab middle c final hm hfa).1
  · obtain ⟨b, other', hyb, ho', hab⟩ := hy other ho
    rw [bind_of_ok hyb]
    exact (hf a b hab middle c final hm hfa).2 other' ho'

theorem Follows.mono {R' : α → β → Prop} {x : Action σ α} {y : Action σ β} (h : Follows ready R x y)
    (hR : ∀ a b, R a b → R' a b) : Follows ready R' x y := by
  intro state a state' hs hr
  obtain ⟨hs', hy⟩ := h state a state' hs hr
  refine ⟨hs', fun other ho => ?_⟩
  obtain ⟨b, other', hb, ho', hab⟩ := hy other ho
  exact ⟨b, other', hb, ho', hR a b hab⟩

/-- Items taken one after the other follow item by item. -/
theorem Follows.mapM {ι : Type} {items : List ι} {f : ι → Action σ α} {g : ι → Action σ β}
    (h : ∀ i ∈ items, Follows ready R (f i) (g i)) :
    Follows ready (List.Forall₂ R) (items.mapM f) (items.mapM g) := by
  induction items with
  | nil => exact Follows.pure .nil
  | cons i items ih =>
    rw [List.mapM_cons, List.mapM_cons]
    refine (h i List.mem_cons_self).bind fun a b hab => ?_
    refine (ih fun j hj => h j (List.mem_cons_of_mem _ hj)).bind fun as bs habs => ?_
    exact Follows.pure (.cons hab habs)

theorem Follows.of_gives {x : Action σ α} {y : Action σ β} {answer : Option α} (hx : Gives ready x answer)
    (hy : ∀ a, answer = some a → ∃ b, Gives ready y (some b) ∧ R a b) : Follows ready R x y := by
  intro state a state' hs hr
  obtain ⟨ha, hs'⟩ := hx.of_run hs hr
  obtain ⟨b, hb, hab⟩ := hy a ha
  refine ⟨hs', fun other ho => ?_⟩
  obtain ⟨other', hyb, ho'⟩ := gives_some.1 hb other ho
  exact ⟨b, other', hyb, ho', hab⟩

theorem Follows.ofExcept {S : α → α → Prop} {answer : Except Error α} (h : ∀ a, answer = .ok a → S a a) :
    Follows ready S (Action.ofExcept answer : Action σ α) (Action.ofExcept answer) := by
  intro state a state' hs hr
  obtain ⟨ha, rfl⟩ := Prod.mk.inj hr
  exact ⟨hs, fun other ho => ⟨a, other, Prod.ext ha rfl, ho, h a ha⟩⟩

/-! ## An action that answers the same from every ready state -/

/-- wherever `x` answers a value the value has the property, and `x` answers it from every ready state -/
def Yields (ready : σ → Prop) (P : α → Prop) (x : Action σ α) : Prop := Follows ready (fun a b => a = b ∧ P a) x x

variable {P : α → Prop} {P' : β → Prop}

theorem Yields.pure {a : α} (h : P a) : Yields ready P (Pure.pure a : Action σ α) := Follows.pure ⟨rfl, h⟩

/-- Two actions that begin alike. -/
theorem Yields.andThen {x : Action σ α} {f : α → Action σ γ} {g : α → Action σ δ} (h : Yields ready P x)
    (hf : ∀ a, P a → Follows ready Q (f a) (g a)) : Follows ready Q (x >>= f) (x >>= g) := by
  refine Follows.bind h fun a b hab => ?_
  obtain ⟨rfl, ha⟩ := hab
  exact hf a ha

theorem Yields.bind {x : Action σ α} {f : α → Action σ β} (h : Yields ready P x)
    (hf : ∀ a, P a → Yields ready P' (f a)) : Yields ready P' (x >>= f) := h.andThen hf

theorem Yields.mapM {ι : Type} {items : List ι} {f : ι → Action σ α} (h : ∀ i ∈ items, Yields ready P (f i)) :
    Yields ready (fun as => ∀ a ∈ as, P a) (items.mapM f) := by
  refine (Follows.mapM h).mono fun as bs hab => ?_
  induction hab with
  | nil => exact ⟨rfl, fun a ha => nomatch ha⟩
  | @cons a b as bs hab _ ih =>
    obtain ⟨rfl, ha⟩ := hab
    obtain ⟨rfl, has⟩ := ih
    exact ⟨rfl, fun c hc => (List.mem_cons.1 hc).elim (fun e => e ▸ ha) (has c)⟩

theorem Yields.ofExcept {answer : Except Error α} (h : ∀ a, answer = .ok a → P a) :
    Yields ready P (Action.ofExcept answer : Action σ α) := Follows.ofExcept fun a ha => ⟨rfl, h a ha⟩

end Action

end SqlAccess
