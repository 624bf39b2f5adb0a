import Mathlib.Logic.Basic

/-!
# Runs of a transition system

A system is a step function that is partial in its action: `none` is a step that is not enabled in that state. Everything proved about a protocol below is proved of one step first and carried to a run here, either for every run or for the runs whose steps all meet a condition on the state they start from.
-/

namespace BotCord

structure System (σ α : Type*) where
  step : σ → α → Option σ

namespace System

variable {σ α : Type*} (M : System σ α)

/-- The state after a list of actions, if every one of them was enabled. -/
def run : σ → List α → Option σ
  | s, [] => some s
  | s, a :: rest => (M.step s a).bind fun next => run next rest

/-- Every step of the run meets the condition in the state it starts from. -/
def Meets (G : σ → α → Prop) : σ → List α → Prop
  | _, [] => True
  | s, a :: rest => G s a ∧ ∀ next, M.step s a = some next → Meets G next rest

/-- The states a run from an initial state ends in. -/
def Reachable (init : σ → Prop) (s : σ) : Prop :=
  ∃ start actions, init start ∧ M.run start actions = some s

@[simp] theorem run_nil (s : σ) : M.run s [] = some s := rfl

theorem run_cons (s : σ) (a : α) (rest : List α) :
    M.run s (a :: rest) = (M.step s a).bind fun next => M.run next rest := rfl

variable {rest : List α}

theorem run_cons_eq_some {s t : σ} {a : α} :
    M.run s (a :: rest) = some t ↔ ∃ next, M.step s a = some next ∧ M.run next rest = some t := by
  rw [run_cons, Option.bind_eq_some_iff]

theorem run_append (s : σ) (front back : List α) :
    M.run s (front ++ back) = (M.run s front).bind fun mid => M.run mid back := by
  induction front generalizing s with
  | nil => rfl
  | cons a rest ih =>
    rw [List.cons_append, run_cons, run_cons, Option.bind_assoc]
    exact congrArg _ (funext fun next => ih next)

variable {actions : List α}

theorem run_invariant {P : σ → Prop} (hstep : ∀ s a t, P s → M.step s a = some t → P t) {s t : σ}
    (hstart : P s) (hrun : M.run s actions = some t) : P t := by
  induction actions generalizing s with
  | nil => exact Option.some.inj hrun ▸ hstart
  | cons a rest ih =>
    obtain ⟨next, hnext, hrest⟩ := M.run_cons_eq_some.mp hrun
    exact ih (hstep s a next hstart hnext) hrest

variable {G : σ → α → Prop}

/-- A property that every step meeting the condition preserves holds at the end of every run whose steps all meet it. -/
theorem run_invariant_of_meets {P : σ → Prop}
    (hstep : ∀ s a t, P s → G s a → M.step s a = some t → P t) {s t : σ}
    (hstart : P s) (hmeets : M.Meets G s actions) (hrun : M.run s actions = some t) : P t := by
  induction actions generalizing s with
  | nil => exact Option.some.inj hrun ▸ hstart
  | cons a rest ih =>
    obtain ⟨next, hnext, hrest⟩ := M.run_cons_eq_some.mp hrun
    exact ih (hstep s a next hstart hmeets.1 hnext) (hmeets.2 next hnext) hrest

theorem Reachable.invariant {init P : σ → Prop} {s : σ} (hreach : M.Reachable init s)
    (hinit : ∀ start, init start → P start) (hstep : ∀ s a t, P s → M.step s a = some t → P t) : P s := by
  obtain ⟨start, actions, hstart, hrun⟩ := hreach
  exact M.run_invariant hstep (hinit start hstart) hrun

theorem meets_cons_of_none {s : σ} {a : α} (h : M.step s a = none) :
    M.Meets G s (a :: rest) ↔ G s a := by
  simp [Meets, h]

theorem meets_cons_of_some {s next : σ} {a : α} (h : M.step s a = some next) :
    M.Meets G s (a :: rest) ↔ G s a ∧ M.Meets G next rest := by
  simp [Meets, h]

/-- A condition that can be tested at every step can be tested along a run. -/
instance decidableMeets (G : σ → α → Prop) [∀ s a, Decidable (G s a)] :
    ∀ s actions, Decidable (M.Meets G s actions)
  | _, [] => isTrue trivial
  | s, a :: rest =>
    match h : M.step s a with
    | none => decidable_of_iff _ (M.meets_cons_of_none h).symm
    | some next =>
      have := decidableMeets G next rest
      decidable_of_iff _ (M.meets_cons_of_some h).symm

/-- A condition on a run is a condition on its first part and, from where that ends, on the rest. -/
theorem meets_append {s : σ} {front back : List α} :
    M.Meets G s (front ++ back) ↔ M.Meets G s front ∧ ∀ mid, M.run s front = some mid → M.Meets G mid back := by
  induction front generalizing s with
  | nil => simp [Meets]
  | cons a rest ih =>
    simp only [List.cons_append, Meets, ih, M.run_cons_eq_some]
    constructor
    · rintro ⟨ha, hrest⟩
      refine ⟨⟨ha, fun next hnext => (hrest next hnext).1⟩, ?_⟩
      rintro mid ⟨next, hnext, hmid⟩
      exact (hrest next hnext).2 mid hmid
    · rintro ⟨⟨ha, hrest⟩, hback⟩
      exact ⟨ha, fun next hnext => ⟨hrest next hnext, fun mid hmid => hback mid ⟨next, hnext, hmid⟩⟩⟩

variable {M} in
theorem Meets.and_forall {p : α → Prop} {s : σ} (h : M.Meets G s actions)
    (hall : ∀ a ∈ actions, p a) : M.Meets (fun s a => p a ∧ G s a) s actions := by
  induction actions generalizing s with
  | nil => trivial
  | cons a rest ih =>
    obtain ⟨ha, hrest⟩ := List.forall_mem_cons.mp hall
    exact ⟨⟨ha, h.1⟩, fun next hnext => ih (h.2 next hnext) hrest⟩

end System

/-- A system all of whose actions are enabled everywhere: a rejected call leaves the state as it was. -/
def System.total {σ α : Type*} (f : σ → α → σ) : System σ α where
  step s a := some (f s a)

@[simp] theorem System.total_step {σ α : Type*} (f : σ → α → σ) (s : σ) (a : α) :
    (System.total f).step s a = some (f s a) := rfl

end BotCord
