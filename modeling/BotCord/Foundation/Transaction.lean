import Mathlib.Logic.Basic

/-!
# Transactions over a store

A session sees its own writes in `view` and can return to the last committed store; a failed call keeps what it wrote in the view, because whether that survives is decided by whoever catches the failure. `atomically` is the outermost decision: a call that returns is committed, a call that fails leaves no trace.

The `exec_*` lemmas say what every primitive does when it returns.
-/

namespace BotCord

structure Session (σ : Type) where
  committed : σ
  view : σ

/-- A call inside a database session: it returns or fails, and the session goes on either way. -/
abbrev Transaction (σ ε α : Type) := ExceptT ε (StateM (Session σ)) α

namespace Transaction

variable {σ ε α β : Type}

def exec (x : Transaction σ ε α) (s : Session σ) : Except ε α × Session σ := x.run.run s

def view : Transaction σ ε σ := do return (← get).view

def modifyView (f : σ → σ) : Transaction σ ε Unit := modify fun s => { s with view := f s.view }

def rollback : Transaction σ ε Unit := modify fun s => { s with view := s.committed }

def require (p : Prop) [Decidable p] (e : ε) : Transaction σ ε Unit := if p then pure () else throw e

def fromExcept (r : Except ε α) : Transaction σ ε α := match r with
  | .ok a => pure a
  | .error e => throw e

/-- Write the pending changes: the store's constraints decide whether it succeeds. -/
def flush (constraints : σ → Except ε Unit) : Transaction σ ε Unit := do
  match constraints (← view) with
  | .ok () => pure ()
  | .error e => throw e

def void (x : Transaction σ ε α) : Transaction σ ε Unit := do
  let _ ← x
  return ()

def attempt (x : Transaction σ ε α) : Transaction σ ε (Except ε α) := fun s =>
  match exec x s with
  | (r, t) => (.ok r, t)

/-- A savepoint: a failure inside undoes what the call wrote and is raised again. -/
def nested (x : Transaction σ ε α) : Transaction σ ε α := fun s =>
  match exec x s with
  | (.ok a, t) => (.ok a, t)
  | (.error e, t) => (.error e, { t with view := s.view })

def zoom {τ ε' : Type} (get : σ → τ) (set : τ → σ → σ) (raised : ε' → ε) (x : Transaction τ ε' α) :
    Transaction σ ε α := fun s =>
  match exec x ⟨get s.committed, get s.view⟩ with
  | (.ok a, t) => (.ok a, { s with view := set t.view s.view })
  | (.error e, t) => (.error (raised e), { s with view := set t.view s.view })

/-- One call in a session of its own, committed if it returns and rolled back if it fails. -/
def atomically (x : Transaction σ ε α) (s : σ) : Except ε α × σ :=
  match exec x ⟨s, s⟩ with
  | (.ok a, t) => (.ok a, t.view)
  | (.error e, _) => (.error e, s)

theorem exec_bind (x : Transaction σ ε α) (f : α → Transaction σ ε β) (s : Session σ) :
    exec (x >>= f) s = match exec x s with
      | (.ok a, t) => exec (f a) t
      | (.error e, t) => (.error e, t) := by
  unfold exec
  rw [ExceptT.run_bind, StateT.run_bind]
  change (match x.run.run s with | (r, t) => _) = _
  rcases x.run.run s with ⟨_ | a, t⟩ <;> rfl

variable {x : Transaction σ ε α} {f : α → Transaction σ ε β} {s t : Session σ} {a : α} {b : β} {e : ε}

theorem exec_bind_ok :
    exec (x >>= f) s = (.ok b, t) ↔ ∃ a m, exec x s = (.ok a, m) ∧ exec (f a) m = (.ok b, t) := by
  rw [exec_bind]
  rcases exec x s with ⟨_ | a, m⟩
  · simp
  · simp [and_assoc]

theorem exec_bind_error :
    exec (x >>= f) s = (.error e, t) ↔
      exec x s = (.error e, t) ∨ ∃ a m, exec x s = (.ok a, m) ∧ exec (f a) m = (.error e, t) := by
  rw [exec_bind]
  rcases exec x s with ⟨_ | a, m⟩
  · simp
  · simp [and_assoc]

@[simp] theorem exec_pure (a : α) (s : Session σ) : exec (pure a : Transaction σ ε α) s = (.ok a, s) := rfl

theorem exec_pure_ok {a b : α} :
    exec (pure a : Transaction σ ε α) s = (.ok b, t) ↔ a = b ∧ s = t := by
  rw [exec_pure, Prod.mk.injEq, Except.ok.injEq]

@[simp] theorem exec_throw (e : ε) (s : Session σ) : exec (throw e : Transaction σ ε α) s = (.error e, s) := rfl

@[simp] theorem exec_view (s : Session σ) : exec (view : Transaction σ ε σ) s = (.ok s.view, s) := rfl

@[simp] theorem exec_modifyView (f : σ → σ) (s : Session σ) :
    exec (modifyView f : Transaction σ ε Unit) s = (.ok (), { s with view := f s.view }) := rfl

@[simp] theorem exec_rollback (s : Session σ) :
    exec (rollback : Transaction σ ε Unit) s = (.ok (), { s with view := s.committed }) := rfl

@[simp] theorem exec_attempt (x : Transaction σ ε α) (s : Session σ) :
    exec (attempt x) s = (.ok (exec x s).1, (exec x s).2) := rfl

/-- What reads only leaves the session to what follows. -/
theorem exec_bind_read (hread : ∀ {a m}, exec x s = (.ok a, m) → m = s) (h : exec (x >>= f) s = (.ok b, t)) :
    ∃ a, exec x s = (.ok a, s) ∧ exec (f a) s = (.ok b, t) := by
  obtain ⟨a, m, ha, hf⟩ := exec_bind_ok.mp h
  obtain rfl := hread ha
  exact ⟨a, ha, hf⟩

theorem exec_void_ok {u : Unit} :
    exec (void x) s = (.ok u, t) ↔ ∃ a, exec x s = (.ok a, t) := by
  rw [void, exec_bind_ok]
  simp

theorem exec_require (p : Prop) [Decidable p] (e : ε) (s : Session σ) :
    exec (require p e : Transaction σ ε Unit) s = if p then (.ok (), s) else (.error e, s) := by
  unfold require
  split <;> rfl

theorem exec_require_ok {p : Prop} [Decidable p] {u : Unit} :
    exec (require p e : Transaction σ ε Unit) s = (.ok u, t) ↔ p ∧ t = s := by
  rw [exec_require]
  split
  · rename_i hp
    simp [hp, eq_comm]
  · rename_i hp
    simp [hp]

theorem exec_require_error {p : Prop} [Decidable p] {e e' : ε} :
    exec (require p e : Transaction σ ε Unit) s = (.error e', t) ↔ ¬ p ∧ e' = e ∧ t = s := by
  rw [exec_require]
  split
  · rename_i hp
    simp [hp]
  · rename_i hp
    simp [hp, eq_comm]

theorem exec_fromExcept_ok {r : Except ε α} :
    exec (fromExcept r : Transaction σ ε α) s = (.ok a, t) ↔ r = .ok a ∧ t = s := by
  cases r <;> simp [fromExcept, eq_comm]

theorem exec_fromExcept_bind_ok {r : Except ε α} :
    exec (fromExcept r >>= f) s = (.ok b, t) ↔ ∃ a, r = .ok a ∧ exec (f a) s = (.ok b, t) := by
  cases r <;> simp [fromExcept]

theorem exec_flush (constraints : σ → Except ε Unit) (s : Session σ) :
    exec (flush constraints) s = (constraints s.view, s) := by
  unfold flush
  rw [exec_bind, exec_view]
  cases h : constraints s.view <;> simp [h]

theorem exec_flush_ok {constraints : σ → Except ε Unit} {u : Unit} :
    exec (flush constraints) s = (.ok u, t) ↔ constraints s.view = .ok () ∧ t = s := by
  rw [exec_flush]
  simp [Prod.ext_iff, eq_comm]

theorem exec_nested_ok :
    exec (nested x) s = (.ok a, t) ↔ exec x s = (.ok a, t) := by
  change (match exec x s with | (.ok a, t) => (Except.ok a, t) | (.error e, t) => (.error e, { t with view := s.view })) = _ ↔ _
  rcases exec x s with ⟨_ | a, m⟩ <;> simp

theorem exec_zoom_ok {τ ε' : Type} {get : σ → τ} {set : τ → σ → σ} {raised : ε' → ε} {x : Transaction τ ε' α}
    :
    exec (zoom get set raised x) s = (.ok a, t) ↔
      ∃ m, exec x ⟨get s.committed, get s.view⟩ = (.ok a, m) ∧ t = { s with view := set m.view s.view } := by
  change (match exec x ⟨get s.committed, get s.view⟩ with
    | (.ok a, t) => (Except.ok a, { s with view := set t.view s.view })
    | (.error e, t) => (.error (raised e), { s with view := set t.view s.view })) = _ ↔ _
  rcases exec x ⟨get s.committed, get s.view⟩ with ⟨_ | b, m⟩
  · simp
  · simp only [Prod.mk.injEq, Except.ok.injEq]
    constructor
    · rintro ⟨rfl, rfl⟩
      exact ⟨m, ⟨rfl, rfl⟩, rfl⟩
    · rintro ⟨m', ⟨rfl, rfl⟩, rfl⟩
      exact ⟨rfl, rfl⟩

theorem exec_zoom_error {τ ε' : Type} {get : σ → τ} {set : τ → σ → σ} {raised : ε' → ε} {x : Transaction τ ε' α}
    :
    exec (zoom get set raised x) s = (.error e, t) ↔ ∃ e' m, exec x ⟨get s.committed, get s.view⟩ = (.error e', m) ∧
      e = raised e' ∧ t = { s with view := set m.view s.view } := by
  change (match exec x ⟨get s.committed, get s.view⟩ with
    | (.ok a, t) => (Except.ok a, { s with view := set t.view s.view })
    | (.error e, t) => (.error (raised e), { s with view := set t.view s.view })) = _ ↔ _
  rcases exec x ⟨get s.committed, get s.view⟩ with ⟨e' | b, m⟩
  · simp only [Prod.mk.injEq, Except.error.injEq]
    constructor
    · rintro ⟨rfl, rfl⟩
      exact ⟨e', m, ⟨rfl, rfl⟩, rfl, rfl⟩
    · rintro ⟨_, m', ⟨rfl, rfl⟩, rfl, rfl⟩
      exact ⟨rfl, rfl⟩
  · simp

theorem except_bind_ok {x : Except ε α} {f : α → Except ε β} :
    (x >>= f) = .ok b ↔ ∃ a, x = .ok a ∧ f a = .ok b := by
  cases x <;> simp [bind, Except.bind]

section Sequences

variable (f : Unit → Transaction σ ε β) (s t : Session σ) (b : β)

@[simp] theorem exec_view_bind (g : σ → Transaction σ ε β) : exec (view >>= g) s = exec (g s.view) s := rfl

@[simp] theorem exec_modifyView_bind (g : σ → σ) :
    exec (modifyView g >>= f) s = exec (f ()) { s with view := g s.view } := rfl

@[simp] theorem exec_rollback_bind : exec (rollback >>= f) s = exec (f ()) { s with view := s.committed } := rfl

@[simp] theorem exec_attempt_bind (x : Transaction σ ε α) (g : Except ε α → Transaction σ ε β) :
    exec (attempt x >>= g) s = exec (g (exec x s).1) (exec x s).2 := rfl

@[simp] theorem exec_require_bind_ok (p : Prop) [Decidable p] (e : ε) :
    exec (require p e >>= f) s = (.ok b, t) ↔ p ∧ exec (f ()) s = (.ok b, t) := by
  rw [exec_bind, exec_require]
  by_cases hp : p <;> simp [hp]

@[simp] theorem exec_flush_bind_ok (constraints : σ → Except ε Unit) :
    exec (flush constraints >>= f) s = (.ok b, t) ↔ constraints s.view = .ok () ∧ exec (f ()) s = (.ok b, t) := by
  rw [exec_bind, exec_flush]
  cases constraints s.view <;> simp

end Sequences

theorem atomically_ok {s t : σ} {a : α} :
    atomically x s = (.ok a, t) ↔ ∃ c, exec x ⟨s, s⟩ = (.ok a, ⟨c, t⟩) := by
  unfold atomically
  rcases exec x ⟨s, s⟩ with ⟨_ | b, c, v⟩ <;> simp

theorem atomically_cases (x : Transaction σ ε α) (s : σ) :
    (atomically x s).2 = s ∨ ∃ a c, exec x ⟨s, s⟩ = (.ok a, ⟨c, (atomically x s).2⟩) := by
  unfold atomically
  rcases exec x ⟨s, s⟩ with ⟨_ | b, c, v⟩ <;> simp

/-- A call committed by a last flush did nothing, or returned and left a store within the constraints. -/
theorem atomically_flush_cases (x : Transaction σ ε Unit) (constraints : σ → Except ε Unit) (s : σ) :
    (atomically (do x; flush constraints) s).2 = s ∨
      ∃ τ, exec x ⟨s, s⟩ = (.ok (), τ) ∧ (atomically (do x; flush constraints) s).2 = τ.view ∧
        constraints τ.view = .ok () := by
  rcases atomically_cases (do x; flush constraints) s with hsame | ⟨u, committed, hrun⟩
  · exact .inl hsame
  · obtain ⟨u, τ, hcall, hflush⟩ := exec_bind_ok.mp hrun
    obtain ⟨hok, hτ⟩ := exec_flush_ok.mp hflush
    exact .inr ⟨τ, hcall, congrArg Session.view hτ, hok⟩

end Transaction

end BotCord
