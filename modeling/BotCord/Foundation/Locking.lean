import BotCord.Foundation.Run
import Mathlib.Data.Nat.Notation
import Mathlib.Logic.Function.Basic

/-!
# What row locks protect

A store is looked at row by row. Sessions are disciplined when each writes row by row and only rows it has locked; then a commit changes nothing of a row that another session holds, neither in the store nor in what that session sees.
-/

/-!
## Interleaved database sessions

Any number of sessions over one store under READ COMMITTED: a statement reads what is committed when it runs, together with the session's own uncommitted writes; a row lock is held until its session ends; a commit makes a session's writes part of the store and gives its locks up. A protocol adds the phase each session is in and the step from phase to phase, one database statement a step.

A write is kept as the function it is on the store. It is written by primary key with a value computed earlier, so it overwrites whatever is committed in between.
-/

namespace BotCord

structure Sessions (σ κ φ : Type*) where
  committed : σ
  /-- Which session holds the lock of a row. -/
  held : κ → Option ℕ
  /-- The uncommitted writes of each session. -/
  pending : ℕ → σ → σ
  phase : ℕ → φ

namespace Sessions

variable {σ κ φ : Type*}

/-- Every session is about to begin. -/
def start (s : σ) (p : φ) : Sessions σ κ φ := ⟨s, fun _ => none, fun _ => id, fun _ => p⟩

variable (d : Sessions σ κ φ) (i j : ℕ) (k k' : κ) (p : φ) (f : σ → σ)

def view : σ := d.pending i d.committed

/-- A session need not wait for a row. -/
def Free : Prop := d.held k = none ∨ d.held k = some i
deriving Decidable

def goto : Sessions σ κ φ := { d with phase := Function.update d.phase i p }

def lock [DecidableEq κ] : Sessions σ κ φ := { d with held := Function.update d.held k (some i) }

def write : Sessions σ κ φ := { d with pending := Function.update d.pending i (f ∘ d.pending i) }

def releaseAll : κ → Option ℕ := fun k => if d.held k = some i then none else d.held k

def commit : Sessions σ κ φ :=
  { d with committed := d.view i, held := d.releaseAll i, pending := Function.update d.pending i id }

def rollback : Sessions σ κ φ := { d with held := d.releaseAll i, pending := Function.update d.pending i id }

@[simp] theorem goto_committed : (d.goto i p).committed = d.committed := rfl
@[simp] theorem goto_pending : (d.goto i p).pending = d.pending := rfl
@[simp] theorem goto_view : (d.goto i p).view = d.view := rfl
@[simp] theorem goto_phase_self : (d.goto i p).phase i = p := Function.update_self ..
theorem goto_phase_of_ne {i j : ℕ} (h : j ≠ i) : (d.goto i p).phase j = d.phase j := Function.update_of_ne h ..

@[simp] theorem write_committed : (d.write i f).committed = d.committed := rfl
@[simp] theorem write_phase : (d.write i f).phase = d.phase := rfl
@[simp] theorem write_view_self : (d.write i f).view i = f (d.view i) := by simp [write, view]
theorem write_pending_of_ne {i j : ℕ} (h : j ≠ i) : (d.write i f).pending j = d.pending j := by simp [write, h]
theorem write_view_of_ne {i j : ℕ} (h : j ≠ i) : (d.write i f).view j = d.view j := by simp [write, view, h]

@[simp] theorem commit_committed : (d.commit i).committed = d.view i := rfl
@[simp] theorem commit_phase : (d.commit i).phase = d.phase := rfl
@[simp] theorem commit_pending_self : (d.commit i).pending i = id := by simp [commit]
@[simp] theorem commit_view_self : (d.commit i).view i = d.view i := by simp [view]
theorem commit_pending_of_ne {i j : ℕ} (h : j ≠ i) : (d.commit i).pending j = d.pending j := by simp [commit, h]
theorem commit_view_of_ne {i j : ℕ} (h : j ≠ i) : (d.commit i).view j = d.pending j (d.view i) := by
  rw [view, commit_pending_of_ne d h, commit_committed]

@[simp] theorem rollback_committed : (d.rollback i).committed = d.committed := rfl
@[simp] theorem rollback_phase : (d.rollback i).phase = d.phase := rfl
@[simp] theorem rollback_pending_self : (d.rollback i).pending i = id := by simp [rollback]
@[simp] theorem rollback_view_self : (d.rollback i).view i = d.committed := by simp [view]
theorem rollback_pending_of_ne {i j : ℕ} (h : j ≠ i) : (d.rollback i).pending j = d.pending j := by simp [rollback, h]
theorem rollback_view_of_ne {i j : ℕ} (h : j ≠ i) : (d.rollback i).view j = d.view j := by simp [rollback, view, h]

theorem goto_eq_self {i : ℕ} {p : φ} (h : d.phase i = p) : d.goto i p = d := by
  rw [goto, ← h, Function.update_eq_self]

section Lock

variable [DecidableEq κ]

@[simp] theorem lock_committed : (d.lock i k).committed = d.committed := rfl
@[simp] theorem lock_pending : (d.lock i k).pending = d.pending := rfl
@[simp] theorem lock_phase : (d.lock i k).phase = d.phase := rfl
@[simp] theorem lock_view : (d.lock i k).view = d.view := rfl
@[simp] theorem lock_held_self : (d.lock i k).held k = some i := Function.update_self ..
theorem lock_held_of_ne {k k' : κ} (h : k' ≠ k) : (d.lock i k).held k' = d.held k' := Function.update_of_ne h ..

end Lock

theorem releaseAll_eq_some {i j : ℕ} {k : κ} : d.releaseAll i k = some j ↔ d.held k = some j ∧ j ≠ i := by
  unfold releaseAll
  split
  · rename_i hi
    simp only [reduceCtorEq, hi, Option.some.injEq, false_iff, not_and, not_not]
    exact Eq.symm
  · rename_i hi
    constructor
    · intro hj
      exact ⟨hj, fun h => hi (h ▸ hj)⟩
    · exact And.left

@[simp] theorem commit_held_eq_some {i j : ℕ} {k : κ} :
    (d.commit i).held k = some j ↔ d.held k = some j ∧ j ≠ i := d.releaseAll_eq_some

@[simp] theorem rollback_held_eq_some {i j : ℕ} {k : κ} :
    (d.rollback i).held k = some j ↔ d.held k = some j ∧ j ≠ i := d.releaseAll_eq_some

variable {d}

theorem view_of_pending_eq_id {i : ℕ} (h : d.pending i = id) : d.view i = d.committed := by rw [view, h, id]

theorem Free.held_eq_self {i j : ℕ} {k : κ} (h : d.Free i k) (hj : d.held k = some j) : j = i := by
  rcases h with hnone | hi
  · rw [hnone] at hj
    cases hj
  · exact Option.some.inj (hj.symm.trans hi)

end Sessions

end BotCord

namespace BotCord.Sessions

variable {σ κ φ : Type*} {β : κ → Type*}

def RowWise (row : ∀ k, σ → β k) (f : σ → σ) : Prop := ∀ k s t, row k s = row k t → row k (f s) = row k (f t)

def Keeps (row : ∀ k, σ → β k) (k : κ) (f : σ → σ) : Prop := ∀ s, row k (f s) = row k s

structure Disciplined (row : ∀ k, σ → β k) (d : Sessions σ κ φ) : Prop where
  rowwise : ∀ i, RowWise row (d.pending i)
  frame : ∀ i k, d.held k ≠ some i → Keeps row k (d.pending i)

/-- A store with the same rows under the locks of a session. -/
def Agrees (row : ∀ k, σ → β k) (d : Sessions σ κ φ) (i : ℕ) (s : σ) : Prop :=
  ∀ k, d.held k = some i → row k s = row k d.committed

variable {row : ∀ k, σ → β k} {d : Sessions σ κ φ} {i j : ℕ} {k : κ}

theorem RowWise.id : RowWise row id := fun _ _ _ h => h

theorem RowWise.comp {f g : σ → σ} (hf : RowWise row f) (hg : RowWise row g) : RowWise row (f ∘ g) :=
  fun k s t h => hf k _ _ (hg k s t h)

theorem Keeps.comp {f g : σ → σ} (hf : Keeps row k f) (hg : Keeps row k g) : Keeps row k (f ∘ g) :=
  fun s => (hf (g s)).trans (hg s)

theorem Disciplined.start (s : σ) (p : φ) : Disciplined row (Sessions.start s p : Sessions σ κ φ) :=
  ⟨fun _ => .id, fun _ _ _ _ => rfl⟩

theorem Disciplined.view_eq (h : Disciplined row d) (hk : d.held k ≠ some i) : row k (d.view i) = row k d.committed :=
  h.frame i k hk d.committed

theorem Agrees.committed : Agrees row d i d.committed := fun _ _ => rfl

theorem Disciplined.view_of_agrees (h : Disciplined row d) {s : σ} (hs : Agrees row d i s) (hk : d.held k = some i) :
    row k (d.pending i s) = row k (d.view i) :=
  h.rowwise i k _ _ (hs k hk)

theorem Disciplined.goto (h : Disciplined row d) (p : φ) : Disciplined row (d.goto i p) := ⟨h.rowwise, h.frame⟩

theorem Disciplined.rollback (h : Disciplined row d) : Disciplined row (d.rollback i) := by
  refine ⟨fun j => ?_, fun j k hk => ?_⟩
  · by_cases hj : j = i
    · rw [hj, rollback_pending_self]
      exact .id
    · rw [rollback_pending_of_ne d hj]
      exact h.rowwise j
  · by_cases hj : j = i
    · rw [hj, rollback_pending_self]
      exact fun _ => rfl
    · rw [rollback_pending_of_ne d hj]
      exact h.frame j k fun hold => hk ((rollback_held_eq_some d).mpr ⟨hold, hj⟩)

theorem Disciplined.commit (h : Disciplined row d) : Disciplined row (d.commit i) := by
  refine ⟨fun j => ?_, fun j k hk => ?_⟩
  · by_cases hj : j = i
    · rw [hj, commit_pending_self]
      exact .id
    · rw [commit_pending_of_ne d hj]
      exact h.rowwise j
  · by_cases hj : j = i
    · rw [hj, commit_pending_self]
      exact fun _ => rfl
    · rw [commit_pending_of_ne d hj]
      exact h.frame j k fun hold => hk ((commit_held_eq_some d).mpr ⟨hold, hj⟩)

theorem Disciplined.write (h : Disciplined row d) {f : σ → σ} (hf : RowWise row f)
    (hkeeps : ∀ k, d.held k ≠ some i → Keeps row k f) : Disciplined row (d.write i f) := by
  have hpending : (d.write i f).pending i = f ∘ d.pending i := by simp [Sessions.write]
  refine ⟨fun j => ?_, fun j k hk => ?_⟩
  · by_cases hj : j = i
    · subst hj
      rw [hpending]
      exact hf.comp (h.rowwise j)
    · rw [write_pending_of_ne _ _ hj]
      exact h.rowwise j
  · by_cases hj : j = i
    · subst hj
      rw [hpending]
      exact (hkeeps k hk).comp (h.frame j k hk)
    · rw [write_pending_of_ne _ _ hj]
      exact h.frame j k hk

theorem held_lock [DecidableEq κ] (hfree : d.Free i k) {k' : κ} (hk : d.held k' = some j) :
    (d.lock i k).held k' = some j := by
  by_cases hkk : k' = k
  · subst hkk
    rw [hfree.held_eq_self hk, lock_held_self]
  · rw [lock_held_of_ne d i hkk, hk]

theorem Disciplined.lock [DecidableEq κ] (h : Disciplined row d) (hfree : d.Free i k) :
    Disciplined row (d.lock i k) :=
  ⟨h.rowwise, fun j k' hk => h.frame j k' fun hold => hk (held_lock hfree hold)⟩

/-- After another session's commit a session sees its own rows as before and the others as the committer saw them. -/
theorem Disciplined.commit_view (h : Disciplined row d) (hj : j ≠ i) :
    (d.held k = some j → row k ((d.commit i).view j) = row k (d.view j)) ∧
      (d.held k ≠ some j → row k ((d.commit i).view j) = row k (d.view i)) := by
  rw [commit_view_of_ne d hj]
  refine ⟨fun hk => h.rowwise j k _ _ (h.view_eq fun hi => hj ?_), fun hk => h.frame j k hk _⟩
  exact Option.some.inj (hk.symm.trans hi)

theorem Disciplined.commit_committed (h : Disciplined row d) (hj : j ≠ i) (hk : d.held k = some j) :
    row k (d.commit i).committed = row k d.committed :=
  h.view_eq fun hi => hj (Option.some.inj (hk.symm.trans hi))

/-- To agree with a session's rows is the same before and after another session's commit. -/
theorem Disciplined.agrees_commit (h : Disciplined row d) (hj : j ≠ i) {s : σ} :
    Agrees row (d.commit i) j s ↔ Agrees row d j s := by
  constructor
  · intro hs k hk
    exact (hs k ((commit_held_eq_some d).mpr ⟨hk, hj⟩)).trans (h.commit_committed hj hk)
  · intro hs k hk
    obtain ⟨hold, -⟩ := (commit_held_eq_some d).mp hk
    exact (hs k hold).trans (h.commit_committed hj hold).symm

end BotCord.Sessions
