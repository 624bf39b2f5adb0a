import BotCord.Foundation.Run
import Mathlib.Data.Nat.Notation
import Mathlib.Logic.Function.Basic

/-!
# Calls, statement by statement

Any number of calls over one store under READ COMMITTED. A call is a program of statements: a select reads what is committed when it runs, a statement that locks a row waits for it and keeps it until the call ends, and a call ends with the commit of what it has written or without a trace. Only the commit shows what a call wrote, so a program carries its writes to the commit.

Between two statements a call may rely on the rows that it holds. `Program.Sound` is the proof outline of a program under that assumption, and `Calls.Kept.run` carries the outlines of all programs to a run.
-/

namespace BotCord

inductive Program (σ κ : Type)
  | reject
  | select (next : σ → Program σ κ)
  /-- The row is found when the statement runs; where there is none there is nothing to lock. -/
  | lock (row : σ → Option κ) (next : σ → Program σ κ)
  /-- The writes and the commit; a violated constraint ends the call. What is said by `asRead` is not tested: it is that what the call has read is still so. -/
  | commit (asRead : σ → Bool) (write : σ → Option σ)

namespace Program

variable {σ κ : Type}

/-- A check of what the statement before has read. -/
@[irreducible] def require (p : Prop) [Decidable p] (next : Program σ κ) : Program σ κ := if p then next else .reject

/-- Nothing is written. -/
def finish : Program σ κ := .commit (fun _ => true) some

end Program

structure Calls (σ κ : Type) where
  committed : σ
  /-- Which call holds the lock of a row. -/
  held : κ → Option ℕ := fun _ => none
  running : ℕ → Option (Program σ κ) := fun _ => none

/-- A call begins, runs its next statement or ends without a commit, or something changes from outside. -/
inductive CallAction (α ε : Type)
  | call (i : ℕ) (request : α)
  | next (i : ℕ)
  | crash (i : ℕ)
  | outside (event : ε)

namespace Calls

variable {σ κ α ε : Type} (d : Calls σ κ) (i : ℕ)

def goto (p : Program σ κ) : Calls σ κ := { d with running := Function.update d.running i (some p) }

/-- A call ends over a store and gives its locks up. -/
def finish (s : σ) : Calls σ κ where
  committed := s
  held k := if d.held k = some i then none else d.held k
  running := Function.update d.running i none

/-- The next statement of a call; `none` where it waits for a row or has ended. -/
def next [DecidableEq κ] : Option (Calls σ κ) :=
  match d.running i with
  | none => none
  | some .reject => some (d.finish i d.committed)
  | some (.select next) => some (d.goto i (next d.committed))
  | some (.lock row next) =>
    match row d.committed with
    | none => some (d.goto i (next d.committed))
    | some k =>
      if d.held k = none ∨ d.held k = some i then
        some { d.goto i (next d.committed) with held := Function.update d.held k (some i) }
      else none
  | some (.commit _ write) => some (d.finish i ((write d.committed).getD d.committed))

/-- What a call that commits has read is still so. -/
def AsRead : CallAction α ε → Prop
  | .next i =>
    (match d.running i with
    | some (.commit asRead _) => asRead d.committed
    | _ => true) = true
  | _ => True

instance : DecidablePred (AsRead d : CallAction α ε → Prop)
  | .next _ => inferInstanceAs (Decidable (_ = true))
  | .call _ _ | .crash _ | .outside _ => isTrue trivial

end Calls

/-- Calls of given programs, over a store that also changes from outside. -/
def calls {σ κ α ε : Type} [DecidableEq κ] (program : α → σ → Program σ κ) (outside : ε → σ → σ) :
    System (Calls σ κ) (CallAction α ε) where
  step d
    | .call i request =>
      match d.running i with
      | none => some (d.goto i (program request d.committed))
      | some _ => none
    | .next i => d.next i
    | .crash i => (d.running i).map fun _ => d.finish i d.committed
    | .outside event => some { d with committed := outside event d.committed }

/-- The store row by row, what always holds of it, how it ages and what a commit may do to it. Where calls are trusted, what a call has read is still so when it commits. -/
structure Rely (σ κ : Type) where
  β : κ → Type
  row : ∀ k, σ → β k
  inv : σ → Prop
  since : σ → σ → Prop
  commits : σ → σ → Prop
  trusted : Prop := False
  refl : ∀ s, since s s
  trans : ∀ s t u, since s t → since t u → since s u

namespace Rely

variable {σ κ : Type} (R : Rely σ κ)

structure Later (held : κ → Prop) (s t : σ) : Prop where
  rows : ∀ k, held k → R.row k t = R.row k s
  since : R.since s t

structure Commits (held : κ → Prop) (s t : σ) : Prop where
  inv : R.inv t
  since : R.since s t
  frame : ∀ k, ¬ held k → R.row k t = R.row k s
  commits : R.commits s t

variable {R} {held held' : κ → Prop} {s t u : σ}

theorem Later.refl : R.Later held s s := ⟨fun _ _ => rfl, R.refl s⟩

theorem Later.trans (h : R.Later held s t) (h' : R.Later held t u) : R.Later held s u :=
  ⟨fun k hk => (h'.rows k hk).trans (h.rows k hk), R.trans s t u h.since h'.since⟩

theorem Later.mono (h : R.Later held' s t) (hle : ∀ k, held k → held' k) : R.Later held s t :=
  ⟨fun k hk => h.rows k (hle k hk), h.since⟩

theorem Commits.later (h : R.Commits held s t) (hdisjoint : ∀ k, held' k → ¬ held k) : R.Later held' s t :=
  ⟨fun k hk => h.frame k (hdisjoint k hk), h.since⟩

end Rely

namespace Program

variable {σ κ : Type} {R : Rely σ κ} {held held' : κ → Prop} {s t : σ} {p : Program σ κ}

/-- From a store on, whatever other calls do, the commit of a program keeps to the rows that the program holds. -/
def Sound (R : Rely σ κ) : Program σ κ → (κ → Prop) → σ → Prop
  | .reject, _, _ => True
  | .select next, held, s => ∀ t, R.Later held s t → R.inv t → (next t).Sound R held t
  | .lock row next, held, s => ∀ t, R.Later held s t → R.inv t →
      (row t = none → (next t).Sound R held t) ∧ ∀ k, row t = some k → (next t).Sound R (fun x => held x ∨ x = k) t
  | .commit asRead write, held, s => ∀ t, R.Later held s t → R.inv t → (R.trusted → asRead t = true) → ∀ u,
      write t = some u → R.Commits held t u

theorem Sound.later (h : p.Sound R held s) (hlater : R.Later held s t) : p.Sound R held t := by
  cases p with
  | reject => trivial
  | select next => exact fun u hu hinv => h u (hlater.trans hu) hinv
  | lock row next => exact fun u hu hinv => h u (hlater.trans hu) hinv
  | commit asRead write => exact fun u hu hinv => h u (hlater.trans hu) hinv

theorem Sound.mono (h : p.Sound R held s) (hle : ∀ k, held k → held' k) : p.Sound R held' s := by
  induction p generalizing held held' s with
  | reject => trivial
  | select next ih => exact fun t ht hinv => ih t (h t (ht.mono hle) hinv) hle
  | lock row next ih =>
    intro t ht hinv
    obtain ⟨hnone, hsome⟩ := h t (ht.mono hle) hinv
    exact ⟨fun hk => ih t (hnone hk) hle, fun k hk => ih t (hsome k hk) fun x hx => hx.imp_left (hle x)⟩
  | commit asRead write =>
    intro t ht hinv hread u hu
    have hcommits := h t (ht.mono hle) hinv hread u hu
    exact { hcommits with frame := fun k hk => hcommits.frame k fun hheld => hk (hle k hheld) }

theorem Sound.require {q : Prop} [Decidable q] (h : q → p.Sound R held s) : (require q p).Sound R held s := by
  unfold Program.require
  split
  · rename_i hq
    exact h hq
  · trivial

theorem Sound.select {next : σ → Program σ κ}
    (h : ∀ t, R.Later held s t → R.inv t → (next t).Sound R held t) : (select next).Sound R held s := h

theorem Sound.lock {row : σ → Option κ} {next : σ → Program σ κ}
    (hnone : ∀ t, R.Later held s t → R.inv t → row t = none → (next t).Sound R held t)
    (hsome : ∀ t k, R.Later held s t → R.inv t → row t = some k → (next t).Sound R (fun x => held x ∨ x = k) t) :
    (lock row next).Sound R held s :=
  fun t ht hinv => ⟨hnone t ht hinv, fun k => hsome t k ht hinv⟩

theorem Sound.commit {asRead : σ → Bool} {write : σ → Option σ}
    (h : ∀ t, R.Later held s t → R.inv t → (R.trusted → asRead t = true) → ∀ u, write t = some u →
      R.Commits held t u) :
    (commit asRead write).Sound R held s := h

end Program

namespace Calls

variable {σ κ α ε : Type} {R : Rely σ κ} {program : α → σ → Program σ κ} {outside : ε → σ → σ}
  {d d' : Calls σ κ} {i : ℕ}

/-- What the committed store is and what every call has still to do are sound. -/
structure Kept (R : Rely σ κ) (d : Calls σ κ) : Prop where
  inv : R.inv d.committed
  sound : ∀ i p, d.running i = some p → p.Sound R (d.held · = some i) d.committed

theorem Kept.start {s : σ} (hinv : R.inv s) : Kept R { committed := s } := ⟨hinv, fun _ _ h => by cases h⟩

theorem Kept.goto (h : Kept R d) {p : Program σ κ} {held : κ → Option ℕ}
    (hheld : ∀ j k, d.held k = some j → held k = some j)
    (hp : p.Sound R (held · = some i) d.committed) : Kept R { d.goto i p with held } := by
  refine ⟨h.inv, fun j q hq => ?_⟩
  by_cases hj : j = i
  · subst hj
    cases (Function.update_self ..).symm.trans hq
    exact hp
  · exact (h.sound j q ((Function.update_of_ne hj ..).symm.trans hq)).mono (hheld j)

theorem Kept.finish (h : Kept R d) {s : σ} (hinv : R.inv s)
    (hlater : ∀ j, j ≠ i → R.Later (d.held · = some j) d.committed s) : Kept R (d.finish i s) := by
  refine ⟨hinv, fun j q hq => ?_⟩
  by_cases hj : j = i
  · subst hj
    cases (Function.update_self ..).symm.trans hq
  · have hq := h.sound j q ((Function.update_of_ne hj ..).symm.trans hq)
    refine (hq.later (hlater j hj)).mono fun k hk => ?_
    have hne : d.held k ≠ some i := fun hi => hj (Option.some.inj (hk.symm.trans hi))
    exact (if_neg hne).trans hk

inductive Moved (R : Rely σ κ) (outside : ε → σ → σ) (s : σ) : σ → Prop
  | same : Moved R outside s s
  | commits {t : σ} : R.commits s t → Moved R outside s t
  | outside (event : ε) : Moved R outside s (outside event s)

variable [DecidableEq κ]

theorem Kept.next (h : Kept R d) (hread : R.trusted → d.AsRead (.next i : CallAction α ε)) (hstep : d.next i = some d') :
    Kept R d' ∧ Moved R outside d.committed d'.committed := by
  have hsame : ∀ j, j ≠ i → R.Later (d.held · = some j) d.committed d.committed := fun _ _ => .refl
  cases hp : d.running i with
  | none => simp [Calls.next, hp] at hstep
  | some p =>
    have hsound := h.sound i p hp
    cases p with
    | reject =>
      simp only [Calls.next, hp, Option.some.injEq] at hstep
      subst hstep
      exact ⟨h.finish h.inv hsame, .same⟩
    | select next =>
      simp only [Calls.next, hp, Option.some.injEq] at hstep
      subst hstep
      exact ⟨h.goto (fun _ _ hk => hk) (hsound _ .refl h.inv), .same⟩
    | lock row next =>
      obtain ⟨hnone, hsome⟩ := hsound _ .refl h.inv
      cases hrow : row d.committed with
      | none =>
        simp only [Calls.next, hp, hrow, Option.some.injEq] at hstep
        subst hstep
        exact ⟨h.goto (fun _ _ hk => hk) (hnone hrow), .same⟩
      | some k =>
        simp only [Calls.next, hp, hrow, Option.ite_none_right_eq_some, Option.some.injEq] at hstep
        obtain ⟨hfree, rfl⟩ := hstep
        refine ⟨h.goto (fun j x hx => ?_) ((hsome k hrow).mono fun x hx => ?_), .same⟩
        · rw [Function.update_apply]
          split
          · rename_i hxk
            subst hxk
            exact (hfree.resolve_left (by simp [hx])).symm.trans hx
          · exact hx
        · rw [Function.update_apply]
          split
          · rfl
          · rename_i hne
            exact hx.resolve_right hne
    | commit asRead write =>
      simp only [Calls.next, hp, Option.some.injEq] at hstep
      simp only [Calls.AsRead, hp] at hread
      subst hstep
      cases hu : write d.committed with
      | none => exact ⟨h.finish h.inv hsame, .same⟩
      | some u =>
        have hcommits := hsound _ .refl h.inv hread u hu
        refine ⟨h.finish hcommits.inv fun j hj => hcommits.later fun k hk hi => hj ?_, .commits hcommits.commits⟩
        exact Option.some.inj (hk.symm.trans hi)

theorem Kept.step (hprogram : ∀ request s, R.inv s → (program request s).Sound R (fun _ => False) s)
    (houtside : ∀ event s, R.inv s → R.inv (outside event s) ∧ ∀ held, R.Later held s (outside event s))
    {a : CallAction α ε} (h : Kept R d) (hread : R.trusted → d.AsRead a) (hstep : (calls program outside).step d a = some d') :
    Kept R d' ∧ Moved R outside d.committed d'.committed := by
  cases a with
  | call i request =>
    simp only [calls] at hstep
    split at hstep
    · cases hstep
      exact ⟨h.goto (fun _ _ hk => hk) ((hprogram request _ h.inv).mono fun _ hk => hk.elim), .same⟩
    · cases hstep
  | next i => exact h.next hread hstep
  | crash i =>
    obtain ⟨p, -, rfl⟩ := Option.map_eq_some_iff.mp hstep
    exact ⟨h.finish h.inv fun _ _ => .refl, .same⟩
  | outside event =>
    cases hstep
    obtain ⟨hinv, hlater⟩ := houtside event _ h.inv
    exact ⟨⟨hinv, fun j p hp => (h.sound j p hp).later (hlater _)⟩, .outside event⟩

end Calls

end BotCord
