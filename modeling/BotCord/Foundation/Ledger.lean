import BotCord.Foundation.Run
import Mathlib.Algebra.BigOperators.Group.List.Basic
import Mathlib.Algebra.Order.Ring.Int
import Mathlib.Tactic.Ring

/-!
# Accounts with a ledger and holds

What a wallet is for, without tables or requests: an account has money it can spend and money set aside by holds, every change of their sum is a posting that records the balance after it, and setting money aside or giving it back posts nothing. The machine below allows exactly the moves that keep an account sound, and a concrete store is right when each of its operations is a sequence of these moves.
-/

namespace BotCord.Ledger

structure Posting where
  amount : ℤ
  balanceAfter : ℤ

structure Account where
  available : ℤ
  locked : ℤ
  /-- The total of the open holds. -/
  held : ℤ
  history : List Posting

def Account.zero : Account := ⟨0, 0, 0, []⟩

def posted (history : List Posting) : ℤ := (history.map Posting.amount).sum

def Running (history : List Posting) : Prop :=
  ∀ k (hk : k < history.length), history[k].balanceAfter = posted (history.take (k + 1))

structure Account.Sound (a : Account) : Prop where
  available_nonneg : 0 ≤ a.available
  locked_nonneg : 0 ≤ a.locked
  locked_eq_held : a.locked = a.held
  balance_eq_posted : a.available + a.locked = posted a.history
  running : Running a.history

@[simp] theorem posted_append (left right : List Posting) : posted (left ++ right) = posted left + posted right := by
  simp [posted]

@[simp] theorem posted_singleton (p : Posting) : posted [p] = p.amount := by simp [posted]

theorem Running.append {history : List Posting} {p : Posting} (h : Running history)
    (hp : p.balanceAfter = posted history + p.amount) : Running (history ++ [p]) := by
  intro k hk
  rw [List.length_append, List.length_singleton] at hk
  rcases Nat.lt_succ_iff_lt_or_eq.mp hk with hlt | rfl
  · rw [List.getElem_append_left hlt, List.take_append_of_le_length (by omega)]
    exact h k hlt
  · rw [List.getElem_append_right le_rfl, List.take_of_length_le (by simp)]
    simpa using hp

namespace Account

/-- Money comes in or goes out, and the posting says what is left. -/
def post (a : Account) (amount : ℤ) : Account :=
  { a with
    available := a.available + amount
    history := a.history ++ [⟨amount, a.available + amount + a.locked⟩] }

def hold (a : Account) (amount : ℤ) : Account :=
  { a with available := a.available - amount, locked := a.locked + amount, held := a.held + amount }

/-- Give held money back. -/
def release (a : Account) (amount : ℤ) : Account :=
  { a with available := a.available + amount, locked := a.locked - amount, held := a.held - amount }

def settle (a : Account) (amount : ℤ) : Account :=
  { a with
    locked := a.locked - amount
    held := a.held - amount
    history := a.history ++ [⟨-amount, a.available + (a.locked - amount)⟩] }

theorem zero_sound : zero.Sound :=
  ⟨le_rfl, le_rfl, rfl, rfl, fun k hk => absurd hk (Nat.not_lt_zero k)⟩

theorem Sound.post {a : Account} (h : a.Sound) {amount : ℤ} (hcovered : 0 ≤ a.available + amount) :
    (a.post amount).Sound := by
  have hsum := h.balance_eq_posted
  refine ⟨hcovered, h.locked_nonneg, h.locked_eq_held, ?_, h.running.append ?_⟩
  · simp only [Account.post, posted_append, posted_singleton]
    omega
  · show a.available + amount + a.locked = posted a.history + amount
    omega

theorem Sound.hold {a : Account} (h : a.Sound) {amount : ℤ} (hpos : 0 ≤ amount) (hcovered : amount ≤ a.available) :
    (a.hold amount).Sound := by
  have hlocked := h.locked_nonneg
  have hheld := h.locked_eq_held
  have hsum := h.balance_eq_posted
  refine ⟨?_, ?_, ?_, ?_, h.running⟩ <;> simp only [Account.hold] <;> omega

theorem Sound.release {a : Account} (h : a.Sound) {amount : ℤ} (hpos : 0 ≤ amount) (hheld : amount ≤ a.held) :
    (a.release amount).Sound := by
  have havailable := h.available_nonneg
  have hlocked := h.locked_eq_held
  have hsum := h.balance_eq_posted
  refine ⟨?_, ?_, ?_, ?_, h.running⟩ <;> simp only [Account.release] <;> omega

theorem Sound.settle {a : Account} (h : a.Sound) {amount : ℤ} (hheld : amount ≤ a.held) :
    (a.settle amount).Sound := by
  have hlocked := h.locked_eq_held
  have hsum := h.balance_eq_posted
  refine ⟨h.available_nonneg, ?_, ?_, ?_, h.running.append ?_⟩
  · simp only [Account.settle]
    omega
  · simp only [Account.settle]
    omega
  · simp only [Account.settle, posted_append, posted_singleton]
    omega
  · show a.available + (a.locked - amount) = posted a.history + -amount
    omega

end Account

/-! ### The machine

A book has an account for every key. A move is enabled only where it keeps the account sound. -/

variable {κ : Type*} [DecidableEq κ]

abbrev Book (κ : Type*) := κ → Account

inductive Move (κ : Type*) where
  | post (key : κ) (amount : ℤ)
  | hold (key : κ) (amount : ℤ)
  | release (key : κ) (amount : ℤ)
  | settle (key : κ) (amount : ℤ)

def Book.set (b : Book κ) (key : κ) (a : Account) : Book κ := fun k => if k = key then a else b k

@[simp] theorem Book.set_same (b : Book κ) (key : κ) (a : Account) : b.set key a key = a := if_pos rfl

theorem Book.set_of_ne (b : Book κ) {key k : κ} (a : Account) (h : k ≠ key) : b.set key a k = b k := if_neg h

@[simp] theorem Book.set_set (b : Book κ) (key : κ) (a a' : Account) : (b.set key a).set key a' = b.set key a' := by
  funext k
  by_cases hk : k = key
  · rw [hk, Book.set_same, Book.set_same]
  · rw [Book.set_of_ne _ _ hk, Book.set_of_ne _ _ hk, Book.set_of_ne _ _ hk]

@[simp] theorem Book.set_eq_self (b : Book κ) (key : κ) : b.set key (b key) = b := by
  funext k
  by_cases hk : k = key
  · rw [hk, Book.set_same]
  · rw [Book.set_of_ne _ _ hk]

def books (κ : Type*) [DecidableEq κ] : System (Book κ) (Move κ) where
  step b
    | .post key amount => if 0 ≤ (b key).available + amount then some (b.set key ((b key).post amount)) else none
    | .hold key amount =>
      if 0 ≤ amount ∧ amount ≤ (b key).available then some (b.set key ((b key).hold amount)) else none
    | .release key amount =>
      if 0 ≤ amount ∧ amount ≤ (b key).held then some (b.set key ((b key).release amount)) else none
    | .settle key amount =>
      if 0 ≤ amount ∧ amount ≤ (b key).held then some (b.set key ((b key).settle amount)) else none

def Book.Sound (b : Book κ) : Prop := ∀ key, (b key).Sound

theorem Book.Sound.set {b : Book κ} (h : b.Sound) {key : κ} {a : Account} (ha : a.Sound) : (b.set key a).Sound := by
  intro k
  by_cases hk : k = key
  · rw [hk, Book.set_same]
    exact ha
  · rw [b.set_of_ne a hk]
    exact h k

theorem step_sound (b : Book κ) (m : Move κ) (next : Book κ) (h : b.Sound)
    (hstep : (books κ).step b m = some next) : next.Sound := by
  cases m with
  | post key amount =>
    obtain ⟨hcovered, hnext⟩ := Option.ite_none_right_eq_some.mp hstep
    obtain rfl := Option.some.inj hnext
    exact h.set ((h key).post hcovered)
  | hold key amount =>
    obtain ⟨⟨hpos, hcovered⟩, hnext⟩ := Option.ite_none_right_eq_some.mp hstep
    obtain rfl := Option.some.inj hnext
    exact h.set ((h key).hold hpos hcovered)
  | release key amount =>
    obtain ⟨⟨hpos, hheld⟩, hnext⟩ := Option.ite_none_right_eq_some.mp hstep
    obtain rfl := Option.some.inj hnext
    exact h.set ((h key).release hpos hheld)
  | settle key amount =>
    obtain ⟨⟨-, hheld⟩, hnext⟩ := Option.ite_none_right_eq_some.mp hstep
    obtain rfl := Option.some.inj hnext
    exact h.set ((h key).settle hheld)

theorem run_sound {moves : List (Move κ)} {b : Book κ} (hrun : (books κ).run (fun _ => Account.zero) moves = some b) :
    b.Sound :=
  (books κ).run_invariant step_sound (fun _ => Account.zero_sound) hrun

theorem step_history {b next : Book κ} {m : Move κ} (hstep : (books κ).step b m = some next) (key : κ) :
    (b key).history <+: (next key).history := by
  have hset : ∀ k a, (b k).history <+: a.history → (b key).history <+: (b.set k a key).history := by
    intro k a ha
    by_cases hk : key = k
    · rwa [hk, Book.set_same]
    · exact (b.set_of_ne a hk).symm ▸ List.prefix_refl _
  cases m <;> obtain ⟨-, hnext⟩ := Option.ite_none_right_eq_some.mp hstep <;> obtain rfl := Option.some.inj hnext
  case post | settle => exact hset _ _ (List.prefix_append _ _)
  case hold | release => exact hset _ _ (List.prefix_refl _)

end BotCord.Ledger
