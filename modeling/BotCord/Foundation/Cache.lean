import Mathlib.Algebra.Order.Group.Defs

/-!
# Caches whose entries lapse

A cache is known by its calls. An entry is answered until its lifetime is over, and an entry that is written may push another one out; which one is the cache's own business, so a lookup hands the cache back with whatever it has noted about the use of its keys. `Reflects` is what holds of a cache against everything ever written to it.
-/

namespace BotCord

structure Cache (κ ν τ σ : Type*) where
  empty : σ
  get : κ → τ → σ → Option ν × σ
  set : κ → ν → τ → σ → σ

namespace Cache

variable {κ ν τ σ : Type*} (C : Cache κ ν τ σ)

def lookup (c : σ) (k : κ) (t : τ) : Option ν := (C.get k t c).1

section Laws

variable [LinearOrder τ]

/-- From now on the two caches answer alike. -/
def Same (c c' : σ) (now : τ) : Prop := ∀ k t, now ≤ t → C.lookup c' k t = C.lookup c k t

variable {C} in
theorem Same.refl (c : σ) (now : τ) : C.Same c c now := fun _ _ _ => rfl

variable {C} in
theorem Same.later {c c' : σ} {now next : τ} (h : C.Same c c' now) (hle : now ≤ next) : C.Same c c' next :=
  fun k t ht => h k t (hle.trans ht)

variable [AddCommGroup τ]

/-- The behaviour of a cache with a lifetime and some bound on its entries. -/
structure Lawful (ttl : τ) : Prop where
  lookup_empty : ∀ k t, C.lookup C.empty k t = none
  same_get : ∀ c k t, C.Same c (C.get k t c).2 t
  lookup_set : ∀ c k v t t', t ≤ t' → C.lookup (C.set k v t c) k t' = if t' < t + ttl then some v else none
  lookup_set_of_ne : ∀ c k v t k', k' ≠ k →
    (∀ t', t ≤ t' → C.lookup (C.set k v t c) k' t' = none) ∨
      (∀ t', t ≤ t' → C.lookup (C.set k v t c) k' t' = C.lookup c k' t')

structure Write (κ ν τ : Type*) where
  key : κ
  value : ν
  time : τ

variable [DecidableEq κ]

/-- What a cache that loses nothing early would answer after these writes. -/
def answer (ttl : τ) (writes : List (Write κ ν τ)) (k : κ) (t : τ) : Option ν :=
  (writes.reverse.find? (·.key = k)).bind fun w => if t < w.time + ttl then some w.value else none

/-- From now on every key is answered as its last write has it, or the entry is gone. -/
def Reflects (ttl : τ) (writes : List (Write κ ν τ)) (c : σ) (now : τ) : Prop :=
  ∀ k, (∀ t, now ≤ t → C.lookup c k t = none) ∨ (∀ t, now ≤ t → C.lookup c k t = answer ttl writes k t)

theorem answer_snoc_self (ttl : τ) (writes : List (Write κ ν τ)) (w : Write κ ν τ) (t : τ) :
    answer ttl (writes ++ [w]) w.key t = if t < w.time + ttl then some w.value else none := by
  simp [answer]

theorem answer_snoc_of_ne {ttl : τ} {writes : List (Write κ ν τ)} {w : Write κ ν τ} {k : κ} (h : k ≠ w.key) (t : τ) :
    answer ttl (writes ++ [w]) k t = answer ttl writes k t := by
  simp [answer, h.symm]

variable {C} {ttl now : τ} {writes : List (Write κ ν τ)} {c c' : σ}

theorem Lawful.reflects_empty (h : C.Lawful ttl) (now : τ) : C.Reflects ttl [] C.empty now :=
  fun k => Or.inl fun t _ => h.lookup_empty k t

theorem Reflects.later {next : τ} (h : C.Reflects ttl writes c now) (hle : now ≤ next) :
    C.Reflects ttl writes c next := by
  intro k
  rcases h k with hgone | hkept
  · exact Or.inl fun t ht => hgone t (hle.trans ht)
  · exact Or.inr fun t ht => hkept t (hle.trans ht)

theorem Reflects.congr (h : C.Reflects ttl writes c now) (hsame : C.Same c c' now) : C.Reflects ttl writes c' now := by
  intro k
  rcases h k with hgone | hkept
  · exact Or.inl fun t ht => (hsame k t ht).trans (hgone t ht)
  · exact Or.inr fun t ht => (hsame k t ht).trans (hkept t ht)

theorem Reflects.set (hlaw : C.Lawful ttl) (h : C.Reflects ttl writes c now) (k : κ) (v : ν) :
    C.Reflects ttl (writes ++ [⟨k, v, now⟩]) (C.set k v now c) now := by
  intro k'
  by_cases hk : k' = k
  · subst hk
    exact Or.inr fun t ht => (hlaw.lookup_set c k' v now t ht).trans (answer_snoc_self ttl writes ⟨k', v, now⟩ t).symm
  · have hanswer : ∀ t, answer ttl (writes ++ [⟨k, v, now⟩]) k' t = answer ttl writes k' t := answer_snoc_of_ne hk
    rcases hlaw.lookup_set_of_ne c k v now k' hk with hevicted | hsame
    · exact Or.inl hevicted
    · rcases h k' with hgone | hkept
      · exact Or.inl fun t ht => (hsame t ht).trans (hgone t ht)
      · exact Or.inr fun t ht => (hsame t ht).trans ((hkept t ht).trans (hanswer t).symm)

theorem Reflects.mem_of_lookup {k : κ} {v : ν} (h : C.Reflects ttl writes c now) (hlookup : C.lookup c k now = some v) :
    ∃ w ∈ writes, w.key = k ∧ w.value = v := by
  rcases h k with hgone | hkept
  · rw [hgone now le_rfl] at hlookup
    cases hlookup
  · rw [hkept now le_rfl, answer, Option.bind_eq_some_iff] at hlookup
    obtain ⟨w, hw, hvalue⟩ := hlookup
    obtain ⟨-, hvalue⟩ := Option.ite_none_right_eq_some.mp hvalue
    exact ⟨w, List.mem_reverse.mp (List.mem_of_find?_eq_some hw), by simpa using List.find?_some hw, Option.some.inj hvalue⟩

def unbounded (κ ν : Type*) [DecidableEq κ] (ttl : τ) : Cache κ ν τ (κ → Option (ν × τ)) where
  empty _ := none
  get k t c := ((c k).bind fun entry => if t < entry.2 + ttl then some entry.1 else none, c)
  set k v t c := Function.update c k (some (v, t))

theorem unbounded_lawful (κ ν : Type*) [DecidableEq κ] (ttl : τ) : (unbounded κ ν ttl).Lawful ttl where
  lookup_empty _ _ := rfl
  same_get _ _ _ _ _ _ := rfl
  lookup_set c k v t t' _ := by simp [lookup, unbounded]
  lookup_set_of_ne c k v t k' hk := by
    right
    intro t' _
    simp [lookup, unbounded, hk]

end Laws

end Cache

end BotCord
