import BotCord.Foundation.Keyed

/-!
# Plain objects

An object of the language whose own members are values under distinct keys, in the order in which they are enumerated: keys that are indices come first, in their order, and the others in the order in which they were added. Everything else a program sees of the object it has from its prototype, which may also take an assignment away.
-/

namespace BotCord

/-- What all objects have in common. `index`: the number a key is the index of. `ignores`: the prototype has a setter for the key, which does nothing with the values that are assigned. `inherits`: the prototype has a member under the key. -/
structure Prototype (κ : Type*) where
  index : κ → Option ℕ
  ignores : κ → Bool
  inherits : κ → Bool

/-- The names under which every object has a member from the prototype of all. -/
def inheritedNames : List String :=
  ["__proto__", "constructor", "hasOwnProperty", "isPrototypeOf", "propertyIsEnumerable", "toLocaleString", "toString", "valueOf",
    "__defineGetter__", "__defineSetter__", "__lookupGetter__", "__lookupSetter__"]

abbrev PlainObject (κ α : Type*) := Keyed (Prod.fst : κ × α → κ)

namespace PlainObject

variable {κ α : Type*} (P : Prototype κ)

/-- The key is enumerated before another one that is there already. -/
def before (k k' : κ) : Bool :=
  match P.index k, P.index k' with
  | some i, some j => i < j
  | some _, none => true
  | none, _ => false

def place (m : κ × α) : List (κ × α) → List (κ × α)
  | [] => [m]
  | n :: rest => if before P m.1 n.1 then m :: n :: rest else n :: place m rest

theorem place_perm (m : κ × α) (rows : List (κ × α)) : (place P m rows).Perm (m :: rows) := by
  induction rows with
  | nil => exact .refl _
  | cons n rest ih =>
    rw [place]
    split
    · exact .refl _
    · exact (ih.cons n).trans (.swap m n rest)

section Order

variable {r : κ × α → κ × α → Prop} {rows : List (κ × α)} {k k' : κ} {m n : κ × α}

/-- The order of the members of an object to which they were added in the order `r`. -/
def Enumerated (r : κ × α → κ × α → Prop) (m n : κ × α) : Prop :=
  before P m.1 n.1 = true ∨ P.index m.1 = P.index n.1 ∧ r m n

variable {P}

theorem before_iff : before P k k' = true ↔ ∃ i, P.index k = some i ∧ ∀ j, P.index k' = some j → i < j := by
  unfold before
  cases P.index k <;> cases P.index k' <;> simp

theorem before_total (k k' : κ) : before P k k' = true ∨ before P k' k = true ∨ P.index k = P.index k' := by
  simp only [before_iff]
  cases hi : P.index k with
  | none => cases P.index k' <;> simp
  | some i =>
    cases hj : P.index k' with
    | none => simp
    | some j => rcases Nat.lt_trichotomy i j with hlt | rfl | hlt <;> simp [*]

theorem before_of_enumerated (hk : before P k m.1 = true) (h : Enumerated P r m n) : before P k n.1 = true := by
  obtain ⟨i, hi, hlt⟩ := before_iff.mp hk
  refine before_iff.mpr ⟨i, hi, fun j hj => ?_⟩
  rcases h with hbefore | ⟨hindex, -⟩
  · obtain ⟨l, hl, hlt'⟩ := before_iff.mp hbefore
    exact (hlt l hl).trans (hlt' j hj)
  · exact hlt j (hindex.trans hj)

theorem not_before_of_enumerated (h : Enumerated P r m n) : ¬ before P n.1 m.1 = true := by
  intro hbefore
  obtain ⟨i, hi, hlt⟩ := before_iff.mp (before_of_enumerated hbefore h)
  exact (hlt i hi).false

theorem pairwise_place (hrows : rows.Pairwise (Enumerated P r)) (hlast : ∀ n ∈ rows, r n m) :
    (place P m rows).Pairwise (Enumerated P r) := by
  induction rows with
  | nil => exact List.pairwise_singleton _ m
  | cons n rest ih =>
    obtain ⟨hfirst, hrest⟩ := List.pairwise_cons.mp hrows
    rw [place]
    split
    · rename_i hbefore
      refine List.pairwise_cons.mpr ⟨fun x hx => .inl ?_, hrows⟩
      rcases List.mem_cons.mp hx with rfl | hx
      · exact hbefore
      · exact before_of_enumerated hbefore (hfirst x hx)
    · rename_i hnot
      refine List.pairwise_cons.mpr ⟨fun x hx => ?_, ih hrest fun x hx => hlast x (List.mem_cons_of_mem n hx)⟩
      rcases List.mem_cons.mp ((place_perm P m rest).mem_iff.mp hx) with rfl | hx
      · exact (before_total n.1 x.1).imp_right fun h => ⟨h.resolve_left hnot, hlast n List.mem_cons_self⟩
      · exact hfirst x hx

end Order

variable [DecidableEq κ]

/-- The value of an own member. -/
def get (o : PlainObject κ α) (k : κ) : Option α := (o.get? k).map Prod.snd

/-- `k in o` -/
def contains (o : PlainObject κ α) (k : κ) : Bool := (o.get k).isSome || P.inherits k

/-- `delete o[k]` -/
def delete (o : PlainObject κ α) (k : κ) : PlainObject κ α := o.remove (·.1 = k)

def define (o : PlainObject κ α) (k : κ) (v : α) : PlainObject κ α :=
  if hnew : ∀ m ∈ o.rows, m.1 ≠ k then
    { rows := place P (k, v) o.rows
      distinct := by
        rw [((place_perm P (k, v) o.rows).map Prod.fst).nodup_iff, List.map_cons, List.nodup_cons]
        refine ⟨fun hmem => ?_, o.distinct⟩
        obtain ⟨m, hm, hkey⟩ := List.mem_map.mp hmem
        exact hnew m hm hkey }
  else o.modify (·.1 = k) fun m => (m.1, v)

/-- `o[k] = v` -/
def assign (o : PlainObject κ α) (k : κ) (v : α) : PlainObject κ α :=
  if P.ignores k ∧ o.get k = none then o else define P o k v

/-- `for (const [k, v] of entries) o[k] = v` -/
def assignAll (o : PlainObject κ α) (entries : List (κ × α)) : PlainObject κ α :=
  entries.foldl (fun o m => assign P o m.1 m.2) o

variable {P} {o o' : PlainObject κ α} {k k' : κ} {v : α}

theorem get_eq_some_iff : o.get k = some v ↔ (k, v) ∈ o := by
  rw [get, Option.map_eq_some_iff]
  constructor
  · rintro ⟨m, hm, rfl⟩
    obtain ⟨hmem, rfl⟩ := Keyed.get?_eq_some_iff.mp hm
    exact hmem
  · intro hmem
    exact ⟨(k, v), Keyed.get?_key hmem, rfl⟩

@[simp] theorem get_empty : get ({} : PlainObject κ α) k = none := rfl

theorem get_delete : (o.delete k).get k' = if k' = k then none else o.get k' := by
  rw [get, delete, Keyed.get?_remove, get]
  split
  · rename_i hk
    cases hfound : o.get? k' with
    | none => rfl
    | some m =>
      have hkey : m.1 = k := (Keyed.get?_eq_some_iff.mp hfound).2.trans hk
      simp [hkey]
  · rename_i hk
    cases hfound : o.get? k' with
    | none => rfl
    | some m =>
      have hkey : m.1 ≠ k := (Keyed.get?_eq_some_iff.mp hfound).2.symm ▸ hk
      have hkept : (some m).filter (¬ ·.1 = k) = some m := by simp [hkey]
      rw [hkept]

theorem get_define : (define P o k v).get k' = if k' = k then some v else o.get k' := by
  apply Option.ext
  intro w
  rw [get_eq_some_iff]
  unfold define
  split
  · rename_i hnew
    have hmem : (k', w) ∈ place P (k, v) o.rows ↔ (k', w) = (k, v) ∨ (k', w) ∈ o.rows := by
      rw [(place_perm P (k, v) o.rows).mem_iff, List.mem_cons]
    refine hmem.trans ?_
    split
    · rename_i hk
      subst hk
      simp only [Prod.mk.injEq, true_and, Option.some.injEq]
      constructor
      · rintro (rfl | hold)
        · rfl
        · exact absurd rfl (hnew _ hold)
      · intro heq
        exact .inl heq.symm
    · rename_i hk
      rw [get_eq_some_iff, Prod.mk.injEq]
      exact ⟨fun h => h.resolve_left fun heq => hk heq.1, .inr⟩
  · rename_i hold
    push Not at hold
    obtain ⟨m, hm, rfl⟩ := hold
    rw [← get_eq_some_iff, get, Keyed.get?_modify_key]
    split
    · rename_i hk
      rw [Keyed.get?_key hm]
      rfl
    · rfl

theorem get_assign (hk : P.ignores k = false) : (assign P o k v).get k' = if k' = k then some v else o.get k' := by
  rw [assign, if_neg (by simp [hk]), get_define]

theorem assign_ignored (hk : P.ignores k = true) (hnone : o.get k = none) : assign P o k v = o := by
  rw [assign, if_pos ⟨hk, hnone⟩]

theorem get_assignAll {entries : List (κ × α)} (hignored : ∀ m ∈ entries, P.ignores m.1 = false)
    (hdistinct : (entries.map Prod.fst).Nodup) :
    (assignAll P o entries).get k = ((entries.find? (·.1 = k)).map Prod.snd).or (o.get k) := by
  induction entries generalizing o with
  | nil => rfl
  | cons m rest ih =>
    rw [List.map_cons, List.nodup_cons] at hdistinct
    have hrest := ih (o := assign P o m.1 m.2) (fun n hn => hignored n (List.mem_cons_of_mem m hn)) hdistinct.2
    rw [assignAll, List.foldl_cons, ← assignAll, hrest, get_assign (hignored m List.mem_cons_self)]
    by_cases hk : k = m.1
    · subst hk
      have hnone : rest.find? (·.1 = m.1) = none := by
        rw [List.find?_eq_none]
        intro n hn heq
        exact hdistinct.1 (by simpa [← of_decide_eq_true heq] using List.mem_map_of_mem (f := Prod.fst) hn)
      rw [hnone, if_pos rfl, List.find?_cons_of_pos (by simp)]
      rfl
    · rw [if_neg hk, List.find?_cons_of_neg (by simpa using Ne.symm hk)]

theorem perm_of_get_eq (h : ∀ k, o.get k = o'.get k) : o.rows.Perm o'.rows := by
  rw [List.perm_ext_iff_of_nodup (List.Nodup.of_map _ o.distinct) (List.Nodup.of_map _ o'.distinct)]
  rintro ⟨k, v⟩
  exact get_eq_some_iff.symm.trans ((iff_of_eq (congrArg (· = some v) (h k))).trans get_eq_some_iff)

/-- An object is enumerated in the order in which entries under new keys were assigned. -/
theorem pairwise_assignAll {r : κ × α → κ × α → Prop} {entries : List (κ × α)}
    (hignored : ∀ m ∈ entries, P.ignores m.1 = false) (hrows : o.rows.Pairwise (Enumerated P r))
    (hentries : entries.Pairwise fun m n => m.1 ≠ n.1 ∧ r m n) (hnew : ∀ m ∈ o.rows, ∀ n ∈ entries, m.1 ≠ n.1 ∧ r m n) :
    (assignAll P o entries).rows.Pairwise (Enumerated P r) := by
  induction entries generalizing o with
  | nil => exact hrows
  | cons m rest ih =>
    obtain ⟨hfirst, hrest⟩ := List.pairwise_cons.mp hentries
    have hplace : (assign P o m.1 m.2).rows = place P m o.rows := by
      rw [assign, if_neg (by simp [hignored m List.mem_cons_self]), define,
        dif_pos fun x hx => (hnew x hx m List.mem_cons_self).1]
    refine ih (fun n hn => hignored n (List.mem_cons_of_mem m hn)) ?_ hrest fun x hx n hn => ?_
    · rw [hplace]
      exact pairwise_place hrows fun n hn => (hnew n hn m List.mem_cons_self).2
    · rw [hplace, (place_perm P m o.rows).mem_iff, List.mem_cons] at hx
      rcases hx with rfl | hx
      · exact hfirst n hn
      · exact hnew x hx n (List.mem_cons_of_mem m hn)

end PlainObject

end BotCord
