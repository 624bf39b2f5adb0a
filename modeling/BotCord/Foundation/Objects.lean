import BotCord.Foundation.Keyed

/-!
# Objects of a mapper

A session of an object-relational mapper has an object for each row that it has loaded. The program changes the object, and what is written is decided column by column: an UPDATE sets those in which the object differs from what was loaded, and one that is flagged as changed. It is issued when the session flushes; from then on the row is locked, and the session has a version of it that becomes the row when it commits. What others have committed since the row was loaded stays in the other columns, and is overwritten in these.
-/

namespace BotCord

/-- Rows that are written column by column. -/
class Columns {ρ κ : Type*} (key : ρ → κ) where
  write : (loaded value : ρ) → (flagged : Bool) → ρ → ρ
  key_write : ∀ loaded value flagged r, key (write loaded value flagged r) = key r
  write_clean : ∀ loaded r, write loaded loaded false r = r

structure Object {ρ κ : Type*} (key : ρ → κ) where
  loaded : ρ
  current : ρ
  /-- The column is written even if it has not changed. -/
  flagged : Bool := false
  /-- What the session has made of the row and not committed. -/
  flushed : Option ρ := none
  key_current : key current = key loaded
  key_flushed : ∀ v ∈ flushed, key v = key loaded

namespace Object

variable {ρ κ : Type*} {key : ρ → κ}

def load (key : ρ → κ) (r : ρ) : Object key where
  loaded := r
  current := r
  key_current := rfl
  key_flushed _ h := by cases h

variable (o : Object key) (f : ρ → ρ) (hf : ∀ r, key (f r) = key r)

def set (hf : ∀ r, key (f r) = key r := by intro; rfl) : Object key :=
  { o with current := f o.current, key_current := (hf _).trans o.key_current }

def flag (hf : ∀ r, key (f r) = key r := by intro; rfl) : Object key :=
  { o with current := f o.current, flagged := true, key_current := (hf _).trans o.key_current }

def saved : Object key := load key o.current

def Dirty : Prop := o.loaded ≠ o.current ∨ o.flagged = true

instance [DecidableEq ρ] : Decidable o.Dirty := inferInstanceAs (Decidable (_ ∨ _))

/-- The program has changed an object, and nothing else has happened to it. -/
def Follows (o o' : Object key) : Prop := o'.loaded = o.loaded ∧ o'.flushed = o.flushed

theorem Follows.refl : o.Follows o := ⟨rfl, rfl⟩

variable {o} in
theorem Follows.trans {o' o'' : Object key} (h : o.Follows o') (h' : o'.Follows o'') : o.Follows o'' :=
  ⟨h'.1.trans h.1, h'.2.trans h.2⟩

theorem follows_set : o.Follows (o.set f hf) := ⟨rfl, rfl⟩

theorem follows_flag : o.Follows (o.flag f hf) := ⟨rfl, rfl⟩

section Write

variable [Columns key] {o} {r : ρ}

def write (o : Object key) (r : ρ) : ρ := Columns.write key o.loaded o.current o.flagged (o.flushed.getD r)

theorem key_write (hr : key r = key o.loaded) : key (o.write r) = key r := by
  refine (Columns.key_write _ _ _ _).trans ?_
  cases hversion : o.flushed with
  | none => rfl
  | some v => exact (o.key_flushed v hversion).trans hr.symm

end Write

section Lookup

variable [DecidableEq κ] [Columns key] {o} {t : Keyed key} {r x : ρ}

def flush (t : Keyed key) (o : Object key) : Object key where
  loaded := o.current
  current := o.current
  flushed := (t.get? (key o.loaded)).map o.write
  key_current := rfl
  key_flushed v hv := by
    obtain ⟨r, hr, rfl⟩ := Option.map_eq_some_iff.mp hv
    have hkey : key r = key o.loaded := (Keyed.get?_eq_some_iff.mp hr).2
    exact (key_write hkey).trans (hkey.trans o.key_current.symm)

theorem flushed_flush (hr : r ∈ t) (hkey : key r = key o.loaded) : (o.flush t).flushed = some (o.write r) := by
  show (t.get? (key o.loaded)).map o.write = some (o.write r)
  rw [Keyed.get?_eq_some_iff.mpr ⟨hr, hkey⟩, Option.map_some]

end Lookup

end Object

namespace Keyed

variable {ρ κ : Type*} {key : ρ → κ} [DecidableEq κ] {t : Keyed key} {objects : List (Object key)} {r x : ρ}

def object? (objects : List (Object key)) (k : κ) : Option (Object key) := objects.find? fun o => key o.loaded = k

theorem object?_eq_some {o : Object key} {k : κ} (h : object? objects k = some o) : o ∈ objects ∧ key o.loaded = k :=
  ⟨List.mem_of_find?_eq_some h, by simpa using List.find?_some h⟩

variable [Columns key]

def savedRow (objects : List (Object key)) (r : ρ) : ρ := ((object? objects (key r)).map (·.write r)).getD r

theorem savedRow_cases (objects : List (Object key)) (r : ρ) :
    savedRow objects r = r ∨ ∃ o ∈ objects, key o.loaded = key r ∧ savedRow objects r = o.write r := by
  unfold savedRow
  cases hobject : object? objects (key r) with
  | none => exact .inl rfl
  | some o =>
    obtain ⟨hmem, hkey⟩ := object?_eq_some hobject
    exact .inr ⟨o, hmem, hkey, rfl⟩

theorem savedRow_singleton (o : Object key) (r : ρ) : savedRow [o] r = if key o.loaded = key r then o.write r else r := by
  simp only [savedRow, object?, List.find?_singleton, decide_eq_true_eq]
  split
  · rfl
  · rfl

theorem savedRow_of_mem (hdistinct : (objects.map fun o => key o.loaded).Nodup) {o : Object key} (ho : o ∈ objects)
    (hkey : key o.loaded = key r) : savedRow objects r = o.write r := by
  have hobject : object? objects (key r) = some o := by
    unfold object?
    induction objects with
    | nil => cases ho
    | cons x rest ih =>
      obtain ⟨hnew, hrest⟩ := List.nodup_cons.mp hdistinct
      rcases List.mem_cons.mp ho with rfl | ho
      · exact List.find?_cons_of_pos (decide_eq_true hkey)
      · have hother : key x.loaded ≠ key r := by
          intro heq
          exact hnew (List.mem_map.mpr ⟨o, ho, hkey.trans heq.symm⟩)
        rw [List.find?_cons_of_neg (by simpa using hother)]
        exact ih hrest ho
  rw [savedRow, hobject, Option.map_some, Option.getD_some]

theorem key_savedRow (objects : List (Object key)) (r : ρ) : key (savedRow objects r) = key r := by
  rcases savedRow_cases objects r with hsame | ⟨o, -, hkey, hwrite⟩
  · rw [hsame]
  · rw [hwrite]
    exact Object.key_write hkey.symm

def save (t : Keyed key) (objects : List (Object key)) : Keyed key :=
  t.modify (fun _ => True) (savedRow objects) (key_savedRow objects)

theorem mem_save : x ∈ t.save objects ↔ ∃ r ∈ t, savedRow objects r = x := by
  simp only [save, mem_modify, if_true]

end Keyed

end BotCord
