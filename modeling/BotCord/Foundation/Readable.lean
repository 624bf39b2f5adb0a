import Mathlib.Data.List.Forall2

/-!
# Texts that can be read in one way only

A code is read off the front of a text. Where what follows a code word always starts with one of a few stops, it is enough that a code word tells itself apart from every other one under that promise, and then so do lists of code words between marks.
-/

namespace BotCord.Readable

variable {τ α : Type*} {stop : τ → Prop}

def Stopped (stop : τ → Prop) (text : List τ) : Prop := ∀ x ∈ text.head?, stop x

@[simp] theorem stopped_nil : Stopped stop [] := by
  simp [Stopped]

@[simp] theorem stopped_cons {x : τ} {text : List τ} : Stopped stop (x :: text) ↔ stop x := by
  simp [Stopped]

theorem append_inj_of_alphabet {p : τ → Prop} {u v r s : List τ} (hu : ∀ x ∈ u, p x) (hv : ∀ x ∈ v, p x)
    (hr : Stopped (fun x => ¬ p x) r) (hs : Stopped (fun x => ¬ p x) s) (h : u ++ r = v ++ s) : u = v ∧ r = s := by
  induction u generalizing v with
  | nil =>
    cases v with
    | nil => exact ⟨rfl, h⟩
    | cons x v =>
      rw [List.nil_append, List.cons_append] at h
      rw [h, stopped_cons] at hr
      exact absurd (hv x List.mem_cons_self) hr
  | cons x u ih =>
    cases v with
    | nil =>
      rw [List.nil_append, List.cons_append] at h
      rw [← h, stopped_cons] at hs
      exact absurd (hu x List.mem_cons_self) hs
    | cons y v =>
      obtain ⟨rfl, hrest⟩ := List.cons.inj h
      obtain ⟨rfl, rfl⟩ := ih (fun z hz => hu z (List.mem_cons_of_mem _ hz))
        (fun z hz => hv z (List.mem_cons_of_mem _ hz)) hrest
      exact ⟨rfl, rfl⟩

/-- In front of a stop, the code word of `a` is only that of values the same as `a`. -/
def Reads (stop : τ → Prop) (code : α → List τ) (dom : α → Prop) (same : α → α → Prop) (a : α) : Prop :=
  ∀ b, dom b → ∀ r s, Stopped stop r → Stopped stop s → code a ++ r = code b ++ s → same a b ∧ r = s

section Separated

variable {code : α → List τ} {dom : α → Prop} {same : α → α → Prop} {mark close : τ}

theorem intercalate_cons_eq (mark : τ) (first : List τ) (rest : List (List τ)) :
    [mark].intercalate (first :: rest) = first ++ rest.flatMap (mark :: ·) := by
  induction rest generalizing first with
  | nil => simp
  | cons second rest ih =>
    rw [List.intercalate_cons_cons, ih, List.flatMap_cons]
    simp

theorem stopped_rest (hmark : stop mark) (hclose : stop close) (words : List (List τ)) (r : List τ) :
    Stopped stop (words.flatMap (mark :: ·) ++ close :: r) := by
  cases words with
  | nil => simpa using hclose
  | cons word words => simpa using hmark

theorem Reads.marked (hmark : stop mark) (hclose : stop close) (hne : mark ≠ close) {as bs : List α}
    (has : ∀ a ∈ as, Reads stop code dom same a) (hbs : ∀ b ∈ bs, dom b) {r s : List τ}
    (h : (as.map code).flatMap (mark :: ·) ++ close :: r = (bs.map code).flatMap (mark :: ·) ++ close :: s) :
    List.Forall₂ same as bs ∧ r = s := by
  induction as generalizing bs with
  | nil =>
    cases bs with
    | nil => exact ⟨.nil, (List.cons.inj h).2⟩
    | cons b bs => exact absurd (List.cons.inj h).1.symm hne
  | cons a as ih =>
    cases bs with
    | nil => exact absurd (List.cons.inj h).1 hne
    | cons b bs =>
      have hwords : code a ++ ((as.map code).flatMap (mark :: ·) ++ close :: r)
          = code b ++ ((bs.map code).flatMap (mark :: ·) ++ close :: s) := by
        simpa using h
      obtain ⟨hsame, hrest⟩ := has a List.mem_cons_self b (hbs b List.mem_cons_self) _ _
        (stopped_rest hmark hclose _ r) (stopped_rest hmark hclose _ s) hwords
      obtain ⟨hsames, htail⟩ := ih (fun x hx => has x (List.mem_cons_of_mem _ hx))
        (fun x hx => hbs x (List.mem_cons_of_mem _ hx)) hrest
      exact ⟨.cons hsame hsames, htail⟩

/-- Code words between marks, up to the closing one, which none of them starts with. -/
theorem Reads.separated (hmark : stop mark) (hclose : stop close) (hne : mark ≠ close)
    (hfirst : ∀ a, dom a → ∃ x rest, code a = x :: rest ∧ x ≠ close) {as bs : List α}
    (has : ∀ a ∈ as, dom a ∧ Reads stop code dom same a) (hbs : ∀ b ∈ bs, dom b) {r s : List τ}
    (h : [mark].intercalate (as.map code) ++ close :: r = [mark].intercalate (bs.map code) ++ close :: s) :
    List.Forall₂ same as bs ∧ r = s := by
  cases as with
  | nil =>
    cases bs with
    | nil => exact ⟨.nil, by simpa using h⟩
    | cons b bs =>
      obtain ⟨x, rest, hb, hx⟩ := hfirst b (hbs b List.mem_cons_self)
      rw [List.map_cons, intercalate_cons_eq, hb] at h
      exact absurd (List.cons.inj h).1.symm hx
  | cons a as =>
    cases bs with
    | nil =>
      obtain ⟨x, rest, ha, hx⟩ := hfirst a (has a List.mem_cons_self).1
      rw [List.map_cons, intercalate_cons_eq, ha] at h
      exact absurd (List.cons.inj h).1 hx
    | cons b bs =>
      have hreads : ∀ x ∈ a :: as, Reads stop code dom same x := fun x hx => (has x hx).2
      refine Reads.marked hmark hclose hne hreads hbs ?_
      rw [List.map_cons, List.map_cons, intercalate_cons_eq, intercalate_cons_eq] at h
      simpa using h

end Separated

end BotCord.Readable
