import BotCord.Memory.Store

/-!
# The version of a memory

The version is the digest of a text that has the goal and the sections, these in the order of their names. The text gives both back, and does not depend on the order in which the sections were written, unless a language puts two of the names in one place: these stay in the order in which they were written.
-/

namespace BotCord.Memory

open Protocol

/-- What `localeCompare` does: it puts the names in an order, some of them perhaps in one place. -/
structure LocaleOrder (localeCompare : JsString → JsString → ℤ) : Prop where
  total : ∀ a b, localeCompare a b ≤ 0 ∨ localeCompare b a ≤ 0
  trans : ∀ a b c, localeCompare a b ≤ 0 → localeCompare b c ≤ 0 → localeCompare a c ≤ 0

/-- Two names in one place, of which an object does not enumerate one first as an index. -/
def Tied (localeCompare : JsString → JsString → ℤ) (a b : JsString) : Prop :=
  arrayIndex a = arrayIndex b ∧ localeCompare a b ≤ 0 ∧ localeCompare b a ≤ 0

theorem Tied.symm {localeCompare : JsString → JsString → ℤ} {a b : JsString} (h : Tied localeCompare a b) :
    Tied localeCompare b a := ⟨h.1.symm, h.2.2, h.2.1⟩

/-- No two names that have a content are in one place. -/
def Untied (localeCompare : JsString → JsString → ℤ) (contents : JsString → Option JsString) : Prop :=
  ∀ a b, contents a ≠ none → contents b ≠ none → Tied localeCompare a b → a = b

/-- Every key is the name of a section, and not of the prototype. -/
def Clean (sections : Sections) : Prop :=
  ∀ key value, PlainObject.get sections key = some value → validSectionKey key ∧ key ≠ proto

def sectionsOf (memory : Option WorkingMemory) : Sections := (memory.map WorkingMemory.sections).getD {}

def goalOf (memory : Option WorkingMemory) : Option JsString := memory.bind WorkingMemory.goal

structure SameContents (a b : Option WorkingMemory) : Prop where
  goal : goalOf a = goalOf b
  sections : ∀ key, PlainObject.get (sectionsOf a) key = PlainObject.get (sectionsOf b) key

theorem ignores_eq_false {key : JsString} (h : key ≠ proto) : objectPrototype.ignores key = false := decide_eq_false h

theorem ignores_proto : objectPrototype.ignores proto = true := decide_eq_true (Eq.refl proto)

section Order

variable {localeCompare : JsString → JsString → ℤ} (horder : LocaleOrder localeCompare) {sections sections' : Sections}

include horder in
theorem sortedEntries_pairwise :
    (sortedEntries localeCompare sections).Pairwise fun a b => localeCompare a.1 b.1 ≤ 0 :=
  haveI : Std.Total (fun a b : JsString × JsString => localeCompare a.1 b.1 ≤ 0) := ⟨fun a b => horder.total a.1 b.1⟩
  haveI : IsTrans (JsString × JsString) (fun a b => localeCompare a.1 b.1 ≤ 0) :=
    ⟨fun a b c => horder.trans a.1 b.1 c.1⟩
  List.pairwise_insertionSort _ sections.rows

theorem sortedEntries_perm : (sortedEntries localeCompare sections).Perm sections.rows :=
  List.perm_insertionSort _ _

variable (localeCompare) in
def canonicalSections (sections : Sections) : Sections :=
  PlainObject.assignAll objectPrototype {} (sortedEntries localeCompare sections)

theorem distinct_sortedEntries : ((sortedEntries localeCompare sections).map Prod.fst).Nodup :=
  (sortedEntries_perm.map Prod.fst).nodup_iff.mpr sections.distinct

theorem ignores_sortedEntries (hclean : Clean sections) :
    ∀ entry ∈ sortedEntries localeCompare sections, objectPrototype.ignores entry.1 = false := fun entry hentry =>
  ignores_eq_false (hclean entry.1 entry.2 (PlainObject.get_eq_some_iff.mpr (sortedEntries_perm.mem_iff.mp hentry))).2

theorem get_canonicalSections (hclean : Clean sections) (key : JsString) :
    PlainObject.get (canonicalSections localeCompare sections) key = PlainObject.get sections key := by
  have hdistinct : ((sortedEntries localeCompare sections).map Prod.fst).Nodup := distinct_sortedEntries
  rw [canonicalSections, PlainObject.get_assignAll (ignores_sortedEntries hclean) hdistinct, PlainObject.get_empty,
    Option.or_none]
  apply Option.ext
  intro value
  have hfind : ((sortedEntries localeCompare sections).find? (·.1 = key)).map Prod.snd =
      PlainObject.get ({ rows := sortedEntries localeCompare sections, distinct := hdistinct } : Sections) key := rfl
  rw [hfind, PlainObject.get_eq_some_iff, PlainObject.get_eq_some_iff]
  exact sortedEntries_perm.mem_iff

/-- The order in which the names are enumerated, from one in which they were sorted. -/
theorem pairwise_canonicalSections (hclean : Clean sections) {r : JsString × JsString → JsString × JsString → Prop}
    (h : (sortedEntries localeCompare sections).Pairwise r) :
    (canonicalSections localeCompare sections).rows.Pairwise (PlainObject.Enumerated objectPrototype r) :=
  PlainObject.pairwise_assignAll (ignores_sortedEntries hclean) .nil
    ((List.pairwise_map.mp distinct_sortedEntries).and h) fun _ hm => nomatch hm

include horder in
/-- Names that are told apart stand in one order, whatever the order in which they were written. -/
theorem canonicalSections_eq (hclean : Clean sections) (hclean' : Clean sections')
    (huntied : Untied localeCompare (PlainObject.get sections))
    (h : ∀ key, PlainObject.get sections key = PlainObject.get sections' key) :
    canonicalSections localeCompare sections = canonicalSections localeCompare sections' := by
  have hget : ∀ key, PlainObject.get (canonicalSections localeCompare sections) key =
      PlainObject.get (canonicalSections localeCompare sections') key := fun key =>
    (get_canonicalSections hclean key).trans ((h key).trans (get_canonicalSections hclean' key).symm)
  have hperm := PlainObject.perm_of_get_eq hget
  refine Keyed.ext_rows (hperm.eq_of_pairwise (fun a b ha hb hab hba => ?_)
    (pairwise_canonicalSections hclean (sortedEntries_pairwise horder))
    (pairwise_canonicalSections hclean' (sortedEntries_pairwise horder)))
  have hb := hperm.mem_iff.mpr hb
  have hthere : ∀ m ∈ (canonicalSections localeCompare sections).rows, PlainObject.get sections m.1 ≠ none := by
    intro m hm
    rw [← get_canonicalSections hclean, PlainObject.get_eq_some_iff.mpr hm]
    exact Option.some_ne_none m.2
  refine Keyed.eq_of_key ha hb (huntied a.1 b.1 (hthere a ha) (hthere b hb) ?_)
  obtain ⟨hindex, hle⟩ := hab.resolve_left (PlainObject.not_before_of_enumerated hba)
  obtain ⟨-, hge⟩ := hba.resolve_left (PlainObject.not_before_of_enumerated hab)
  exact ⟨hindex, hle, hge⟩

end Order

def brace : CodeUnit := 0x7D

def membersTail (rows : List (JsString × JsString)) (rest : JsString) : JsString :=
  if rows = [] then brace :: rest else comma :: ([comma].intercalate (rows.map memberText) ++ brace :: rest)

theorem membersText_cons (row : JsString × JsString) (rows : List (JsString × JsString)) (rest : JsString) :
    [comma].intercalate ((row :: rows).map memberText) ++ brace :: rest =
      quote row.1 ++ (colon :: (quote row.2 ++ membersTail rows rest)) := by
  cases rows with
  | nil => simp [membersTail, memberText, List.intercalate_singleton]
  | cons next rows => simp [membersTail, memberText, List.intercalate_cons_cons]

theorem membersText_ne {row : JsString × JsString} {rows : List (JsString × JsString)} {rest rest' : JsString} :
    brace :: rest' ≠ [comma].intercalate ((row :: rows).map memberText) ++ brace :: rest := by
  rw [membersText_cons, quote, List.cons_append]
  intro h
  exact absurd (List.cons.inj h).1 (by decide)

theorem membersText_inj {rows rows' : List (JsString × JsString)} {rest : JsString}
    (h : [comma].intercalate (rows.map memberText) ++ brace :: rest =
      [comma].intercalate (rows'.map memberText) ++ brace :: rest) : rows = rows' := by
  induction rows generalizing rows' with
  | nil =>
    cases rows' with
    | nil => rfl
    | cons row' rows' => exact absurd h membersText_ne
  | cons row rows ih =>
    cases rows' with
    | nil => exact absurd h.symm membersText_ne
    | cons row' rows' =>
      rw [membersText_cons, membersText_cons] at h
      obtain ⟨hkey, htext⟩ := quote_inj h
      obtain ⟨hvalue, htail⟩ := quote_inj (List.cons.inj htext).2
      rw [Prod.ext hkey hvalue]
      rw [membersTail, membersTail] at htail
      by_cases hlast : rows = []
      · by_cases hlast' : rows' = []
        · rw [hlast, hlast']
        · rw [if_pos hlast, if_neg hlast'] at htail
          exact absurd (List.cons.inj htail).1 (by decide)
      · by_cases hlast' : rows' = []
        · rw [if_neg hlast, if_pos hlast'] at htail
          exact absurd (List.cons.inj htail).1 (by decide)
        · rw [if_neg hlast, if_neg hlast'] at htail
          rw [ih (List.cons.inj htail).2]

def goalText (goal : Option JsString) : JsString := (goal.map quote).getD (units "null")

theorem goalText_inj {goal goal' : Option JsString} {rest rest' : JsString}
    (h : goalText goal ++ rest = goalText goal' ++ rest') : goal = goal' ∧ rest = rest' := by
  have hnull : ∀ (text : JsString) (r r' : JsString), units "null" ++ r ≠ quote text ++ r' := by
    intro text r r' heq
    exact absurd (List.cons.inj heq).1 (by decide)
  cases goal with
  | none =>
    cases goal' with
    | none => exact ⟨rfl, List.append_cancel_left h⟩
    | some text' => exact absurd h (hnull text' rest rest')
  | some text =>
    cases goal' with
    | none => exact absurd h.symm (hnull text rest' rest)
    | some text' =>
      obtain ⟨htext, hrest⟩ := quote_inj h
      exact ⟨congrArg some htext, hrest⟩

/-- The version is the same exactly for the same goal and the same text of the sections, if the digest tells texts apart. -/
theorem workingMemoryVersion_eq {localeCompare : JsString → JsString → ℤ} {digest : JsString → JsString}
    (hdigest : Function.Injective digest) {a b : Option WorkingMemory} :
    workingMemoryVersion localeCompare digest a = workingMemoryVersion localeCompare digest b ↔ goalOf a = goalOf b ∧
      canonicalSections localeCompare (sectionsOf a) = canonicalSections localeCompare (sectionsOf b) := by
  rw [workingMemoryVersion, workingMemoryVersion, List.append_right_inj, hdigest.eq_iff]
  have htext : ∀ m, canonicalText localeCompare m = units "\x7b\"version\":2,\"goal\":" ++
      (goalText (goalOf m) ++ (units ",\"sections\":\x7b" ++
        ([comma].intercalate ((canonicalSections localeCompare (sectionsOf m)).rows.map memberText) ++ brace :: [brace]))) := by
    intro m
    simp only [canonicalText, goalText, goalOf, sectionsOf, List.append_assoc]
    rfl
  rw [htext, htext, List.append_right_inj]
  constructor
  · intro h
    obtain ⟨hgoal, hrest⟩ := goalText_inj h
    exact ⟨hgoal, Keyed.ext_rows (membersText_inj (List.append_cancel_left hrest))⟩
  · rintro ⟨hgoal, hsections⟩
    rw [hgoal, hsections]

theorem workingMemoryVersion_eq_iff {localeCompare : JsString → JsString → ℤ} (horder : LocaleOrder localeCompare)
    {digest : JsString → JsString} (hdigest : Function.Injective digest) {a b : Option WorkingMemory}
    (ha : Clean (sectionsOf a)) (hb : Clean (sectionsOf b)) (huntied : Untied localeCompare (PlainObject.get (sectionsOf a))) :
    workingMemoryVersion localeCompare digest a = workingMemoryVersion localeCompare digest b ↔ SameContents a b := by
  rw [workingMemoryVersion_eq hdigest]
  constructor
  · rintro ⟨hgoal, hsections⟩
    refine ⟨hgoal, fun key => ?_⟩
    rw [← get_canonicalSections ha, hsections, get_canonicalSections hb]
  · intro h
    exact ⟨h.goal, canonicalSections_eq horder ha hb huntied h.sections⟩

end BotCord.Memory
