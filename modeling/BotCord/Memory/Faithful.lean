import BotCord.Foundation.Run
import BotCord.Memory.Version

/-!
# What a memory remembers

Any calls on the memory of one agent, one after another, beside the notes they are to keep: the goal, and a content for each name. What is read after each of them is what the notes say, for all names but one: a content for `__proto__` is accepted and is not kept. And two memories have one version exactly if they say the same, unless two of the names are in one place.
-/

namespace BotCord.Memory

open Protocol

structure Notes where
  goal : Option JsString := none
  sections : JsString → Option JsString := fun _ => none

def Notes.apply (notes : Notes) (u : MemoryUpdate) : Notes where
  goal := match u.goal with
    | some goal => if goal = [] then none else some goal
    | none => notes.goal
  sections := match u.content with
    | some content => Function.update notes.sections u.sectionName (if content = [] then none else some content)
    | none => notes.sections

structure MemoryState where
  file : File := none
  notes : Notes := {}

inductive MemoryCall
  | update (u : MemoryUpdate) (now : JsString)
  | clear (now : JsString)

def Accepts (file : File) (u : MemoryUpdate) (now : JsString) : Prop := (updateWorkingMemory file u now).1.isOk
deriving Decidable

def MemoryState.after (s : MemoryState) : MemoryCall → MemoryState
  | .update u now => {
      file := (updateWorkingMemory s.file u now).2
      notes := if Accepts s.file u now then s.notes.apply u else s.notes }
  | .clear now => { file := clearWorkingMemory now }

def memoryStore : System MemoryState MemoryCall := System.total MemoryState.after

/-- The call is accepted with a content for the name of the prototype. -/
def StoresProto (s : MemoryState) : MemoryCall → Prop
  | .update u now => Accepts s.file u now ∧ u.sectionName = proto ∧ u.content.any (· ≠ [])
  | .clear _ => False

instance (s : MemoryState) : DecidablePred (StoresProto s)
  | .update u now => inferInstanceAs (Decidable (Accepts s.file u now ∧ u.sectionName = proto ∧ u.content.any (· ≠ [])))
  | .clear _ => inferInstanceAs (Decidable False)

variable (localeCompare : JsString → JsString → ℤ) (digest : JsString → JsString)

/-- The call is accepted with a content for a name in one place with another one that has a content. -/
def StoresTied (s : MemoryState) : MemoryCall → Prop
  | .update u now => Accepts s.file u now ∧ u.content.any (· ≠ []) = true ∧
      ∃ name, s.notes.sections name ≠ none ∧ name ≠ u.sectionName ∧ Tied localeCompare name u.sectionName
  | .clear _ => False

/-- What a reader may rely on. `version`: compared with any other memory. -/
structure Lawful (s : MemoryState) : Prop where
  sections : ∀ name, validSectionKey name →
    PlainObject.get (sectionsOf (readWorkingMemory s.file)) name = s.notes.sections name
  nothingElse : ∀ name, (PlainObject.get (sectionsOf (readWorkingMemory s.file)) name).isSome → validSectionKey name
  goal : goalOf (readWorkingMemory s.file) = s.notes.goal
  total : ∀ memory ∈ readWorkingMemory s.file, memory.totalChars ≤ MAX_TOTAL_CHARS
  thrown : ∀ u now, ¬ Accepts s.file u now → (updateWorkingMemory s.file u now).2 = s.file
  version : ∀ other, Clean (sectionsOf other) →
    (workingMemoryVersion localeCompare digest (readWorkingMemory s.file) = workingMemoryVersion localeCompare digest other ↔
      SameContents (readWorkingMemory s.file) other)

theorem Clean.assign {sections : Sections} (h : Clean sections) {key : JsString} (hkey : validSectionKey key)
    (value : JsString) : Clean (PlainObject.assign objectPrototype sections key value) := by
  intro name content hget
  by_cases hproto : key = proto
  · have hnone : PlainObject.get sections key = none := by
      cases hold : PlainObject.get sections key with
      | none => rfl
      | some old => exact absurd hproto (h key old hold).2
    rw [PlainObject.assign_ignored (decide_eq_true hproto) hnone] at hget
    exact h name content hget
  · rw [PlainObject.get_assign (ignores_eq_false hproto)] at hget
    split at hget
    · rename_i hname
      rw [hname]
      exact ⟨hkey, hproto⟩
    · exact h name content hget

theorem Clean.delete {sections : Sections} (h : Clean sections) (key : JsString) :
    Clean (PlainObject.delete sections key) := by
  intro name content hget
  rw [PlainObject.get_delete] at hget
  split at hget
  · exact absurd hget (Option.some_ne_none content).symm
  · exact h name content hget

theorem clean_empty : Clean {} := fun _ _ h => absurd h (Option.some_ne_none _).symm

theorem Clean.get_proto {sections : Sections} (h : Clean sections) : PlainObject.get sections proto = none := by
  cases hget : PlainObject.get sections proto with
  | none => rfl
  | some content => exact absurd rfl (h proto content hget).2

section Tied

variable {localeCompare : JsString → JsString → ℤ} {digest : JsString → JsString} {memory : Option WorkingMemory}

/-- A memory in which a name has been written again, and stands last. -/
def rewritten (memory : Option WorkingMemory) (name content : JsString) : Option WorkingMemory :=
  some {
    goal := goalOf memory
    sections := {
      rows := (PlainObject.delete (sectionsOf memory) name).rows ++ [(name, content)]
      distinct := Table.nodup_append_singleton (PlainObject.delete (sectionsOf memory) name).distinct fun _ hx =>
        (Keyed.mem_remove.mp hx).2 } }

theorem sameContents_rewritten {name content : JsString} (hget : PlainObject.get (sectionsOf memory) name = some content) :
    SameContents memory (rewritten memory name content) := by
  refine ⟨rfl, fun key => Option.ext fun value => ?_⟩
  rw [PlainObject.get_eq_some_iff, PlainObject.get_eq_some_iff]
  show _ ↔ (key, value) ∈ (PlainObject.delete (sectionsOf memory) name).rows ++ [(name, content)]
  rw [List.mem_append, List.mem_singleton, ← Keyed.mem_def, PlainObject.delete, Keyed.mem_remove]
  have hmem := PlainObject.get_eq_some_iff.mp hget
  constructor
  · intro hold
    by_cases hkey : key = name
    · exact .inr (Keyed.eq_of_key hold hmem hkey)
    · exact .inl ⟨hold, hkey⟩
  · rintro (⟨hold, -⟩ | heq)
    · exact hold
    · exact heq ▸ hmem

theorem not_sublist_swap {α : Type*} {x y : α} {rows : List α} (hnodup : rows.Nodup) (h : [x, y].Sublist rows) :
    ¬ [y, x].Sublist rows := by
  induction rows with
  | nil => cases h
  | cons z rest ih =>
    intro h'
    obtain ⟨hnew, hrest⟩ := List.nodup_cons.mp hnodup
    cases h with
    | cons _ h =>
      cases h' with
      | cons _ h' => exact ih hrest h h'
      | cons_cons _ h' => exact hnew (h.subset (by simp))
    | cons_cons _ h =>
      cases h' with
      | cons _ h' => exact hnew (h'.subset (by simp))
      | cons_cons _ h' => exact hnew (h.subset (by simp))

/-- Where a version tells contents apart no two names are in one place: either could have been written again. -/
theorem untied_of_version (hdigest : Function.Injective digest) (h : Clean (sectionsOf memory))
    (hversion : ∀ other, Clean (sectionsOf other) → SameContents memory other →
      workingMemoryVersion localeCompare digest memory = workingMemoryVersion localeCompare digest other) :
    Untied localeCompare (PlainObject.get (sectionsOf memory)) := by
  intro a b ha hb htied
  by_contra hne
  obtain ⟨v, hv⟩ := Option.ne_none_iff_exists'.mp ha
  obtain ⟨w, hw⟩ := Option.ne_none_iff_exists'.mp hb
  -- Once a name is written again another one in its place comes first, and still the text is the same.
  have hlast : ∀ {m n}, m ∈ sectionsOf memory → n ∈ sectionsOf memory → m.1 ≠ n.1 → Tied localeCompare m.1 n.1 →
      (canonicalSections localeCompare (sectionsOf memory)).rows.Pairwise fun x y => ¬ (x = n ∧ y = m) := by
    intro m n hm hn hne htied
    have hsame := sameContents_rewritten (PlainObject.get_eq_some_iff.mpr hn)
    have hclean : Clean (sectionsOf (rewritten memory n.1 n.2)) := fun key value hget =>
      h key value ((hsame.sections key).trans hget)
    rw [((workingMemoryVersion_eq hdigest).mp (hversion _ hclean hsame)).2]
    have hrows : [m, n].Sublist (sectionsOf (rewritten memory n.1 n.2)).rows :=
      (List.singleton_sublist.mpr (Keyed.mem_remove.mpr ⟨hm, hne⟩)).append (.refl [n])
    have hsorted : [m, n].Sublist (sortedEntries localeCompare (sectionsOf (rewritten memory n.1 n.2))) :=
      List.pair_sublist_insertionSort (r := fun a b : JsString × JsString => localeCompare a.1 b.1 ≤ 0) htied.2.1 hrows
    refine (pairwise_canonicalSections hclean (r := fun x y => ¬ (x = n ∧ y = m)) ?_).imp ?_
    · refine List.pairwise_iff_forall_sublist.mpr fun hpair => ?_
      rintro ⟨rfl, rfl⟩
      exact not_sublist_swap (List.Nodup.of_map _ distinct_sortedEntries) hsorted hpair
    · rintro x y henumerated ⟨rfl, rfl⟩
      rcases henumerated with hbefore | ⟨-, hpair⟩
      · exact PlainObject.not_before_of_enumerated (r := fun _ _ => True) (.inr ⟨htied.1, trivial⟩) hbefore
      · exact hpair ⟨rfl, rfl⟩
  have hv := PlainObject.get_eq_some_iff.mp hv
  have hw := PlainObject.get_eq_some_iff.mp hw
  have hmem : ∀ {m}, m ∈ sectionsOf memory → m ∈ (canonicalSections localeCompare (sectionsOf memory)).rows := fun hm =>
    PlainObject.get_eq_some_iff.mp ((get_canonicalSections h _).trans (PlainObject.get_eq_some_iff.mpr hm))
  have hneither := (hlast hv hw hne htied).and (hlast hw hv (Ne.symm hne) htied.symm)
  have : Std.Symm fun x y : JsString × JsString => ¬ (x = (b, w) ∧ y = (a, v)) ∧ ¬ (x = (a, v) ∧ y = (b, w)) :=
    ⟨fun x y h => ⟨fun heq => h.2 heq.symm, fun heq => h.1 heq.symm⟩⟩
  exact (hneither.forall (hmem hv) (hmem hw) fun heq => hne (congrArg Prod.fst heq)).2 ⟨rfl, rfl⟩

end Tied

theorem roundTripMembers_strings (rows : List (JsString × JsString)) :
    roundTripMembers (rows.map fun s => (s.1, .string s.2)) = rows.map fun s => (s.1, .string s.2) := by
  induction rows with
  | nil => rfl
  | cons row rows ih => rw [List.map_cons, roundTripMembers, ih]; rfl

theorem get_sanitizeSections {sections : Sections} (h : Clean sections) (key : JsString) :
    PlainObject.get (sanitizeSections (.object (sections.rows.map fun s => (s.1, .string s.2)))) key =
      PlainObject.get sections key := by
  have hrows : (sections.rows.map fun s => (s.1, Value.string s.2)).filterMap
      (fun m => if validSectionKey m.1 then (asString m.2).map (m.1, ·) else none) = sections.rows := by
    rw [List.filterMap_map]
    conv_rhs => rw [← List.filterMap_some (l := sections.rows)]
    refine List.filterMap_congr fun row hrow => ?_
    have hvalid := (h row.1 row.2 (PlainObject.get_eq_some_iff.mpr hrow)).1
    simp [Function.comp_apply, hvalid, asString]
  rw [sanitizeSections, hrows, PlainObject.get_assignAll ?_ sections.distinct, PlainObject.get_empty, Option.or_none]
  · rfl
  · intro row hrow
    exact ignores_eq_false (h row.1 row.2 (PlainObject.get_eq_some_iff.mpr hrow)).2

theorem member_cons (name : String) (value : Value) (rest : List (JsString × Value)) (key : String) :
    member ((units name, value) :: rest) key = if units name = units key then value else member rest key := by
  rw [member, List.find?_cons]
  by_cases heq : units name = units key
  · rw [if_pos heq]
    simp [heq]
  · rw [if_neg heq]
    simp [heq, member]

def written (goal : Option JsString) (sections : List (JsString × Value)) (updatedAt : JsString) : Value :=
  .object ((units "version", .number two) :: (goal.toList.map fun goal => (units "goal", .string goal)) ++
    [(units "sections", .object sections), (units "updatedAt", .string updatedAt)])

theorem writeWorkingMemory_eq (memory : WorkingMemory) :
    writeWorkingMemory memory =
      some (written memory.goal (memory.sections.rows.map fun s => (s.1, .string s.2)) memory.updatedAt) := by
  have htwo : two ≠ Double.negativeZero := by decide
  rw [writeWorkingMemory, WorkingMemory.toValue, written]
  cases memory.goal <;> simp [roundTrip, roundTripMembers, roundTripMembers_strings, htwo]

theorem normalize_written (goal : Option JsString) (sections : List (JsString × Value)) (updatedAt : JsString) :
    normalize (written goal sections updatedAt) =
      some { goal, sections := sanitizeSections (.object sections), updatedAt } := by
  have hgoal : units "goal" ≠ units "version" ∧ units "goal" ≠ units "sections" ∧ units "goal" ≠ units "updatedAt" := by
    decide
  have hversion : units "version" ≠ units "sections" ∧ units "version" ≠ units "goal" ∧
      units "version" ≠ units "updatedAt" := by decide
  have hsections : units "sections" ≠ units "goal" ∧ units "sections" ≠ units "updatedAt" ∧
      units "updatedAt" ≠ units "goal" := by decide
  have hnil : member [] "goal" = .undefined := rfl
  cases goal <;>
    simp [written, normalize, member_cons, hgoal, hversion, hsections, hnil, isNumber, isObject, asString]

theorem read_write {memory : WorkingMemory} (h : Clean memory.sections) :
    ∃ read, readWorkingMemory (writeWorkingMemory memory) = some read ∧ read.goal = memory.goal ∧
      ∀ key, PlainObject.get read.sections key = PlainObject.get memory.sections key := by
  refine ⟨{ goal := memory.goal, updatedAt := memory.updatedAt
            sections := sanitizeSections (.object (memory.sections.rows.map fun s => (s.1, .string s.2))) },
    ?_, rfl, get_sanitizeSections h⟩
  rw [readWorkingMemory, writeWorkingMemory_eq, Option.bind_some, normalize_written]

def updatedMemory (file : File) (u : MemoryUpdate) (now : JsString) : WorkingMemory where
  goal := u.applyGoal (goalOf (readWorkingMemory file))
  sections := u.applySection (sectionsOf (readWorkingMemory file))
  updatedAt := now

theorem updateWorkingMemory_eq (file : File) (u : MemoryUpdate) (now : JsString) :
    Accepts file u now ∧ u.check = .ok () ∧ (updatedMemory file u now).totalChars ≤ MAX_TOTAL_CHARS ∧
        (updateWorkingMemory file u now).2 = writeWorkingMemory (updatedMemory file u now) ∨
      ¬ Accepts file u now ∧ (updateWorkingMemory file u now).2 = file := by
  have hmemory : updatedMemory file u now =
      { goal := u.applyGoal ((readWorkingMemory file).getD {}).goal
        sections := u.applySection ((readWorkingMemory file).getD {}).sections, updatedAt := now } := by
    rw [updatedMemory, goalOf, sectionsOf]
    cases readWorkingMemory file <;> rfl
  rw [hmemory, Accepts, updateWorkingMemory]
  cases hcheck : u.check with
  | error e => exact .inr ⟨Bool.false_ne_true, rfl⟩
  | ok _ =>
    dsimp only
    split
    · exact .inr ⟨Bool.false_ne_true, rfl⟩
    · rename_i hsmall
      exact .inl ⟨rfl, rfl, not_lt.mp hsmall, rfl⟩

theorem valid_of_check {u : MemoryUpdate} (h : u.check = .ok ()) (hcontent : u.content.isSome) :
    validSectionKey u.sectionName := by
  by_contra hinvalid
  have hstop : u.content.isSome ∧ ¬ validSectionKey u.sectionName := ⟨hcontent, hinvalid⟩
  rw [MemoryUpdate.check] at h
  simp only [hstop] at h
  by_cases hnothing : u.goal = none ∧ u.content = none
  · simp [hnothing] at hcontent
  · by_cases hgoal : u.goal.any (MAX_GOAL_CHARS < ·.length) = true <;>
      simp [hnothing, hgoal, bind, Except.bind, throw, throwThe, MonadExceptOf.throw] at h

section Section

variable {sections : Sections} {u : MemoryUpdate}

theorem clean_applySection (h : Clean sections) (hcheck : u.check = .ok ()) : Clean (u.applySection sections) := by
  rw [MemoryUpdate.applySection]
  cases hcontent : u.content with
  | none => exact h
  | some content =>
    dsimp only
    split
    · exact h.delete u.sectionName
    · exact h.assign (valid_of_check hcheck (by rw [hcontent]; rfl)) content

/-- Under every name but that of the prototype an update does what it does to the notes. -/
theorem get_applySection (h : Clean sections) {notes : Notes} {name : JsString} (hname : name ≠ proto)
    (hget : PlainObject.get sections name = notes.sections name) :
    PlainObject.get (u.applySection sections) name = (notes.apply u).sections name := by
  rw [MemoryUpdate.applySection, Notes.apply]
  cases u.content with
  | none => exact hget
  | some content =>
    dsimp only
    rw [Function.update_apply]
    split
    · rw [PlainObject.get_delete, hget]
    · by_cases hproto : u.sectionName = proto
      · rw [hproto, PlainObject.assign_ignored ignores_proto h.get_proto, if_neg hname, hget]
      · rw [PlainObject.get_assign (ignores_eq_false hproto), hget]

end Section

theorem totalChars_eq {a b : WorkingMemory} (hgoal : a.goal = b.goal)
    (hsections : ∀ key, PlainObject.get a.sections key = PlainObject.get b.sections key) : a.totalChars = b.totalChars := by
  rw [WorkingMemory.totalChars, WorkingMemory.totalChars, hgoal,
    ((PlainObject.perm_of_get_eq hsections).map fun s => s.2.length).sum_eq]

/-- The memory is what the notes say, except under the name of the prototype. -/
structure Held (s : MemoryState) : Prop where
  clean : Clean (sectionsOf (readWorkingMemory s.file))
  sections : ∀ name, name ≠ proto → PlainObject.get (sectionsOf (readWorkingMemory s.file)) name = s.notes.sections name
  goal : goalOf (readWorkingMemory s.file) = s.notes.goal
  total : ∀ memory ∈ readWorkingMemory s.file, memory.totalChars ≤ MAX_TOTAL_CHARS

theorem held_init : Held {} where
  clean := clean_empty
  sections _ _ := rfl
  goal := rfl
  total _ hmemory := absurd hmemory (Option.some_ne_none _).symm

theorem held_write {memory : WorkingMemory} {notes : Notes} (hclean : Clean memory.sections)
    (hsections : ∀ name, name ≠ proto → PlainObject.get memory.sections name = notes.sections name)
    (hgoal : memory.goal = notes.goal) (htotal : memory.totalChars ≤ MAX_TOTAL_CHARS) :
    Held { file := writeWorkingMemory memory, notes } := by
  obtain ⟨read, hread, hreadGoal, hreadSections⟩ := read_write hclean
  constructor
  · rw [hread]
    exact fun key value hget => hclean key value ((hreadSections key).symm.trans hget)
  · intro name hname
    rw [hread]
    exact (hreadSections name).trans (hsections name hname)
  · rw [hread]
    exact hreadGoal.trans hgoal
  · intro m hm
    rw [← Option.some.inj (hread.symm.trans hm), totalChars_eq hreadGoal hreadSections]
    exact htotal

variable {s : MemoryState} {c : MemoryCall}

theorem held_after (h : Held s) (c : MemoryCall) : Held (s.after c) := by
  cases c with
  | clear now =>
    exact held_write clean_empty (fun _ _ => rfl) rfl (Nat.zero_le _)
  | update u now =>
    rw [MemoryState.after]
    rcases updateWorkingMemory_eq s.file u now with ⟨haccepts, hcheck, htotal, hfile⟩ | ⟨hrejects, hfile⟩
    · rw [hfile, if_pos haccepts]
      refine held_write (clean_applySection h.clean hcheck) ?_ ?_ htotal
      · intro name hname
        exact get_applySection h.clean hname (h.sections name hname)
      · show u.applyGoal (goalOf (readWorkingMemory s.file)) = (s.notes.apply u).goal
        rw [MemoryUpdate.applyGoal, h.goal]
        rfl
    · rw [hfile, if_neg hrejects]
      exact ⟨h.clean, h.sections, h.goal, h.total⟩

theorem held_of_reachable (h : memoryStore.Reachable (· = {}) s) : Held s :=
  h.invariant _ (fun _ hstart => hstart ▸ held_init) fun _ c _ hs hstep => Option.some.inj hstep ▸ held_after hs c

/-- A call that does not store a content under the name of the prototype keeps the notes free of one. -/
theorem notes_proto_after (h : s.notes.sections proto = none) :
    (s.after c).notes.sections proto = none ↔ ¬ StoresProto s c := by
  cases c with
  | clear now => exact iff_of_true rfl id
  | update u now =>
    rw [MemoryState.after, StoresProto]
    dsimp only
    by_cases haccepts : Accepts s.file u now
    · rw [if_pos haccepts, Notes.apply]
      cases hcontent : u.content with
      | none => simpa using h
      | some content =>
        by_cases hproto : u.sectionName = proto
        · by_cases hempty : content = [] <;> simp [haccepts, hproto, hempty]
        · simp [Ne.symm hproto, h, hproto]
    · rw [if_neg haccepts]
      simp [haccepts, h]

variable {localeCompare : JsString → JsString → ℤ} {digest : JsString → JsString}

/-- A call that does not store a name in the place of another keeps the names of the notes apart. -/
theorem untied_after (h : Untied localeCompare s.notes.sections) :
    Untied localeCompare (s.after c).notes.sections ↔ ¬ StoresTied localeCompare s c := by
  cases c with
  | clear now => exact iff_of_true (fun a _ ha => absurd rfl ha) id
  | update u now =>
    rw [MemoryState.after, StoresTied]
    dsimp only
    by_cases haccepts : Accepts s.file u now
    · rw [if_pos haccepts, Notes.apply]
      cases hcontent : u.content with
      | none => simpa using h
      | some content =>
        by_cases hempty : content = []
        · refine iff_of_true (fun a b ha hb => h a b ?_ ?_) (by simp [hempty])
          · exact fun hnone => ha (by simp [Function.update_apply, hempty, hnone])
          · exact fun hnone => hb (by simp [Function.update_apply, hempty, hnone])
        · simp only [haccepts, Option.any_some, decide_eq_true_eq, hempty, not_false_eq_true, if_false, true_and, ne_eq]
          constructor
          · rintro huntied ⟨name, hthere, hne, htied⟩
            refine hne (huntied name u.sectionName ?_ ?_ htied)
            · rwa [Function.update_of_ne hne]
            · rw [Function.update_self]
              exact Option.some_ne_none content
          · intro hnone a b ha hb htied
            by_contra hab
            by_cases hname : a = u.sectionName
            · subst hname
              rw [Function.update_of_ne (Ne.symm hab)] at hb
              exact hnone ⟨b, hb, Ne.symm hab, htied.symm⟩
            · rw [Function.update_of_ne hname] at ha
              by_cases hname' : b = u.sectionName
              · exact hnone ⟨a, ha, hname, hname' ▸ htied⟩
              · rw [Function.update_of_ne hname'] at hb
                exact hab (h a b ha hb htied)
    · rw [if_neg haccepts]
      simpa [haccepts] using h

theorem lawful_iff (horder : LocaleOrder localeCompare) (hdigest : Function.Injective digest)
    (h : Held s) : Lawful localeCompare digest s ↔
      s.notes.sections proto = none ∧ Untied localeCompare s.notes.sections := by
  have hget : s.notes.sections proto = none → PlainObject.get (sectionsOf (readWorkingMemory s.file)) = s.notes.sections := by
    intro hnotes
    funext name
    by_cases hname : name = proto
    · rw [hname, hnotes]
      exact h.clean.get_proto
    · exact h.sections name hname
  constructor
  · intro hlawful
    have hproto : s.notes.sections proto = none := by
      rw [← hlawful.sections proto (by decide)]
      exact h.clean.get_proto
    refine ⟨hproto, hget hproto ▸ untied_of_version hdigest h.clean fun other hother hsame => ?_⟩
    exact (hlawful.version other hother).mpr hsame
  · rintro ⟨hproto, huntied⟩
    rw [← hget hproto] at huntied
    refine ⟨fun name _ => congrFun (hget hproto) name, ?_, h.goal, h.total, ?_, ?_⟩
    · intro name hsome
      obtain ⟨content, hcontent⟩ := Option.isSome_iff_exists.mp hsome
      exact (h.clean name content hcontent).1
    · intro u now hrejects
      rcases updateWorkingMemory_eq s.file u now with ⟨haccepts, -⟩ | ⟨-, hfile⟩
      · exact absurd haccepts hrejects
      · exact hfile
    · intro other hother
      exact workingMemoryVersion_eq_iff horder hdigest h.clean hother huntied

/-- The call stores neither a content that is not kept nor one for a name that is not told from another. -/
def Kept (localeCompare : JsString → JsString → ℤ) (s : MemoryState) (c : MemoryCall) : Prop :=
  ¬ StoresProto s c ∧ ¬ StoresTied localeCompare s c

theorem meets_iff (h : s.notes.sections proto = none ∧ Untied localeCompare s.notes.sections)
    (calls : List MemoryCall) :
    (∀ front t, front <+: calls → memoryStore.run s front = some t →
      t.notes.sections proto = none ∧ Untied localeCompare t.notes.sections) ↔
      memoryStore.Meets (Kept localeCompare) s calls := by
  induction calls generalizing s with
  | nil =>
    refine iff_of_true (fun front t hfront hrun => ?_) trivial
    rw [List.prefix_nil.mp hfront] at hrun
    exact Option.some.inj hrun ▸ h
  | cons c rest ih =>
    have hafter := and_congr (notes_proto_after (c := c) h.1) (untied_after (c := c) h.2)
    constructor
    · intro hall
      have hnext := hall [c] (s.after c) ⟨rest, rfl⟩ rfl
      refine ⟨hafter.mp hnext, fun next hstep => ?_⟩
      rw [← Option.some.inj hstep]
      refine (ih hnext).mp fun front t hfront hrun => hall (c :: front) t ?_ hrun
      exact (List.prefix_cons_inj c).mpr hfront
    · intro ⟨hkept, hmeets⟩ front t hfront hrun
      cases front with
      | nil => exact Option.some.inj hrun ▸ h
      | cons d front =>
        obtain ⟨rfl, hrest⟩ := List.cons_prefix_cons.mp hfront
        exact (ih (hafter.mpr hkept)).mpr (hmeets _ rfl) front t hrest hrun

/-- After every one of some calls a memory can be relied on, exactly when no call is accepted with a content for the name of the prototype, or for a name in one place with another that has a content. -/
theorem memory_lawful (horder : LocaleOrder localeCompare) (hdigest : Function.Injective digest)
    (calls : List MemoryCall) :
    (∀ front s, front <+: calls → memoryStore.run {} front = some s → Lawful localeCompare digest s) ↔
      memoryStore.Meets (Kept localeCompare) {} calls := by
  rw [← meets_iff ⟨rfl, fun _ _ ha => absurd rfl ha⟩ calls]
  refine forall₂_congr fun front s => forall₂_congr fun _ hrun => ?_
  exact lawful_iff horder hdigest (held_of_reachable ⟨{}, front, rfl, hrun⟩)

/-- Names without capital letters in the order of their units, as they are put in any language. -/
def compareUnits (a b : JsString) : ℤ := if a ≤ b then if a = b then 0 else -1 else 1

theorem compareUnits_le_zero_iff {a b : JsString} : compareUnits a b ≤ 0 ↔ a ≤ b := by
  rw [compareUnits]
  by_cases hle : a ≤ b
  · rw [if_pos hle]
    by_cases heq : a = b <;> simp [heq, hle]
  · simp [hle]

theorem localeOrder_compareUnits : LocaleOrder compareUnits where
  total a b := by simpa only [compareUnits_le_zero_iff] using le_total a b
  trans a b c hab hbc := compareUnits_le_zero_iff.mpr
    (le_trans (compareUnits_le_zero_iff.mp hab) (compareUnits_le_zero_iff.mp hbc))

def taskUpdate : MemoryUpdate := { goal := some (units "ship"), section? := some (units " tasks "), content := some (units "a") }

def protoUpdate : MemoryUpdate := { section? := some proto, content := some (units "x") }

/-- A goal and a section, and then nothing. -/
theorem memory_lawful_task :
    (∀ front s, front <+: [MemoryCall.update taskUpdate [], .clear []] → memoryStore.run {} front = some s →
        Lawful compareUnits id s) ↔
      memoryStore.Meets (Kept compareUnits) {} [.update taskUpdate [], .clear []] :=
  memory_lawful localeOrder_compareUnits Function.injective_id _

/-- The update of the name of the prototype is accepted, says that the section is there, and is not kept. -/
theorem proto_not_kept :
    validSectionKey proto = true ∧
      (updateWorkingMemory none protoUpdate []).1.toOption.map SetSectionResult.sectionPresent = some true ∧
      ∃ s, memoryStore.run {} [.update protoUpdate []] = some s ∧ s.notes.sections proto = some (units "x") ∧
        PlainObject.get (sectionsOf (readWorkingMemory s.file)) proto = none ∧
        ∀ localeCompare digest, ¬ Lawful localeCompare digest s := by
  have hkept : PlainObject.get (sectionsOf (readWorkingMemory (updateWorkingMemory none protoUpdate []).2)) proto = none := by
    decide +kernel
  have hnotes : (MemoryState.after {} (.update protoUpdate [])).notes.sections proto = some (units "x") := by
    decide +kernel
  refine ⟨by decide +kernel, by decide +kernel, _, rfl, hnotes, hkept, ?_⟩
  intro localeCompare digest hlawful
  have hsame := hlawful.sections proto (by decide +kernel)
  rw [hnotes] at hsame
  exact absurd (hsame.symm.trans hkept) (Option.some_ne_none _)

end BotCord.Memory
