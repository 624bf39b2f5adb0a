import BotCord.Protocol.NormalForm

/-!
# The hash of a payload that was sent

The client hashes the canonical text of the payload it has in memory. What the hub receives is the payload written by `JSON.stringify` and parsed back. The two have the same canonical text exactly if no array has an undefined element, because `join` writes such an element as nothing, and every one of them makes the text of the received payload longer.
-/

namespace BotCord.Protocol

mutual

/-- The value that is parsed back from the text `JSON.stringify` writes; an undefined value has no text. -/
def roundTrip : Value → Option Value
  | .undefined => none
  | .null => some .null
  | .bool b => some (.bool b)
  | .number d => some (.number (if d = Double.negativeZero then Double.zero else d))
  | .string s => some (.string s)
  | .array elements => some (.array (roundTripElements elements))
  | .object members => some (.object (roundTripMembers members))

def roundTripElements : List Value → List Value
  | [] => []
  | x :: rest => (roundTrip x).getD .null :: roundTripElements rest

def roundTripMembers : List (JsString × Value) → List (JsString × Value)
  | [] => []
  | (key, value) :: rest =>
    match roundTrip value with
    | none => roundTripMembers rest
    | some received => (key, received) :: roundTripMembers rest

end

namespace Value

/-- An object has one value for a key. -/
inductive WellFormed : Value → Prop
  | undefined : WellFormed .undefined
  | null : WellFormed .null
  | bool (b : Bool) : WellFormed (.bool b)
  | number (d : Double) : WellFormed (.number d)
  | string (s : JsString) : WellFormed (.string s)
  | array {elements : List Value} (helements : ∀ x ∈ elements, WellFormed x) : WellFormed (.array elements)
  | object {members : List (JsString × Value)} (hkeys : (members.map (·.1)).Nodup)
      (hmembers : ∀ m ∈ members, WellFormed m.2) : WellFormed (.object members)

/-- No array has an undefined element, at any depth. -/
inductive Dense : Value → Prop
  | undefined : Dense .undefined
  | null : Dense .null
  | bool (b : Bool) : Dense (.bool b)
  | number (d : Double) : Dense (.number d)
  | string (s : JsString) : Dense (.string s)
  | array {elements : List Value} (hdefined : ∀ x ∈ elements, x ≠ .undefined) (helements : ∀ x ∈ elements, Dense x) :
      Dense (.array elements)
  | object {members : List (JsString × Value)} (hmembers : ∀ m ∈ members, Dense m.2) : Dense (.object members)

/-- A value a payload can have. -/
abbrev Payload := { v : Value // v.WellFormed }

def isDefined : Value → Bool
  | .undefined => false
  | _ => true

@[simp] theorem isDefined_iff {v : Value} : v.isDefined = true ↔ v ≠ .undefined := by
  cases v <;> simp [isDefined]

end Value

theorem roundTripElements_eq (elements : List Value) :
    roundTripElements elements = elements.map fun x => (roundTrip x).getD .null := by
  induction elements with
  | nil => rfl
  | cons x rest ih => rw [roundTripElements, ih, List.map_cons]

theorem roundTripMembers_eq (members : List (JsString × Value)) :
    roundTripMembers members = members.filterMap fun m => (roundTrip m.2).map (m.1, ·) := by
  induction members with
  | nil => rfl
  | cons m rest ih =>
    obtain ⟨key, value⟩ := m
    cases htrip : roundTrip value <;> simp [roundTripMembers, htrip, ih]

variable {v : Value} {members : List (JsString × Value)}

theorem roundTrip_eq_none : roundTrip v = none ↔ v = .undefined := by
  cases v <;> simp [roundTrip]

variable (numberText : Double → JsString)

def receivedText (v : Value) : Option JsString := (roundTrip v).bind (jcsCanonicalize numberText)

theorem receivedText_eq_none : receivedText numberText v = none ↔ v = .undefined := by
  rw [receivedText, Option.bind_eq_none_iff]
  constructor
  · intro h
    by_contra hv
    obtain ⟨w, hw⟩ := Option.ne_none_iff_exists'.mp (mt roundTrip_eq_none.mp hv)
    have hundefined : w = .undefined := (jcsCanonicalize_eq_none numberText).mp (h w hw)
    subst hundefined
    cases v <;> simp [roundTrip] at hw
  · rintro rfl w hw
    simp [roundTrip] at hw

theorem receivedText_array (elements : List Value) :
    receivedText numberText (.array elements)
      = some (units "[" ++ [comma].intercalate
          (elements.map fun x => (receivedText numberText x).getD (units "null")) ++ units "]") := by
  rw [receivedText, roundTrip, Option.bind_some, jcsCanonicalize_array, roundTripElements_eq, join, List.map_map,
    List.map_map]
  congr 4
  apply List.map_congr_left
  intro x _
  cases hx : roundTrip x with
  | none => simp [receivedText, hx, jcsCanonicalize]
  | some y =>
    have hy : jcsCanonicalize numberText y ≠ none := fun h => by
      have := (receivedText_eq_none numberText).mp (show receivedText numberText x = none by rw [receivedText, hx, Option.bind_some, h])
      rw [roundTrip_eq_none.mpr this] at hx
      cases hx
    obtain ⟨text, htext⟩ := Option.ne_none_iff_exists'.mp hy
    simp [receivedText, hx, htext]

theorem sortByKey_filterMap {f : JsString × Value → Option (JsString × Value)} (hkey : ∀ m n, f m = some n → n.1 = m.1)
    (hkeys : (members.map (·.1)).Nodup) :
    sortByKey (members.filterMap f) = (sortByKey members).filterMap f := by
  refine eq_sortByKey ((sortByKey_perm members).symm.filterMap f) ?_ ?_
  · have hpairs : members.Pairwise fun a b => a.1 ≠ b.1 := List.pairwise_map.mp hkeys
    refine List.pairwise_map.mpr (List.Pairwise.filterMap f (fun a a' hne b hb b' hb' => ?_) hpairs)
    rw [hkey a b hb, hkey a' b' hb']
    exact hne
  · refine List.Pairwise.filterMap f (fun a a' hle b hb b' hb' => ?_) (sortByKey_sorted members)
    rw [hkey a b hb, hkey a' b' hb']
    exact hle

def writtenMembers (members : List (JsString × Value)) : List (JsString × Value) :=
  (sortByKey members).filter (·.2.isDefined)

/-- The text of a defined member, with a given text of its value. -/
def partOf (text : Value → Option JsString) (m : JsString × Value) : JsString :=
  quote m.1 ++ [colon] ++ (text m.2).getD []

theorem filterMap_part {text : Value → Option JsString} (htext : ∀ v, text v = none ↔ v = .undefined)
    (members : List (JsString × Value)) :
    (members.filterMap fun m => (text m.2).map (quote m.1 ++ [colon] ++ ·))
      = (members.filter (·.2.isDefined)).map (partOf text) := by
  induction members with
  | nil => rfl
  | cons m rest ih =>
    cases hm : text m.2 with
    | none =>
      have hdefined : m.2.isDefined = false := by rw [(htext m.2).mp hm]; rfl
      rw [List.filterMap_cons_none (by simp [hm]), List.filter_cons_of_neg (by simp [hdefined]), ih]
    | some t =>
      have hdefined : m.2.isDefined = true := Value.isDefined_iff.mpr fun h => by
        rw [(htext m.2).mpr h] at hm
        cases hm
      rw [List.filterMap_cons_some (by rw [hm]; rfl), List.filter_cons_of_pos (by simpa using hdefined), List.map_cons, ih]
      simp [partOf, hm]

theorem jcsCanonicalize_members (members : List (JsString × Value)) :
    jcsCanonicalize numberText (.object members)
      = some (units "\x7b" ++ [comma].intercalate ((writtenMembers members).map (partOf (jcsCanonicalize numberText)))
          ++ units "\x7d") := by
  rw [jcsCanonicalize_object, writtenMembers, ← filterMap_part fun v => jcsCanonicalize_eq_none numberText]
  rfl

theorem receivedText_members (hkeys : (members.map (·.1)).Nodup) :
    receivedText numberText (.object members)
      = some (units "\x7b" ++ [comma].intercalate ((writtenMembers members).map (partOf (receivedText numberText)))
          ++ units "\x7d") := by
  rw [receivedText, roundTrip, Option.bind_some, jcsCanonicalize_object, roundTripMembers_eq,
    sortByKey_filterMap (fun m n hn => by
      obtain ⟨v, -, rfl⟩ := Option.map_eq_some_iff.mp hn
      rfl) hkeys,
    List.filterMap_filterMap, writtenMembers, ← filterMap_part fun v => receivedText_eq_none numberText]
  congr 4
  refine List.filterMap_congr fun m _ => ?_
  cases htrip : roundTrip m.2 <;> simp [receivedText, canonicalPart, htrip]

def size (text : Option JsString) : ℕ := (text.getD []).length

theorem length_intercalate (mark : CodeUnit) (parts : List JsString) :
    ([mark].intercalate parts).length = (parts.map List.length).sum + (parts.length - 1) := by
  cases parts with
  | nil => rfl
  | cons first rest =>
    have hmarks : (rest.flatMap (mark :: ·)).length = (rest.map List.length).sum + rest.length := by
      induction rest with
      | nil => rfl
      | cons part rest ih =>
        rw [List.flatMap_cons, List.length_append, ih, List.map_cons, List.sum_cons, List.length_cons, List.length_cons]
        omega
    rw [Readable.intercalate_cons_eq, List.length_append, hmarks, List.map_cons, List.sum_cons, List.length_cons]
    omega

/-- Longer parts make a longer text, and a text as long only if every part is as long. -/
theorem length_intercalate_map {ρ : Type} {f g : ρ → JsString} {rows : List ρ}
    (h : ∀ r ∈ rows, (f r).length ≤ (g r).length) :
    ([comma].intercalate (rows.map f)).length ≤ ([comma].intercalate (rows.map g)).length ∧
      (([comma].intercalate (rows.map f)).length = ([comma].intercalate (rows.map g)).length →
        ∀ r ∈ rows, (f r).length = (g r).length) := by
  simp only [length_intercalate, List.map_map, List.length_map]
  have hsum : (rows.map (List.length ∘ f)).sum ≤ (rows.map (List.length ∘ g)).sum := List.sum_le_sum h
  refine ⟨by omega, fun heq r hr => ?_⟩
  by_contra hne
  have hlt : (f r).length < (g r).length := lt_of_le_of_ne (h r hr) hne
  have hstrict : (rows.map (List.length ∘ f)).sum < (rows.map (List.length ∘ g)).sum := List.sum_lt_sum _ _ h ⟨r, hr, hlt⟩
  omega

variable {numberText}

/-- An element's text in the received payload is at least as long, and as long only if the element is defined. -/
theorem element_length {x : Value} (h : size (jcsCanonicalize numberText x) ≤ size (receivedText numberText x)) :
    ((jcsCanonicalize numberText x).getD []).length ≤ ((receivedText numberText x).getD (units "null")).length ∧
      (((jcsCanonicalize numberText x).getD []).length = ((receivedText numberText x).getD (units "null")).length →
        x ≠ .undefined ∧ size (jcsCanonicalize numberText x) = size (receivedText numberText x)) := by
  cases hx : receivedText numberText x with
  | none =>
    have hundefined := (receivedText_eq_none numberText).mp hx
    have htext : jcsCanonicalize numberText x = none := (jcsCanonicalize_eq_none numberText).mpr hundefined
    rw [htext]
    exact ⟨by decide, fun h => absurd h (by decide)⟩
  | some text =>
    rw [hx] at h
    refine ⟨h, fun heq => ⟨?_, heq⟩⟩
    rintro rfl
    rw [(receivedText_eq_none numberText).mpr rfl] at hx
    cases hx

theorem receivedText_number (hzero : numberText .zero = units "0") (d : Double) :
    receivedText numberText (.number d) = jcsCanonicalize numberText (.number d) := by
  simp only [receivedText, roundTrip, Option.bind_some, jcsCanonicalize]
  split_ifs
  · rfl
  · rw [hzero]
  · rfl

/-- The received payload has the longer text, unless no array has an undefined element. -/
theorem size_le (hzero : numberText .zero = units "0") (hv : v.WellFormed) :
    size (jcsCanonicalize numberText v) ≤ size (receivedText numberText v) ∧
      (size (jcsCanonicalize numberText v) = size (receivedText numberText v) → v.Dense) := by
  induction v using Value.induction with
  | undefined => exact ⟨le_rfl, fun _ => .undefined⟩
  | null => exact ⟨le_rfl, fun _ => .null⟩
  | bool b => exact ⟨le_rfl, fun _ => .bool b⟩
  | string t => exact ⟨le_rfl, fun _ => .string t⟩
  | number d =>
    rw [receivedText_number hzero]
    exact ⟨le_rfl, fun _ => .number d⟩
  | array elements ih =>
    cases hv with
    | array helements =>
      obtain ⟨hle, heq⟩ := length_intercalate_map fun x hx => (element_length (ih x hx (helements x hx)).1).1
      rw [jcsCanonicalize_array, receivedText_array, join, List.map_map]
      simp only [size, Option.getD_some, List.length_append, Function.comp_def]
      refine ⟨by omega, fun hsize => ?_⟩
      have hall := heq (by omega)
      refine .array (fun x hx => ?_) fun x hx => ?_
      · exact ((element_length (ih x hx (helements x hx)).1).2 (hall x hx)).1
      · exact (ih x hx (helements x hx)).2 ((element_length (ih x hx (helements x hx)).1).2 (hall x hx)).2
  | object members ih =>
    cases hv with
    | object hkeys hmembers =>
      have hwritten : ∀ m ∈ writtenMembers members, m ∈ members := fun m hm =>
        (sortByKey_perm members).mem_iff.mp (List.mem_of_mem_filter hm)
      have hpart : ∀ m ∈ writtenMembers members, (partOf (jcsCanonicalize numberText) m).length
          ≤ (partOf (receivedText numberText) m).length := fun m hm => by
        have hle := (ih m (hwritten m hm) (hmembers m (hwritten m hm))).1
        simp only [size] at hle
        simp only [partOf, List.length_append]
        omega
      obtain ⟨hle, heq⟩ := length_intercalate_map hpart
      rw [jcsCanonicalize_members, receivedText_members numberText hkeys]
      simp only [size, Option.getD_some, List.length_append]
      refine ⟨by omega, fun hsize => .object fun m hm => ?_⟩
      have hall := heq (by omega)
      by_cases hdefined : m.2 = .undefined
      · rw [hdefined]
        exact .undefined
      · have hm' : m ∈ writtenMembers members :=
          List.mem_filter.mpr ⟨(sortByKey_perm members).mem_iff.mpr hm, Value.isDefined_iff.mpr hdefined⟩
        refine (ih m hm (hmembers m hm)).2 ?_
        have hlength := hall m hm'
        simp only [partOf, List.length_append] at hlength
        simp only [size]
        omega

/-- Where no array has an undefined element, the received payload has the same text. -/
theorem receivedText_of_dense (hzero : numberText .zero = units "0") (hv : v.WellFormed) (hd : v.Dense) :
    receivedText numberText v = jcsCanonicalize numberText v := by
  induction v using Value.induction with
  | undefined | null | bool | string => rfl
  | number d => exact receivedText_number hzero d
  | array elements ih =>
    cases hv with
    | array helements =>
      cases hd with
      | array hdefined hdense =>
        have htexts : ∀ x ∈ elements,
            (receivedText numberText x).getD (units "null") = (jcsCanonicalize numberText x).getD [] := by
          intro x hx
          rw [ih x hx (helements x hx) (hdense x hx)]
          have hsome := mt (jcsCanonicalize_eq_none numberText).mp (hdefined x hx)
          obtain ⟨text, htext⟩ := Option.ne_none_iff_exists'.mp hsome
          rw [htext, Option.getD_some, Option.getD_some]
        rw [receivedText_array, jcsCanonicalize_array, List.map_congr_left htexts, join, List.map_map]
        rfl
  | object members ih =>
    cases hv with
    | object hkeys hmembers =>
      cases hd with
      | object hdense =>
        have hparts : ∀ m ∈ writtenMembers members,
            partOf (receivedText numberText) m = partOf (jcsCanonicalize numberText) m := by
          intro m hm
          have hmem : m ∈ members := (sortByKey_perm members).mem_iff.mp (List.mem_of_mem_filter hm)
          rw [partOf, partOf, ih m hmem (hmembers m hmem) (hdense m hmem)]
        rw [receivedText_members numberText hkeys, jcsCanonicalize_members, List.map_congr_left hparts]

/-- The hub computes the canonical text the client hashed exactly if no array of the payload has an undefined element. -/
theorem canonical_after_round_trip (hzero : numberText .zero = units "0") (payload : Value.Payload) :
    (roundTrip payload.1).bind (jcsCanonicalize numberText) = jcsCanonicalize numberText payload.1 ↔
      payload.1.Dense := by
  constructor
  · intro h
    exact (size_le hzero payload.2).2 (congrArg size h).symm
  · exact receivedText_of_dense hzero payload.2

/-- `{"tags": [undefined]}` -/
def sparse : Value := .object [(units "tags", .array [.undefined])]

/-- What is signed is the hash of `{"tags":[]}`, what is checked the hash of `{"tags":[null]}`. -/
theorem undefined_element_changes_text :
    ¬ (roundTrip sparse).bind (jcsCanonicalize unaryText) = jcsCanonicalize unaryText sparse := by
  decide +kernel

/-- `{"to": undefined, "tags": ["x", -0]}` -/
def dense : Value :=
  .object [(units "to", .undefined), (units "tags", .array [.string (units "x"), .number .negativeZero])]

theorem wellFormed_dense : dense.WellFormed := by
  refine .object (by decide) fun m hm => ?_
  simp only [List.mem_cons, List.not_mem_nil, or_false] at hm
  rcases hm with rfl | rfl
  · exact .undefined
  · refine .array fun x hx => ?_
    simp only [List.mem_cons, List.not_mem_nil, or_false] at hx
    rcases hx with rfl | rfl
    · exact .string _
    · exact .number _

theorem canonical_after_round_trip_dense : dense.Dense :=
  (canonical_after_round_trip prints_unaryText.zero ⟨dense, wellFormed_dense⟩).mp (by decide +kernel)

end BotCord.Protocol
