import BotCord.Protocol.Canonical

/-!
# Canonical text is a normal form

Two JSON values have the same canonical text exactly if they are the same value. From left to right this is unique readability: the first unit of a text tells the kind of the value, a list or an object is read element by element up to its closing bracket, and what follows any value is a comma or a closing bracket.
-/

namespace BotCord.Protocol

namespace Value

/-- A JSON value: nothing undefined, and distinct keys in every object. -/
inductive IsJson : Value → Prop
  | null : IsJson .null
  | bool (b : Bool) : IsJson (.bool b)
  | number (d : Double) : IsJson (.number d)
  | string (s : JsString) : IsJson (.string s)
  | array {elements : List Value} (helements : ∀ x ∈ elements, IsJson x) : IsJson (.array elements)
  | object {members : List (JsString × Value)} (hkeys : (members.map (·.1)).Nodup)
      (hmembers : ∀ m ∈ members, IsJson m.2) : IsJson (.object members)

/-- The same value: the two zeros are one, and an object is the finite map of its members. -/
inductive Same : Value → Value → Prop
  | null : Same .null .null
  | bool (b : Bool) : Same (.bool b) (.bool b)
  | number {d e : Double} (h : d = e ∨ d.IsZero ∧ e.IsZero) : Same (.number d) (.number e)
  | string (s : JsString) : Same (.string s) (.string s)
  | array {xs ys : List Value} (h : List.Forall₂ Same xs ys) : Same (.array xs) (.array ys)
  | object {ms ms' ns ns' : List (JsString × Value)} (hms : ms.Perm ms') (hns : ns.Perm ns')
      (hkeys : ms'.map (·.1) = ns'.map (·.1)) (hvalues : List.Forall₂ Same (ms'.map (·.2)) (ns'.map (·.2))) :
      Same (.object ms) (.object ns)

end Value

/-- The JSON values. -/
abbrev Json := { v : Value // v.IsJson }

/-- A unit that occurs in the text of a finite number: a digit, a sign, a point or the mark of the exponent. -/
def Numeric (c : CodeUnit) : Prop := (0x30 ≤ c ∧ c ≤ 0x39) ∨ c = 0x2B ∨ c = 0x2D ∨ c = 0x2E ∨ c = 0x65
deriving Decidable

/-- What `JSON.stringify` does with finite numbers. -/
structure Prints (numberText : Double → JsString) : Prop where
  zero : numberText .zero = units "0"
  nonempty : ∀ d, numberText d ≠ []
  numeric : ∀ d, ∀ c ∈ numberText d, Numeric c
  injective : ∀ d e, numberText d = numberText e → d = e ∨ d.IsZero ∧ e.IsZero

variable {numberText : Double → JsString}

def canonicalNumber (numberText : Double → JsString) (d : Double) : JsString :=
  if d = Double.negativeZero then units "0" else numberText d

theorem Prints.canonicalNumber_eq_iff (hprints : Prints numberText) {d e : Double} :
    canonicalNumber numberText d = canonicalNumber numberText e ↔ d = e ∨ d.IsZero ∧ e.IsZero := by
  -- Either zero is written as zero is.
  have hrest : ∀ d, ∃ d', canonicalNumber numberText d = numberText d' ∧ (d' = d ∨ d.IsZero ∧ d' = .zero) := by
    intro d
    unfold canonicalNumber
    split_ifs with hneg
    · exact ⟨.zero, hprints.zero.symm, Or.inr ⟨Or.inr hneg, rfl⟩⟩
    · exact ⟨d, rfl, Or.inl rfl⟩
  have hzero : ∀ d : Double, d.IsZero → canonicalNumber numberText d = units "0" := by
    rintro d (rfl | rfl)
    · exact hprints.zero
    · rfl
  constructor
  · intro h
    obtain ⟨d', hd, hd'⟩ := hrest d
    obtain ⟨e', he, he'⟩ := hrest e
    have hsame := hprints.injective d' e' (by rw [← hd, ← he, h])
    rcases hd' with rfl | ⟨hdzero, rfl⟩ <;> rcases he' with rfl | ⟨hezero, rfl⟩
    · exact hsame
    · exact Or.inr ⟨hsame.elim Or.inl And.left, hezero⟩
    · exact Or.inr ⟨hdzero, hsame.elim (fun h => Or.inl h.symm) And.right⟩
    · exact Or.inr ⟨hdzero, hezero⟩
  · rintro (rfl | ⟨hd, he⟩)
    · rfl
    · rw [hzero d hd, hzero e he]

theorem map_eq_of_forall₂ {α β : Type} {R : α → α → Prop} {f : α → β} {xs ys : List α} (h : List.Forall₂ R xs ys)
    (hf : ∀ x ∈ xs, ∀ y ∈ ys, R x y → f x = f y) : xs.map f = ys.map f := by
  induction h with
  | nil => rfl
  | cons hab hrest ih =>
    rw [List.map_cons, List.map_cons, hf _ List.mem_cons_self _ List.mem_cons_self hab,
      ih fun x hx y hy => hf x (List.mem_cons_of_mem _ hx) y (List.mem_cons_of_mem _ hy)]

theorem map_eq_of_columns {ρ κ σ β : Type} {key : ρ → κ} {text : ρ → σ} {xs ys : List ρ}
    (hkeys : xs.map key = ys.map key) (htexts : xs.map text = ys.map text) (f : κ → σ → β) :
    (xs.map fun x => f (key x) (text x)) = ys.map fun y => f (key y) (text y) := by
  have hzip : ∀ l : List ρ, (l.map fun x => f (key x) (text x)) = List.zipWith f (l.map key) (l.map text) := fun l => by
    rw [List.zipWith_map, List.zipWith_self]
  rw [hzip, hzip, hkeys, htexts]

theorem canonical_of_same (hprints : Prints numberText) {v : Value} :
    ∀ {w : Value}, v.IsJson → w.IsJson → v.Same w → jcsCanonicalize numberText v = jcsCanonicalize numberText w := by
  induction v using Value.induction with
  | undefined =>
    intro w hv
    cases hv
  | null | bool | string =>
    intro w _ _ hsame
    cases hsame
    rfl
  | number d =>
    intro w _ _ hsame
    cases hsame with
    | number h => exact congrArg some (hprints.canonicalNumber_eq_iff.mpr h)
  | array elements ih =>
    intro w hv hw hsame
    cases hsame with
    | array h =>
      cases hv with
      | array hv =>
        cases hw with
        | array hw =>
          rw [jcsCanonicalize_array, jcsCanonicalize_array,
            map_eq_of_forall₂ h fun x hx y hy hxy => ih x hx (hv x hx) (hw y hy) hxy]
  | object members ih =>
    intro w hv hw hsame
    cases hsame with
    | @object _ ms' ns ns' hms hns hkeys hvalues =>
      cases hv with
      | object hvkeys hv =>
        cases hw with
        | object hwkeys hw =>
          have hmembers : ∀ m ∈ ms', m ∈ members := fun m hm => hms.mem_iff.mpr hm
          have htexts : ms'.map (fun m => jcsCanonicalize numberText m.2)
              = ns'.map fun m => jcsCanonicalize numberText m.2 := by
            have h := map_eq_of_forall₂ (f := jcsCanonicalize numberText) hvalues fun x hx y hy hxy => by
              obtain ⟨m, hm, rfl⟩ := List.mem_map.mp hx
              obtain ⟨n, hn, rfl⟩ := List.mem_map.mp hy
              exact ih m (hmembers m hm) (hv m (hmembers m hm)) (hw n (hns.mem_iff.mpr hn)) hxy
            simpa [List.map_map, Function.comp_def] using h
          have hparts : ms'.map (fun m => (m.1, canonicalPart numberText m))
              = ns'.map fun m => (m.1, canonicalPart numberText m) :=
            map_eq_of_columns hkeys htexts fun key text => (key, text.map (quote key ++ [colon] ++ ·))
          have hsorted : sortByKey (members.map fun m => (m.1, canonicalPart numberText m))
              = sortByKey (ns.map fun m => (m.1, canonicalPart numberText m)) := by
            refine sortByKey_eq_of_perm ?_ (by simpa [List.map_map, Function.comp_def] using hvkeys)
            exact (hms.map _).trans (hparts ▸ (hns.map _).symm)
          rw [jcsCanonicalize, jcsCanonicalize, canonicalMembers_eq, canonicalMembers_eq, hsorted]

def Stop (c : CodeUnit) : Prop := c = comma ∨ c = 0x5D ∨ c = 0x7D
deriving Decidable

inductive Kind
  | null | bool | number | string | array | object | undefined
deriving DecidableEq

def Value.kind : Value → Kind
  | .undefined => .undefined
  | .null => .null
  | .bool _ => .bool
  | .number _ => .number
  | .string _ => .string
  | .array _ => .array
  | .object _ => .object

def kindOf (c : CodeUnit) : Kind :=
  if c = 0x6E then .null
  else if c = 0x74 ∨ c = 0x66 then .bool
  else if c = quotationMark then .string
  else if c = 0x5B then .array
  else if c = 0x7B then .object
  else .number

theorem Numeric.kindOf {c : CodeUnit} (h : Numeric c) : kindOf c = .number ∧ ¬ Stop c := by
  have hne : ∀ x : CodeUnit, ¬ Numeric x → c ≠ x := by
    rintro x hx rfl
    exact hx h
  constructor
  · simp only [Protocol.kindOf, hne 0x6E (by decide), hne 0x74 (by decide), hne 0x66 (by decide),
      hne quotationMark (by decide), hne 0x5B (by decide), hne 0x7B (by decide), if_false, or_self]
  · simp only [Stop, hne comma (by decide), hne 0x5D (by decide), hne 0x7D (by decide), or_self, not_false_eq_true]

theorem units_zero : units "0" = [0x30] := by decide

theorem Prints.canonicalNumber_numeric (hprints : Prints numberText) (d : Double) :
    canonicalNumber numberText d ≠ [] ∧ ∀ c ∈ canonicalNumber numberText d, Numeric c := by
  unfold canonicalNumber
  split_ifs
  · exact ⟨by decide, by simp only [units_zero, List.mem_singleton, forall_eq]; decide⟩
  · exact ⟨hprints.nonempty d, hprints.numeric d⟩

def canonicalText (numberText : Double → JsString) (v : Value) : JsString :=
  (jcsCanonicalize numberText v).getD []

theorem canonicalText_eq_iff {v w : Value} (hv : v.IsJson) (hw : w.IsJson) :
    jcsCanonicalize numberText v = jcsCanonicalize numberText w ↔ canonicalText numberText v = canonicalText numberText w := by
  have hsome : ∀ {v : Value}, v.IsJson → jcsCanonicalize numberText v = some (canonicalText numberText v) := by
    intro v hv
    cases hjcs : jcsCanonicalize numberText v with
    | none =>
      rw [jcsCanonicalize_eq_none] at hjcs
      subst hjcs
      cases hv
    | some text => rw [canonicalText, hjcs, Option.getD_some]
  rw [hsome hv, hsome hw, Option.some.injEq]

/-- The first unit of a text tells the kind of the value, and is none that may follow a value. -/
theorem canonicalText_first (hprints : Prints numberText) {v : Value} (hv : v.IsJson) :
    ∃ c rest, canonicalText numberText v = c :: rest ∧ kindOf c = v.kind ∧ ¬ Stop c := by
  cases hv with
  | null => exact ⟨0x6E, _, rfl, by decide, by decide⟩
  | bool b => cases b <;> exact ⟨_, _, rfl, by decide, by decide⟩
  | number d =>
    obtain ⟨hne, hnumeric⟩ := hprints.canonicalNumber_numeric d
    obtain ⟨c, rest, hcons⟩ := List.exists_cons_of_ne_nil hne
    have hc : Numeric c := hnumeric c (hcons ▸ List.mem_cons_self)
    exact ⟨c, rest, hcons, hc.kindOf⟩
  | string s => exact ⟨quotationMark, _, rfl, show kindOf quotationMark = .string by decide, by decide⟩
  | array => exact ⟨0x5B, _, rfl, show kindOf 0x5B = .array by decide, by decide⟩
  | object => exact ⟨0x7B, _, rfl, show kindOf 0x7B = .object by decide, by decide⟩

def memberText (numberText : Double → JsString) (m : JsString × Value) : JsString :=
  quote m.1 ++ [colon] ++ canonicalText numberText m.2

theorem canonicalText_array {elements : List Value} :
    canonicalText numberText (.array elements)
      = 0x5B :: ([comma].intercalate (elements.map (canonicalText numberText)) ++ [0x5D]) := by
  rw [canonicalText, jcsCanonicalize_array, Option.getD_some, join, List.map_map]
  rfl

theorem canonicalText_object {members : List (JsString × Value)} (hmembers : ∀ m ∈ members, m.2.IsJson) :
    canonicalText numberText (.object members)
      = 0x7B :: ([comma].intercalate ((sortByKey members).map (memberText numberText)) ++ [0x7D]) := by
  have hparts : (sortByKey members).filterMap (canonicalPart numberText)
      = (sortByKey members).map (memberText numberText) := by
    rw [← List.filterMap_eq_map]
    apply List.filterMap_congr
    intro m hm
    have hjson := hmembers m ((sortByKey_perm members).mem_iff.mp hm)
    cases hjcs : jcsCanonicalize numberText m.2 with
    | none =>
      rw [jcsCanonicalize_eq_none] at hjcs
      rw [hjcs] at hjson
      cases hjson
    | some text => simp [canonicalPart, memberText, canonicalText, hjcs]
  rw [canonicalText, jcsCanonicalize_object, hparts, Option.getD_some]
  rfl

theorem reads_member {m : JsString × Value}
    (h : Readable.Reads Stop (canonicalText numberText) Value.IsJson Value.Same m.2) :
    Readable.Reads Stop (memberText numberText) (fun n => n.2.IsJson) (fun m n => m.1 = n.1 ∧ m.2.Same n.2) m := by
  intro n hn r s hr hs htext
  have hquote : quote m.1 ++ (colon :: (canonicalText numberText m.2 ++ r))
      = quote n.1 ++ (colon :: (canonicalText numberText n.2 ++ s)) := by
    simpa [memberText] using htext
  obtain ⟨hkey, hrest⟩ := quote_inj hquote
  obtain ⟨hsame, htail⟩ := h n.2 hn r s hr hs (List.cons.inj hrest).2
  exact ⟨⟨hkey, hsame⟩, htail⟩

theorem kind_eq_of_text (hprints : Prints numberText) {v w : Value} (hv : v.IsJson) (hw : w.IsJson) {r s : JsString}
    (h : canonicalText numberText v ++ r = canonicalText numberText w ++ s) : v.kind = w.kind := by
  obtain ⟨c, rest, hc, hkind, -⟩ := canonicalText_first hprints hv
  obtain ⟨c', rest', hc', hkind', -⟩ := canonicalText_first hprints hw
  rw [hc, hc'] at h
  rw [← hkind, ← hkind', (List.cons.inj h).1]

theorem units_true : units "true" = [0x74, 0x72, 0x75, 0x65] := by decide

theorem units_false : units "false" = [0x66, 0x61, 0x6C, 0x73, 0x65] := by decide

theorem stopped_not_numeric {r : JsString} (hr : Readable.Stopped Stop r) :
    Readable.Stopped (fun c => ¬ Numeric c) r :=
  fun c hc hnumeric => hnumeric.kindOf.2 (hr c hc)

theorem reads_canonicalText (hprints : Prints numberText) {v : Value} (hv : v.IsJson) :
    Readable.Reads Stop (canonicalText numberText) Value.IsJson Value.Same v := by
  have hfirst : ∀ w : Value, w.IsJson → ∃ c rest, canonicalText numberText w = c :: rest ∧ ¬ Stop c := fun w hw => by
    obtain ⟨c, rest, hc, -, hstop⟩ := canonicalText_first hprints hw
    exact ⟨c, rest, hc, hstop⟩
  induction v using Value.induction with
  | undefined => cases hv
  | null =>
    intro w hw r s hr hs h
    have hkind := kind_eq_of_text hprints hv hw h
    cases hw <;> try cases hkind
    exact ⟨.null, List.append_cancel_left h⟩
  | bool b =>
    intro w hw r s hr hs h
    have hkind := kind_eq_of_text hprints hv hw h
    cases hw <;> try cases hkind
    rename_i b'
    simp only [canonicalText, jcsCanonicalize, Option.getD_some] at h
    cases b <;> cases b'
    · exact ⟨.bool false, List.append_cancel_left h⟩
    · simp [units_true, units_false] at h
    · simp [units_true, units_false] at h
    · exact ⟨.bool true, List.append_cancel_left h⟩
  | number d =>
    intro w hw r s hr hs h
    have hkind := kind_eq_of_text hprints hv hw h
    cases hw <;> try cases hkind
    rename_i e
    obtain ⟨htexts, hrest⟩ := Readable.append_inj_of_alphabet (hprints.canonicalNumber_numeric d).2
      (hprints.canonicalNumber_numeric e).2 (stopped_not_numeric hr) (stopped_not_numeric hs) h
    exact ⟨.number (hprints.canonicalNumber_eq_iff.mp htexts), hrest⟩
  | string t =>
    intro w hw r s hr hs h
    have hkind := kind_eq_of_text hprints hv hw h
    cases hw <;> try cases hkind
    obtain ⟨rfl, hrest⟩ := quote_inj h
    exact ⟨.string t, hrest⟩
  | array elements ih =>
    intro w hw r s hr hs h
    have hkind := kind_eq_of_text hprints hv hw h
    cases hw <;> try cases hkind
    rename_i elements' helements'
    cases hv with
    | array helements =>
      rw [canonicalText_array, canonicalText_array] at h
      have hlists : [comma].intercalate (elements.map (canonicalText numberText)) ++ 0x5D :: r
          = [comma].intercalate (elements'.map (canonicalText numberText)) ++ 0x5D :: s := by
        simpa using h
      obtain ⟨hsame, hrest⟩ := Readable.Reads.separated (show Stop comma by decide) (show Stop 0x5D by decide)
        (by decide) (fun x hx => by
          obtain ⟨c, rest, hc, hstop⟩ := hfirst x hx
          exact ⟨c, rest, hc, fun heq => hstop (heq ▸ by decide)⟩)
        (fun x hx => ⟨helements x hx, ih x hx (helements x hx)⟩) helements' hlists
      exact ⟨.array hsame, hrest⟩
  | object members ih =>
    intro w hw r s hr hs h
    have hkind := kind_eq_of_text hprints hv hw h
    cases hw <;> try cases hkind
    rename_i members' hkeys' hmembers'
    cases hv with
    | object hkeys hmembers =>
      rw [canonicalText_object hmembers, canonicalText_object hmembers'] at h
      have hlists : [comma].intercalate ((sortByKey members).map (memberText numberText)) ++ 0x7D :: r
          = [comma].intercalate ((sortByKey members').map (memberText numberText)) ++ 0x7D :: s := by
        simpa using h
      have hsorted : ∀ {l : List (JsString × Value)} {m}, m ∈ sortByKey l → m ∈ l := fun hm =>
        (sortByKey_perm _).mem_iff.mp hm
      obtain ⟨hsame, hrest⟩ := Readable.Reads.separated (show Stop comma by decide) (show Stop 0x7D by decide)
        (by decide) (fun m _ => ⟨quotationMark, _, rfl, by decide⟩)
        (fun m hm => ⟨hmembers m (hsorted hm), reads_member (ih m (hsorted hm) (hmembers m (hsorted hm)))⟩)
        (fun m hm => hmembers' m (hsorted hm)) hlists
      refine ⟨.object (sortByKey_perm members).symm (sortByKey_perm members').symm ?_ ?_, hrest⟩
      · exact List.forall₂_eq_eq_eq ▸ List.forall₂_map_left_iff.mpr
          (List.forall₂_map_right_iff.mpr (hsame.imp fun _ _ hmn => hmn.1))
      · exact List.forall₂_map_left_iff.mpr (List.forall₂_map_right_iff.mpr (hsame.imp fun _ _ hmn => hmn.2))

/-- Two JSON values have the same canonical text exactly if they are the same value. -/
theorem canonical_normal_form (hprints : Prints numberText) (x y : Json) :
    jcsCanonicalize numberText x.1 = jcsCanonicalize numberText y.1 ↔ x.1.Same y.1 := by
  constructor
  · intro h
    have htext : canonicalText numberText x.1 ++ [] = canonicalText numberText y.1 ++ [] := by
      rw [(canonicalText_eq_iff x.2 y.2).mp h]
    exact (reads_canonicalText hprints x.2 y.1 y.2 [] [] (by simp) (by simp) htext).1
  · exact canonical_of_same hprints x.2 y.2

def position (d : Double) : ℕ := d.fraction + 2 ^ 52 * (d.exponent + 2047 * d.sign.toNat)

theorem position_injective {d e : Double} (h : position d = position e) : d = e := by
  obtain ⟨sign, exponent, fraction⟩ := d
  obtain ⟨sign', exponent', fraction'⟩ := e
  simp only [position] at h
  have hfraction : fraction.val = fraction'.val := by omega
  have hexponent : exponent.val = exponent'.val := by omega
  have hsign : sign.toNat = sign'.toNat := by omega
  have hsign : sign = sign' := by cases sign <;> cases sign' <;> simp at hsign ⊢
  rw [Fin.ext hfraction, Fin.ext hexponent, hsign]

/-- Zero and one are printed as they should be, every other number in unary under a number of its own. -/
def numberOf (d : Double) : ℕ :=
  if d.IsZero then 0 else if d = Double.one then 1 else 2 + position d

def unaryText (d : Double) : JsString :=
  if numberOf d = 0 then units "0" else List.replicate (numberOf d) 0x31

theorem numberOf_eq {d e : Double} (h : numberOf d = numberOf e) : d = e ∨ d.IsZero ∧ e.IsZero := by
  unfold numberOf at h
  by_cases hd : d.IsZero <;> by_cases he : e.IsZero <;> simp only [hd, he, if_true, if_false] at h
  · exact Or.inr ⟨hd, he⟩
  · split_ifs at h
    omega
  · split_ifs at h
    omega
  · left
    by_cases hone : d = Double.one <;> by_cases hone' : e = Double.one <;> simp only [hone, hone', if_true, if_false] at h
    · rw [hone, hone']
    · omega
    · omega
    · exact position_injective (by omega)

theorem prints_unaryText : Prints unaryText where
  zero := rfl
  nonempty d := by
    unfold unaryText
    split_ifs with h
    · decide
    · simpa using h
  numeric d c hc := by
    unfold unaryText at hc
    split_ifs at hc with h
    · rw [units_zero, List.mem_singleton] at hc
      subst hc
      decide
    · rw [(List.mem_replicate.mp hc).2]
      decide
  injective d e h := by
    have hunary : ∀ {n : ℕ}, units "0" ≠ List.replicate n 0x31 := fun hn =>
      absurd (List.eq_of_mem_replicate (hn ▸ (by decide : (0x30 : CodeUnit) ∈ units "0"))) (by decide)
    apply numberOf_eq
    unfold unaryText at h
    split_ifs at h with hd he he
    · rw [hd, he]
    · exact absurd h hunary
    · exact absurd h.symm hunary
    · simpa using congrArg List.length h

/-- `{"b": -0, "a": [1, "x\"y"]}` -/
def written : Value :=
  .object [(units "b", .number .negativeZero), (units "a", .array [.number .one, .string (units "x\"y")])]

/-- `{"a": [1, "x\"y"], "b": 0}` -/
def rewritten : Value :=
  .object [(units "a", .array [.number .one, .string (units "x\"y")]), (units "b", .number .zero)]

theorem isJson_written : written.IsJson := by
  refine .object (by decide) fun m hm => ?_
  simp only [List.mem_cons, List.not_mem_nil, or_false] at hm
  rcases hm with rfl | rfl
  · exact .number _
  · refine .array fun x hx => ?_
    simp only [List.mem_cons, List.not_mem_nil, or_false] at hx
    rcases hx with rfl | rfl
    · exact .number _
    · exact .string _

theorem isJson_rewritten : rewritten.IsJson := by
  refine .object (by decide) fun m hm => ?_
  simp only [List.mem_cons, List.not_mem_nil, or_false] at hm
  rcases hm with rfl | rfl
  · refine .array fun x hx => ?_
    simp only [List.mem_cons, List.not_mem_nil, or_false] at hx
    rcases hx with rfl | rfl
    · exact .number _
    · exact .string _
  · exact .number _

theorem canonical_normal_form_rewritten : written.Same rewritten :=
  (canonical_normal_form prints_unaryText ⟨written, isJson_written⟩ ⟨rewritten, isJson_rewritten⟩).mp (by decide +kernel)

end BotCord.Protocol
