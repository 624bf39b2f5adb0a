import BotCord.Protocol.Quote

/-!
# Canonical text of a payload

`jcsCanonicalize` of `packages/protocol-core/src/crypto.ts`, on the values a payload is built from. The text `JSON.stringify` gives a finite number is a parameter; what it gives a string is `quote`.
-/

namespace BotCord.Protocol

/-- A finite number: a binary64 whose exponent field is not the one of the infinities. -/
structure Double where
  sign : Bool := false
  exponent : Fin 2047
  fraction : Fin (2 ^ 52)
deriving DecidableEq

namespace Double

def zero : Double := { exponent := 0, fraction := 0 }
def negativeZero : Double := { sign := true, exponent := 0, fraction := 0 }
def one : Double := { exponent := 1023, fraction := 0 }

def IsZero (d : Double) : Prop := d = zero ∨ d = negativeZero
deriving Decidable

end Double

/-- A value of the language, as far as payloads go. An object is the list of its own members in their order. -/
inductive Value
  | undefined
  | null
  | bool (b : Bool)
  | number (d : Double)
  | string (s : JsString)
  | array (elements : List Value)
  | object (members : List (JsString × Value))

namespace Value

theorem induction {motive : Value → Prop} (undefined : motive .undefined) (null : motive .null)
    (bool : ∀ b, motive (.bool b)) (number : ∀ d, motive (.number d)) (string : ∀ s, motive (.string s))
    (array : ∀ elements, (∀ x ∈ elements, motive x) → motive (.array elements))
    (object : ∀ members, (∀ m ∈ members, motive m.2) → motive (.object members)) : ∀ v, motive v
  | .undefined => undefined
  | .null => null
  | .bool b => bool b
  | .number d => number d
  | .string s => string s
  | .array elements => array elements fun x hx =>
    have := List.sizeOf_lt_of_mem hx
    induction undefined null bool number string array object x
  | .object members => object members fun m hm =>
    have := List.sizeOf_lt_of_mem hm
    have : sizeOf m.2 < sizeOf m := by cases m; simp +arith
    induction undefined null bool number string array object m.2
termination_by v => sizeOf v

end Value

def comma : CodeUnit := 0x2C
def colon : CodeUnit := 0x3A

/-- `Array.prototype.join(",")`: an element without a text is written as nothing. -/
def join (parts : List (Option JsString)) : JsString := [comma].intercalate (parts.map (·.getD []))

def sortByKey {α : Type} (entries : List (JsString × α)) : List (JsString × α) :=
  entries.insertionSort (fun a b => a.1 ≤ b.1)

variable (numberText : Double → JsString)

mutual

/-- The canonical text, and none of an undefined value. -/
def jcsCanonicalize : Value → Option JsString
  | .undefined => none
  | .null => some (units "null")
  | .bool b => some (if b then units "true" else units "false")
  | .number d => some (if d = Double.negativeZero then units "0" else numberText d)
  | .string s => some (quote s)
  | .array elements => some (units "[" ++ join (canonicalElements elements) ++ units "]")
  | .object members =>
    -- The keys are sorted first; an undefined member leaves no part.
    let parts := (sortByKey (canonicalMembers members)).filterMap (·.2)
    some (units "\x7b" ++ [comma].intercalate parts ++ units "\x7d")

def canonicalElements : List Value → List (Option JsString)
  | [] => []
  | x :: rest => jcsCanonicalize x :: canonicalElements rest

def canonicalMembers : List (JsString × Value) → List (JsString × Option JsString)
  | [] => []
  | (key, .undefined) :: rest => (key, none) :: canonicalMembers rest
  | (key, value) :: rest =>
    (key, some (quote key ++ [colon] ++ (jcsCanonicalize value).getD (units "undefined"))) :: canonicalMembers rest

end

def canonicalPart (member : JsString × Value) : Option JsString :=
  (jcsCanonicalize numberText member.2).map fun text => quote member.1 ++ [colon] ++ text

theorem jcsCanonicalize_eq_none {v : Value} : jcsCanonicalize numberText v = none ↔ v = .undefined := by
  cases v <;> simp [jcsCanonicalize]

theorem canonicalElements_eq (elements : List Value) :
    canonicalElements numberText elements = elements.map (jcsCanonicalize numberText) := by
  induction elements with
  | nil => rfl
  | cons x rest ih => rw [canonicalElements, ih, List.map_cons]

theorem canonicalMembers_eq (members : List (JsString × Value)) :
    canonicalMembers numberText members = members.map fun m => (m.1, canonicalPart numberText m) := by
  induction members with
  | nil => rfl
  | cons m rest ih =>
    obtain ⟨key, value⟩ := m
    cases value <;> simp [canonicalMembers, canonicalPart, jcsCanonicalize, ih]

theorem sortByKey_map {α β : Type} (f : JsString × α → β) (entries : List (JsString × α)) :
    sortByKey (entries.map fun e => (e.1, f e)) = (sortByKey entries).map fun e => (e.1, f e) :=
  (List.map_insertionSort (fun a b : JsString × α => a.1 ≤ b.1) (fun a b : JsString × β => a.1 ≤ b.1)
    (fun e => (e.1, f e)) entries fun _ _ _ _ => Iff.rfl).symm

theorem sortByKey_perm {α : Type} (entries : List (JsString × α)) : (sortByKey entries).Perm entries :=
  List.perm_insertionSort _ _

theorem sortByKey_sorted {α : Type} (entries : List (JsString × α)) :
    (sortByKey entries).Pairwise (fun a b => a.1 ≤ b.1) :=
  haveI : Std.Total (fun a b : JsString × α => a.1 ≤ b.1) := ⟨fun a b => le_total a.1 b.1⟩
  haveI : IsTrans (JsString × α) (fun a b => a.1 ≤ b.1) := ⟨fun _ _ _ => le_trans⟩
  List.pairwise_insertionSort _ entries

theorem eq_sortByKey {α : Type} {entries entries' : List (JsString × α)} (h : entries.Perm entries')
    (hkeys : (entries.map (·.1)).Nodup) (hsorted : entries'.Pairwise (fun a b => a.1 ≤ b.1)) :
    sortByKey entries = entries' := by
  refine ((sortByKey_perm entries).trans h).eq_of_pairwise (fun a b ha hb hab hba => ?_) (sortByKey_sorted entries) hsorted
  exact List.inj_on_of_nodup_map hkeys ((sortByKey_perm entries).mem_iff.mp ha) (h.mem_iff.mpr hb) (le_antisymm hab hba)

/-- Entries under distinct keys are sorted to one list, whatever order they come in. -/
theorem sortByKey_eq_of_perm {α : Type} {entries entries' : List (JsString × α)} (h : entries.Perm entries')
    (hkeys : (entries.map (·.1)).Nodup) : sortByKey entries = sortByKey entries' :=
  eq_sortByKey (h.trans (sortByKey_perm entries').symm) hkeys (sortByKey_sorted entries')

theorem jcsCanonicalize_array (elements : List Value) :
    jcsCanonicalize numberText (.array elements)
      = some (units "[" ++ join (elements.map (jcsCanonicalize numberText)) ++ units "]") := by
  rw [jcsCanonicalize, canonicalElements_eq]

theorem jcsCanonicalize_object (members : List (JsString × Value)) :
    jcsCanonicalize numberText (.object members)
      = some (units "\x7b" ++ [comma].intercalate ((sortByKey members).filterMap (canonicalPart numberText))
          ++ units "\x7d") := by
  rw [jcsCanonicalize, canonicalMembers_eq, sortByKey_map, List.filterMap_map]
  rfl

end BotCord.Protocol
