import BotCord.Foundation.Readable
import Mathlib

/-!
# Strings and their quotation

A string of the language is a list of UTF-16 code units, which need not be well formed. `JSON.stringify` writes it between quotation marks, escapes the marks, the backslashes and the control characters, and writes a surrogate without its partner as a hexadecimal escape.
-/

namespace BotCord.Protocol

abbrev CodeUnit := Fin 65536
abbrev JsString := List CodeUnit

instance neZero_codeUnits : NeZero 65536 := ⟨by decide⟩

/-- The code units of a text of the basic plane. -/
def units (text : String) : JsString := text.toList.map fun c => Fin.ofNat 65536 c.toNat

def quotationMark : CodeUnit := 0x22
def reverseSolidus : CodeUnit := 0x5C

def shortEscape (c : CodeUnit) : Option CodeUnit :=
  if c = 0x08 then some 0x62
  else if c = 0x09 then some 0x74
  else if c = 0x0A then some 0x6E
  else if c = 0x0C then some 0x66
  else if c = 0x0D then some 0x72
  else if c = quotationMark then some quotationMark
  else if c = reverseSolidus then some reverseSolidus
  else none

def isLeading (c : CodeUnit) : Bool := 0xD800 ≤ c && c ≤ 0xDBFF

def isTrailing (c : CodeUnit) : Bool := 0xDC00 ≤ c && c ≤ 0xDFFF

def hexDigit (n : Fin 16) : CodeUnit := if n < 10 then 0x30 + n.castLE (by decide) else 0x57 + n.castLE (by decide)

/-- `\uXXXX`, in lower case. -/
def hexEscape (c : CodeUnit) : JsString :=
  [reverseSolidus, 0x75, hexDigit (Fin.ofNat 16 (c / 4096)), hexDigit (Fin.ofNat 16 (c / 256)),
    hexDigit (Fin.ofNat 16 (c / 16)), hexDigit (Fin.ofNat 16 c)]

def quoteBody : JsString → JsString
  | [] => []
  | c :: rest =>
    match shortEscape c with
    | some e => reverseSolidus :: e :: quoteBody rest
    | none =>
      if c < 0x20 || isTrailing c then hexEscape c ++ quoteBody rest
      else if isLeading c then
        match rest with
        | [] => hexEscape c
        | d :: rest' =>
          if isTrailing d then c :: d :: quoteBody rest' else hexEscape c ++ quoteBody (d :: rest')
      else c :: quoteBody rest

/-- `JSON.stringify` of a string. -/
def quote (s : JsString) : JsString := quotationMark :: quoteBody s ++ [quotationMark]

def hexValue (c : CodeUnit) : ℕ := if c < 0x3A then c - 0x30 else c - 0x57

def unescape (e : CodeUnit) : CodeUnit :=
  if e = 0x62 then 0x08
  else if e = 0x74 then 0x09
  else if e = 0x6E then 0x0A
  else if e = 0x66 then 0x0C
  else if e = 0x72 then 0x0D
  else e

/-- The string up to the first quotation mark that is not escaped, and what follows it. -/
def readQuoted : List CodeUnit → JsString × List CodeUnit
  | [] => ([], [])
  | c :: rest =>
    if c = quotationMark then ([], rest)
    else if c = reverseSolidus then
      match rest with
      | 0x75 :: h₃ :: h₂ :: h₁ :: h₀ :: rest' =>
        let (s, after) := readQuoted rest'
        (Fin.ofNat 65536 (4096 * hexValue h₃ + 256 * hexValue h₂ + 16 * hexValue h₁ + hexValue h₀) :: s, after)
      | e :: rest' =>
        let (s, after) := readQuoted rest'
        (unescape e :: s, after)
      | [] => ([], [])
    else
      let (s, after) := readQuoted rest
      (c :: s, after)

theorem hexValue_hexDigit (n : Fin 16) : hexValue (hexDigit n) = n := by
  decide +revert

theorem readQuoted_quotationMark (rest : List CodeUnit) : readQuoted (quotationMark :: rest) = ([], rest) := by
  rw [readQuoted.eq_def]
  simp only [if_true]

theorem readQuoted_hexEscape (c : CodeUnit) (rest : List CodeUnit) :
    readQuoted (hexEscape c ++ rest) = (c :: (readQuoted rest).1, (readQuoted rest).2) := by
  have hvalue : Fin.ofNat 65536 (4096 * hexValue (hexDigit (Fin.ofNat 16 (c / 4096)))
      + 256 * hexValue (hexDigit (Fin.ofNat 16 (c / 256))) + 16 * hexValue (hexDigit (Fin.ofNat 16 (c / 16)))
      + hexValue (hexDigit (Fin.ofNat 16 c))) = c := by
    simp only [hexValue_hexDigit]
    apply Fin.ext
    have hc := c.isLt
    simp only [Fin.ofNat]
    omega
  simp only [hexEscape, List.cons_append, List.nil_append]
  rw [readQuoted]
  simp only [show reverseSolidus ≠ quotationMark by decide, if_false, if_true, hvalue]

theorem readQuoted_shortEscape {c e : CodeUnit} (h : shortEscape c = some e) (rest : List CodeUnit) :
    readQuoted (reverseSolidus :: e :: rest) = (c :: (readQuoted rest).1, (readQuoted rest).2) := by
  unfold shortEscape at h
  split_ifs at h with hc hc hc hc hc hc hc <;> obtain rfl := Option.some.inj h <;> subst hc <;> rfl

theorem readQuoted_plain {c : CodeUnit} (h : shortEscape c = none) (rest : List CodeUnit) :
    readQuoted (c :: rest) = (c :: (readQuoted rest).1, (readQuoted rest).2) := by
  have hmark : c ≠ quotationMark := by
    rintro rfl
    exact absurd h (by decide)
  have hsolidus : c ≠ reverseSolidus := by
    rintro rfl
    exact absurd h (by decide)
  rw [readQuoted.eq_def]
  simp only [hmark, hsolidus, if_false]

theorem shortEscape_surrogate {c : CodeUnit} (h : isLeading c = true ∨ isTrailing c = true) :
    shortEscape c = none := by
  have hlow : (0xD800 : CodeUnit) ≤ c := by
    simp only [isLeading, isTrailing, Bool.and_eq_true, decide_eq_true_eq] at h
    rcases h with h | h
    · exact h.1
    · exact Fin.le_trans (show (0xD800 : CodeUnit) ≤ 0xDC00 by decide) h.1
  have hne : ∀ x : CodeUnit, x < 0xD800 → c ≠ x := by
    rintro x hx rfl
    exact absurd hlow (Fin.not_le.mpr hx)
  simp only [shortEscape, hne 0x08 (by decide), hne 0x09 (by decide), hne 0x0A (by decide), hne 0x0C (by decide),
    hne 0x0D (by decide), hne quotationMark (by decide), hne reverseSolidus (by decide), if_false]

theorem readQuoted_quoteBody (s : JsString) (rest : List CodeUnit) :
    readQuoted (quoteBody s ++ quotationMark :: rest) = (s, rest) := by
  fun_induction quoteBody s with
  | case1 => exact readQuoted_quotationMark rest
  | case2 c s e he ih => rw [List.cons_append, List.cons_append, readQuoted_shortEscape he, ih]
  | case3 c s hnone hescaped ih => rw [List.append_assoc, readQuoted_hexEscape, ih]
  | case4 c hnone hescaped hleading => rw [readQuoted_hexEscape, readQuoted_quotationMark]
  | case5 c hnone hescaped hleading d s htrailing ih =>
    rw [List.cons_append, List.cons_append, readQuoted_plain hnone,
      readQuoted_plain (shortEscape_surrogate (Or.inr htrailing)), ih]
  | case6 c hnone hescaped hleading d s htrailing ih => rw [List.append_assoc, readQuoted_hexEscape, ih]
  | case7 c s hnone hescaped hleading ih => rw [List.cons_append, readQuoted_plain hnone, ih]

/-- Quotations are read in one way: whatever follows them, the strings and the rests are the same. -/
theorem quote_inj {s t : JsString} {r r' : List CodeUnit} (h : quote s ++ r = quote t ++ r') : s = t ∧ r = r' := by
  have hbody : quoteBody s ++ quotationMark :: r = quoteBody t ++ quotationMark :: r' := by
    simpa [quote] using h
  have hread := congrArg readQuoted hbody
  rw [readQuoted_quoteBody, readQuoted_quoteBody] at hread
  exact Prod.mk.inj hread

end BotCord.Protocol
