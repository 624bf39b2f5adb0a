import Mathlib.Data.Rat.Floor

/-!
# Splitting a long message

`packages/protocol-core/src/gateway-text.ts`. A text is the list of its UTF-16 code units, as `length`, `lastIndexOf` and `slice` count them. The limit is any finite number, and a position that is not whole is truncated, as these methods do.

Each cut leaves at least one unit before it and drops the newline that follows it, if one does. A cut at the limit for want of a newline to cut at has none after it.
-/

namespace BotCord.GatewayText

abbrev CodeUnit := UInt16

def newline : CodeUnit := 10

/-- The last place of the unit at or before the position, and `-1` if there is none. -/
def lastIndexOf (text : List CodeUnit) (unit : CodeUnit) : ℕ → ℤ
  | 0 => if text[0]? = some unit then 0 else -1
  | position + 1 => if text[position + 1]? = some unit then position + 1 else lastIndexOf text unit position

def cutAt (remaining : List CodeUnit) (limit : ℚ) : ℕ :=
  let cut := lastIndexOf remaining newline ⌊limit⌋₊
  if cut ≤ 0 then ⌊limit⌋₊ else cut.toNat

/-- `replace(/^\n/, "")`. -/
def dropNewline : List CodeUnit → List CodeUnit
  | [] => []
  | unit :: rest => if unit = newline then rest else unit :: rest

def splitLoop (limit : ℚ) : ℕ → List (List CodeUnit) → List CodeUnit → Option (List (List CodeUnit))
  | 0, _, _ => none
  | fuel + 1, out, remaining =>
    if limit < remaining.length then
      let cut := cutAt remaining limit
      splitLoop limit fuel (out ++ [remaining.take cut]) (dropNewline (remaining.drop cut))
    else some (if 0 < remaining.length then out ++ [remaining] else out)

def splitText (fuel : ℕ) (text : List CodeUnit) (limit : ℚ) : Option (List (List CodeUnit)) :=
  if limit ≤ 0 then some [text]
  else if text.length = 0 then some [[]]
  else if text.length ≤ limit then some [text]
  else splitLoop limit fuel [] text

/-- The text is the chunks one after another. Between two chunks there is one newline where the text has one after the first, and nothing where it has none. A newline at the very end may be missing. -/
inductive Rejoins : List CodeUnit → List (List CodeUnit) → Prop
  | whole (text : List CodeUnit) : Rejoins text [text]
  | ended (chunk : List CodeUnit) : Rejoins (chunk ++ [newline]) [chunk]
  | broken (chunk : List CodeUnit) {rest : List CodeUnit} {chunks : List (List CodeUnit)} :
      Rejoins rest chunks → Rejoins (chunk ++ newline :: rest) (chunk :: chunks)
  | cut (chunk : List CodeUnit) {unit : CodeUnit} {rest : List CodeUnit} {chunks : List (List CodeUnit)} :
      unit ≠ newline → Rejoins (unit :: rest) chunks → Rejoins (chunk ++ unit :: rest) (chunk :: chunks)

/-- The chunk has at least one unit and at most as many as the limit allows. -/
def Fits (limit : ℚ) (chunk : List CodeUnit) : Prop := 1 ≤ chunk.length ∧ chunk.length ≤ limit

theorem lastIndexOf_le (text : List CodeUnit) (unit : CodeUnit) (position : ℕ) :
    lastIndexOf text unit position ≤ position := by
  induction position with
  | zero =>
    rw [lastIndexOf]
    split <;> decide
  | succ position ih =>
    rw [lastIndexOf]
    split
    · exact le_rfl
    · omega

section Cut

variable {limit : ℚ} (remaining : List CodeUnit)

theorem cutAt_le : cutAt remaining limit ≤ ⌊limit⌋₊ := by
  have hle := lastIndexOf_le remaining newline ⌊limit⌋₊
  rw [cutAt]
  split
  · exact le_rfl
  · omega

theorem cutAt_pos (hlimit : 1 ≤ limit) : 1 ≤ cutAt remaining limit := by
  rw [cutAt]
  split
  · exact Nat.one_le_floor_iff limit |>.mpr hlimit
  · omega

variable {remaining}

theorem cutAt_lt (hlimit : 1 ≤ limit) (hlong : limit < remaining.length) :
    cutAt remaining limit < remaining.length :=
  (cutAt_le remaining).trans_lt ((Nat.floor_lt (zero_le_one.trans hlimit)).mpr hlong)

theorem fits_take (hlimit : 1 ≤ limit) (hlong : limit < remaining.length) :
    Fits limit (remaining.take (cutAt remaining limit)) := by
  rw [Fits, List.length_take_of_le (cutAt_lt hlimit hlong).le]
  exact ⟨cutAt_pos remaining hlimit, (Nat.le_floor_iff (zero_le_one.trans hlimit)).mp (cutAt_le remaining)⟩

end Cut

theorem length_dropNewline_le (text : List CodeUnit) : (dropNewline text).length ≤ text.length := by
  cases text with
  | nil => exact le_rfl
  | cons unit rest =>
    rw [dropNewline]
    split
    · exact Nat.le_succ _
    · exact le_rfl

theorem Rejoins.cons {chunk rest : List CodeUnit} {chunks : List (List CodeUnit)} (hrest : rest ≠ [])
    (h : Rejoins (dropNewline rest) chunks ∨ dropNewline rest = [] ∧ chunks = []) :
    Rejoins (chunk ++ rest) (chunk :: chunks) := by
  cases rest with
  | nil => exact absurd rfl hrest
  | cons unit rest =>
    rw [dropNewline] at h
    split at h
    · rename_i hunit
      subst hunit
      rcases h with h | ⟨rfl, rfl⟩
      · exact .broken chunk h
      · exact .ended chunk
    · rename_i hunit
      exact .cut chunk hunit (h.resolve_right fun hnil => List.cons_ne_nil _ _ hnil.1)

/-- What the rest of the loop adds to the chunks, whatever fuel above the length of the text it has. -/
def Adds (limit : ℚ) (remaining : List CodeUnit) (chunks : List (List CodeUnit)) : Prop :=
  ∀ fuel out, remaining.length < fuel → splitLoop limit fuel out remaining = some (out ++ chunks)

theorem adds_long {limit : ℚ} {remaining : List CodeUnit} {chunks : List (List CodeUnit)} (hlong : limit < remaining.length)
    (hshort : (dropNewline (remaining.drop (cutAt remaining limit))).length < remaining.length)
    (h : Adds limit (dropNewline (remaining.drop (cutAt remaining limit))) chunks) :
    Adds limit remaining (remaining.take (cutAt remaining limit) :: chunks) := by
  intro fuel out hfuel
  cases fuel with
  | zero => omega
  | succ fuel =>
    rw [splitLoop, if_pos hlong]
    rw [h fuel _ (by omega), List.append_assoc, List.singleton_append]

theorem adds_nil {limit : ℚ} (hlimit : 0 ≤ limit) : Adds limit [] [] := by
  intro fuel out hfuel
  cases fuel with
  | zero => omega
  | succ fuel =>
    rw [splitLoop, if_neg (not_lt.mpr (by simpa using hlimit)), List.length_nil, if_neg (Nat.lt_irrefl 0),
      List.append_nil]

theorem adds_short {limit : ℚ} {remaining : List CodeUnit} (hne : remaining ≠ []) (hshort : remaining.length ≤ limit) :
    Adds limit remaining [remaining] := by
  intro fuel out hfuel
  cases fuel with
  | zero => omega
  | succ fuel => rw [splitLoop, if_neg (not_lt.mpr hshort), if_pos (List.length_pos_iff.mpr hne)]

theorem splitLoop_adds {limit : ℚ} (hlimit : 1 ≤ limit) (remaining : List CodeUnit) :
    ∃ chunks, Adds limit remaining chunks ∧ (∀ chunk ∈ chunks, Fits limit chunk) ∧
      (Rejoins remaining chunks ∨ remaining = [] ∧ chunks = []) := by
  induction hlength : remaining.length using Nat.strong_induction_on generalizing remaining with
  | h length ih =>
    subst hlength
    by_cases hlong : limit < remaining.length
    · have hcut := cutAt_lt hlimit hlong
      have hpos := cutAt_pos remaining hlimit
      have hdrop : remaining.drop (cutAt remaining limit) ≠ [] := by
        rw [Ne, List.drop_eq_nil_iff]
        omega
      have hshort : (dropNewline (remaining.drop (cutAt remaining limit))).length < remaining.length := by
        have hle := length_dropNewline_le (remaining.drop (cutAt remaining limit))
        rw [List.length_drop] at hle
        omega
      obtain ⟨chunks, hadds, hfits, hrejoins⟩ := ih _ hshort _ rfl
      refine ⟨remaining.take (cutAt remaining limit) :: chunks, adds_long hlong hshort hadds, ?_, .inl ?_⟩
      · intro chunk hchunk
        rcases List.mem_cons.mp hchunk with rfl | hchunk
        · exact fits_take hlimit hlong
        · exact hfits chunk hchunk
      · have hsplit : Rejoins (remaining.take (cutAt remaining limit) ++ remaining.drop (cutAt remaining limit)) _ :=
          .cons hdrop hrejoins
        rwa [List.take_append_drop] at hsplit
    · by_cases hempty : remaining = []
      · subst hempty
        exact ⟨[], adds_nil (zero_le_one.trans hlimit), fun _ hchunk => absurd hchunk List.not_mem_nil, .inr ⟨rfl, rfl⟩⟩
      · refine ⟨[remaining], adds_short hempty (not_lt.mp hlong), ?_, .inl (.whole remaining)⟩
        intro chunk hchunk
        rw [List.mem_singleton.mp hchunk]
        exact ⟨List.length_pos_iff.mpr hempty, not_lt.mp hlong⟩

/-- With more fuel than the text is long, the split ends, its chunks fit in the limit and put together give the text. Only the empty text has an empty chunk. -/
theorem splitText_lossless (text : List CodeUnit) (limit : ℚ) (hlimit : 1 ≤ limit) :
    ∃ chunks, (∀ fuel, text.length < fuel → splitText fuel text limit = some chunks) ∧
      (text = [] → chunks = [[]]) ∧ (text ≠ [] → ∀ chunk ∈ chunks, Fits limit chunk) ∧ Rejoins text chunks := by
  have hpos : ¬ limit ≤ 0 := not_le.mpr (zero_lt_one.trans_le hlimit)
  by_cases hempty : text = []
  · subst hempty
    refine ⟨[[]], ?_, fun _ => rfl, fun hne => absurd rfl hne, .whole []⟩
    intro fuel _
    rw [splitText, if_neg hpos, if_pos List.length_nil]
  · have hlength : text.length ≠ 0 := fun h => hempty (List.length_eq_zero_iff.mp h)
    by_cases hshort : (text.length : ℚ) ≤ limit
    · refine ⟨[text], ?_, fun h => absurd h hempty, ?_, .whole text⟩
      · intro fuel _
        rw [splitText, if_neg hpos, if_neg hlength, if_pos hshort]
      · intro _ chunk hchunk
        rw [List.mem_singleton.mp hchunk]
        exact ⟨Nat.one_le_iff_ne_zero.mpr hlength, hshort⟩
    · obtain ⟨chunks, hadds, hfits, hrejoins⟩ := splitLoop_adds hlimit text
      refine ⟨chunks, ?_, fun h => absurd h hempty, fun _ => hfits, ?_⟩
      · intro fuel hfuel
        rw [splitText, if_neg hpos, if_neg hlength, if_neg hshort, hadds fuel [] hfuel, List.nil_append]
      · exact hrejoins.resolve_right fun h => hempty h.1

/-- A word, an empty line and a word, in chunks of two. -/
theorem splitText_lossless_words :
    (1 : ℚ) ≤ 2 ∧ ∃ chunks, (∀ fuel, 6 < fuel → splitText fuel [97, 98, 10, 10, 99, 100] 2 = some chunks) ∧
      ([97, 98, 10, 10, 99, 100] = ([] : List CodeUnit) → chunks = [[]]) ∧
      ([97, 98, 10, 10, 99, 100] ≠ ([] : List CodeUnit) → ∀ chunk ∈ chunks, Fits 2 chunk) ∧
      Rejoins [97, 98, 10, 10, 99, 100] chunks :=
  ⟨by norm_num, splitText_lossless [97, 98, 10, 10, 99, 100] 2 (by norm_num)⟩

/-- The empty line stays a newline in front of the second word. -/
example : splitText 7 [97, 98, 10, 10, 99, 100] 2 = some [[97, 98], [10, 99], [100]] := by decide +kernel

end BotCord.GatewayText
