import BotCord.Foundation.Text
import Mathlib.Data.List.DropRight
import Mathlib.Data.List.Infix

/-!
# Paths of the knowledge base

`normalize_path` and the functions on paths of `hub/services/kb.py`. A path is the list of its segments, the root the empty list; `text` is the path as the table stores it.
-/

namespace BotCord.Kb

abbrev Segment := List Char
abbrev Path := List Segment

inductive NodeKind
  | dir | page
deriving DecidableEq

/-- A rejected request: the code, the status, and the one field that some codes come with. -/
inductive Extra
  | number (field : String) (value : ℕ)
  | text (field : String) (value : Option String)
deriving DecidableEq

inductive Error
  | reject (code : String) (status : ℕ) (extra : Option Extra)
  | integrity
  /-- `AttributeError`: a row that should be there is `None`. -/
  | attribute
deriving DecidableEq

/-- `_reject` -/
def reject (code : String) (status : ℕ) (extra : Option Extra) : Error := .reject code status extra

def maxDepth : ℕ := 6
def maxPathLen : ℕ := 512

/-- The characters `str.strip` removes and `\s` matches. -/
def isSpace (c : Char) : Bool :=
  let n := c.toNat
  decide ((9 ≤ n ∧ n ≤ 13) ∨ (28 ≤ n ∧ n ≤ 32) ∨ n = 0x85 ∨ n = 0xA0 ∨ n = 0x1680 ∨ (0x2000 ≤ n ∧ n ≤ 0x200A) ∨
    n = 0x2028 ∨ n = 0x2029 ∨ n = 0x202F ∨ n = 0x205F ∨ n = 0x3000)

/-- `_SEGMENT_FORBIDDEN` -/
def isForbidden (c : Char) : Bool := isSpace c || decide (c.toNat ≤ 0x1F) || decide (c.toNat = 0x7F) || c == '\\'

def rstripWhile (p : Char → Bool) (text : List Char) : List Char := (text.reverse.dropWhile p).reverse

def strip (text : List Char) : List Char := rstripWhile isSpace (text.dropWhile isSpace)

namespace Path

/-- The path as text: a slash before every segment, and the slash alone for the root. -/
def text (path : Path) : List Char := '/' :: ['/'].intercalate path

/-- `path.endswith(".md")` -/
def IsMd (path : Path) : Prop := ".md".toList <:+ path.text
deriving Decidable

def parentOf (path : Path) : Path := path.dropLast

/-- The parent directories from shallowest to deepest, without the root. -/
def ancestors (path : Path) : List Path := path.dropLast.inits.tail

def Under (start path : Path) : Prop := start <+: path
deriving Decidable

end Path

/-- The segments of a raw path, with the slashes a caller may leave out or append. -/
def rawSegments (raw : String) : List Char × List Segment :=
  let path := strip raw.toList
  let path := if path.head? = some '/' then path else '/' :: path
  let path := if path = ['/'] then path else rstripWhile (· == '/') path
  (path, path.tail.splitOn '/')

def ValidSegment (segment : Segment) : Prop :=
  segment ≠ [] ∧ segment ≠ ['.'] ∧ segment ≠ ['.', '.'] ∧ ∀ c ∈ segment, isForbidden c = false

-- The characters of the segment are looked at, not all characters there are.
instance (segment : Segment) : Decidable (ValidSegment segment) :=
  haveI := List.decidableBAll (fun c => isForbidden c = false) segment
  inferInstanceAs (Decidable (segment ≠ [] ∧ segment ≠ ['.'] ∧ segment ≠ ['.', '.'] ∧
    ∀ c ∈ segment, isForbidden c = false))

def normalizePath (raw : String) (kind : Option NodeKind) : Except Error Path :=
  let (path, segments) := rawSegments raw
  if path = ['/'] ∨ maxPathLen < path.length then .error (reject "kb_invalid_path" 400 none)
  else if maxDepth < segments.length then .error (reject "kb_path_too_deep" 400 none)
  else if ¬ ∀ segment ∈ segments, ValidSegment segment then .error (reject "kb_invalid_path" 400 none)
  else if kind = some .page ∧ ¬ Path.IsMd segments then .error (reject "kb_page_path_must_end_with_md" 400 none)
  else if kind = some .dir ∧ Path.IsMd segments then .error (reject "kb_dir_path_must_not_end_with_md" 400 none)
  else .ok segments

example : normalizePath "notes/a.md/" (some .page) = .ok ["notes".toList, "a.md".toList] := by decide +kernel

/-- What holds of the path of every node. -/
structure Path.Valid (path : Path) : Prop where
  nonempty : path ≠ []
  segments : ∀ segment ∈ path, ValidSegment segment ∧ '/' ∉ segment
  short : path.text.length ≤ maxPathLen
  shallow : path.length ≤ maxDepth

theorem rstripWhile_eq (p : Char → Bool) (text : List Char) : rstripWhile p text = text.rdropWhile p := rfl

theorem rawSegments_text {raw : String} (h : (rawSegments raw).1 ≠ []) :
    Path.text (rawSegments raw).2 = (rawSegments raw).1 := by
  have hslash : (rawSegments raw).1.head? = some '/' := by
    unfold rawSegments at h ⊢
    dsimp only at h ⊢
    generalize hpath : (if (strip raw.toList).head? = some '/' then strip raw.toList else '/' :: strip raw.toList) = path at h ⊢
    have hhead : path.head? = some '/' := by
      rw [← hpath]
      split_ifs with hhead
      · exact hhead
      · rfl
    split_ifs at h ⊢ with hroot
    · exact hhead
    · rw [rstripWhile_eq] at h ⊢
      obtain ⟨back, hback⟩ := List.rdropWhile_prefix (· == '/') path
      rw [← hback, List.head?_append_of_ne_nil _ h] at hhead
      exact hhead
  obtain ⟨rest, hrest⟩ := List.head?_eq_some_iff.mp hslash
  have hsegments : (rawSegments raw).2 = (rawSegments raw).1.tail.splitOn '/' := rfl
  rw [hsegments, hrest, List.tail_cons, Path.text, List.intercalate_splitOn]

theorem normalizePath_ok {raw : String} {kind : Option NodeKind} {path : Path}
    (h : normalizePath raw kind = .ok path) :
    path.Valid ∧ (kind = some .page → path.IsMd) ∧ (kind = some .dir → ¬ path.IsMd) := by
  rw [normalizePath] at h
  dsimp only at h
  split_ifs at h with hshort hdeep hvalid hpage hdir
  obtain rfl := Except.ok.inj h
  have hne : (rawSegments raw).1 ≠ [] := by
    intro hnil
    have hsegments : (rawSegments raw).2 = (rawSegments raw).1.tail.splitOn '/' := rfl
    rw [hsegments, hnil] at hvalid
    exact (hvalid [] (List.mem_singleton_self _)).1 rfl
  refine ⟨⟨List.splitOn_ne_nil _ _, fun segment hsegment => ?_, ?_, Nat.le_of_not_lt hdeep⟩, ?_, ?_⟩
  · exact ⟨hvalid segment hsegment, Text.not_mem_of_mem_splitOn hsegment⟩
  · rw [rawSegments_text hne]
    exact Nat.le_of_not_lt fun hlong => hshort (.inr hlong)
  · intro hkind
    by_contra hmd
    exact hpage ⟨hkind, hmd⟩
  · exact fun hkind hmd => hdir ⟨hkind, hmd⟩

theorem isForbidden_of_isSpace {c : Char} (h : isSpace c = true) : isForbidden c = true := by
  simp [isForbidden, h]

namespace Path

theorem text_inj {left right : Path} (hleft : left.Valid) (hright : right.Valid) (h : left.text = right.text) :
    left = right :=
  Text.intercalate_inj (fun segment hs => (hleft.segments segment hs).2) (fun segment hs => (hright.segments segment hs).2)
    hleft.nonempty hright.nonempty (List.cons.inj h).2

theorem not_mem_text {path : Path} (h : path.Valid) {c : Char} (hc : isForbidden c = true) : c ∉ path.text := by
  intro hmem
  have hslash : c ≠ '/' := by
    rintro rfl
    exact absurd hc (by decide)
  rcases List.mem_cons.mp hmem with hmark | hmem
  · exact hslash hmark
  · rcases Text.mem_intercalate hmem with hmark | ⟨segment, hsegment, hc'⟩
    · exact hslash hmark
    · rw [(h.segments segment hsegment).1.2.2.2 c hc'] at hc
      cases hc

theorem mem_ancestors {path dir : Path} : dir ∈ path.ancestors ↔ dir ≠ [] ∧ dir <+: path.parentOf := by
  rw [ancestors, parentOf]
  cases path.dropLast with
  | nil => simp
  | cons segment rest =>
    simp only [List.inits, List.tail_cons, List.mem_map]
    constructor
    · rintro ⟨start, hstart, rfl⟩
      exact ⟨List.cons_ne_nil _ _, (List.prefix_cons_inj segment).mpr ((List.mem_inits _ _).mp hstart)⟩
    · rintro ⟨hne, hstart⟩
      obtain ⟨first, start, rfl⟩ := List.exists_cons_of_ne_nil hne
      obtain ⟨rfl, hrest⟩ := List.cons_prefix_cons.mp hstart
      exact ⟨start, (List.mem_inits _ _).mpr hrest, rfl⟩

theorem pairwise_ancestors {path : Path} : path.ancestors.Pairwise fun dir other => dir.length < other.length := by
  have hinits : ∀ segments : Path, segments.inits.Pairwise fun dir other => dir.length < other.length := by
    intro segments
    induction segments with
    | nil => exact List.pairwise_singleton _ _
    | cons segment rest ih =>
      rw [List.inits_cons, List.pairwise_cons]
      constructor
      · intro other hother
        obtain ⟨front, -, rfl⟩ := List.mem_map.mp hother
        exact Nat.succ_pos _
      · rw [List.pairwise_map]
        exact ih.imp fun hlt => Nat.succ_lt_succ hlt
  exact (hinits path.dropLast).sublist (List.tail_sublist _)

theorem prefix_parentOf {path start : Path} (h : start <+: path) (hne : start ≠ path) : start <+: path.parentOf := by
  obtain ⟨rest, rfl⟩ := h
  have hrest : rest ≠ [] := by
    rintro rfl
    exact hne (List.append_nil start).symm
  rw [parentOf, List.dropLast_append_of_ne_nil hrest]
  exact List.prefix_append _ _

theorem parentOf_mem_ancestors {path : Path} (h : path.parentOf ≠ []) : path.parentOf ∈ path.ancestors :=
  mem_ancestors.mpr ⟨h, List.prefix_refl _⟩

theorem ancestors_subset {path dir other : Path} (hdir : dir ∈ path.ancestors) (hother : other ∈ dir.ancestors) :
    other ∈ path.ancestors := by
  obtain ⟨-, hinside⟩ := mem_ancestors.mp hdir
  obtain ⟨hne, hinside'⟩ := mem_ancestors.mp hother
  exact mem_ancestors.mpr ⟨hne, (hinside'.trans (List.dropLast_prefix dir)).trans hinside⟩

theorem length_of_mem_ancestors {path dir : Path} (h : dir ∈ path.ancestors) : dir.length < path.length := by
  obtain ⟨hne, hinside⟩ := mem_ancestors.mp h
  have hdir := hinside.length_le
  have hpos := List.length_pos_of_ne_nil hne
  rw [parentOf, List.length_dropLast] at hdir
  omega

theorem rawSegments_of_valid {path : Path} (h : path.Valid) : rawSegments (String.ofList path.text) = (path.text, path) := by
  have hparts : ∀ segment ∈ path, segment ≠ [] ∧ '/' ∉ segment :=
    fun segment hsegment => ⟨(h.segments segment hsegment).1.1, (h.segments segment hsegment).2⟩
  have hjoin : ['/'].intercalate path ≠ [] := Text.intercalate_ne_nil '/' h.nonempty fun segment hs => (hparts segment hs).1
  have hstrip : strip path.text = path.text := by
    have hfront : path.text.dropWhile isSpace = path.text := List.dropWhile_cons_of_neg (by decide)
    rw [strip, hfront, rstripWhile_eq, List.rdropWhile_eq_self_iff]
    exact fun hl hspace => not_mem_text h (isForbidden_of_isSpace hspace) (List.getLast_mem hl)
  have hend : rstripWhile (· == '/') path.text = path.text := by
    rw [rstripWhile_eq, List.rdropWhile_eq_self_iff]
    intro hl hslash
    have hlast : path.text.getLast? = some '/' := by rw [List.getLast?_eq_some_getLast hl, eq_of_beq hslash]
    rw [text, List.getLast?_cons, List.getLast?_eq_some_getLast hjoin] at hlast
    refine Text.getLast?_intercalate_ne '/' h.nonempty hparts ?_
    rw [List.getLast?_eq_some_getLast hjoin]
    simpa using hlast
  have hroot : path.text ≠ ['/'] := fun hroot => hjoin (List.cons.inj hroot).2
  have hsplit : path.text.tail.splitOn '/' = path :=
    List.splitOn_intercalate '/' (fun segment hs => (hparts segment hs).2) h.nonempty
  unfold rawSegments
  simp only [String.toList_ofList, hstrip]
  rw [if_pos (show path.text.head? = some '/' from rfl), if_neg hroot, hend, hsplit]

theorem Valid.normalized {path : Path} (h : path.Valid) : normalizePath (String.ofList path.text) none = .ok path := by
  rw [normalizePath, rawSegments_of_valid h]
  have hroot : path.text ≠ ['/'] := by
    intro hroot
    refine Text.intercalate_ne_nil '/' h.nonempty (fun segment hs => (h.segments segment hs).1.1) ?_
    exact (List.cons.inj hroot).2
  have hshort := h.short
  have hshallow := h.shallow
  simp only
  rw [if_neg (by rintro (hpath | hlong); exacts [hroot hpath, absurd hlong (by omega)]), if_neg (by omega),
    if_neg fun hnot => hnot fun segment hs => (h.segments segment hs).1, if_neg (by simp), if_neg (by simp)]

theorem Valid.of_prefix {path front : Path} (h : path.Valid) (hne : front ≠ []) (hfront : front <+: path) : front.Valid where
  nonempty := hne
  segments := fun segment hs => h.segments segment (hfront.subset hs)
  short := by
    have hle := (Text.intercalate_prefix '/' hfront).length_le
    have hshort := h.short
    rw [text, List.length_cons] at hshort ⊢
    omega
  shallow := hfront.length_le.trans h.shallow

theorem Valid.ancestor {path dir : Path} (h : path.Valid) (hdir : dir ∈ path.ancestors) : dir.Valid := by
  obtain ⟨hne, hinside⟩ := mem_ancestors.mp hdir
  exact h.of_prefix hne (hinside.trans (List.dropLast_prefix path))

theorem not_mem_ancestors_self {path : Path} : path ∉ path.ancestors :=
  fun h => lt_irrefl _ (length_of_mem_ancestors h)

end Path

end BotCord.Kb
