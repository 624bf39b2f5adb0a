import BotCord.Foundation.Merkle
import BotCord.Kb.Tree

/-!
# What the hash of a directory stands for

The hash of a live directory is a digest of the published pages below it. A publication or a deletion changes this only for the directories above its path, and the refresh of those, the deepest first, makes it true of them again: when a directory is hashed, the hashes of the directories in it already stand for what is below them.
-/

namespace BotCord.Kb

open Merkle

/-- The hash is a hex digest, and no two texts that are hashed have the same one. -/
structure CollisionFree (hash : String → String) : Prop where
  injective : Function.Injective hash
  hex : ∀ text, hash text ≠ "" ∧ ∀ c ∈ (hash text).toList, c ∈ "0123456789abcdef".toList

def scheme (hash : String → String) : Scheme Path String String where
  leaf := hash
  node entries := hash (String.ofList (['\n'].intercalate (entries.map fun e => line e.1 e.2)))
  IsLeaf := Path.IsMd
  Named := Path.Valid

section Lines

variable {hash : String → String}

theorem isDigest_eq {digest : String} (h : (scheme hash).IsDigest digest) : ∃ text, digest = hash text := by
  rcases h with ⟨content, rfl⟩ | ⟨entries, rfl⟩
  · exact ⟨_, rfl⟩
  · exact ⟨_, rfl⟩

theorem hex_of_all {text : String} (hempty : text ≠ "") (h : text.toList.all (· ∈ "0123456789abcdef".toList)) :
    text ≠ "" ∧ ∀ c ∈ text.toList, c ∈ "0123456789abcdef".toList :=
  ⟨hempty, by simpa using h⟩

theorem not_mem_hash (h : CollisionFree hash) {text : String} {c : Char} (hc : c ∉ "0123456789abcdef".toList) :
    c ∉ (hash text).toList :=
  fun hmem => hc ((h.hex text).2 c hmem)

/-- The digest of an entry is part of its line: a hash is not empty, and has no colon and no line break. -/
theorem digest_text (h : CollisionFree hash) {digest : Option String} (hdigest : ∀ x ∈ digest, (scheme hash).IsDigest x) :
    ':' ∉ (digest.getD "").toList ∧ '\n' ∉ (digest.getD "").toList ∧ (digest.getD "" = "" → digest = none) := by
  cases digest with
  | none => exact ⟨List.not_mem_nil, List.not_mem_nil, fun _ => rfl⟩
  | some x =>
    obtain ⟨text, rfl⟩ := isDigest_eq (hdigest x rfl)
    exact ⟨not_mem_hash h (by decide), not_mem_hash h (by decide), fun hempty => absurd hempty (h.hex text).1⟩

theorem line_inj (h : CollisionFree hash) {e e' : Path × Option String} (he : e.1.Valid) (he' : e'.1.Valid)
    (hd : ∀ x ∈ e.2, (scheme hash).IsDigest x) (hd' : ∀ x ∈ e'.2, (scheme hash).IsDigest x)
    (hline : line e.1 e.2 = line e'.1 e'.2) : e = e' := by
  obtain ⟨hcolon, -, hnone⟩ := digest_text h hd
  obtain ⟨hcolon', -, hnone'⟩ := digest_text h hd'
  obtain ⟨htext, hdigest⟩ := Text.append_mark_inj hline (by rw [List.count_eq_zero.mpr hcolon, List.count_eq_zero.mpr hcolon'])
  refine Prod.ext (Path.text_inj he he' htext) ?_
  have hsame : e.2.getD "" = e'.2.getD "" := String.toList_inj.mp hdigest
  cases hx : e.2 with
  | none =>
    rw [hx] at hsame
    exact (hnone' hsame.symm).symm
  | some x =>
    cases hx' : e'.2 with
    | none =>
      rw [hx'] at hsame
      rw [hnone hsame] at hx
      cases hx
    | some x' =>
      rw [hx, hx'] at hsame
      exact congrArg some hsame

theorem lines_inj (h : CollisionFree hash) {entries entries' : List (Path × Option String)}
    (hlist : (scheme hash).Listable entries) (hlist' : (scheme hash).Listable entries')
    (hlines : entries.map (fun e => line e.1 e.2) = entries'.map fun e => line e.1 e.2) : entries = entries' := by
  induction entries generalizing entries' with
  | nil =>
    rw [List.map_nil, eq_comm, List.map_eq_nil_iff] at hlines
    exact hlines.symm
  | cons e rest ih =>
    cases entries' with
    | nil => cases hlines
    | cons e' rest' =>
      obtain ⟨hfirst, hrest⟩ := List.cons.inj hlines
      obtain ⟨he, hd⟩ := hlist e List.mem_cons_self
      obtain ⟨he', hd'⟩ := hlist' e' List.mem_cons_self
      rw [line_inj h he he' hd hd' hfirst, ih (fun x hx => hlist x (List.mem_cons_of_mem _ hx))
        (fun x hx => hlist' x (List.mem_cons_of_mem _ hx)) hrest]

theorem line_ne_nil (path : Path) (digest : Option String) : line path digest ≠ [] := by
  rw [line, Path.text]
  exact List.cons_ne_nil _ _

theorem newline_not_mem_line (h : CollisionFree hash) {e : Path × Option String} (he : e.1.Valid)
    (hd : ∀ x ∈ e.2, (scheme hash).IsDigest x) : '\n' ∉ line e.1 e.2 := by
  intro hmem
  rcases List.mem_append.mp hmem with htext | hdigest
  · exact Path.not_mem_text he (by decide) htext
  · rcases List.mem_cons.mp hdigest with hcolon | hdigest
    · exact absurd hcolon (by decide)
    · exact (digest_text h hd).2.1 hdigest

theorem scheme_collisionFree (h : CollisionFree hash) : (scheme hash).CollisionFree where
  leaf_inj := h.injective
  node_inj := by
    intro entries entries' hlist hlist' hnode
    have hjoin := String.ofList_injective (h.injective hnode)
    have hparts : ∀ {es : List (Path × Option String)}, (scheme hash).Listable es →
        ∀ part ∈ es.map (fun e => line e.1 e.2), part ≠ [] ∧ '\n' ∉ part := by
      intro es hes part hpart
      obtain ⟨e, he, rfl⟩ := List.mem_map.mp hpart
      exact ⟨line_ne_nil _ _, newline_not_mem_line h (hes e he).1 (hes e he).2⟩
    apply lines_inj h hlist hlist'
    by_cases hnil : entries.map (fun e => line e.1 e.2) = []
    · by_contra hne
      rw [hnil] at hjoin hne
      exact Text.intercalate_ne_nil '\n' (Ne.symm hne) (fun part hp => (hparts hlist' part hp).1) hjoin.symm
    · have hnil' : entries'.map (fun e => line e.1 e.2) ≠ [] := by
        intro hnil'
        rw [hnil'] at hjoin
        exact Text.intercalate_ne_nil '\n' hnil (fun part hp => (hparts hlist part hp).1) hjoin
      exact Text.intercalate_inj (fun part hp => (hparts hlist part hp).2) (fun part hp => (hparts hlist' part hp).2)
        hnil hnil' hjoin

end Lines

def Store.published (s : Store) : Set (Path × String) :=
  {x | ∃ n ∈ s.nodes, n.Published ∧ x = (n.path, n.content.getD "")}

def below (pages : Set (Path × String)) (dir : Path) : Set (Path × String) := {x ∈ pages | dir ∈ x.1.ancestors}

def Store.pagesBelow (s : Store) (dir : Path) : List (Path × String) :=
  (s.nodes.filter fun n => n.Published ∧ dir ∈ n.path.ancestors).map fun n => (n.path, n.content.getD "")

/-- The live directories outside `dirty` have hashes that stand for the pages below them. -/
structure Hashed (hash : String → String) (dirty : List Path) (s : Store) : Prop where
  kinds : ∀ n ∈ s.nodes, n.kind = .page ↔ n.path.IsMd
  pages : ∀ n ∈ s.nodes, n.Published → n.contentHash = some (hash (n.content.getD ""))
  dirs : ∀ n ∈ s.nodes, n.Live → n.kind = .dir → n.path ∉ dirty →
    Digests (scheme hash) n.contentHash (below s.published n.path)

section States

variable {hash : String → String} {dirty dirty' : List Path} {s t : Store} {g : KbNode → KbNode}

theorem mem_below_published {dir path : Path} {content : String} :
    (path, content) ∈ below s.published dir ↔
      ∃ n ∈ s.nodes, n.Published ∧ n.path = path ∧ n.content.getD "" = content ∧ dir ∈ n.path.ancestors := by
  constructor
  · rintro ⟨⟨n, hn, hpublished, heq⟩, hdir⟩
    obtain ⟨rfl, rfl⟩ := Prod.mk.inj heq
    exact ⟨n, hn, hpublished, rfl, rfl, hdir⟩
  · rintro ⟨n, hn, hpublished, rfl, rfl, hdir⟩
    exact ⟨⟨n, hn, hpublished, rfl⟩, hdir⟩

theorem below_published (dir : Path) : below s.published dir = {x | x ∈ s.pagesBelow dir} := by
  ext ⟨path, content⟩
  rw [mem_below_published, Set.mem_ofPred_eq, Store.pagesBelow, List.mem_map]
  constructor
  · rintro ⟨n, hn, hpublished, rfl, rfl, hdir⟩
    exact ⟨n, List.mem_filter.mpr ⟨hn, decide_eq_true ⟨hpublished, hdir⟩⟩, rfl⟩
  · rintro ⟨n, hn, heq⟩
    obtain ⟨hn, hin⟩ := List.mem_filter.mp hn
    obtain ⟨hpublished, hdir⟩ := of_decide_eq_true hin
    obtain ⟨rfl, rfl⟩ := Prod.mk.inj heq
    exact ⟨n, hn, hpublished, rfl, rfl, hdir⟩

variable {dir : Path}

/-- Rows rewritten leave what is below a directory, if they leave the published pages below it. -/
theorem below_map (hnodes : t.nodes = s.nodes.map g) (hpath : ∀ n, (g n).path = n.path)
    (hsame : ∀ n ∈ s.nodes, dir ∈ n.path.ancestors → ((g n).Published ↔ n.Published) ∧
      (n.Published → (g n).content = n.content)) : below t.published dir = below s.published dir := by
  ext ⟨path, content⟩
  rw [mem_below_published, mem_below_published, hnodes]
  constructor
  · rintro ⟨x, hx, hpublished, hx_path, hcontent, hdir⟩
    obtain ⟨n, hn, rfl⟩ := List.mem_map.mp hx
    rw [hpath] at hx_path hdir
    obtain ⟨hiff, hkeep⟩ := hsame n hn hdir
    rw [hkeep (hiff.mp hpublished)] at hcontent
    exact ⟨n, hn, hiff.mp hpublished, hx_path, hcontent, hdir⟩
  · rintro ⟨n, hn, hpublished, hn_path, hcontent, hdir⟩
    obtain ⟨hiff, hkeep⟩ := hsame n hn hdir
    rw [← hkeep hpublished] at hcontent
    rw [← hpath] at hn_path hdir
    exact ⟨g n, List.mem_map_of_mem hn, hiff.mpr hpublished, hn_path, hcontent, hdir⟩

theorem below_eq_empty (hs : s.Rooted) (hnone : ¬ s.HasDir dir) : below s.published dir = ∅ := by
  ext ⟨path, content⟩
  rw [mem_below_published]
  constructor
  · rintro ⟨n, hn, hpublished, -, -, hdir⟩
    exact hnone (hs.parents n hn hpublished.1 dir hdir)
  · exact fun h => h.elim

theorem mem_children {c : KbNode} :
    c ∈ children s dir ↔ c ∈ s.nodes ∧ c.Live ∧ c.path.parentOf = dir ∧ (c.kind = .dir ∨ 0 < c.version) := by
  rw [children, List.mem_insertionSort, List.mem_filter, decide_eq_true_eq]

def atOrBelow (pages : Set (Path × String)) (path : Path) : Set (Path × String) :=
  {x ∈ pages | x.1 = path} ∪ below pages path

theorem exists_child_dir (hs : s.Rooted) {n : KbNode} (hn : n ∈ s.nodes) (hlive : n.Live)
    (hinside : dir <+: n.path.parentOf) (hne : dir ≠ n.path.parentOf) :
    ∃ c ∈ s.nodes, (c.Live ∧ c.kind = .dir) ∧ c.path.parentOf = dir ∧ c.path ∈ n.path.ancestors := by
  obtain ⟨rest, hrest⟩ := hinside
  cases rest with
  | nil => exact absurd (by simpa using hrest) hne
  | cons segment rest =>
    have hancestor : dir ++ [segment] ∈ n.path.ancestors :=
      Path.mem_ancestors.mpr ⟨List.append_ne_nil_of_right_ne_nil _ (List.cons_ne_nil _ _), rest, by simpa using hrest⟩
    obtain ⟨c, hc, hc_live, hkind, hpath⟩ := hs.parents n hn hlive _ hancestor
    refine ⟨c, hc, ⟨hc_live, hkind⟩, ?_, hpath ▸ hancestor⟩
    rw [hpath, Path.parentOf, List.dropLast_concat]

theorem below_eq_children (hs : s.Rooted) (hdir : dir ≠ []) :
    below s.published dir = ⋃ e ∈ (children s dir).map fun c => (c.path, c.contentHash), atOrBelow s.published e.1 := by
  ext ⟨path, content⟩
  rw [Set.mem_iUnion₂, mem_below_published]
  constructor
  · rintro ⟨n, hn, hpublished, rfl, rfl, hancestor⟩
    obtain ⟨-, hinside⟩ := Path.mem_ancestors.mp hancestor
    have hin : (n.path, n.content.getD "") ∈ s.published := ⟨n, hn, hpublished, rfl⟩
    by_cases hparent : dir = n.path.parentOf
    · -- the page is a child itself
      refine ⟨(n.path, n.contentHash), List.mem_map.mpr ⟨n, mem_children.mpr ?_, rfl⟩, .inl ⟨hin, rfl⟩⟩
      exact ⟨hn, hpublished.1, hparent.symm, .inr hpublished.2.2⟩
    · -- the page is below the child on its way
      obtain ⟨c, hc, hkind, hc_dir, hbelow⟩ := exists_child_dir hs hn hpublished.1 hinside hparent
      refine ⟨(c.path, c.contentHash), List.mem_map.mpr ⟨c, mem_children.mpr ?_, rfl⟩, .inr ⟨hin, hbelow⟩⟩
      exact ⟨hc, hkind.1, hc_dir, .inl hkind.2⟩
  · rintro ⟨e, he, hpage⟩
    obtain ⟨c, hc, rfl⟩ := List.mem_map.mp he
    obtain ⟨hc, -, hparent, -⟩ := mem_children.mp hc
    rcases hpage with ⟨⟨n, hn, hpublished, heq⟩, hpath⟩ | hpage
    · obtain ⟨rfl, rfl⟩ := Prod.mk.inj heq
      refine ⟨n, hn, hpublished, rfl, rfl, ?_⟩
      rw [← hparent, show n.path = c.path from hpath]
      exact Path.parentOf_mem_ancestors (hparent ▸ hdir)
    · obtain ⟨n, hn, hpublished, rfl, rfl, hbelow⟩ := mem_below_published.mp hpage
      refine ⟨n, hn, hpublished, rfl, rfl, Path.ancestors_subset hbelow ?_⟩
      rw [← hparent]
      exact Path.parentOf_mem_ancestors (hparent ▸ hdir)

/-- The listing of a directory is a digest of what is below it, if the hashes of the directories in it are. -/
theorem digests_listing (h : Hashed hash dirty s) (hs : s.Rooted) (hdir : dir ≠ [])
    (hchildren : ∀ n ∈ s.nodes, n.Live → n.kind = .dir → n.path.parentOf = dir → n.path ∉ dirty) :
    Digests (scheme hash) (some (hash (listing s dir))) (below s.published dir) := by
  have hnode : hash (listing s dir) = (scheme hash).node ((children s dir).map fun c => (c.path, c.contentHash)) := by
    rw [listing, scheme]
    simp only [List.map_map]
    rfl
  rw [hnode, below_eq_children hs hdir]
  apply Digests.listing
  · intro e he
    obtain ⟨c, hc, rfl⟩ := List.mem_map.mp he
    exact hs.valid c (mem_children.mp hc).1
  · intro e he hmd
    obtain ⟨c, hc, rfl⟩ := List.mem_map.mp he
    obtain ⟨hc, hlive, -, hor⟩ := mem_children.mp hc
    have hpage := (h.kinds c hc).mpr hmd
    have hpublished : c.Published := ⟨hlive, hpage, hor.resolve_left fun hkind => by rw [hpage] at hkind; cases hkind⟩
    refine ⟨c.content.getD "", h.pages c hc hpublished, ?_⟩
    ext ⟨path, content⟩
    constructor
    · rintro (⟨⟨n, hn, hn_published, heq⟩, hpath⟩ | hbelow)
      · obtain ⟨rfl, rfl⟩ := Prod.mk.inj heq
        have hsame := Store.liveNode_of_mem hs.integral hn hn_published.1
        rw [show n.path = c.path from hpath, Store.liveNode_of_mem hs.integral hc hlive] at hsame
        obtain rfl := Option.some.inj hsame
        rfl
      · obtain ⟨n, hn, hn_published, -, -, hancestor⟩ := mem_below_published.mp hbelow
        obtain ⟨p, hp, -, hkind, hp_path⟩ := hs.parents n hn hn_published.1 _ hancestor
        rw [(h.kinds p hp).mpr (hp_path ▸ hmd)] at hkind
        cases hkind
    · intro heq
      obtain ⟨rfl, rfl⟩ := Prod.mk.inj heq
      exact .inl ⟨⟨c, hc, hpublished, rfl⟩, rfl⟩
  · intro e he hmd
    obtain ⟨c, hc, rfl⟩ := List.mem_map.mp he
    obtain ⟨hc, hlive, hparent, -⟩ := mem_children.mp hc
    have hkind : c.kind = .dir := by
      cases hkind : c.kind with
      | dir => rfl
      | page => exact absurd ((h.kinds c hc).mp hkind) hmd
    have hat : atOrBelow s.published c.path = below s.published c.path := by
      rw [atOrBelow, Set.union_eq_right]
      rintro ⟨path, content⟩ ⟨⟨n, hn, hn_published, heq⟩, hpath⟩
      obtain ⟨rfl, rfl⟩ := Prod.mk.inj heq
      exact absurd (hpath ▸ (h.kinds n hn).mp hn_published.2.1) hmd
    rw [hat]
    exact h.dirs c hc hlive hkind (hchildren c hc hlive hkind hparent)

theorem Hashed.map (h : Hashed hash dirty s) (hnodes : t.nodes = s.nodes.map g)
    (hg : ∀ n, (g n).path = n.path ∧ (g n).kind = n.kind) (hlive : ∀ n, (g n).Live → n.Live)
    (hpages : ∀ n ∈ s.nodes, (g n).Published → (g n).contentHash = some (hash ((g n).content.getD "")))
    (hdirs : ∀ n ∈ s.nodes, (g n).Live → n.kind = .dir → n.path ∉ dirty' →
      n.path ∉ dirty ∧ (g n).contentHash = n.contentHash ∧ below t.published n.path = below s.published n.path) :
    Hashed hash dirty' t := by
  have hmem : ∀ x ∈ t.nodes, ∃ n ∈ s.nodes, g n = x := fun x hx => List.mem_map.mp (hnodes ▸ hx)
  constructor
  · intro x hx
    obtain ⟨n, hn, rfl⟩ := hmem x hx
    rw [(hg n).1, (hg n).2]
    exact h.kinds n hn
  · intro x hx hpublished
    obtain ⟨n, hn, rfl⟩ := hmem x hx
    exact hpages n hn hpublished
  · intro x hx hx_live hkind hclean
    obtain ⟨n, hn, rfl⟩ := hmem x hx
    rw [(hg n).1] at hclean ⊢
    rw [(hg n).2] at hkind
    obtain ⟨hclean, hhash, hbelow⟩ := hdirs n hn hx_live hkind hclean
    rw [hhash, hbelow]
    exact h.dirs n hn (hlive n hx_live) hkind hclean

structure Unhashed (f : KbNode → KbNode) : Prop where
  path : ∀ n, (f n).path = n.path
  kind : ∀ n, (f n).kind = n.kind
  deleted : ∀ n, (f n).deleted = n.deleted
  version : ∀ n, (f n).version = n.version
  content : ∀ n, (f n).content = n.content
  contentHash : ∀ n, (f n).contentHash = n.contentHash

variable {f : KbNode → KbNode}

theorem Unhashed.ite (hf : Unhashed f) (nodeId : NodeId) :
    Unhashed fun n => if n.nodeId = nodeId then f n else n := by
  constructor <;> intro n <;> split
  exacts [hf.path n, rfl, hf.kind n, rfl, hf.deleted n, rfl, hf.version n, rfl, hf.content n, rfl, hf.contentHash n, rfl]

theorem Unhashed.live (hf : Unhashed f) (n : KbNode) : (f n).Live ↔ n.Live := by
  rw [KbNode.Live, KbNode.Live, hf.deleted]

theorem Unhashed.published (hf : Unhashed f) (n : KbNode) : (f n).Published ↔ n.Published := by
  rw [KbNode.Published, KbNode.Published, hf.live, hf.kind, hf.version]

theorem below_updateNode (hf : Unhashed f) {nodeId : NodeId} (dir : Path) :
    below (s.updateNode nodeId f).published dir = below s.published dir :=
  below_map rfl (hf.ite nodeId).path fun n _ _ => ⟨(hf.ite nodeId).published n, fun _ => (hf.ite nodeId).content n⟩

theorem Hashed.updateNode (h : Hashed hash dirty s) (hf : Unhashed f) {nodeId : NodeId} :
    Hashed hash dirty (s.updateNode nodeId f) := by
  have hg := hf.ite nodeId
  refine h.map rfl (fun n => ⟨hg.path n, hg.kind n⟩) (fun n => (hg.live n).mp) ?_ ?_
  · intro n hn hn_published
    rw [hg.contentHash, hg.content]
    exact h.pages n hn ((hg.published n).mp hn_published)
  · exact fun n _ _ _ hclean => ⟨hclean, hg.contentHash n, below_updateNode hf n.path⟩

/-- New rows: directories that were never hashed, and pages that were never published. -/
theorem Hashed.append (h : Hashed hash dirty s) (hs : s.Rooted) {added : List KbNode}
    (hv : Store.Integral { s with nodes := s.nodes ++ added })
    (hadded : ∀ n ∈ added, (n.kind = .page ↔ n.path.IsMd) ∧ ¬ n.Published ∧ (n.kind = .dir → n.contentHash = none)) :
    Hashed hash dirty { s with nodes := s.nodes ++ added } := by
  have hbelow : ∀ dir, below (Store.published { s with nodes := s.nodes ++ added }) dir = below s.published dir := by
    intro dir
    ext ⟨path, content⟩
    rw [mem_below_published, mem_below_published]
    constructor
    · rintro ⟨n, hn, hpublished, hrest⟩
      rcases List.mem_append.mp hn with hn | hn
      · exact ⟨n, hn, hpublished, hrest⟩
      · exact absurd hpublished (hadded n hn).2.1
    · rintro ⟨n, hn, hrest⟩
      exact ⟨n, List.mem_append_left _ hn, hrest⟩
  constructor
  · intro n hn
    rcases List.mem_append.mp hn with hn | hn
    · exact h.kinds n hn
    · exact (hadded n hn).1
  · intro n hn hpublished
    rcases List.mem_append.mp hn with hn | hn
    · exact h.pages n hn hpublished
    · exact absurd hpublished (hadded n hn).2.1
  · intro n hn hlive hkind hclean
    rw [hbelow]
    rcases List.mem_append.mp hn with hn | hn
    · exact h.dirs n hn hlive hkind hclean
    · rw [(hadded n hn).2.2 hkind, below_eq_empty hs]
      · exact .unset
      · rintro ⟨p, hp, hp_live, -, hpath⟩
        have hpaths := hv.live_paths
        rw [List.filter_append, List.map_append, List.nodup_append] at hpaths
        refine hpaths.2.2 p.path ?_ n.path ?_ hpath
        · exact List.mem_map_of_mem (List.mem_filter.mpr ⟨hp, decide_eq_true hp_live⟩)
        · exact List.mem_map_of_mem (List.mem_filter.mpr ⟨hn, decide_eq_true hlive⟩)

theorem Hashed.refreshDir {rest : List Path} (h : Hashed hash (dir :: rest) s) (hs : s.Rooted)
    (hdir : dir ≠ []) (hdeep : ∀ other ∈ rest, other.length < dir.length) : Hashed hash rest (refreshDir hash s dir) := by
  have hother : ∀ n : KbNode, n.path ≠ dir → n.path ∉ rest → n.path ∉ dir :: rest := fun n hne hnot hmem =>
    (List.mem_cons.mp hmem).elim hne hnot
  unfold Kb.refreshDir
  cases hlive : s.liveNode dir with
  | none =>
    refine ⟨h.kinds, h.pages, fun n hn hn_live hkind hclean => ?_⟩
    exact h.dirs n hn hn_live hkind (hother n (Store.not_live_of_liveNode_none hlive hn hn_live) hclean)
  | some node =>
    have hnode := Store.mem_of_liveNode hlive
    have hat : ∀ n ∈ s.nodes, n.Live → n.path = dir → n = node := by
      intro n hn hn_live hpath
      have hfound := Store.liveNode_of_mem hs.integral hn hn_live
      rw [hpath, hlive] at hfound
      exact (Option.some.inj hfound).symm
    simp only
    split
    · rename_i hkind
      have hbelow : ∀ other, below (s.updateNode node.nodeId fun n =>
          { n with contentHash := some (hash (listing s dir)) }).published other = below s.published other := by
        intro other
        refine below_map rfl (fun n => ?_) fun n _ _ => ?_
        · split <;> rfl
        · split <;> exact ⟨Iff.rfl, fun _ => rfl⟩
      constructor
      · intro x hx
        obtain ⟨n, hn, rfl⟩ := Store.mem_updateNode.mp hx
        split <;> exact h.kinds n hn
      · intro x hx hpublished
        obtain ⟨n, hn, rfl⟩ := Store.mem_updateNode.mp hx
        split at hpublished
        · rename_i hid
          rw [Store.eq_of_getNode_of_mem hs.integral (Store.getNode_of_mem hs.integral hnode) hn hid] at hpublished
          exact absurd (hkind.symm.trans hpublished.2.1) (by decide)
        · rename_i hid
          rw [if_neg hid]
          exact h.pages n hn hpublished
      · intro x hx hx_live hx_kind hclean
        obtain ⟨n, hn, rfl⟩ := Store.mem_updateNode.mp hx
        rw [hbelow]
        split_ifs at hx_live hx_kind hclean ⊢ with hid
        · obtain rfl := Store.eq_of_getNode_of_mem hs.integral (Store.getNode_of_mem hs.integral hnode) hn hid
          show Digests _ _ (below s.published n.path)
          rw [(Store.live_liveNode hlive).2]
          refine digests_listing h hs hdir fun c hc _ _ hparent hmem => ?_
          have hlength : c.path.length = dir.length + 1 := by
            rw [← hparent, Path.parentOf, List.length_dropLast]
            have hpos := List.length_pos_of_ne_nil (hs.valid c hc).nonempty
            omega
          rcases List.mem_cons.mp hmem with heq | hmem
          · rw [heq] at hlength
            omega
          · have hlt := hdeep _ hmem
            omega
        · refine h.dirs n hn hx_live hx_kind (hother n (fun hpath => hid ?_) hclean)
          rw [hat n hn hx_live hpath]
    · rename_i hkind
      refine ⟨h.kinds, h.pages, fun n hn hn_live hn_kind hclean => ?_⟩
      refine h.dirs n hn hn_live hn_kind (hother n (fun hpath => hkind ?_) hclean)
      rw [← hat n hn hn_live hpath, hn_kind]

theorem Hashed.foldl_refreshDir {dirs : List Path} (h : Hashed hash dirs s) (hs : s.Rooted) (hne : ∀ dir ∈ dirs, dir ≠ [])
    (hdeep : dirs.Pairwise fun dir other => other.length < dir.length) :
    Hashed hash [] (dirs.foldl (Kb.refreshDir hash) s) := by
  induction dirs generalizing s with
  | nil => exact h
  | cons dir rest ih =>
    obtain ⟨hfirst, hrest⟩ := List.pairwise_cons.mp hdeep
    exact ih (h.refreshDir hs (hne dir List.mem_cons_self) hfirst) (hs.foldl_refreshDir hash [dir])
      (fun other hother => hne other (List.mem_cons_of_mem _ hother)) hrest

theorem Hashed.refreshDirHashes {path : Path} (h : Hashed hash path.ancestors.reverse s) (hs : s.Rooted) :
    Hashed hash [] (s.refreshDirHashes hash path) :=
  h.foldl_refreshDir hs (fun _ hdir => (Path.mem_ancestors.mp (List.mem_reverse.mp hdir)).1)
    (List.pairwise_reverse.mpr Path.pairwise_ancestors)

end States

end BotCord.Kb
