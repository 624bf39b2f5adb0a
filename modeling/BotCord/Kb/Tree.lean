import BotCord.Kb.Specs

/-!
# The tree of the knowledge base

Parents exist only as prefixes of paths. What keeps the nodes a tree is that a node is made after its ancestors and that a deletion takes everything below it; what keeps the number of drafts on a node is that every operation that changes a draft counts the drafts of its node again.
-/

namespace BotCord.Kb

open Transaction

namespace Store

def proposed (s : Store) (nodeId : NodeId) : ℕ :=
  (s.revisions.filter fun r => r.nodeId = nodeId ∧ r.status = .proposed).length

def HasDir (s : Store) (dir : Path) : Prop := ∃ n ∈ s.nodes, n.Live ∧ n.kind = .dir ∧ n.path = dir

/-- The nodes are a tree below the root, and every revision is one of a node. -/
structure Rooted (s : Store) : Prop where
  integral : s.Integral
  valid : ∀ n ∈ s.nodes, n.path.Valid
  parents : ∀ n ∈ s.nodes, n.Live → ∀ dir ∈ n.path.ancestors, s.HasDir dir
  published : ∀ n ∈ s.nodes, n.kind = .dir → 0 < n.version
  owned : ∀ r ∈ s.revisions, ∃ n ∈ s.nodes, n.nodeId = r.nodeId

/-- Drafts are counted on every node but those whose count is still to be made. -/
structure Tallied (due : NodeId → Prop) (s : Store) : Prop where
  pending : ∀ n ∈ s.nodes, ¬ due n.nodeId → n.pendingCount = s.proposed n.nodeId
  closed : ∀ n ∈ s.nodes, ¬ n.Live → s.proposed n.nodeId = 0

def nothingDue (_ : NodeId) : Prop := False

structure Tree (s : Store) : Prop where
  rooted : s.Rooted
  tallied : s.Tallied nothingDue

variable {s : Store} {due : NodeId → Prop} {nodeId : NodeId} {f : KbNode → KbNode}

structure Steady (f : KbNode → KbNode) : Prop extends KeepsKeys f where
  kind : ∀ n, (f n).kind = n.kind
  version : ∀ n, n.version ≤ (f n).version

structure Quiet (f : KbNode → KbNode) : Prop extends Steady f where
  pendingCount : ∀ n, (f n).pendingCount = n.pendingCount

theorem mem_updateNode {x : KbNode} :
    x ∈ (s.updateNode nodeId f).nodes ↔ ∃ n ∈ s.nodes, (if n.nodeId = nodeId then f n else n) = x :=
  Table.mem_update

theorem Steady.ite (hf : Steady f) (nodeId : NodeId) : Steady fun n => if n.nodeId = nodeId then f n else n := by
  constructor
  · constructor <;> intro n <;> split
    exacts [hf.nodeId n, rfl, hf.path n, rfl, hf.deleted n, rfl]
  all_goals
    intro n
    split
  exacts [hf.kind n, rfl, hf.version n, le_refl _]

theorem Steady.live (hf : Steady f) {n : KbNode} : (f n).Live ↔ n.Live := by
  rw [KbNode.Live, KbNode.Live, hf.deleted]

theorem HasDir.updateNode (hf : Steady f) {dir : Path} (h : s.HasDir dir) : (s.updateNode nodeId f).HasDir dir := by
  obtain ⟨n, hn, hlive, hkind, hpath⟩ := h
  have hg := hf.ite nodeId
  exact ⟨_, mem_updateNode.mpr ⟨n, hn, rfl⟩, hg.live.mpr hlive, (hg.kind n).trans hkind, (hg.path n).trans hpath⟩

theorem Rooted.updateNode (h : s.Rooted) (hf : Steady f) : (s.updateNode nodeId f).Rooted := by
  have hg := hf.ite nodeId
  refine ⟨h.integral.updateNode hf.toKeepsKeys, ?_, ?_, ?_, ?_⟩
  · intro x hx
    obtain ⟨n, hn, rfl⟩ := mem_updateNode.mp hx
    rw [hg.path]
    exact h.valid n hn
  · intro x hx hlive dir hdir
    obtain ⟨n, hn, rfl⟩ := mem_updateNode.mp hx
    rw [hg.path] at hdir
    exact (h.parents n hn (hg.live.mp hlive) dir hdir).updateNode hf
  · intro x hx hkind
    obtain ⟨n, hn, rfl⟩ := mem_updateNode.mp hx
    rw [hg.kind] at hkind
    exact (h.published n hn hkind).trans_le (hg.version n)
  · intro r hr
    obtain ⟨n, hn, hid⟩ := h.owned r hr
    exact ⟨_, mem_updateNode.mpr ⟨n, hn, rfl⟩, (hg.nodeId n).trans hid⟩

theorem Tallied.updateNode (h : s.Tallied due) (hf : Quiet f) : (s.updateNode nodeId f).Tallied due := by
  have hg := hf.toSteady.ite nodeId
  constructor
  · intro x hx hdue
    obtain ⟨n, hn, rfl⟩ := mem_updateNode.mp hx
    rw [hg.nodeId] at hdue
    have hcount : (if n.nodeId = nodeId then f n else n).pendingCount = n.pendingCount := by
      split
      · exact hf.pendingCount n
      · rfl
    rw [hcount, hg.nodeId]
    exact h.pending n hn hdue
  · intro x hx hlive
    obtain ⟨n, hn, rfl⟩ := mem_updateNode.mp hx
    rw [hg.nodeId]
    exact h.closed n hn fun hl => hlive (hg.live.mpr hl)

theorem Tree.updateNode (h : s.Tree) (hf : Quiet f) : (s.updateNode nodeId f).Tree :=
  ⟨h.rooted.updateNode hf.toSteady, h.tallied.updateNode hf⟩

theorem quiet_contentHash (contentHash : Option String) : Quiet fun n => { n with contentHash } :=
  ⟨⟨⟨fun _ => rfl, fun _ => rfl, fun _ => rfl⟩, fun _ => rfl, fun _ => le_refl _⟩, fun _ => rfl⟩

theorem quiet_applyContent (hash : String → String) (rev : KbRevision) (kind : Source) :
    Quiet (applyContent hash rev kind) := by
  refine ⟨⟨keepsKeys_applyContent hash rev kind, ?_, ?_⟩, ?_⟩
  all_goals
    intro n
    unfold applyContent
    dsimp only
    split_ifs
  all_goals first | rfl | exact Nat.le_succ _

theorem Rooted.foldl_refreshDir (h : s.Rooted) (hash : String → String) (dirs : List Path) :
    (dirs.foldl (refreshDir hash) s).Rooted := by
  induction dirs generalizing s with
  | nil => exact h
  | cons dir rest ih =>
    apply ih
    rw [refreshDir]
    split
    · exact h
    · split
      · exact h.updateNode (quiet_contentHash _).toSteady
      · exact h

theorem Tallied.foldl_refreshDir (h : s.Tallied due) (hash : String → String) (dirs : List Path) :
    (dirs.foldl (refreshDir hash) s).Tallied due := by
  induction dirs generalizing s with
  | nil => exact h
  | cons dir rest ih =>
    apply ih
    rw [refreshDir]
    split
    · exact h
    · split
      · exact h.updateNode (quiet_contentHash _)
      · exact h

theorem Rooted.publish (h : s.Rooted) (hash : String → String) (rev : KbRevision) (kind : Source) (path : Path) :
    (s.publish hash rev kind nodeId path).Rooted :=
  (h.updateNode (quiet_applyContent hash rev kind).toSteady).foldl_refreshDir hash _

theorem Tallied.publish (h : s.Tallied due) (hash : String → String) (rev : KbRevision) (kind : Source) (path : Path) :
    (s.publish hash rev kind nodeId path).Tallied due :=
  (h.updateNode (quiet_applyContent hash rev kind)).foldl_refreshDir hash _

theorem updateNode_const (hs : s.Integral) {n : KbNode} (hn : n ∈ s.nodes) (g : KbNode → KbNode) :
    s.updateNode n.nodeId (fun _ => g n) = s.updateNode n.nodeId g := by
  have hrows : (s.updateNode n.nodeId fun _ => g n).nodes = (s.updateNode n.nodeId g).nodes := by
    apply List.map_congr_left
    intro m hm
    dsimp only
    split
    · rename_i hid
      rw [eq_of_getNode_of_mem hs (getNode_of_mem hs hn) hm hid]
    · rfl
  rw [updateNode, updateNode, Store.mk.injEq]
  exact ⟨hrows, rfl⟩

theorem Rooted.append (h : s.Rooted) {added : List KbNode} (hv : Integral { s with nodes := s.nodes ++ added })
    (hadded : ∀ n ∈ added, n.path.Valid ∧ (n.kind = .dir → 0 < n.version))
    (hparents : ∀ n ∈ added, ∀ dir ∈ n.path.ancestors, HasDir { s with nodes := s.nodes ++ added } dir) :
    Rooted { s with nodes := s.nodes ++ added } := by
  have hkept : ∀ dir, s.HasDir dir → HasDir { s with nodes := s.nodes ++ added } dir := by
    rintro dir ⟨n, hn, hrest⟩
    exact ⟨n, List.mem_append_left _ hn, hrest⟩
  refine ⟨hv, ?_, ?_, ?_, ?_⟩
  · intro n hn
    rcases List.mem_append.mp hn with hn | hn
    · exact h.valid n hn
    · exact (hadded n hn).1
  · intro n hn hlive dir hdir
    rcases List.mem_append.mp hn with hn | hn
    · exact hkept dir (h.parents n hn hlive dir hdir)
    · exact hparents n hn dir hdir
  · intro n hn hkind
    rcases List.mem_append.mp hn with hn | hn
    · exact h.published n hn hkind
    · exact (hadded n hn).2 hkind
  · intro r hr
    obtain ⟨n, hn, hid⟩ := h.owned r hr
    exact ⟨n, List.mem_append_left _ hn, hid⟩

theorem proposed_eq_zero_of_no_node (h : s.Rooted) (hnone : ∀ n ∈ s.nodes, n.nodeId ≠ nodeId) : s.proposed nodeId = 0 := by
  rw [proposed, List.length_eq_zero_iff, List.filter_eq_nil_iff]
  intro r hr hproposed
  obtain ⟨n, hn, hid⟩ := h.owned r hr
  have hnode := (of_decide_eq_true hproposed).1
  exact hnone n hn (hid.trans hnode)

theorem Tallied.append (h : s.Tallied due) (hs : s.Rooted) {added : List KbNode}
    (hv : Integral { s with nodes := s.nodes ++ added }) (hadded : ∀ n ∈ added, n.pendingCount = 0) :
    Tallied due { s with nodes := s.nodes ++ added } := by
  have hnew : ∀ n ∈ added, s.proposed n.nodeId = 0 := by
    intro n hn
    refine proposed_eq_zero_of_no_node hs fun m hm hid => ?_
    have hids := hv.node_ids
    rw [List.map_append, List.nodup_append] at hids
    exact hids.2.2 m.nodeId (List.mem_map_of_mem hm) n.nodeId (List.mem_map_of_mem hn) hid
  constructor
  · intro n hn hdue
    rcases List.mem_append.mp hn with hn | hn
    · exact h.pending n hn hdue
    · rw [hadded n hn]
      exact (hnew n hn).symm
  · intro n hn hlive
    rcases List.mem_append.mp hn with hn | hn
    · exact h.closed n hn hlive
    · exact hnew n hn

theorem ensured_ancestors {actor : Actor} {path : Path} {v : Store} (h : s.Tree) (hpath : path.Valid)
    (hdirs : Ensured actor path.ancestors s v) : v.Tree ∧ ∀ dir ∈ path.ancestors, v.HasDir dir := by
  obtain ⟨⟨added, rfl, hadded⟩, hthere, hintegral⟩ := hdirs
  refine ⟨⟨h.rooted.append hintegral ?_ ?_, h.tallied.append h.rooted hintegral ?_⟩, hthere⟩
  · intro n hn
    obtain ⟨dir, hdir, nodeId, rfl, -⟩ := hadded n hn
    exact ⟨hpath.ancestor hdir, fun _ => Nat.one_pos⟩
  · intro n hn dir hdir
    obtain ⟨other, hother, nodeId, rfl, -⟩ := hadded n hn
    exact hthere dir (Path.ancestors_subset hother hdir)
  · intro n hn
    obtain ⟨dir, hdir, nodeId, rfl, -⟩ := hadded n hn
    rfl

theorem Tree.addNode (h : s.Tree) {n : KbNode} (hv : (s.addNode n).Integral) (hpath : n.path.Valid)
    (hversion : n.kind = .dir → 0 < n.version) (hcount : n.pendingCount = 0)
    (hdirs : ∀ dir ∈ n.path.ancestors, s.HasDir dir) : (s.addNode n).Tree := by
  refine ⟨h.rooted.append hv ?_ ?_, h.tallied.append h.rooted hv ?_⟩
  · intro m hm
    rw [List.mem_singleton.mp hm]
    exact ⟨hpath, hversion⟩
  · intro m hm dir hdir
    rw [List.mem_singleton.mp hm] at hdir
    obtain ⟨p, hp, hrest⟩ := hdirs dir hdir
    exact ⟨p, List.mem_append_left _ hp, hrest⟩
  · intro m hm
    rw [List.mem_singleton.mp hm, hcount]

variable {r : KbRevision}

theorem Rooted.addRevision (h : s.Rooted) (hv : (s.addRevision r).Integral)
    (hnode : ∃ n ∈ s.nodes, n.nodeId = r.nodeId) : (s.addRevision r).Rooted := by
  refine ⟨hv, h.valid, h.parents, h.published, fun x hx => ?_⟩
  rcases List.mem_append.mp hx with hx | hx
  · exact h.owned x hx
  · rw [List.mem_singleton.mp hx]
    exact hnode

theorem proposed_addRevision (r : KbRevision) :
    (s.addRevision r).proposed nodeId = s.proposed nodeId + if r.nodeId = nodeId ∧ r.status = .proposed then 1 else 0 := by
  rw [proposed, Store.addRevision, List.filter_append, List.length_append, proposed]
  split
  · rename_i hr
    simp [hr.1, hr.2]
  · rename_i hr
    simp [hr]

theorem Tallied.addRevision (h : s.Tallied due) (hlive : ∀ n ∈ s.nodes, n.nodeId = r.nodeId → n.Live) :
    (s.addRevision r).Tallied fun nodeId => due nodeId ∨ nodeId = r.nodeId := by
  constructor
  · intro n hn hdue
    rw [not_or] at hdue
    rw [proposed_addRevision, if_neg fun hr => hdue.2 hr.1.symm]
    exact h.pending n hn hdue.1
  · intro n hn hdead
    rw [proposed_addRevision, if_neg fun hr => hdead (hlive n hn hr.1.symm)]
    exact h.closed n hn hdead

theorem Tallied.addRevision_decided (h : s.Tallied due) (hr : r.status ≠ .proposed) :
    (s.addRevision r).Tallied due := by
  constructor
  · intro n hn hdue
    rw [proposed_addRevision, if_neg fun hp => hr hp.2]
    exact h.pending n hn hdue
  · intro n hn hdead
    rw [proposed_addRevision, if_neg fun hp => hr hp.2]
    exact h.closed n hn hdead

variable {g : KbRevision → KbRevision}

theorem Rooted.updateRevision (h : s.Rooted) {revisionId : RevisionId}
    (hg : ∀ r, ((g r).revisionId = r.revisionId ∧ (g r).title = r.title) ∧ (g r).nodeId = r.nodeId) :
    (s.updateRevision revisionId g).Rooted := by
  refine ⟨h.integral.updateRevision fun r => (hg r).1, h.valid, h.parents, h.published, fun x hx => ?_⟩
  obtain ⟨r, hr, rfl⟩ := Table.mem_update.mp hx
  split
  · rw [(hg r).2]
    exact h.owned r hr
  · exact h.owned r hr

theorem proposed_update {p : KbRevision → Prop} [DecidablePred p] {revisions : List KbRevision}
    (hg : ∀ r ∈ revisions, p r → (g r).nodeId = nodeId → (g r).status = .proposed → r.nodeId = nodeId ∧ r.status = .proposed) :
    proposed ⟨s.nodes, Table.update p g revisions⟩ nodeId ≤ proposed ⟨s.nodes, revisions⟩ nodeId := by
  rw [proposed, proposed, ← List.countP_eq_length_filter, ← List.countP_eq_length_filter, Table.update, List.countP_map]
  apply List.countP_mono_left
  intro r hr hproposed
  rw [Function.comp_apply, decide_eq_true_eq] at hproposed
  apply decide_eq_true
  split at hproposed
  · exact hg r hr (by assumption) hproposed.1 hproposed.2
  · exact hproposed

theorem proposed_update_eq {p : KbRevision → Prop} [DecidablePred p]
    {revisions : List KbRevision} (hg : ∀ r ∈ revisions, p r → r.nodeId ≠ nodeId ∧ (g r).nodeId ≠ nodeId) :
    proposed ⟨s.nodes, Table.update p g revisions⟩ nodeId = proposed ⟨s.nodes, revisions⟩ nodeId := by
  rw [proposed, proposed, ← List.countP_eq_length_filter, ← List.countP_eq_length_filter, Table.update, List.countP_map]
  apply List.countP_congr
  intro r hr
  rw [Function.comp_apply]
  split
  · rename_i hp
    simp [(hg r hr hp).1, (hg r hr hp).2]
  · rfl

theorem Tallied.updateRevision (h : s.Tallied due) {revisionId : RevisionId}
    (hg : ∀ r, (g r).nodeId = r.nodeId ∧ ((g r).status = .proposed → r.status = .proposed))
    (hrow : ∀ r ∈ s.revisions, r.revisionId = revisionId → r.nodeId = nodeId) :
    (s.updateRevision revisionId g).Tallied fun other => due other ∨ other = nodeId := by
  constructor
  · intro n hn hdue
    rw [not_or] at hdue
    have hsame : (s.updateRevision revisionId g).proposed n.nodeId = s.proposed n.nodeId := by
      refine proposed_update_eq (s := s) fun r hr hid => ?_
      rw [(hg r).1, hrow r hr hid]
      exact ⟨Ne.symm hdue.2, Ne.symm hdue.2⟩
    rw [hsame]
    exact h.pending n hn hdue.1
  · intro n hn hdead
    have hle : (s.updateRevision revisionId g).proposed n.nodeId ≤ s.proposed n.nodeId :=
      proposed_update (s := s) fun r _ _ hnode hstatus => ⟨(hg r).1.symm.trans hnode, (hg r).2 hstatus⟩
    rw [h.closed n hn hdead] at hle
    exact Nat.le_zero.mp hle

theorem Rooted.syncPending (h : s.Rooted) : (s.syncPending nodeId).Rooted :=
  h.updateNode ⟨⟨fun _ => rfl, fun _ => rfl, fun _ => rfl⟩, fun _ => rfl, fun _ => le_refl _⟩

theorem Tallied.syncPending (h : s.Tallied due) (hdue : ∀ other, due other → other = nodeId) :
    (s.syncPending nodeId).Tallied nothingDue := by
  constructor
  · intro x hx _
    obtain ⟨n, hn, rfl⟩ := mem_updateNode.mp hx
    split
    · rename_i hid
      show s.proposed nodeId = s.proposed n.nodeId
      rw [hid]
    · rename_i hid
      exact h.pending n hn fun hd => hid (hdue _ hd)
  · intro x hx hdead
    obtain ⟨n, hn, rfl⟩ := mem_updateNode.mp hx
    split at hdead
    · rename_i hid
      rw [if_pos hid]
      exact h.closed n hn hdead
    · rename_i hid
      rw [if_neg hid]
      exact h.closed n hn hdead

/-- A tree with some nodes marked is a tree, if no directory above a node that stays is marked. -/
theorem Rooted.mark (h : s.Rooted) {t : Store} (ht : t.Integral) {g : KbNode → KbNode} (hnodes : t.nodes = s.nodes.map g)
    (hg : ∀ n, (g n).nodeId = n.nodeId ∧ (g n).path = n.path ∧ (g n).kind = n.kind ∧ (g n).version = n.version)
    (hlive : ∀ n, (g n).Live → n.Live)
    (hdirs : ∀ n ∈ s.nodes, (g n).Live → ∀ p ∈ s.nodes, p.Live → p.kind = .dir → p.path ∈ n.path.ancestors → (g p).Live)
    (howned : ∀ r ∈ t.revisions, ∃ r' ∈ s.revisions, r'.nodeId = r.nodeId) : t.Rooted := by
  have hmem : ∀ x ∈ t.nodes, ∃ n ∈ s.nodes, g n = x := fun x hx => List.mem_map.mp (hnodes ▸ hx)
  refine ⟨ht, ?_, ?_, ?_, ?_⟩
  · intro x hx
    obtain ⟨n, hn, rfl⟩ := hmem x hx
    rw [(hg n).2.1]
    exact h.valid n hn
  · intro x hx hx_live dir hdir
    obtain ⟨n, hn, rfl⟩ := hmem x hx
    rw [(hg n).2.1] at hdir
    obtain ⟨p, hp, hp_live, hkind, rfl⟩ := h.parents n hn (hlive n hx_live) dir hdir
    refine ⟨g p, hnodes ▸ List.mem_map_of_mem hp, hdirs n hn hx_live p hp hp_live hkind hdir, ?_, (hg p).2.1⟩
    exact (hg p).2.2.1.trans hkind
  · intro x hx hkind
    obtain ⟨n, hn, rfl⟩ := hmem x hx
    rw [(hg n).2.2.1] at hkind
    rw [(hg n).2.2.2]
    exact h.published n hn hkind
  · intro r hr
    obtain ⟨r', hr', hnode⟩ := howned r hr
    obtain ⟨n, hn, hid⟩ := h.owned r' hr'
    exact ⟨g n, hnodes ▸ List.mem_map_of_mem hn, ((hg n).1.trans hid).trans hnode⟩

theorem Tree.deleteSubtree (h : s.Tree) (actor : Actor) {path : Path} (ht : (s.deleteSubtree actor path).Integral) :
    (s.deleteSubtree actor path).Tree := by
  constructor
  · refine h.rooted.mark ht rfl ?_ ?_ ?_ ?_
    · intro n
      split <;> exact ⟨rfl, rfl, rfl, rfl⟩
    · intro n hlive
      split at hlive
      · cases hlive
      · exact hlive
    · intro n hn hlive p hp hp_live hkind hdir
      split at hlive
      · cases hlive
      · rename_i hout
        rw [if_neg fun hin => hout ⟨hlive, ?_⟩]
        · exact hp_live
        · obtain ⟨-, hinside⟩ := Path.mem_ancestors.mp hdir
          exact hin.2.trans (hinside.trans (List.dropLast_prefix n.path))
    · intro r hr
      obtain ⟨r', hr', rfl⟩ := Table.mem_update.mp hr
      refine ⟨r', hr', ?_⟩
      split <;> rfl
  · have hin : ∀ n ∈ s.nodes, n.Live ∧ Path.Under path n.path → n.nodeId ∈ (s.subtree path).map KbNode.nodeId := by
      intro n hn hmarked
      exact List.mem_map_of_mem (List.mem_filter.mpr ⟨hn, decide_eq_true hmarked⟩)
    have hout : ∀ n ∈ s.nodes, ¬ (n.Live ∧ Path.Under path n.path) → n.nodeId ∉ (s.subtree path).map KbNode.nodeId := by
      intro n hn hkept hmem
      obtain ⟨m, hm, hid⟩ := List.mem_map.mp hmem
      obtain ⟨hm, hmarked⟩ := List.mem_filter.mp hm
      have hsame : m = n := eq_of_getNode_of_mem h.rooted.integral (getNode_of_mem h.rooted.integral hn) hm hid
      exact hkept (hsame ▸ of_decide_eq_true hmarked)
    have hgone : ∀ n ∈ s.nodes, n.Live ∧ Path.Under path n.path → (s.deleteSubtree actor path).proposed n.nodeId = 0 := by
      intro n hn hmarked
      rw [proposed, List.length_eq_zero_iff, List.filter_eq_nil_iff]
      intro r hr hproposed
      obtain ⟨r', hr', rfl⟩ := Table.mem_update.mp hr
      rw [decide_eq_true_eq] at hproposed
      split at hproposed
      · exact absurd hproposed.2 (by simp)
      · rename_i hnot
        exact hnot ⟨hproposed.1 ▸ hin n hn hmarked, hproposed.2⟩
    have hsame : ∀ n ∈ s.nodes, ¬ (n.Live ∧ Path.Under path n.path) →
        (s.deleteSubtree actor path).proposed n.nodeId = s.proposed n.nodeId := by
      intro n hn hkept
      have hnot := hout n hn hkept
      refine proposed_update_eq (s := s) fun r hr hr_in => ⟨?_, ?_⟩
      · exact fun hnode => hnot (hnode ▸ hr_in.1)
      · exact fun hnode => hnot (hnode ▸ hr_in.1)
    constructor
    · intro x hx hdue
      obtain ⟨n, hn, rfl⟩ := Table.mem_update.mp hx
      split
      · rename_i hmarked
        exact (hgone n hn hmarked).symm
      · rename_i hkept
        rw [hsame n hn hkept]
        exact h.tallied.pending n hn hdue.elim
    · intro x hx hdead
      obtain ⟨n, hn, rfl⟩ := Table.mem_update.mp hx
      split
      · rename_i hmarked
        exact hgone n hn hmarked
      · rename_i hkept
        rw [if_neg hkept] at hdead
        rw [hsame n hn hkept]
        exact h.tallied.closed n hn hdead

theorem Tree.dropEmptyPage (h : s.Tree) (ht : (s.dropEmptyPage nodeId).Integral) : (s.dropEmptyPage nodeId).Tree := by
  constructor
  · refine h.rooted.mark (g := fun n => if n.nodeId = nodeId then
        if n.version = 0 ∧ n.pendingCount = 0 then { n with deleted := true } else n else n) ht rfl ?_ ?_ ?_ ?_
    · intro n
      split_ifs <;> exact ⟨rfl, rfl, rfl, rfl⟩
    · intro n hlive
      split_ifs at hlive
      · cases hlive
      · exact hlive
      · exact hlive
    · intro n hn hlive p hp hp_live hkind hdir
      have hversion := h.rooted.published p hp hkind
      split_ifs with hid hempty
      · omega
      · exact hp_live
      · exact hp_live
    · exact fun r hr => ⟨r, hr, rfl⟩
  · constructor
    · intro x hx hdue
      obtain ⟨n, hn, rfl⟩ := mem_updateNode.mp hx
      have hcount := h.tallied.pending n hn id
      split_ifs <;> exact hcount
    · intro x hx hdead
      obtain ⟨n, hn, rfl⟩ := mem_updateNode.mp hx
      have hcount := h.tallied.pending n hn id
      split_ifs at hdead ⊢ with hid hempty
      · exact hcount.symm.trans hempty.2
      · exact h.tallied.closed n hn hdead
      · exact h.tallied.closed n hn hdead

end Store

section Operations

variable {hash : String → String} {s : Store}

variable {actor : Actor} {page : PageText}

theorem checkPage_ok {form : PageForm} (h : checkPage actor form = .ok page) :
    normalizePath form.path (some .page) = .ok page.path := by
  obtain ⟨path, hpath, hrest⟩ := except_bind_ok.mp h
  split at hrest
  · simp [throw, throwThe, MonadExceptOf.throw, bind, Except.bind] at hrest
  · obtain ⟨title, -, htitled⟩ := except_bind_ok.mp hrest
    obtain ⟨description, -, hdescribed⟩ := except_bind_ok.mp htitled
    obtain ⟨summary, -, hsummarized⟩ := except_bind_ok.mp hdescribed
    split at hsummarized
    · simp [throw, throwThe, MonadExceptOf.throw, bind, Except.bind] at hsummarized
    · obtain rfl := Except.ok.inj hsummarized
      exact hpath

variable {node : KbNode}

theorem Store.Tree.prepared {baseVersion : Option ℕ} {nodeId : NodeId}
    {v : Store} (h : s.Tree) (hpage : page.path.Valid) (hprepared : Prepared actor page baseVersion nodeId s node v) :
    v.Tree ∧ node ∈ v.nodes ∧ node.Live := by
  cases hprepared with
  | existing hlive hversion => exact ⟨h, Store.mem_of_liveNode hlive, (Store.live_liveNode hlive).1⟩
  | new hnone hdirs hintegral =>
    obtain ⟨hv, hthere⟩ := Store.ensured_ancestors h hpage hdirs
    refine ⟨hv.addNode hintegral hpage (fun hkind => ?_) rfl hthere, ?_, rfl⟩
    · cases hkind
    · exact List.mem_append_right _ (List.mem_singleton_self _)

variable {revisionId : RevisionId}

theorem Store.Tree.written {form : PageForm} {tags : Option (List String)}
    (h : s.Tree) (hnode : node ∈ s.nodes) (hlive : node.Live)
    (hrecorded : (s.addRevision (pageRevision actor page form tags node revisionId)).Integral) :
    (written hash actor page (pageRevision actor page form tags node revisionId) node s).Tree := by
  have hrooted := h.rooted.addRevision hrecorded ⟨node, hnode, rfl⟩
  have htallied := h.tallied.addRevision (r := pageRevision actor page form tags node revisionId) fun n hn hid => by
    rwa [Store.eq_of_getNode_of_mem h.rooted.integral (Store.getNode_of_mem h.rooted.integral hnode) hn hid]
  have hdue : ∀ other, Store.nothingDue other ∨ other = node.nodeId → other = node.nodeId :=
    fun other hor => hor.resolve_left id
  rw [Kb.written]
  split
  · exact ⟨(hrooted.publish _ _ _ _).syncPending, (htallied.publish _ _ _ _).syncPending hdue⟩
  · exact ⟨hrooted.syncPending, htallied.syncPending hdue⟩

theorem setDescription_eq (kind : Source) (description : Option String) (n : KbNode) :
    ∃ given source, (setDescription kind description n).1 = { n with description := given, descriptionSource := source } := by
  unfold setDescription
  split
  · exact ⟨_, _, rfl⟩
  · split <;> exact ⟨_, _, rfl⟩

theorem setSummary_eq (kind : Source) (summary : Option String) (n : KbNode) :
    ∃ given source sourceHash, (setSummary kind summary n).1 =
      { n with summary := given, summarySource := source, summarySourceHash := sourceHash } := by
  unfold setSummary
  split
  · exact ⟨_, _, _, rfl⟩
  · split <;> exact ⟨_, _, _, rfl⟩

theorem quiet_edit (kind : Source) (description summary : Option String) :
    Store.Quiet fun n => (setSummary kind summary (setDescription kind description n).1).1 := by
  refine ⟨⟨⟨?_, ?_, ?_⟩, ?_, ?_⟩, ?_⟩
  all_goals
    intro n
    obtain ⟨given, source, hdescribed⟩ := setDescription_eq kind description n
    obtain ⟨given', source', sourceHash, hsummarized⟩ := setSummary_eq kind summary (setDescription kind description n).1
    rw [hsummarized, hdescribed]

theorem Store.Tree.described {description : Option String} {nodeId : NodeId} (h : s.Tree) :
    (described actor description nodeId s).Tree := by
  rw [Kb.described]
  split
  · exact h.updateNode ⟨⟨⟨fun _ => rfl, fun _ => rfl, fun _ => rfl⟩, fun _ => rfl, fun _ => le_refl _⟩, fun _ => rfl⟩
  · exact h

variable {rev : KbRevision}

theorem Reviewable.nodeId_eq (hs : s.Integral)
    (h : Reviewable actor revisionId s rev node) : ∀ r ∈ s.revisions, r.revisionId = revisionId → r.nodeId = rev.nodeId := by
  intro r hr hid
  have hfound : s.getRevision r.revisionId = some r := Table.find?_eq_some_of_mem hs.revision_ids hr
  rw [hid, h.found] at hfound
  rw [Option.some.inj hfound]

theorem Store.Tree.approved (h : s.Tree)
    (hreview : Reviewable actor revisionId s rev node) : (approved hash actor rev node revisionId s).Tree := by
  have hrow := hreview.nodeId_eq h.rooted.integral
  have hnode : rev.nodeId = node.nodeId := (Store.nodeId_of_getNode hreview.page).symm
  have hdue : ∀ other, Store.nothingDue other ∨ other = rev.nodeId → other = node.nodeId :=
    fun other hor => (hor.resolve_left id).trans hnode
  have hreviewed : ∀ status, status ≠ .proposed → (s.review actor status revisionId).Rooted ∧
      (s.review actor status revisionId).Tallied fun other => Store.nothingDue other ∨ other = rev.nodeId :=
    fun status hstatus => ⟨h.rooted.updateRevision fun _ => ⟨⟨rfl, rfl⟩, rfl⟩,
      h.tallied.updateRevision (fun _ => ⟨rfl, fun hp => absurd hp hstatus⟩) hrow⟩
  rw [Kb.approved]
  split
  · obtain ⟨hrooted, htallied⟩ := hreviewed .superseded (by decide)
    exact ⟨hrooted.syncPending, htallied.syncPending hdue⟩
  · obtain ⟨hrooted, htallied⟩ := hreviewed .published (by decide)
    exact ⟨(hrooted.publish _ _ _ _).syncPending, (htallied.publish _ _ _ _).syncPending hdue⟩

theorem Store.Tree.rejected {note : Option String}
    (h : s.Tree) (hreview : Reviewable actor revisionId s rev node)
    (ht : (rejected actor rev revisionId note s).Integral) : (rejected actor rev revisionId note s).Tree := by
  have hrow := hreview.nodeId_eq h.rooted.integral
  have hreviewed : (s.review actor .rejected revisionId).Rooted := h.rooted.updateRevision fun _ => ⟨⟨rfl, rfl⟩, rfl⟩
  have hdecided : (s.review actor .rejected revisionId).Tallied fun other => Store.nothingDue other ∨ other = rev.nodeId :=
    h.tallied.updateRevision (fun _ => ⟨rfl, fun hp => by cases hp⟩) hrow
  have hrow' : ∀ r ∈ (s.review actor .rejected revisionId).revisions, r.revisionId = revisionId → r.nodeId = rev.nodeId := by
    intro r hr hid
    obtain ⟨r', hr', rfl⟩ := Table.mem_update.mp hr
    split_ifs at hid ⊢ with hsame
    · exact hrow r' hr' hsame
    · exact hrow r' hr' hid
  have hnote : ∀ r : KbRevision, ({ r with note := if Truthy note then note else r.note } : KbRevision).nodeId = r.nodeId ∧
      (({ r with note := if Truthy note then note else r.note } : KbRevision).status = .proposed → r.status = .proposed) :=
    fun _ => ⟨rfl, id⟩
  have hnoted : ((s.review actor .rejected revisionId).updateRevision revisionId fun r =>
      { r with note := if Truthy note then note else r.note }).Rooted := hreviewed.updateRevision fun _ => ⟨⟨rfl, rfl⟩, rfl⟩
  refine Store.Tree.dropEmptyPage ⟨hnoted.syncPending, (hdecided.updateRevision hnote hrow').syncPending ?_⟩ ht
  rintro other ((hnone | hother) | hother)
  · exact hnone.elim
  · exact hother
  · exact hother

theorem Store.Tree.apply (h : s.Tree) (op : Operation) : (op.apply hash s).Tree := by
  rcases op.apply_cases hash s with hsame | ⟨τ, hcall, hview, hτ⟩
  · rwa [hsame]
  rw [hview]
  have hs := h.rooted.integral
  cases op with
  | writePage actor form d =>
    obtain ⟨rev, hrun⟩ := exec_void_ok.mp hcall
    obtain ⟨page, node, tags, v, hpage, -, hprepared, rfl, hrecorded, hwritten⟩ := writePage_ok hs hrun
    obtain ⟨hv, hnode, hlive⟩ := h.prepared (normalizePath_ok (checkPage_ok hpage)).1 hprepared
    rw [hwritten]
    exact hv.written hnode hlive hrecorded
  | setMeta actor form revisionId =>
    obtain ⟨result, hrun⟩ := exec_void_ok.mp hcall
    obtain ⟨path, node, description, summary, hedit, hedited, -⟩ := setMeta_ok hrun
    rw [hedited] at hτ ⊢
    have hnode := Store.mem_of_liveNode hedit.live
    have hquiet := quiet_edit actor.kind description summary
    unfold edited at hτ ⊢
    dsimp only at hτ ⊢
    rw [Store.updateNode_const hs hnode (fun n => (setSummary actor.kind summary (setDescription actor.kind description n).1).1)]
      at hτ ⊢
    split_ifs at hτ ⊢
    · refine ⟨(h.rooted.updateNode hquiet.toSteady).addRevision hτ ?_, (h.tallied.updateNode hquiet).addRevision_decided ?_⟩
      · exact ⟨_, Store.mem_updateNode.mpr ⟨node, hnode, if_pos rfl⟩, hquiet.nodeId node⟩
      · exact RevisionStatus.noConfusion
    · exact h.updateNode hquiet
  | makeDir actor rawPath description d =>
    obtain ⟨nodeId, hrun⟩ := exec_void_ok.mp hcall
    obtain ⟨-, path, cleaned, hpath, hmade⟩ := makeDir_ok hs hrun
    generalize τ.view = t at hmade ⊢
    cases hmade with
    | existing hlive => exact h.described
    | new hnone hdirs hintegral =>
      obtain ⟨hv, hthere⟩ := Store.ensured_ancestors h (normalizePath_ok hpath).1 hdirs
      have hadded := hv.addNode hintegral (normalizePath_ok hpath).1 (fun _ => Nat.one_pos) rfl hthere
      exact Store.Tree.described ⟨hadded.rooted.foldl_refreshDir hash _, hadded.tallied.foldl_refreshDir hash _⟩
  | deleteNode actor rawPath =>
    obtain ⟨count, hrun⟩ := exec_void_ok.mp hcall
    obtain ⟨-, path, hpath, hdeleted, hrefreshed⟩ := deleteNode_ok hrun
    rw [hrefreshed]
    have hdelete := h.deleteSubtree actor hdeleted
    exact ⟨hdelete.rooted.foldl_refreshDir hash _, hdelete.tallied.foldl_refreshDir hash _⟩
  | approve actor revisionId =>
    obtain ⟨result, hrun⟩ := exec_void_ok.mp hcall
    obtain ⟨rev, node, hreview, hlive, happroved⟩ := approve_ok hrun
    rw [happroved]
    exact h.approved hreview
  | rejectRevision actor revisionId note =>
    obtain ⟨rev, node, hreview, hrejected⟩ := rejectRevision_ok hcall
    rw [hrejected] at hτ ⊢
    exact h.rejected hreview hτ

end Operations

/-- What holds of the live nodes, and of the deleted ones, whatever was called. -/
structure WellFormed (s : Store) : Prop where
  ancestors : ∀ n ∈ s.nodes, n.Live → ∀ dir ∈ n.path.ancestors, ∃ parent ∈ s.nodes, parent.Live ∧ parent.kind = .dir ∧
    parent.path = dir
  distinct : s.nodes.Pairwise fun n m => n.Live → m.Live → n.path.text ≠ m.path.text
  normalized : ∀ n ∈ s.nodes, n.Live → normalizePath (String.ofList n.path.text) none = .ok n.path
  pending : ∀ n ∈ s.nodes, n.Live →
    n.pendingCount = (s.revisions.filter fun r => r.nodeId = n.nodeId ∧ r.status = .proposed).length
  closed : ∀ n ∈ s.nodes, ¬ n.Live → ∀ r ∈ s.revisions, r.nodeId = n.nodeId → r.status ≠ .proposed

theorem Store.Tree.wellFormed {s : Store} (h : s.Tree) : WellFormed s where
  ancestors := h.rooted.parents
  distinct := by
    have hpaths := List.pairwise_map.mp h.rooted.integral.live_paths
    rw [List.pairwise_filter] at hpaths
    refine hpaths.imp_of_mem fun {n m} hn hm hne hlive hlive' htext => ?_
    exact hne (decide_eq_true hlive) (decide_eq_true hlive')
      (Path.text_inj (h.rooted.valid n hn) (h.rooted.valid m hm) htext)
  normalized := fun n hn _ => (h.rooted.valid n hn).normalized
  pending := fun n hn _ => h.tallied.pending n hn id
  closed := by
    intro n hn hdead r hr hnode hproposed
    have hnone := h.tallied.closed n hn hdead
    rw [Store.proposed, List.length_eq_zero_iff, List.filter_eq_nil_iff] at hnone
    exact hnone r hr (decide_eq_true ⟨hnode, hproposed⟩)

theorem tree_empty : Store.empty.Tree :=
  ⟨⟨by decide, by simp [Store.empty], by simp [Store.empty], by simp [Store.empty], by simp [Store.empty]⟩,
    ⟨by simp [Store.empty], by simp [Store.empty]⟩⟩

theorem tree_run {hash : String → String} {ops : List Operation} {s : Store}
    (hrun : (service hash).run .empty ops = some s) : s.Tree :=
  (service hash).run_invariant (P := Store.Tree) (fun _ op _ hs hstep => Option.some.inj hstep ▸ hs.apply op)
    tree_empty hrun

/-- Whatever operations are called with whatever paths, accepted or rejected, the nodes are a tree of live directories over normalized paths, and every live node has its number of drafts. -/
theorem reachable_wellFormed (hash : String → String) (ops : List Operation) (s : Store)
    (hrun : (service hash).run .empty ops = some s) : WellFormed s :=
  (tree_run hrun).wellFormed

def editor : Actor := .human "hu_editor" (by decide) true
def drafter : Actor := .agent "ag_drafter" (by decide)

/-- An agent's draft in a new directory, turned down: the directory stays and the page goes. -/
def turnedDown : List Operation :=
  [.writePage drafter
      { path := "notes/a.md/", content := "A", description := some "About a.", summary := some "All about a." }
      ⟨"n_page", "r_1", fun k => if k = 0 then "n_dir" else ""⟩,
    .rejectRevision editor "r_1" none]

theorem reachable_wellFormed_turnedDown : ∃ s, (service id).run .empty turnedDown = some s ∧
    s.nodes.map (fun n => (n.nodeId, n.deleted)) = [("n_dir", false), ("n_page", true)] ∧ WellFormed s :=
  ⟨_, rfl, by decide +kernel, reachable_wellFormed id turnedDown _ rfl⟩

end BotCord.Kb
