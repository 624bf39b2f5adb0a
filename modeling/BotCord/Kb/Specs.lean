import BotCord.Kb.Service

/-!
# What the knowledge base calls do

How each statement moves a node, found by its id, and what the session sees after each call that returns. Updates keep ids, paths and marks of deletion, so the constraints survive them; a conflict can only come from a new row.
-/

namespace BotCord.Kb

open Transaction

/-! ### Statements -/

namespace Store

variable {s : Store} {nodeId other : NodeId} {f : KbNode → KbNode}
  {n : KbNode} {path : Path}

structure KeepsKeys (f : KbNode → KbNode) : Prop where
  nodeId : ∀ n, (f n).nodeId = n.nodeId
  path : ∀ n, (f n).path = n.path
  deleted : ∀ n, (f n).deleted = n.deleted

theorem getNode_updateNode (hf : ∀ n, n.nodeId = nodeId → (f n).nodeId = nodeId) :
    (s.updateNode nodeId f).getNode other = (s.getNode other).map fun n => if n.nodeId = nodeId then f n else n :=
  Table.find?_update fun n _ hn => by rw [hf n hn, hn]

theorem nodeId_of_getNode (h : s.getNode nodeId = some n) : n.nodeId = nodeId := by
  simpa using List.find?_some h

theorem getNode_addNode_of_some {n new : KbNode} (h : s.getNode nodeId = some n) :
    (s.addNode new).getNode nodeId = some n := by
  have hfind : (s.addNode new).getNode nodeId = _ := Table.find?_append_singleton
  rw [hfind, show s.nodes.find? _ = some n from h, Option.some_or]

theorem live_liveNode (h : s.liveNode path = some n) : n.Live ∧ n.path = path := by
  simpa using List.find?_some h

theorem mem_of_liveNode (h : s.liveNode path = some n) : n ∈ s.nodes :=
  List.mem_of_find?_eq_some h

theorem not_live_of_liveNode_none (h : s.liveNode path = none) (hn : n ∈ s.nodes)
    (hlive : n.Live) : n.path ≠ path := by
  intro hpath
  have hnot := List.find?_eq_none.mp h n hn
  exact hnot (decide_eq_true ⟨hlive, hpath⟩)

theorem getNode_of_mem (h : s.Integral) (hn : n ∈ s.nodes) : s.getNode n.nodeId = some n :=
  Table.find?_eq_some_of_mem h.node_ids hn

theorem liveNode_of_mem (h : s.Integral) (hn : n ∈ s.nodes) (hlive : n.Live) :
    s.liveNode n.path = some n := by
  have hmem : n ∈ s.nodes.filter (KbNode.Live ·) := List.mem_filter.mpr ⟨hn, decide_eq_true hlive⟩
  have hfind := Table.find?_eq_some_of_mem h.live_paths hmem
  rw [List.find?_filter] at hfind
  rw [liveNode, ← hfind]
  congr 1
  funext x
  simp

theorem Integral.updateNode (h : s.Integral) (hf : KeepsKeys f) : (s.updateNode nodeId f).Integral := by
  have hkeep : ∀ n, (if n.nodeId = nodeId then f n else n).deleted = n.deleted := by
    intro n
    split
    · exact hf.deleted n
    · rfl
  refine ⟨?_, ?_, h.revision_ids, h.titles⟩
  · have hids : ((s.updateNode nodeId f).nodes.map KbNode.nodeId) = s.nodes.map KbNode.nodeId :=
      Table.map_update fun n _ _ => hf.nodeId n
    rw [hids]
    exact h.node_ids
  · have hpaths : ((s.updateNode nodeId f).nodes.filter (KbNode.Live ·)).map KbNode.path =
        (s.nodes.filter (KbNode.Live ·)).map KbNode.path := by
      show ((s.nodes.map fun n => if n.nodeId = nodeId then f n else n).filter (KbNode.Live ·)).map KbNode.path = _
      rw [List.filter_map, List.map_map]
      have hfilter : s.nodes.filter ((fun n => decide n.Live) ∘ fun n => if n.nodeId = nodeId then f n else n) =
          s.nodes.filter (KbNode.Live ·) := by
        congr 1
        funext n
        exact decide_eq_decide.mpr (by rw [KbNode.Live, KbNode.Live, hkeep])
      rw [hfilter]
      apply List.map_congr_left
      intro n _
      simp only [Function.comp_apply]
      split
      · exact hf.path n
      · rfl
    rw [hpaths]
    exact h.live_paths

theorem Integral.updateRevision (h : s.Integral) {revisionId : RevisionId} {g : KbRevision → KbRevision}
    (hg : ∀ r, (g r).revisionId = r.revisionId ∧ (g r).title = r.title) : (s.updateRevision revisionId g).Integral := by
  refine ⟨h.node_ids, h.live_paths, ?_, fun x hx => ?_⟩
  · have hids : ((s.updateRevision revisionId g).revisions.map KbRevision.revisionId) =
        s.revisions.map KbRevision.revisionId := Table.map_update fun r _ _ => (hg r).1
    rw [hids]
    exact h.revision_ids
  · obtain ⟨r, hr, rfl⟩ := Table.mem_update.mp hx
    split
    · rw [(hg r).2]
      exact h.titles r hr
    · exact h.titles r hr

theorem Integral.addRevision (h : s.Integral) {r : KbRevision} (hnew : s.getRevision r.revisionId = none)
    (htitle : ∀ title ∈ r.title, title.length ≤ 256) : (s.addRevision r).Integral := by
  refine ⟨h.node_ids, h.live_paths, Table.nodup_append_singleton h.revision_ids fun x hx => ?_,
    List.forall_mem_append.mpr ⟨h.titles, List.forall_mem_singleton.mpr htitle⟩⟩
  simpa using List.find?_eq_none.mp hnew x hx

theorem getRevision_of_addRevision {r : KbRevision} (h : (s.addRevision r).Integral) : s.getRevision r.revisionId = none := by
  have hids := h.revision_ids
  rw [addRevision, List.map_append, List.map_singleton, List.nodup_append] at hids
  refine List.find?_eq_none.mpr fun x hx hsame => ?_
  exact hids.2.2 x.revisionId (List.mem_map.mpr ⟨x, hx, rfl⟩) r.revisionId (List.mem_singleton_self _) (by simpa using hsame)

section Content

variable (hash : String → String) (rev : KbRevision) (kind : Source) (n : KbNode)

theorem contentHash_applyContent : (applyContent hash rev kind n).contentHash = some (hash (rev.content.getD "")) := by
  unfold applyContent
  dsimp only
  split_ifs <;> rfl

theorem content_applyContent : (applyContent hash rev kind n).content = some (rev.content.getD "") := by
  unfold applyContent
  dsimp only
  split_ifs <;> rfl

theorem summary_applyContent :
    (applyContent hash rev kind n).summary = if Truthy rev.summary then rev.summary else n.summary := by
  unfold applyContent
  dsimp only
  split_ifs <;> rfl

theorem description_applyContent :
    (applyContent hash rev kind n).description =
      if Truthy rev.description ∧ ¬ (kind = .agent ∧ n.descriptionSource = some .human) then rev.description
      else n.description := by
  unfold applyContent
  dsimp only
  split_ifs <;> rfl

end Content

theorem keepsKeys_applyContent (hash : String → String) (rev : KbRevision) (kind : Source) :
    KeepsKeys (applyContent hash rev kind) := by
  constructor <;> intro n <;> unfold applyContent <;> dsimp only <;> split_ifs <;> rfl

theorem Integral.refreshDir (h : s.Integral) (hash : String → String) (dir : Path) : (refreshDir hash s dir).Integral := by
  unfold Kb.refreshDir
  split
  · exact h
  · split
    · exact h.updateNode ⟨fun _ => rfl, fun _ => rfl, fun _ => rfl⟩
    · exact h

theorem Integral.foldl_refreshDir (h : s.Integral) (hash : String → String) (dirs : List Path) :
    (dirs.foldl (Kb.refreshDir hash) s).Integral := by
  induction dirs generalizing s with
  | nil => exact h
  | cons dir rest ih => exact ih (h.refreshDir hash dir)

theorem getNode_updateNode_self (hf : ∀ n, n.nodeId = nodeId → (f n).nodeId = nodeId) (hn : s.getNode nodeId = some n) :
    (s.updateNode nodeId f).getNode nodeId = some (f n) := by
  rw [getNode_updateNode hf, hn, Option.map_some, if_pos (nodeId_of_getNode hn)]

theorem getNode_updateNode_other (hf : ∀ n, n.nodeId = nodeId → (f n).nodeId = nodeId) (hn : s.getNode other = some n)
    (hne : other ≠ nodeId) : (s.updateNode nodeId f).getNode other = some n := by
  rw [getNode_updateNode hf, hn, Option.map_some, if_neg (by rwa [nodeId_of_getNode hn])]

theorem eq_of_getNode_of_mem (h : s.Integral) {n found : KbNode} (hn : s.getNode nodeId = some n)
    (hfound : found ∈ s.nodes) (hid : found.nodeId = nodeId) : found = n := by
  have hget := getNode_of_mem h hfound
  rw [hid, hn] at hget
  exact (Option.some.inj hget).symm

/-- A refresh of one directory leaves every other node, and changes the hash of this one. -/
theorem getNode_refreshDir (h : s.Integral) (hash : String → String) (dir : Path)
    (hn : s.getNode nodeId = some n) :
    ∃ contentHash, (Kb.refreshDir hash s dir).getNode nodeId = some { n with contentHash } ∧
      (n.path ≠ dir → contentHash = n.contentHash) := by
  have hsame : s.getNode nodeId = some { n with contentHash := n.contentHash } := hn
  unfold Kb.refreshDir
  cases hlive : s.liveNode dir with
  | none => exact ⟨n.contentHash, hsame, fun _ => rfl⟩
  | some node =>
    simp only
    split
    · by_cases hid : nodeId = node.nodeId
      · have hnode : node = n := eq_of_getNode_of_mem h hn (mem_of_liveNode hlive) hid.symm
        subst hid
        refine ⟨_, getNode_updateNode_self (fun _ hn => hn) hn, fun hne => absurd ?_ hne⟩
        exact hnode ▸ (live_liveNode hlive).2
      · exact ⟨n.contentHash, getNode_updateNode_other (fun _ hn => hn) hn hid, fun _ => rfl⟩
    · exact ⟨n.contentHash, hsame, fun _ => rfl⟩

theorem getNode_foldl_refreshDir (h : s.Integral) (hash : String → String) (dirs : List Path)
    (hn : s.getNode nodeId = some n) :
    ∃ contentHash, (dirs.foldl (Kb.refreshDir hash) s).getNode nodeId = some { n with contentHash } ∧
      (n.path ∉ dirs → contentHash = n.contentHash) := by
  induction dirs generalizing s n with
  | nil => exact ⟨n.contentHash, hn, fun _ => rfl⟩
  | cons dir rest ih =>
    obtain ⟨first, hfirst, hkeep⟩ := getNode_refreshDir h hash dir hn
    obtain ⟨contentHash, hrest, hkeep'⟩ := ih (h.refreshDir hash dir) hfirst
    refine ⟨contentHash, hrest, fun hnot => ?_⟩
    rw [List.mem_cons, not_or] at hnot
    exact (hkeep' hnot.2).trans (hkeep hnot.1)

/-- The page of a publication has the revision applied, and the refresh does not reach it. -/
theorem getNode_publish_self (h : s.Integral) (hash : String → String) (rev : KbRevision) (kind : Source)
    (hn : s.getNode nodeId = some n) :
    (s.publish hash rev kind nodeId n.path).getNode nodeId = some (applyContent hash rev kind n) := by
  have hkeys := keepsKeys_applyContent hash rev kind
  have happlied := getNode_updateNode_self (fun n hn => (hkeys.nodeId n).trans hn) hn
  obtain ⟨contentHash, hget, hkeep⟩ :=
    getNode_foldl_refreshDir (h.updateNode hkeys) hash n.path.ancestors.reverse happlied
  have hpath : (applyContent hash rev kind n).path ∉ n.path.ancestors.reverse := by
    rw [hkeys.path, List.mem_reverse]
    exact Path.not_mem_ancestors_self
  rw [hkeep hpath] at hget
  exact hget

theorem getNode_publish_other (h : s.Integral) (hash : String → String) (rev : KbRevision) (kind : Source) (path : Path)
    (hn : s.getNode other = some n) (hne : other ≠ nodeId) :
    ∃ contentHash, (s.publish hash rev kind nodeId path).getNode other = some { n with contentHash } := by
  have hkeys := keepsKeys_applyContent hash rev kind
  have hkept := getNode_updateNode_other (fun n hn => (hkeys.nodeId n).trans hn) hn hne
  obtain ⟨contentHash, hget, -⟩ := getNode_foldl_refreshDir (h.updateNode hkeys) hash path.ancestors.reverse hkept
  exact ⟨contentHash, hget⟩

theorem Integral.syncPending (h : s.Integral) (nodeId : NodeId) : (s.syncPending nodeId).Integral :=
  h.updateNode ⟨fun _ => rfl, fun _ => rfl, fun _ => rfl⟩

theorem Integral.publish (h : s.Integral) (hash : String → String) (rev : KbRevision) (kind : Source) (nodeId : NodeId)
    (path : Path) : (s.publish hash rev kind nodeId path).Integral :=
  (h.updateNode (keepsKeys_applyContent hash rev kind)).foldl_refreshDir hash _

end Store

/-! ### Calls -/

variable {σ τ : Session Store} {hash : String → String} {rev : KbRevision} {s : Store} {kind : Source}

theorem exec_flushStore_bind_ok {α : Type} {f : Unit → Tx α} {a : α} :
    exec (flushStore >>= f) σ = (.ok a, τ) ↔ σ.view.Integral ∧ exec (f ()) σ = (.ok a, τ) := by
  rw [flushStore, exec_flush_bind_ok, Store.constraints_ok]

variable {u : Unit}

theorem exec_flushStore_ok :
    exec flushStore σ = (.ok u, τ) ↔ σ.view.Integral ∧ τ = σ := by
  rw [flushStore, exec_flush_ok, Store.constraints_ok]

structure Ensured (actor : Actor) (dirs : List Path) (s v : Store) : Prop where
  added : ∃ added, v = { s with nodes := s.nodes ++ added } ∧
    ∀ n ∈ added, ∃ dir ∈ dirs, ∃ nodeId, n = newDir actor dir nodeId ∧ s.liveNode dir = none
  there : ∀ dir ∈ dirs, ∃ n ∈ v.nodes, n.Live ∧ n.kind = .dir ∧ n.path = dir
  integral : v.Integral

variable {actor : Actor}

theorem Ensured.refl (h : s.Integral) : Ensured actor [] s s :=
  ⟨⟨[], by simp, by simp⟩, by simp, h⟩

theorem ensureDirs_ok {dirIds : ℕ → NodeId} {k : ℕ} {dirs : List Path}
    (hs : σ.view.Integral) (h : exec (ensureDirs actor dirIds k dirs) σ = (.ok u, τ)) :
    τ.committed = σ.committed ∧ Ensured actor dirs σ.view τ.view := by
  induction dirs generalizing k σ with
  | nil =>
    obtain ⟨-, rfl⟩ := exec_pure_ok.mp h
    exact ⟨rfl, .refl hs⟩
  | cons dir rest ih =>
    rw [ensureDirs, exec_view_bind] at h
    cases hfind : σ.view.liveNode dir with
    | some existing =>
      simp only [hfind, exec_require_bind_ok] at h
      obtain ⟨hkind, hrest⟩ := h
      obtain ⟨hcommitted, ⟨added, hview, hadded⟩, hthere, hintegral⟩ := ih hs hrest
      refine ⟨hcommitted, ⟨added, hview, fun n hn => ?_⟩, ?_, hintegral⟩
      · obtain ⟨other, hother, hnew⟩ := hadded n hn
        exact ⟨other, List.mem_cons_of_mem _ hother, hnew⟩
      · intro other hother
        rcases List.mem_cons.mp hother with rfl | hother
        · obtain ⟨hlive, hpath⟩ := Store.live_liveNode hfind
          refine ⟨existing, ?_, hlive, hkind, hpath⟩
          rw [hview]
          exact List.mem_append_left _ (Store.mem_of_liveNode hfind)
        · exact hthere other hother
    | none =>
      simp only [hfind, exec_modifyView_bind, exec_flushStore_bind_ok] at h
      obtain ⟨hfirst, hrest⟩ := h
      obtain ⟨hcommitted, ⟨added, hview, hadded⟩, hthere, hintegral⟩ := ih hfirst hrest
      refine ⟨hcommitted, ⟨newDir actor dir (dirIds k) :: added, ?_, fun n hn => ?_⟩, ?_, hintegral⟩
      · rw [hview]
        simp [Store.addNode]
      · rcases List.mem_cons.mp hn with rfl | hn
        · exact ⟨dir, List.mem_cons_self, _, rfl, hfind⟩
        · obtain ⟨other, hother, nodeId, hnew, hnone⟩ := hadded n hn
          refine ⟨other, List.mem_cons_of_mem _ hother, nodeId, hnew, ?_⟩
          have happend : (σ.view.addNode (newDir actor dir (dirIds k))).liveNode other = _ :=
            Table.find?_append_singleton
          exact (Option.or_eq_none_iff.mp (happend.symm.trans hnone)).1
      · intro other hother
        rcases List.mem_cons.mp hother with rfl | hother
        · refine ⟨newDir actor other (dirIds k), ?_, rfl, rfl, rfl⟩
          rw [hview]
          exact List.mem_append_left _ (List.mem_append_right _ (List.mem_singleton_self _))
        · exact hthere other hother

theorem publish_ok {nodeId : NodeId} {path : Path}
    (h : exec (publish hash rev kind nodeId path) σ = (.ok u, τ)) :
    τ = { σ with view := σ.view.publish hash rev kind nodeId path } := by
  rw [publish, exec_modifyView_bind, exec_flushStore_bind_ok, refreshDirHashes, exec_modifyView_bind,
    exec_flushStore_ok] at h
  exact h.2.2

theorem publish_runs {nodeId : NodeId} {path : Path}
    {σ : Session Store} (h : σ.view.Integral) :
    exec (publish hash rev kind nodeId path) σ =
      (.ok (), { σ with view := σ.view.publish hash rev kind nodeId path }) := by
  rw [publish, exec_modifyView_bind, exec_flushStore_bind_ok, refreshDirHashes, exec_modifyView_bind,
    exec_flushStore_ok]
  exact ⟨h.updateNode (Store.keepsKeys_applyContent hash rev kind), h.publish hash rev kind nodeId path, rfl⟩

/-- The page a write is for: the live one, read at its version, or a new one with its directories. -/
inductive Prepared (actor : Actor) (page : PageText) (baseVersion : Option ℕ) (nodeId : NodeId) (s : Store) :
    KbNode → Store → Prop
  | existing {node : KbNode} (hlive : s.liveNode page.path = some node) (hversion : checkVersion node baseVersion = .ok ()) :
      Prepared actor page baseVersion nodeId s node s
  | new {v : Store} (hnone : s.liveNode page.path = none) (hdirs : Ensured actor page.path.ancestors s v)
      (hintegral : (v.addNode (newPage actor page nodeId)).Integral) :
      Prepared actor page baseVersion nodeId s (newPage actor page nodeId) (v.addNode (newPage actor page nodeId))

variable {node : KbNode} {page : PageText} {d : Draw}

theorem pageToWrite_ok {baseVersion : Option ℕ}
    (hs : σ.view.Integral) (h : exec (pageToWrite actor page baseVersion d) σ = (.ok node, τ)) :
    τ.committed = σ.committed ∧ Prepared actor page baseVersion d.nodeId σ.view node τ.view := by
  rw [pageToWrite, exec_view_bind] at h
  cases hfind : σ.view.liveNode page.path with
  | some existing =>
    simp only [hfind] at h
    obtain ⟨u, hok, hpure⟩ := exec_fromExcept_bind_ok.mp h
    obtain ⟨rfl, rfl⟩ := exec_pure_ok.mp hpure
    exact ⟨rfl, .existing hfind hok⟩
  | none =>
    simp only [hfind, exec_require_bind_ok] at h
    obtain ⟨-, hmake⟩ := h
    obtain ⟨u, m, hdirs, hadd⟩ := exec_bind_ok.mp hmake
    obtain ⟨hcommitted, hensured⟩ := ensureDirs_ok hs hdirs
    rw [exec_modifyView_bind, exec_flushStore_bind_ok] at hadd
    obtain ⟨hintegral, hpure⟩ := hadd
    obtain ⟨rfl, rfl⟩ := exec_pure_ok.mp hpure
    exact ⟨hcommitted, .new hfind hensured hintegral⟩

/-- The store after a write: its revision recorded, and published on the page where the write may. -/
def written (hash : String → String) (actor : Actor) (page : PageText) (rev : KbRevision) (node : KbNode) (v : Store) :
    Store :=
  (if Publishes actor page.path then (v.addRevision rev).publish hash rev actor.kind node.nodeId page.path
    else v.addRevision rev).syncPending node.nodeId

variable {form : PageForm}

theorem writePage_ok (hs : σ.view.Integral) (h : exec (writePage hash actor form d) σ = (.ok rev, τ)) :
    ∃ page node tags v, checkPage actor form = .ok page ∧ cleanTags form.tags = .ok tags ∧
      Prepared actor page form.baseVersion d.nodeId σ.view node v ∧
      rev = pageRevision actor page form tags node d.revisionId ∧ (v.addRevision rev).Integral ∧
      τ.view = written hash actor page rev node v := by
  rw [writePage] at h
  obtain ⟨page, hpage, hrest⟩ := exec_fromExcept_bind_ok.mp h
  obtain ⟨node, m', hprepare, hclean⟩ := exec_bind_ok.mp hrest
  obtain ⟨-, hprepared⟩ := pageToWrite_ok hs hprepare
  obtain ⟨tags, htags, hrecord⟩ := exec_fromExcept_bind_ok.mp hclean
  rw [exec_modifyView_bind, exec_flushStore_bind_ok] at hrecord
  obtain ⟨hrecorded, hpublished⟩ := hrecord
  split at hpublished
  · rename_i hpublishes
    obtain ⟨u, m, hpublish, hsync⟩ := exec_bind_ok.mp hpublished
    obtain rfl := publish_ok hpublish
    rw [syncPending, exec_modifyView_bind, exec_flushStore_bind_ok] at hsync
    obtain ⟨rfl, rfl⟩ := exec_pure_ok.mp hsync.2
    refine ⟨page, node, tags, _, hpage, htags, hprepared, rfl, hrecorded, ?_⟩
    rw [written, if_pos hpublishes]
  · rename_i hpublishes
    rw [syncPending, exec_modifyView_bind, exec_flushStore_bind_ok] at hpublished
    obtain ⟨rfl, rfl⟩ := exec_pure_ok.mp hpublished.2
    refine ⟨page, node, tags, _, hpage, htags, hprepared, rfl, hrecorded, ?_⟩
    rw [written, if_neg hpublishes]

/-- A write that passes the checks is made on the page that was prepared, unless its revision id is taken. -/
theorem writePage_of_prepared (hash : String → String) {c s v : Store}
    {tags : Option (List String)} (hpage : checkPage actor form = .ok page)
    (htags : cleanTags form.tags = .ok tags)
    (hprepare : exec (pageToWrite actor page form.baseVersion d) ⟨c, s⟩ = (.ok node, ⟨c, v⟩)) (hv : v.Integral)
    (hfresh : v.getRevision d.revisionId = none) (htitle : page.title.length ≤ 256) :
    exec (writePage hash actor form d) ⟨c, s⟩ = (.ok (pageRevision actor page form tags node d.revisionId),
      ⟨c, written hash actor page (pageRevision actor page form tags node d.revisionId) node v⟩) := by
  have hrecorded : (v.addRevision (pageRevision actor page form tags node d.revisionId)).Integral :=
    hv.addRevision hfresh fun _ ht => Option.some.inj ht ▸ htitle
  rw [writePage, exec_bind_ok]
  refine ⟨page, ⟨c, s⟩, exec_fromExcept_ok.mpr ⟨hpage, rfl⟩, ?_⟩
  rw [exec_bind_ok]
  refine ⟨node, ⟨c, v⟩, hprepare, ?_⟩
  rw [exec_bind_ok]
  refine ⟨tags, ⟨c, v⟩, exec_fromExcept_ok.mpr ⟨htags, rfl⟩, ?_⟩
  rw [exec_modifyView_bind, exec_flushStore_bind_ok]
  refine ⟨hrecorded, ?_⟩
  split
  · rename_i hpublishes
    rw [exec_bind_ok]
    refine ⟨(), _, publish_runs hrecorded, ?_⟩
    rw [syncPending, exec_modifyView_bind, exec_flushStore_bind_ok, written, if_pos hpublishes]
    exact ⟨(hrecorded.publish _ _ _ _ _).syncPending _, exec_pure _ _⟩
  · rename_i hpublishes
    rw [syncPending, exec_modifyView_bind, exec_flushStore_bind_ok, written, if_neg hpublishes]
    exact ⟨hrecorded.syncPending _, exec_pure _ _⟩

theorem writePage_runs {tags : Option (List String)} (hs : s.Integral)
    (hpage : checkPage actor form = .ok page) (htags : cleanTags form.tags = .ok tags)
    (hlive : s.liveNode page.path = some node) (hversion : checkVersion node form.baseVersion = .ok ())
    (hfresh : s.getRevision d.revisionId = none) (htitle : page.title.length ≤ 256) :
    exec (writePage hash actor form d) ⟨s, s⟩ = (.ok (pageRevision actor page form tags node d.revisionId),
      ⟨s, written hash actor page (pageRevision actor page form tags node d.revisionId) node s⟩) := by
  have hprepare : exec (pageToWrite actor page form.baseVersion d) ⟨s, s⟩ = (.ok node, ⟨s, s⟩) := by
    rw [pageToWrite, exec_view_bind]
    simp only [hlive]
    rw [exec_bind_ok]
    exact ⟨(), ⟨s, s⟩, exec_fromExcept_ok.mpr ⟨hversion, rfl⟩, exec_pure _ _⟩
  exact writePage_of_prepared hash hpage htags hprepare hs hfresh htitle

theorem Store.Integral.written {v : Store} (hash : String → String) (actor : Actor) (page : PageText)
    (node : KbNode) (hrecorded : (v.addRevision rev).Integral) : (written hash actor page rev node v).Integral := by
  rw [Kb.written]
  split
  · exact (hrecorded.publish _ _ _ _ _).syncPending _
  · exact hrecorded.syncPending _

variable {description : Option String}

theorem nodeId_setDescription {n : KbNode} :
    (setDescription kind description n).1.nodeId = n.nodeId := by
  unfold setDescription
  split
  · rfl
  · split <;> rfl

theorem nodeId_setSummary {summary : Option String} {n : KbNode} :
    (setSummary kind summary n).1.nodeId = n.nodeId := by
  unfold setSummary
  split
  · rfl
  · split <;> rfl

/-- The store after a metadata edit: the node rewritten, and what was applied recorded. -/
def edited (actor : Actor) (description summary : Option String) (node : KbNode) (revisionId : RevisionId) (s : Store) :
    Store :=
  let described := setDescription actor.kind description node
  let summarized := setSummary actor.kind summary described.1
  let result : MetaResult := ⟨node.nodeId, described.2, summarized.2⟩
  let v := s.updateNode node.nodeId fun _ => summarized.1
  if result.description = some .applied ∨ result.summary = some .applied then
    v.addRevision (metaRevision actor description summary node result revisionId)
  else v

structure Editable (actor : Actor) (form : MetaForm) (s : Store) (path : Path) (node : KbNode)
    (description summary : Option String) : Prop where
  normalized : normalizePath form.path none = .ok path
  live : s.liveNode path = some node
  visible : ¬ (node.kind = .page ∧ node.version = 0)
  described : cleanText form.description maxDescriptionLen "kb_description_too_long" = .ok description
  summarized : cleanText form.summary maxSummaryLen "kb_summary_too_long" = .ok summary
  current : summary ≠ none → form.contentHash = node.contentHash

variable {revisionId : RevisionId}

theorem setMeta_ok {form : MetaForm} {result : MetaResult}
    (h : exec (setMeta actor form revisionId) σ = (.ok result, τ)) :
    ∃ path node description summary, Editable actor form σ.view path node description summary ∧
      τ.view = edited actor description summary node revisionId σ.view ∧ τ.view.Integral ∧
      result.nodeId = node.nodeId ∧
      result.summary = (setSummary actor.kind summary (setDescription actor.kind description node).1).2 := by
  rw [setMeta, exec_require_bind_ok] at h
  obtain ⟨-, hpaths⟩ := h
  obtain ⟨path, hpath, hnodes⟩ := exec_fromExcept_bind_ok.mp hpaths
  obtain ⟨node, m', hnode, hdescriptions⟩ := exec_bind_ok.mp hnodes
  rw [metaNode, exec_view_bind] at hnode
  cases hlive : σ.view.liveNode path with
  | none => simp [hlive] at hnode
  | some found =>
    simp only [hlive, exec_require_bind_ok] at hnode
    obtain ⟨hvisible, hpure⟩ := hnode
    obtain ⟨rfl, rfl⟩ := exec_pure_ok.mp hpure
    obtain ⟨description, hdescription, hsummaries⟩ := exec_fromExcept_bind_ok.mp hdescriptions
    obtain ⟨summary, hsummary, hchecks⟩ := exec_fromExcept_bind_ok.mp hsummaries
    rw [exec_require_bind_ok, exec_require_bind_ok] at hchecks
    obtain ⟨-, hcurrent, hwrite⟩ := hchecks
    refine ⟨path, found, description, summary, ⟨hpath, hlive, hvisible, hdescription, hsummary, hcurrent⟩, ?_⟩
    dsimp only at hwrite
    rw [exec_modifyView_bind] at hwrite
    unfold edited
    dsimp only
    split at hwrite
    · rename_i happlied
      rw [exec_modifyView_bind, exec_flushStore_bind_ok] at hwrite
      obtain ⟨hintegral, hpure⟩ := hwrite
      obtain ⟨rfl, rfl⟩ := exec_pure_ok.mp hpure
      exact ⟨(if_pos happlied).symm, hintegral, rfl, rfl⟩
    · rename_i happlied
      rw [exec_flushStore_bind_ok] at hwrite
      obtain ⟨hintegral, hpure⟩ := hwrite
      obtain ⟨rfl, rfl⟩ := exec_pure_ok.mp hpure
      exact ⟨(if_neg happlied).symm, hintegral, rfl, rfl⟩

/-- The store after a directory was described, if a description is given. -/
def described (actor : Actor) (description : Option String) (nodeId : NodeId) (s : Store) : Store :=
  if Truthy description then
    s.updateNode nodeId fun n => { n with description, descriptionSource := some actor.kind }
  else s

theorem describeDir_ok {nodeId : NodeId}
    (h : exec (describeDir actor description nodeId) σ = (.ok u, τ)) :
    τ.view = described actor description nodeId σ.view := by
  rw [describeDir] at h
  rw [described]
  split at h
  · rename_i hgiven
    rw [exec_modifyView_bind, exec_flushStore_ok] at h
    rw [h.2, if_pos hgiven]
  · rename_i hgiven
    obtain ⟨-, rfl⟩ := exec_flushStore_ok.mp h
    rw [if_neg hgiven]

/-- What `make_dir` leaves: the directory that is there described, or a new one with its ancestors refreshed. -/
inductive Made (hash : String → String) (actor : Actor) (path : Path) (description : Option String) (nodeId : NodeId)
    (s : Store) : Store → Prop
  | existing {node : KbNode} (hlive : s.liveNode path = some node) :
      Made hash actor path description nodeId s (described actor description node.nodeId s)
  | new {v : Store} (hnone : s.liveNode path = none) (hdirs : Ensured actor path.ancestors s v)
      (hintegral : (v.addNode (newDir actor path nodeId)).Integral) :
      Made hash actor path description nodeId s
        (described actor description nodeId ((v.addNode (newDir actor path nodeId)).refreshDirHashes hash path))

theorem makeDir_ok {rawPath : String}
    {nodeId : NodeId} (hs : σ.view.Integral)
    (h : exec (makeDir hash actor rawPath description d) σ = (.ok nodeId, τ)) :
    actor.canPublish = true ∧ ∃ path cleaned, normalizePath rawPath (some .dir) = .ok path ∧
      Made hash actor path cleaned d.nodeId σ.view τ.view := by
  rw [makeDir, exec_require_bind_ok] at h
  obtain ⟨hpublisher, hpaths⟩ := h
  obtain ⟨path, hpath, hcleans⟩ := exec_fromExcept_bind_ok.mp hpaths
  obtain ⟨cleaned, -, hmake⟩ := exec_fromExcept_bind_ok.mp hcleans
  refine ⟨hpublisher, path, cleaned, hpath, ?_⟩
  rw [exec_view_bind] at hmake
  cases hlive : σ.view.liveNode path with
  | some node =>
    simp only [hlive, exec_require_bind_ok] at hmake
    obtain ⟨-, hdescribe⟩ := hmake
    obtain ⟨u, m, hdescribed, hpure⟩ := exec_bind_ok.mp hdescribe
    obtain ⟨-, rfl⟩ := exec_pure_ok.mp hpure
    rw [describeDir_ok hdescribed]
    exact .existing hlive
  | none =>
    simp only [hlive] at hmake
    obtain ⟨u, m, hensure, hadd⟩ := exec_bind_ok.mp hmake
    obtain ⟨-, hensured⟩ := ensureDirs_ok hs hensure
    rw [exec_modifyView_bind, exec_flushStore_bind_ok] at hadd
    obtain ⟨hadded, hrefresh⟩ := hadd
    obtain ⟨u, m'', hrefreshed, hdescribe⟩ := exec_bind_ok.mp hrefresh
    rw [refreshDirHashes, exec_modifyView_bind, exec_flushStore_ok] at hrefreshed
    obtain ⟨-, rfl⟩ := hrefreshed
    obtain ⟨u, m, hdescribed, hpure⟩ := exec_bind_ok.mp hdescribe
    obtain ⟨-, rfl⟩ := exec_pure_ok.mp hpure
    rw [describeDir_ok hdescribed]
    exact .new hlive hensured hadded

theorem deleteNode_ok {rawPath : String} {count : ℕ}
    (h : exec (deleteNode hash actor rawPath) σ = (.ok count, τ)) :
    actor.canPublish = true ∧ ∃ path, normalizePath rawPath none = .ok path ∧
      (σ.view.deleteSubtree actor path).Integral ∧
      τ.view = (σ.view.deleteSubtree actor path).refreshDirHashes hash path := by
  rw [deleteNode, exec_require_bind_ok] at h
  obtain ⟨hpublisher, hpaths⟩ := h
  obtain ⟨path, hpath, hdelete⟩ := exec_fromExcept_bind_ok.mp hpaths
  rw [exec_view_bind, exec_require_bind_ok, exec_modifyView_bind, exec_flushStore_bind_ok] at hdelete
  obtain ⟨-, hdeleted, hrefresh⟩ := hdelete
  obtain ⟨u, m', hrefreshed, hpure⟩ := exec_bind_ok.mp hrefresh
  rw [refreshDirHashes, exec_modifyView_bind, exec_flushStore_ok] at hrefreshed
  obtain ⟨-, rfl⟩ := hrefreshed
  obtain ⟨-, rfl⟩ := exec_pure_ok.mp hpure
  exact ⟨hpublisher, path, hpath, hdeleted, rfl⟩

/-! ### Review -/

theorem findRevision_ok :
    exec (findRevision revisionId) σ = (.ok (rev, node), τ) ↔
      σ.view.getRevision revisionId = some rev ∧ σ.view.getNode rev.nodeId = some node ∧ τ = σ := by
  rw [findRevision, exec_view_bind]
  cases hrev : σ.view.getRevision revisionId with
  | none => simp
  | some found =>
    cases hnode : σ.view.getNode found.nodeId with
    | none =>
      simp only [hnode]
      simp
      rintro rfl hother
      rw [hnode] at hother
      cases hother
    | some n =>
      simp only [hnode, exec_pure_ok, Prod.mk.injEq, Option.some.injEq]
      constructor
      · rintro ⟨⟨rfl, rfl⟩, rfl⟩
        exact ⟨rfl, hnode, rfl⟩
      · rintro ⟨rfl, hother, rfl⟩
        exact ⟨⟨rfl, Option.some.inj (hnode.symm.trans hother)⟩, rfl⟩

/-- What a review has checked: a publisher, a proposed revision, and the page it is on. -/
structure Reviewable (actor : Actor) (revisionId : RevisionId) (s : Store) (rev : KbRevision) (node : KbNode) : Prop where
  publisher : actor.canPublish = true
  found : s.getRevision revisionId = some rev
  page : s.getNode rev.nodeId = some node
  proposed : rev.status = .proposed

def approved (hash : String → String) (actor : Actor) (rev : KbRevision) (node : KbNode) (revisionId : RevisionId)
    (s : Store) : Store :=
  (if rev.baseVersion ≠ node.version then s.review actor .superseded revisionId
    else (s.review actor .published revisionId).publish hash rev (authorKind rev.author) node.nodeId node.path).syncPending
      node.nodeId

theorem Store.Integral.review (h : s.Integral) (actor : Actor) (status : RevisionStatus)
    (revisionId : RevisionId) : (s.review actor status revisionId).Integral :=
  h.updateRevision fun _ => ⟨rfl, rfl⟩

theorem approve_ok {result : Approval} (h : exec (approve hash actor revisionId) σ = (.ok result, τ)) :
    ∃ rev node, Reviewable actor revisionId σ.view rev node ∧ node.Live ∧
      τ.view = approved hash actor rev node revisionId σ.view := by
  rw [approve, exec_require_bind_ok] at h
  obtain ⟨hpublisher, hfinds⟩ := h
  obtain ⟨⟨rev, node⟩, m, hfound, hchecks⟩ := exec_bind_ok.mp hfinds
  obtain ⟨hrev, hnode, rfl⟩ := findRevision_ok.mp hfound
  simp only [exec_require_bind_ok] at hchecks
  obtain ⟨hproposed, hlive, hreview⟩ := hchecks
  refine ⟨rev, node, ⟨hpublisher, hrev, hnode, hproposed⟩, hlive, ?_⟩
  rw [approved]
  split at hreview
  · rename_i hstale
    rw [exec_modifyView_bind, syncPending, exec_modifyView_bind, exec_flushStore_bind_ok] at hreview
    obtain ⟨-, rfl⟩ := exec_pure_ok.mp hreview.2
    rw [if_pos hstale]
  · rename_i hstale
    rw [exec_modifyView_bind] at hreview
    obtain ⟨u, m', hpublish, hsync⟩ := exec_bind_ok.mp hreview
    obtain rfl := publish_ok hpublish
    rw [syncPending, exec_modifyView_bind, exec_flushStore_bind_ok] at hsync
    obtain ⟨-, rfl⟩ := exec_pure_ok.mp hsync.2
    rw [if_neg hstale]

theorem approve_runs (hs : s.Integral) (h : Reviewable actor revisionId s rev node) (hlive : node.Live)
    (hbase : rev.baseVersion = node.version) :
    exec (approve hash actor revisionId) ⟨s, s⟩ = (.ok .published, ⟨s, approved hash actor rev node revisionId s⟩) := by
  rw [approve, exec_require_bind_ok]
  refine ⟨h.publisher, ?_⟩
  rw [exec_bind_ok]
  refine ⟨(rev, node), ⟨s, s⟩, findRevision_ok.mpr ⟨h.found, h.page, rfl⟩, ?_⟩
  simp only [exec_require_bind_ok]
  refine ⟨h.proposed, hlive, ?_⟩
  have hstale : ¬ rev.baseVersion ≠ node.version := fun hne => hne hbase
  have hreviewed := hs.review actor .published revisionId
  rw [if_neg hstale, exec_modifyView_bind, exec_bind_ok]
  refine ⟨(), _, publish_runs hreviewed, ?_⟩
  rw [syncPending, exec_modifyView_bind, exec_flushStore_bind_ok, approved, if_neg hstale]
  exact ⟨(hreviewed.publish _ _ _ _ _).syncPending _, exec_pure _ _⟩

def rejected (actor : Actor) (rev : KbRevision) (revisionId : RevisionId) (note : Option String) (s : Store) : Store :=
  (((s.review actor .rejected revisionId).updateRevision revisionId fun r =>
    { r with note := if Truthy note then note else r.note }).syncPending rev.nodeId).dropEmptyPage rev.nodeId

theorem rejectRevision_ok {note : Option String}
    (h : exec (rejectRevision actor revisionId note) σ = (.ok u, τ)) :
    ∃ rev node, Reviewable actor revisionId σ.view rev node ∧ τ.view = rejected actor rev revisionId note σ.view := by
  rw [rejectRevision, exec_require_bind_ok] at h
  obtain ⟨hpublisher, hfinds⟩ := h
  obtain ⟨⟨rev, node⟩, m, hfound, hchecks⟩ := exec_bind_ok.mp hfinds
  obtain ⟨hrev, hnode, rfl⟩ := findRevision_ok.mp hfound
  simp only [exec_require_bind_ok, exec_modifyView_bind, syncPending, exec_flushStore_ok] at hchecks
  obtain ⟨hproposed, -, rfl⟩ := hchecks
  refine ⟨rev, node, ⟨hpublisher, hrev, hnode, hproposed⟩, ?_⟩
  rw [rejected, ← Store.nodeId_of_getNode hnode]

theorem Operation.apply_eq {op : Operation} {τ : Session Store}
    (hcall : exec (op.call hash) ⟨s, s⟩ = (.ok (), τ)) (hτ : τ.view.Integral) : op.apply hash s = τ.view := by
  have hrun : exec (do op.call hash; flushStore) ⟨s, s⟩ = (.ok (), τ) :=
    exec_bind_ok.mpr ⟨(), τ, hcall, exec_flushStore_ok.mpr ⟨hτ, rfl⟩⟩
  rw [Operation.apply, atomically, hrun]

theorem Operation.apply_error {op : Operation} {τ : Session Store} {e : Error}
    (hcall : exec (op.call hash) ⟨s, s⟩ = (.error e, τ)) : op.apply hash s = s := by
  rw [Operation.apply, atomically, exec_bind, hcall]

theorem Operation.apply_cases (hash : String → String) (op : Operation) (s : Store) :
    op.apply hash s = s ∨ ∃ τ, exec (op.call hash) ⟨s, s⟩ = (.ok (), τ) ∧ op.apply hash s = τ.view ∧ τ.view.Integral := by
  rcases atomically_flush_cases (op.call hash) Store.constraints s with hsame | ⟨τ, hcall, hview, hok⟩
  · exact .inl hsame
  · exact .inr ⟨τ, hcall, hview, Store.constraints_ok.mp hok⟩

theorem Operation.integral_apply (h : s.Integral) (op : Operation) :
    (op.apply hash s).Integral := by
  rcases op.apply_cases hash s with hsame | ⟨τ, -, hview, hτ⟩
  · rwa [hsame]
  · rwa [hview]

theorem integral_run {ops : List Operation}
    (hrun : (service hash).run .empty ops = some s) : s.Integral :=
  (service hash).run_invariant (P := Store.Integral) (fun _ op _ hs hstep => Option.some.inj hstep ▸ op.integral_apply hs)
    (by decide) hrun

end BotCord.Kb
