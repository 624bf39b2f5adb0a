import BotCord.Kb.Tree

/-!
# The kind of a node and the suffix of its path

A page's path should end in `.md` and a directory's should not, so that a page can be written wherever no node is. `normalize_path` checks the path that the caller names; but the directories above it are made by `_ensure_dirs` without a look at their names. Where no directory is made under a name in `.md`, the rule holds, and only a page above the path keeps a page from being written.
-/

namespace BotCord.Kb

open Transaction

namespace Store

/-- The suffix of a live node's path decides its kind. -/
def Suffixed (s : Store) : Prop := ∀ n ∈ s.nodes, n.Live → (n.kind = .page ↔ n.path.IsMd)
deriving Decidable

/-- A live node of the kind is at the path. -/
def HasNode (s : Store) (kind : NodeKind) (path : Path) : Prop :=
  ∃ n ∈ s.nodes, n.Live ∧ n.kind = kind ∧ n.path = path

/-- The directories above a path that are not there, if the path is accepted. -/
def missingDirs (s : Store) (raw : String) (kind : NodeKind) : List Path :=
  match normalizePath raw (some kind) with
  | .ok path => path.ancestors.filter (s.liveNode · = none)
  | .error _ => []

end Store

/-- A write or a new directory that needs no directory with a name in `.md`. -/
def Operation.Proper (s : Store) : Operation → Prop
  | .writePage _ form _ => ∀ dir ∈ s.missingDirs form.path .page, ¬ dir.IsMd
  | .makeDir _ path _ _ => ∀ dir ∈ s.missingDirs path .dir, ¬ dir.IsMd
  | _ => True

instance (s : Store) : DecidablePred (Operation.Proper s) := fun _ => by
  unfold Operation.Proper
  split <;> infer_instance

/-- The ids of a write are free and differ. -/
structure Draw.Fresh (d : Draw) (s : Store) : Prop where
  node : s.getNode d.nodeId = none
  revision : s.getRevision d.revisionId = none
  dirs : ∀ k, s.getNode (d.dirIds k) = none
  dirIds : Function.Injective d.dirIds
  apart : ∀ k, d.dirIds k ≠ d.nodeId

/-- A form that passes the checks and gives a title that the column holds, for a path that names no live node. -/
structure NewPage (s : Store) (actor : Actor) (form : PageForm) (d : Draw) (page : PageText) : Prop where
  checked : checkPage actor form = .ok page
  tagged : ∃ tags, cleanTags form.tags = .ok tags
  version : form.baseVersion = none ∨ form.baseVersion = some 0
  titled : page.title.length ≤ 256
  free : s.liveNode page.path = none
  fresh : d.Fresh s

namespace Store

variable {s t : Store} {hash : String → String} {nodeId : NodeId} {f : KbNode → KbNode} {path dir : Path} {kind : NodeKind}

def NoneNew (s t : Store) : Prop := ∀ x ∈ t.nodes, x.Live → ∃ n ∈ s.nodes, n.Live ∧ n.kind = x.kind ∧ n.path = x.path

theorem NoneNew.suffixed (h : NoneNew s t) (hs : s.Suffixed) : t.Suffixed := by
  intro x hx hlive
  obtain ⟨n, hn, hold, hkind, hpath⟩ := h x hx hlive
  rw [← hkind, ← hpath]
  exact hs n hn hold

theorem noneNew_updateNode (hf : Steady f) : NoneNew s (s.updateNode nodeId f) := by
  intro x hx hlive
  obtain ⟨n, hn, rfl⟩ := mem_updateNode.mp hx
  have hg := hf.ite nodeId
  exact ⟨n, hn, hg.live.mp hlive, (hg.kind n).symm, (hg.path n).symm⟩

theorem Suffixed.updateNode (h : s.Suffixed) (hf : Steady f) : (s.updateNode nodeId f).Suffixed :=
  (noneNew_updateNode hf).suffixed h

theorem Suffixed.foldl_refreshDir (h : s.Suffixed) (hash : String → String) (dirs : List Path) :
    (dirs.foldl (refreshDir hash) s).Suffixed := by
  induction dirs generalizing s with
  | nil => exact h
  | cons dir rest ih =>
    apply ih
    rw [refreshDir]
    split
    · exact h
    · split
      · exact h.updateNode (quiet_contentHash _).toSteady
      · exact h

theorem Suffixed.publish (h : s.Suffixed) (hash : String → String) (rev : KbRevision) (source : Source) (path : Path) :
    (s.publish hash rev source nodeId path).Suffixed :=
  (h.updateNode (quiet_applyContent hash rev source).toSteady).foldl_refreshDir hash _

theorem steady_pendingCount (pendingCount : ℕ) : Steady fun n => { n with pendingCount } :=
  ⟨⟨fun _ => rfl, fun _ => rfl, fun _ => rfl⟩, fun _ => rfl, fun _ => le_refl _⟩

theorem Suffixed.syncPending (h : s.Suffixed) : (s.syncPending nodeId).Suffixed := h.updateNode (steady_pendingCount _)

theorem Suffixed.append (h : s.Suffixed) {added : List KbNode} (hadded : ∀ n ∈ added, n.kind = .page ↔ n.path.IsMd) :
    Suffixed { s with nodes := s.nodes ++ added } := by
  intro n hn hlive
  rcases List.mem_append.mp hn with hn | hn
  · exact h n hn hlive
  · exact hadded n hn

theorem Suffixed.ensured (h : s.Suffixed) {actor : Actor} {dirs : List Path} (hdirs : Ensured actor dirs s t)
    (hproper : ∀ dir ∈ dirs, s.liveNode dir = none → ¬ dir.IsMd) : t.Suffixed := by
  obtain ⟨⟨added, rfl, hadded⟩, -, -⟩ := hdirs
  refine h.append fun n hn => ?_
  obtain ⟨dir, hdir, nodeId, rfl, hnone⟩ := hadded n hn
  refine iff_of_false ?_ (hproper dir hdir hnone)
  rintro ⟨⟩

theorem Suffixed.addNode (h : s.Suffixed) {n : KbNode} (hn : n.kind = .page ↔ n.path.IsMd) : (s.addNode n).Suffixed := by
  refine h.append fun m hm => ?_
  rw [List.mem_singleton.mp hm]
  exact hn

theorem Suffixed.deleteSubtree (h : s.Suffixed) (actor : Actor) (path : Path) : (s.deleteSubtree actor path).Suffixed := by
  refine NoneNew.suffixed (fun x hx hlive => ?_) h
  obtain ⟨n, hn, rfl⟩ := Table.mem_update.mp hx
  split at hlive
  · cases hlive
  · rename_i hkept
    rw [if_neg hkept]
    exact ⟨n, hn, hlive, rfl, rfl⟩

theorem Suffixed.dropEmptyPage (h : s.Suffixed) : (s.dropEmptyPage nodeId).Suffixed := by
  refine NoneNew.suffixed (fun x hx hlive => ?_) h
  obtain ⟨n, hn, rfl⟩ := mem_updateNode.mp hx
  split_ifs at hlive ⊢
  · cases hlive
  · exact ⟨n, hn, hlive, rfl, rfl⟩
  · exact ⟨n, hn, hlive, rfl, rfl⟩

theorem Suffixed.described (h : s.Suffixed) (actor : Actor) (description : Option String) :
    (described actor description nodeId s).Suffixed := by
  rw [Kb.described]
  split
  · exact h.updateNode ⟨⟨fun _ => rfl, fun _ => rfl, fun _ => rfl⟩, fun _ => rfl, fun _ => le_refl _⟩
  · exact h

end Store

theorem mem_missingDirs {s : Store} {raw : String} {kind : NodeKind} {path dir : Path}
    (hpath : normalizePath raw (some kind) = .ok path) :
    dir ∈ s.missingDirs raw kind ↔ dir ∈ path.ancestors ∧ s.liveNode dir = none := by
  rw [Store.missingDirs, hpath, List.mem_filter, decide_eq_true_eq]

theorem Store.Suffixed.apply {hash : String → String} {s : Store} (h : s.Suffixed) (hs : s.Integral) {op : Operation}
    (hproper : op.Proper s) : (op.apply hash s).Suffixed := by
  rcases op.apply_cases hash s with hsame | ⟨τ, hcall, hview, -⟩
  · rwa [hsame]
  rw [hview]
  cases op with
  | writePage actor form d =>
    obtain ⟨rev, hrun⟩ := exec_void_ok.mp hcall
    obtain ⟨page, node, tags, v, hpage, -, hprepared, rfl, -, hwritten⟩ := writePage_ok hs hrun
    have hpath := checkPage_ok hpage
    have hv : v.Suffixed := by
      cases hprepared with
      | existing => exact h
      | new hnone hdirs hintegral =>
        have hensured := h.ensured hdirs fun dir hdir hmissing => hproper dir ((mem_missingDirs hpath).mpr ⟨hdir, hmissing⟩)
        exact hensured.addNode (iff_of_true rfl ((normalizePath_ok hpath).2.1 rfl))
    have hrecorded : (v.addRevision (pageRevision actor page form tags node d.revisionId)).Suffixed := hv
    rw [hwritten, written]
    split
    · exact (hrecorded.publish hash _ _ _).syncPending
    · exact hrecorded.syncPending
  | setMeta actor form revisionId =>
    obtain ⟨result, hrun⟩ := exec_void_ok.mp hcall
    obtain ⟨path, node, description, summary, hedit, hedited, -⟩ := setMeta_ok hrun
    have hnode := Store.mem_of_liveNode hedit.live
    have hquiet := quiet_edit actor.kind description summary
    rw [hedited]
    unfold edited
    dsimp only
    rw [Store.updateNode_const hs hnode (fun n => (setSummary actor.kind summary (setDescription actor.kind description n).1).1)]
    split_ifs
    · exact h.updateNode hquiet.toSteady
    · exact h.updateNode hquiet.toSteady
  | makeDir actor rawPath description d =>
    obtain ⟨nodeId, hrun⟩ := exec_void_ok.mp hcall
    obtain ⟨-, path, cleaned, hpath, hmade⟩ := makeDir_ok hs hrun
    generalize τ.view = t at hmade ⊢
    cases hmade with
    | existing hlive => exact h.described _ _
    | new hnone hdirs hintegral =>
      have hensured := h.ensured hdirs fun dir hdir hmissing => hproper dir ((mem_missingDirs hpath).mpr ⟨hdir, hmissing⟩)
      have hadded := hensured.addNode (n := newDir actor path d.nodeId)
        (iff_of_false (by rintro ⟨⟩) ((normalizePath_ok hpath).2.2 rfl))
      exact (hadded.foldl_refreshDir hash _).described _ _
  | deleteNode actor rawPath =>
    obtain ⟨count, hrun⟩ := exec_void_ok.mp hcall
    obtain ⟨-, path, -, -, hrefreshed⟩ := deleteNode_ok hrun
    rw [hrefreshed]
    exact (h.deleteSubtree actor path).foldl_refreshDir hash _
  | approve actor revisionId =>
    obtain ⟨result, hrun⟩ := exec_void_ok.mp hcall
    obtain ⟨rev, node, -, -, happroved⟩ := approve_ok hrun
    have hreviewed : ∀ status, (s.review actor status revisionId).Suffixed := fun _ => h
    rw [happroved, approved]
    split
    · exact (hreviewed _).syncPending
    · exact ((hreviewed _).publish hash _ _ _).syncPending
  | rejectRevision actor revisionId note =>
    obtain ⟨rev, node, -, hrejected⟩ := rejectRevision_ok hcall
    have hreviewed : ((s.review actor .rejected revisionId).updateRevision revisionId fun r =>
      { r with note := if Truthy note then note else r.note }).Suffixed := h
    rw [hrejected, rejected]
    exact hreviewed.syncPending.dropEmptyPage

namespace Store

variable {s v : Store} {hash : String → String} {nodeId : NodeId} {f : KbNode → KbNode} {path : Path} {kind : NodeKind}

theorem HasNode.updateNode (h : s.HasNode kind path) (hf : Steady f) : (s.updateNode nodeId f).HasNode kind path := by
  obtain ⟨n, hn, hlive, hkind, hpath⟩ := h
  have hg := hf.ite nodeId
  exact ⟨_, mem_updateNode.mpr ⟨n, hn, rfl⟩, hg.live.mpr hlive, (hg.kind n).trans hkind, (hg.path n).trans hpath⟩

theorem HasNode.foldl_refreshDir (h : s.HasNode kind path) (hash : String → String) (dirs : List Path) :
    (dirs.foldl (refreshDir hash) s).HasNode kind path := by
  induction dirs generalizing s with
  | nil => exact h
  | cons dir rest ih =>
    apply ih
    rw [refreshDir]
    split
    · exact h
    · split
      · exact h.updateNode (quiet_contentHash _).toSteady
      · exact h

theorem HasNode.written (h : v.HasNode kind path) (hash : String → String) (actor : Actor) (page : PageText) (rev : KbRevision)
    (node : KbNode) : (written hash actor page rev node v).HasNode kind path := by
  have hrecorded : (v.addRevision rev).HasNode kind path := h
  rw [Kb.written]
  split
  · have hpublished : ((v.addRevision rev).publish hash rev actor.kind node.nodeId page.path).HasNode kind path :=
      (hrecorded.updateNode (quiet_applyContent hash rev actor.kind).toSteady).foldl_refreshDir hash _
    exact hpublished.updateNode (steady_pendingCount _)
  · exact hrecorded.updateNode (steady_pendingCount _)

theorem Integral.addNode (h : s.Integral) {n : KbNode} (hid : s.getNode n.nodeId = none) (hfree : s.liveNode n.path = none) :
    (s.addNode n).Integral := by
  refine ⟨Table.nodup_append_singleton h.node_ids fun x hx => ?_, ?_, h.revision_ids, h.titles⟩
  · simpa using List.find?_eq_none.mp hid x hx
  · rw [Store.addNode, List.filter_append, List.map_append]
    refine List.Nodup.append h.live_paths ?_ ?_
    · exact ((List.filter_sublist).map _).nodup (List.nodup_singleton _)
    · intro p hold hnew
      obtain ⟨x, hx, rfl⟩ := List.mem_map.mp hold
      obtain ⟨m, hm, hpath⟩ := List.mem_map.mp hnew
      obtain ⟨hx, hlive⟩ := List.mem_filter.mp hx
      rw [List.mem_singleton.mp (List.mem_filter.mp hm).1] at hpath
      exact not_live_of_liveNode_none hfree hx (of_decide_eq_true hlive) hpath.symm

theorem getNode_addNode {n : KbNode} (hid : s.getNode nodeId = none) (hne : n.nodeId ≠ nodeId) :
    (s.addNode n).getNode nodeId = none := by
  have hfind : (s.addNode n).getNode nodeId = _ := Table.find?_append_singleton
  rw [hfind, show s.nodes.find? _ = none from hid, if_neg hne, Option.none_or]

theorem liveNode_addNode {n : KbNode} : (s.addNode n).liveNode path =
    (s.liveNode path).or (if n.Live ∧ n.path = path then some n else none) :=
  Table.find?_append_singleton

end Store

/-- Where no page is in the way, the directories are made, and what had no node has none. -/
theorem ensureDirs_runs {actor : Actor} {dirIds : ℕ → NodeId} {k : ℕ} {dirs : List Path} {c s : Store} (hs : s.Integral)
    (hdirs : ∀ dir ∈ dirs, ∀ n, s.liveNode dir = some n → n.kind = .dir) (hfresh : ∀ j, k ≤ j → s.getNode (dirIds j) = none)
    (hinj : Function.Injective dirIds) :
    ∃ v, exec (ensureDirs actor dirIds k dirs) ⟨c, s⟩ = (.ok (), ⟨c, v⟩) ∧ v.Integral ∧ v.revisions = s.revisions ∧
      (∀ nodeId, s.getNode nodeId = none → (∀ j, dirIds j ≠ nodeId) → v.getNode nodeId = none) ∧
      ∀ path ∉ dirs, s.liveNode path = none → v.liveNode path = none := by
  induction dirs generalizing k s with
  | nil => exact ⟨s, exec_pure _ _, hs, rfl, fun _ hnone _ => hnone, fun _ _ hnone => hnone⟩
  | cons dir rest ih =>
    rw [ensureDirs, exec_view_bind]
    cases hfind : s.liveNode dir with
    | some existing =>
      obtain ⟨v, hrun, hrest⟩ := ih hs (fun other hother => hdirs other (List.mem_cons_of_mem _ hother))
        (fun j hj => hfresh j (Nat.le_of_succ_le hj))
      refine ⟨v, ?_, hrest.1, hrest.2.1, hrest.2.2.1, fun path hpath => ?_⟩
      · rw [exec_require_bind_ok]
        exact ⟨hdirs dir List.mem_cons_self existing hfind, hrun⟩
      · exact hrest.2.2.2 path fun hmem => hpath (List.mem_cons_of_mem _ hmem)
    | none =>
      have hadded := hs.addNode (n := newDir actor dir (dirIds k)) (hfresh k le_rfl) hfind
      have hkinds : ∀ other ∈ rest, ∀ n, (s.addNode (newDir actor dir (dirIds k))).liveNode other = some n → n.kind = .dir := by
        intro other hother n hn
        rw [Store.liveNode_addNode] at hn
        cases hold : s.liveNode other with
        | some m =>
          rw [hold, Option.some_or] at hn
          exact hdirs other (List.mem_cons_of_mem _ hother) n (hold.trans hn)
        | none =>
          rw [hold, Option.none_or] at hn
          obtain ⟨-, hnew⟩ := Option.ite_none_right_eq_some.mp hn
          exact Option.some.inj hnew ▸ rfl
      have hids : ∀ j, k + 1 ≤ j → (s.addNode (newDir actor dir (dirIds k))).getNode (dirIds j) = none := by
        intro j hj
        refine Store.getNode_addNode (hfresh j (by omega)) fun hsame => ?_
        have hjk : k = j := hinj hsame
        omega
      obtain ⟨v, hrun, hintegral, hrevisions, hnodes, hpaths⟩ := ih hadded hkinds hids
      refine ⟨v, ?_, hintegral, hrevisions, fun nodeId hnone hne => ?_, fun path hpath hnone => ?_⟩
      · rw [exec_modifyView_bind, exec_flushStore_bind_ok]
        exact ⟨hadded, hrun⟩
      · exact hnodes nodeId (Store.getNode_addNode hnone (hne k)) hne
      · refine hpaths path (fun hmem => hpath (List.mem_cons_of_mem _ hmem)) ?_
        rw [Store.liveNode_addNode, hnone, Option.none_or, if_neg]
        rintro ⟨-, rfl⟩
        exact hpath List.mem_cons_self

section Writing

variable {hash : String → String} {s : Store} {actor : Actor} {form : PageForm} {d : Draw} {page : PageText}

theorem NewPage.runs (h : NewPage s actor form d page) (hs : s.Integral)
    (habove : ∀ dir ∈ page.path.ancestors, ∀ n, s.liveNode dir = some n → n.kind = .dir) :
    (Operation.apply hash (.writePage actor form d) s).HasNode .page page.path := by
  obtain ⟨tags, htags⟩ := h.tagged
  obtain ⟨v, hdirs, hv, hrevisions, hnodes, hpaths⟩ := ensureDirs_runs (c := s) (k := 0) hs habove
    (fun j _ => h.fresh.dirs j) h.fresh.dirIds
  have hadded : (v.addNode (newPage actor page d.nodeId)).Integral :=
    hv.addNode (hnodes d.nodeId h.fresh.node h.fresh.apart) (hpaths _ Path.not_mem_ancestors_self h.free)
  have hprepare : exec (pageToWrite actor page form.baseVersion d) ⟨s, s⟩ =
      (.ok (newPage actor page d.nodeId), ⟨s, v.addNode (newPage actor page d.nodeId)⟩) := by
    rw [pageToWrite, exec_view_bind]
    simp only [h.free, exec_require_bind_ok]
    refine ⟨h.version, exec_bind_ok.mpr ⟨(), ⟨s, v⟩, hdirs, ?_⟩⟩
    rw [exec_modifyView_bind, exec_flushStore_bind_ok]
    exact ⟨hadded, exec_pure _ _⟩
  have hrevision : (v.addNode (newPage actor page d.nodeId)).getRevision d.revisionId = none := by
    have hsame : (v.addNode (newPage actor page d.nodeId)).revisions = s.revisions := hrevisions
    rw [Store.getRevision, hsame]
    exact h.fresh.revision
  have hrun := writePage_of_prepared hash h.checked htags hprepare hadded hrevision h.titled
  have hnew : (v.addNode (newPage actor page d.nodeId)).HasNode .page page.path :=
    ⟨_, List.mem_append_right _ (List.mem_singleton_self _), rfl, rfl, rfl⟩
  have hcall : exec ((Operation.writePage actor form d).call hash) ⟨s, s⟩ = (.ok (), _) := exec_void_ok.mpr ⟨_, hrun⟩
  rw [Operation.apply_eq hcall (Store.Integral.written hash actor page _ (hadded.addRevision hrevision fun _ ht => Option.some.inj ht ▸ h.titled))]
  exact hnew.written hash actor page _ _

theorem NewPage.kinds_above (h : NewPage s actor form d page) (hs : s.Integral)
    (hwritten : (Operation.apply hash (.writePage actor form d) s).HasNode .page page.path) :
    ∀ dir ∈ page.path.ancestors, ∀ n, s.liveNode dir = some n → n.kind = .dir := by
  intro dir hdir n hn
  rcases (Operation.writePage actor form d).apply_cases hash s with hsame | ⟨τ, hcall, hview, -⟩
  · obtain ⟨m, hm, hlive, -, hpath⟩ := hsame ▸ hwritten
    exact absurd hpath (Store.not_live_of_liveNode_none h.free hm hlive)
  · obtain ⟨rev, hrun⟩ := exec_void_ok.mp hcall
    obtain ⟨page', node, tags, v, hpage, -, hprepared, -, -, -⟩ := writePage_ok hs hrun
    obtain rfl := Except.ok.inj (h.checked.symm.trans hpage)
    cases hprepared with
    | existing hlive => cases h.free.symm.trans hlive
    | new hnone hdirs hintegral =>
      obtain ⟨m, hm, hlive, hkind, hpath⟩ := hdirs.there dir hdir
      obtain ⟨⟨added, rfl, -⟩, -, hv⟩ := hdirs
      have hmem : n ∈ s.nodes ++ added := List.mem_append_left _ (Store.mem_of_liveNode hn)
      have hsame := (Store.liveNode_of_mem hv hmem (Store.live_liveNode hn).1).symm.trans
        (((Store.live_liveNode hn).2.trans hpath.symm) ▸ Store.liveNode_of_mem hv hm hlive)
      exact (Option.some.inj hsame) ▸ hkind

end Writing

/-- In every run that makes no directory with a name in `.md`, the suffix of a live path decides its kind, and a page can be written where no node is exactly if no page is above. -/
theorem suffix_decides_kind {hash : String → String} {ops : List Operation} {s : Store}
    (hmeets : (service hash).Meets Operation.Proper .empty ops) (hrun : (service hash).run .empty ops = some s) :
    s.Suffixed ∧ ∀ (actor : Actor) (form : PageForm) (d : Draw) (page : PageText), NewPage s actor form d page →
      ((Operation.apply hash (.writePage actor form d) s).HasNode .page page.path ↔
        ∀ dir ∈ page.path.ancestors, ∀ n, s.liveNode dir = some n → n.kind = .dir) := by
  have hkept : s.Integral ∧ s.Suffixed := by
    refine (service hash).run_invariant_of_meets (P := fun s => s.Integral ∧ s.Suffixed) ?_ ?_ hmeets hrun
    · rintro before op after ⟨hintegral, hsuffixed⟩ hproper hstep
      obtain rfl := Option.some.inj hstep
      exact ⟨op.integral_apply hintegral, hsuffixed.apply hintegral hproper⟩
    · exact ⟨by decide, by decide⟩
  exact ⟨hkept.2, fun actor form d page hnew => ⟨hnew.kinds_above hkept.1, hnew.runs hkept.1⟩⟩

/-- A page in a new directory. -/
def noted : List Operation :=
  [.writePage editor { path := "notes/a.md", content := "A" } ⟨"n_page", "r_1", fun k => if k = 0 then "n_dir" else ""⟩]

theorem suffix_decides_kind_noted : ∃ s, (service id).run .empty noted = some s ∧
    s.nodes.map (fun n => (String.ofList n.path.text, n.kind)) = [("/notes", .dir), ("/notes/a.md", .page)] ∧ s.Suffixed := by
  have hmeets : (service id).Meets Operation.Proper .empty noted := by decide +kernel
  exact ⟨_, rfl, by decide +kernel, (suffix_decides_kind hmeets rfl).1⟩

/-- A page below `/a.md`, which becomes a directory. -/
theorem directory_in_md : ¬ ∀ (hash : String → String) (ops : List Operation) (s : Store),
    (service hash).run .empty ops = some s → s.Suffixed := by
  intro hclaim
  have hrun : ((service id).run .empty [.writePage editor { path := "/a.md/b.md", content := "B" }
      ⟨"n_page", "r_1", fun k => if k = 0 then "n_dir" else ""⟩]).any (fun s => ¬ s.Suffixed) = true := by
    decide +kernel
  obtain ⟨s, hrun, hnot⟩ := (Option.any_eq_true _ _).mp hrun
  exact of_decide_eq_true hnot (hclaim id _ s hrun)

end BotCord.Kb
