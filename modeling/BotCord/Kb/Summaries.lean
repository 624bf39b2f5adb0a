import BotCord.Kb.Merkle

/-!
# Summaries of directories

A run of the knowledge base with a record beside it: for each node, the pages that were below it when its summary was last written. A summary whose source hash is the hash of its directory is a summary of the pages below it now, in every run that makes no directory with the name of a page.
-/

namespace BotCord.Kb

open Transaction Merkle

def Operation.summarizes (s : Store) : Operation → Option NodeId
  | .setMeta actor form revisionId =>
    match exec (Kb.setMeta actor form revisionId) ⟨s, s⟩ with
    | (.ok result, _) => if result.summary = some .applied then some result.nodeId else none
    | (.error _, _) => none
  | _ => none

structure Recorded where
  store : Store
  /-- The pages below a node when its summary was last written. -/
  summarized : NodeId → Option (List (Path × String))

def Recorded.empty : Recorded := ⟨.empty, fun _ => none⟩

def Recorded.apply (hash : String → String) (r : Recorded) (op : Operation) : Recorded :=
  let next := op.apply hash r.store
  { store := next
    summarized := fun nodeId =>
      if op.summarizes r.store = some nodeId then (next.getNode nodeId).map fun n => next.pagesBelow n.path
      else r.summarized nodeId }

def recorded (hash : String → String) : System Recorded Operation := System.total fun r op => r.apply hash op

/-- Every summary that counts as fresh is about the pages below its directory. -/
def FreshSummaries (r : Recorded) : Prop :=
  ∀ n ∈ r.store.nodes, n.Live → n.kind = .dir → Truthy n.summary → ¬ summaryStale n →
    ∃ pages ∈ r.summarized n.nodeId, (∀ page ∈ pages, page ∈ r.store.pagesBelow n.path) ∧
      ∀ page ∈ r.store.pagesBelow n.path, page ∈ pages
deriving Decidable

def PlainDirs (raw : String) (kind : NodeKind) : Prop :=
  ∀ path, normalizePath raw (some kind) = .ok path → ∀ dir ∈ path.ancestors, ¬ dir.IsMd

/-- The operation makes no directory with the name of a page. -/
def Operation.Plain (_ : Recorded) : Operation → Prop
  | .writePage _ form _ => PlainDirs form.path .page
  | .makeDir _ path _ _ => PlainDirs path .dir
  | _ => True

/-! ### What an operation leaves of directories and drafts -/

def DirsFrom (s t : Store) : Prop :=
  ∀ n' ∈ t.nodes, n'.kind = .dir → Truthy n'.summary → ∃ n ∈ s.nodes, n.kind = .dir ∧ n.nodeId = n'.nodeId ∧
    n.summary = n'.summary ∧ n.summarySourceHash = n'.summarySourceHash

def Drafted (s : Store) : Prop :=
  ∀ r ∈ s.revisions, r.status = .proposed → ∀ n ∈ s.nodes, n.nodeId = r.nodeId → n.kind = .page

structure Carried (s₀ s : Store) : Prop where
  drafted : Drafted s
  dirs : DirsFrom s₀ s

structure Minor (f : KbNode → KbNode) : Prop extends Unhashed f where
  nodeId : ∀ n, (f n).nodeId = n.nodeId
  summary : ∀ n, (f n).summary = n.summary
  summarySourceHash : ∀ n, (f n).summarySourceHash = n.summarySourceHash

theorem Minor.steady {f : KbNode → KbNode} (hf : Minor f) : Store.Steady f :=
  ⟨⟨hf.nodeId, hf.path, hf.deleted⟩, hf.kind, fun n => (hf.version n).ge⟩

theorem Drafted.map {s t : Store} {g : KbNode → KbNode} (h : Drafted s) (hnodes : t.nodes = s.nodes.map g)
    (hg : ∀ n, (g n).nodeId = n.nodeId ∧ (g n).kind = n.kind)
    (hrevisions : ∀ r ∈ t.revisions, r.status = .proposed → ∃ r' ∈ s.revisions, r'.status = .proposed ∧ r'.nodeId = r.nodeId) :
    Drafted t := by
  intro r hr hproposed x hx hid
  rw [hnodes] at hx
  obtain ⟨n, hn, rfl⟩ := List.mem_map.mp hx
  obtain ⟨r', hr', hproposed', hnode⟩ := hrevisions r hr hproposed
  rw [(hg n).2]
  exact h r' hr' hproposed' n hn (((hg n).1.symm.trans hid).trans hnode.symm)

namespace Carried

variable {s₀ s t : Store} {nodeId : NodeId}

theorem map {g : KbNode → KbNode} (h : Carried s₀ s) (hnodes : t.nodes = s.nodes.map g)
    (hg : ∀ n, (g n).nodeId = n.nodeId ∧ (g n).kind = n.kind)
    (hsummary : ∀ n ∈ s.nodes, n.kind = .dir → (g n).summary = n.summary ∧ (g n).summarySourceHash = n.summarySourceHash)
    (hrevisions : ∀ r ∈ t.revisions, r.status = .proposed → ∃ r' ∈ s.revisions, r'.status = .proposed ∧ r'.nodeId = r.nodeId) :
    Carried s₀ t := by
  refine ⟨h.drafted.map hnodes hg hrevisions, fun x hx hkind htruthy => ?_⟩
  rw [hnodes] at hx
  obtain ⟨n, hn, rfl⟩ := List.mem_map.mp hx
  rw [(hg n).2] at hkind
  obtain ⟨hsame, hsource⟩ := hsummary n hn hkind
  rw [hsame] at htruthy
  obtain ⟨m, hm, hm_kind, hid, hm_summary, hm_source⟩ := h.dirs n hn hkind htruthy
  exact ⟨m, hm, hm_kind, hid.trans (hg n).1.symm, hm_summary.trans hsame.symm, hm_source.trans hsource.symm⟩

theorem updateNode (h : Carried s₀ s) {f : KbNode → KbNode} (hf : ∀ n, (f n).nodeId = n.nodeId ∧ (f n).kind = n.kind)
    (hsummary : ∀ n ∈ s.nodes, n.nodeId = nodeId → n.kind = .dir →
      (f n).summary = n.summary ∧ (f n).summarySourceHash = n.summarySourceHash) : Carried s₀ (s.updateNode nodeId f) := by
  refine h.map (g := fun n => if n.nodeId = nodeId then f n else n) rfl (fun n => ?_) (fun n hn hkind => ?_)
    fun r hr hproposed => ⟨r, hr, hproposed, rfl⟩
  · split
    exacts [hf n, ⟨rfl, rfl⟩]
  · split
    · rename_i hid
      exact hsummary n hn hid hkind
    · exact ⟨rfl, rfl⟩

theorem foldl_refreshDir (h : Carried s₀ s) (hash : String → String) (dirs : List Path) :
    Carried s₀ (dirs.foldl (refreshDir hash) s) := by
  induction dirs generalizing s with
  | nil => exact h
  | cons dir rest ih =>
    apply ih
    rw [refreshDir]
    split
    · exact h
    · split
      · exact h.updateNode (fun _ => ⟨rfl, rfl⟩) fun _ _ _ _ => ⟨rfl, rfl⟩
      · exact h

theorem append (h : Carried s₀ s) (hs : s.Rooted) {added : List KbNode}
    (hv : Store.Integral { s with nodes := s.nodes ++ added }) (hadded : ∀ n ∈ added, n.summary = none) :
    Carried s₀ { s with nodes := s.nodes ++ added } := by
  constructor
  · intro r hr hproposed n hn hid
    rcases List.mem_append.mp hn with hn | hn
    · exact h.drafted r hr hproposed n hn hid
    · obtain ⟨m, hm, hm_id⟩ := hs.owned r hr
      have hids := hv.node_ids
      rw [List.map_append, List.nodup_append] at hids
      exact absurd (hm_id.trans hid.symm)
        (hids.2.2 m.nodeId (List.mem_map_of_mem hm) n.nodeId (List.mem_map_of_mem hn))
  · intro n hn hkind htruthy
    rcases List.mem_append.mp hn with hn | hn
    · exact h.dirs n hn hkind htruthy
    · rw [hadded n hn] at htruthy
      obtain ⟨value, hvalue, -⟩ := htruthy
      cases hvalue

theorem addRevision (h : Carried s₀ s) {r : KbRevision}
    (hr : r.status = .proposed → ∀ n ∈ s.nodes, n.nodeId = r.nodeId → n.kind = .page) : Carried s₀ (s.addRevision r) := by
  refine ⟨fun x hx hproposed => ?_, h.dirs⟩
  rcases List.mem_append.mp hx with hx | hx
  · exact h.drafted x hx hproposed
  · obtain rfl := List.mem_singleton.mp hx
    exact hr hproposed

theorem updateRevision (h : Carried s₀ s) {revisionId : RevisionId} {f : KbRevision → KbRevision}
    (hf : ∀ r, (f r).nodeId = r.nodeId ∧ ((f r).status = .proposed → r.status = .proposed)) :
    Carried s₀ (s.updateRevision revisionId f) := by
  refine ⟨fun x hx hproposed n hn hid => ?_, h.dirs⟩
  obtain ⟨r, hr, rfl⟩ := Table.mem_update.mp hx
  split_ifs at hproposed hid
  · exact h.drafted r hr ((hf r).2 hproposed) n hn (hid.trans (hf r).1)
  · exact h.drafted r hr hproposed n hn hid

end Carried

/-- A store on the way of an operation that started from `s₀`. -/
structure Onward (hash : String → String) (s₀ : Store) (dirty : List Path) (s : Store) : Prop where
  rooted : s.Rooted
  hashed : Hashed hash dirty s
  carried : Carried s₀ s

namespace Onward

variable {hash : String → String} {s₀ s : Store} {dirty : List Path} {nodeId : NodeId}

theorem updateNode (h : Onward hash s₀ dirty s) {f : KbNode → KbNode} (hf : Minor f) :
    Onward hash s₀ dirty (s.updateNode nodeId f) :=
  ⟨h.rooted.updateNode hf.steady, h.hashed.updateNode hf.toUnhashed,
    h.carried.updateNode (fun n => ⟨hf.nodeId n, hf.kind n⟩) fun n _ _ _ => ⟨hf.summary n, hf.summarySourceHash n⟩⟩

theorem syncPending (h : Onward hash s₀ dirty s) : Onward hash s₀ dirty (s.syncPending nodeId) :=
  h.updateNode ⟨⟨fun _ => rfl, fun _ => rfl, fun _ => rfl, fun _ => rfl, fun _ => rfl, fun _ => rfl⟩, fun _ => rfl,
    fun _ => rfl, fun _ => rfl⟩

theorem described (h : Onward hash s₀ dirty s) {actor : Actor} {description : Option String} :
    Onward hash s₀ dirty (described actor description nodeId s) := by
  rw [Kb.described]
  split
  · exact h.updateNode ⟨⟨fun _ => rfl, fun _ => rfl, fun _ => rfl, fun _ => rfl, fun _ => rfl, fun _ => rfl⟩,
      fun _ => rfl, fun _ => rfl, fun _ => rfl⟩
  · exact h

theorem refreshDirHashes {path : Path} (h : Onward hash s₀ path.ancestors.reverse s) :
    Onward hash s₀ [] (s.refreshDirHashes hash path) :=
  ⟨h.rooted.foldl_refreshDir hash _, h.hashed.refreshDirHashes h.rooted, h.carried.foldl_refreshDir hash _⟩

/-- A publication leaves every directory dirty that is above its page, and the refresh cleans them. -/
theorem publish (h : Onward hash s₀ [] s) {node : KbNode} (hnode : node ∈ s.nodes) (hkind : node.kind = .page)
    (rev : KbRevision) (kind : Source) : Onward hash s₀ [] (s.publish hash rev kind node.nodeId node.path) := by
  have hquiet := Store.quiet_applyContent hash rev kind
  have hrow : ∀ n ∈ s.nodes, n.nodeId = node.nodeId → n = node := fun n hn hid =>
    Store.eq_of_getNode_of_mem h.rooted.integral (Store.getNode_of_mem h.rooted.integral hnode) hn hid
  refine refreshDirHashes ⟨h.rooted.updateNode hquiet.toSteady, ?_, ?_⟩
  · have hg := hquiet.toSteady.ite node.nodeId
    refine h.hashed.map rfl (fun n => ⟨hg.path n, hg.kind n⟩) (fun n => hg.live.mp) ?_ ?_
    · intro n hn hpublished
      split_ifs at hpublished ⊢
      · rw [Store.contentHash_applyContent, Store.content_applyContent]
        rfl
      · exact h.hashed.pages n hn hpublished
    · intro n hn hlive hn_kind hclean
      refine ⟨List.not_mem_nil, ?_, below_map rfl hg.path fun m hm hdir => ?_⟩
      · rw [if_neg fun hid => ?_]
        rw [hrow n hn hid, hkind] at hn_kind
        cases hn_kind
      · rw [if_neg fun hid => ?_]
        · exact ⟨Iff.rfl, fun _ => rfl⟩
        · rw [hrow m hm hid] at hdir
          exact hclean (List.mem_reverse.mpr hdir)
  · refine h.carried.updateNode (fun n => ⟨hquiet.nodeId n, hquiet.kind n⟩) fun n hn hid hn_kind => ?_
    rw [hrow n hn hid, hkind] at hn_kind
    cases hn_kind

theorem append (h : Onward hash s₀ dirty s) {added : List KbNode}
    (hv : ({ s with nodes := s.nodes ++ added } : Store).Rooted)
    (hadded : ∀ n ∈ added, (n.kind = .page ↔ n.path.IsMd) ∧ ¬ n.Published ∧ (n.kind = .dir → n.contentHash = none) ∧
      n.summary = none) : Onward hash s₀ dirty { s with nodes := s.nodes ++ added } :=
  ⟨hv, h.hashed.append h.rooted hv.integral fun n hn => ⟨(hadded n hn).1, (hadded n hn).2.1, (hadded n hn).2.2.1⟩,
    h.carried.append h.rooted hv.integral fun n hn => (hadded n hn).2.2.2⟩

theorem ensured (h : Onward hash s₀ dirty s) {actor : Actor} {dirs : List Path} {v : Store} (hv : v.Rooted)
    (hplain : ∀ dir ∈ dirs, ¬ dir.IsMd) (hdirs : Ensured actor dirs s v) : Onward hash s₀ dirty v := by
  obtain ⟨added, rfl, hadded⟩ := hdirs.added
  refine h.append hv fun n hn => ?_
  obtain ⟨dir, hdir, nodeId, rfl, -⟩ := hadded n hn
  exact ⟨iff_of_false NodeKind.noConfusion (hplain dir hdir), fun hp => NodeKind.noConfusion hp.2.1, fun _ => rfl, rfl⟩

theorem deleteSubtree (h : Onward hash s₀ [] s) {actor : Actor} {path : Path}
    (hv : (s.deleteSubtree actor path).Rooted) :
    Onward hash s₀ path.ancestors.reverse (s.deleteSubtree actor path) := by
  refine ⟨hv, ?_, ?_⟩
  · refine h.hashed.map (g := fun n => if n.Live ∧ Path.Under path n.path then { n with deleted := true, pendingCount := 0 }
      else n) rfl (fun n => ?_) (fun n hlive => ?_) (fun n hn hpublished => ?_) fun n hn hlive hkind hclean => ?_
    · split <;> exact ⟨rfl, rfl⟩
    · split at hlive
      · cases hlive
      · exact hlive
    · split_ifs at hpublished ⊢
      · cases hpublished.1
      · exact h.hashed.pages n hn hpublished
    · split_ifs at hlive ⊢ with hunder
      · cases hlive
      · refine ⟨List.not_mem_nil, rfl, below_map rfl (fun m => ?_) fun m hm hdir => ?_⟩
        · split <;> rfl
        · -- what lies below a directory that stays is not below the path, unless the directory is above it
          rw [if_neg fun hin => ?_]
          · exact ⟨Iff.rfl, fun _ => rfl⟩
          · obtain ⟨hne, hinside⟩ := Path.mem_ancestors.mp hdir
            have hinside' := hinside.trans (List.dropLast_prefix m.path)
            rcases List.prefix_or_prefix_of_prefix hin.2 hinside' with hpath | hpath
            · exact hunder ⟨hlive, hpath⟩
            · refine hclean (List.mem_reverse.mpr (Path.mem_ancestors.mpr ⟨hne, ?_⟩))
              exact Path.prefix_parentOf hpath fun heq => hunder ⟨hlive, heq ▸ List.prefix_refl _⟩
  · refine h.carried.map (g := fun n => if n.Live ∧ Path.Under path n.path then { n with deleted := true, pendingCount := 0 }
      else n) rfl (fun n => ?_) (fun n _ _ => ?_) fun r hr hproposed => ?_
    · split <;> exact ⟨rfl, rfl⟩
    · split <;> exact ⟨rfl, rfl⟩
    · obtain ⟨r', hr', rfl⟩ := Table.mem_update.mp hr
      split_ifs at hproposed ⊢
      exact ⟨r', hr', hproposed, rfl⟩

theorem dropEmptyPage (h : Onward hash s₀ [] s) (hv : (s.dropEmptyPage nodeId).Rooted) :
    Onward hash s₀ [] (s.dropEmptyPage nodeId) := by
  refine ⟨hv, ?_, ?_⟩
  · refine h.hashed.map (g := fun n => if n.nodeId = nodeId then
      if n.version = 0 ∧ n.pendingCount = 0 then { n with deleted := true } else n else n) rfl (fun n => ?_)
      (fun n hlive => ?_) (fun n hn hpublished => ?_) fun n hn hlive hkind hclean => ?_
    · split_ifs <;> exact ⟨rfl, rfl⟩
    · split_ifs at hlive
      · cases hlive
      · exact hlive
      · exact hlive
    · split_ifs at hpublished ⊢
      · cases hpublished.1
      · exact h.hashed.pages n hn hpublished
      · exact h.hashed.pages n hn hpublished
    · refine ⟨List.not_mem_nil, ?_, below_map (g := fun n => if n.nodeId = nodeId then
        if n.version = 0 ∧ n.pendingCount = 0 then { n with deleted := true } else n else n) rfl (fun m => ?_)
        fun m hm hdir => ?_⟩
      · split_ifs <;> rfl
      · split_ifs <;> rfl
      · split_ifs with hid hempty
        · refine ⟨iff_of_false (fun hp => ?_) fun hp => ?_, fun _ => rfl⟩
          · cases hp.1
          · exact absurd hempty.1 hp.2.2.ne'
        · exact ⟨Iff.rfl, fun _ => rfl⟩
        · exact ⟨Iff.rfl, fun _ => rfl⟩
  · refine h.carried.updateNode (fun n => ?_) fun n _ _ _ => ?_
    · split <;> exact ⟨rfl, rfl⟩
    · split <;> exact ⟨rfl, rfl⟩

theorem addRevision (h : Onward hash s₀ dirty s) {r : KbRevision} (hv : (s.addRevision r).Integral)
    (hnode : ∃ n ∈ s.nodes, n.nodeId = r.nodeId)
    (hr : r.status = .proposed → ∀ n ∈ s.nodes, n.nodeId = r.nodeId → n.kind = .page) :
    Onward hash s₀ dirty (s.addRevision r) :=
  ⟨h.rooted.addRevision hv hnode, ⟨h.hashed.kinds, h.hashed.pages, h.hashed.dirs⟩, h.carried.addRevision hr⟩

theorem updateRevision (h : Onward hash s₀ dirty s) {revisionId : RevisionId} {f : KbRevision → KbRevision}
    (hf : ∀ r, ((f r).revisionId = r.revisionId ∧ (f r).title = r.title) ∧ (f r).nodeId = r.nodeId ∧
      ((f r).status = .proposed → r.status = .proposed)) :
    Onward hash s₀ dirty (s.updateRevision revisionId f) :=
  ⟨h.rooted.updateRevision fun r => ⟨(hf r).1, (hf r).2.1⟩, ⟨h.hashed.kinds, h.hashed.pages, h.hashed.dirs⟩,
    h.carried.updateRevision fun r => (hf r).2⟩

theorem review (h : Onward hash s₀ dirty s) (actor : Actor) (status : RevisionStatus) (hstatus : status ≠ .proposed)
    (revisionId : RevisionId) : Onward hash s₀ dirty (s.review actor status revisionId) :=
  h.updateRevision fun _ => ⟨⟨rfl, rfl⟩, rfl, fun hp => absurd hp hstatus⟩

end Onward

/-! ### Operations -/

section Operations

variable {hash : String → String} {s : Store}

theorem checkVersion_ok {node : KbNode} {baseVersion : Option ℕ} (h : checkVersion node baseVersion = .ok ()) :
    node.kind = .page := by
  unfold checkVersion at h
  split at h
  · cases h
  · rename_i hpage
    exact not_not.mp hpage

theorem Onward.prepared {actor : Actor} {page : PageText} {baseVersion : Option ℕ} {nodeId : NodeId} {node : KbNode}
    {v : Store} (h : Onward hash s [] s) (htree : s.Tree) (hvalid : page.path.Valid) (hmd : page.path.IsMd)
    (hplain : ∀ dir ∈ page.path.ancestors, ¬ dir.IsMd) (hprepared : Prepared actor page baseVersion nodeId s node v) :
    Onward hash s [] v ∧ node ∈ v.nodes ∧ node.kind = .page ∧ node.path = page.path := by
  have hv := htree.prepared hvalid hprepared
  cases hprepared with
  | existing hlive hversion =>
    exact ⟨h, hv.2.1, checkVersion_ok hversion, (Store.live_liveNode hlive).2⟩
  | new hnone hdirs hintegral =>
    have hensured := h.ensured (Store.ensured_ancestors htree hvalid hdirs).1.rooted hplain hdirs
    refine ⟨hensured.append hv.1.rooted fun n hn => ?_, hv.2.1, rfl, rfl⟩
    obtain rfl := List.mem_singleton.mp hn
    exact ⟨iff_of_true rfl hmd, fun hp => absurd hp.2.2 (lt_irrefl 0), fun hkind => NodeKind.noConfusion hkind, rfl⟩

theorem Onward.written {actor : Actor} {page : PageText} {form : PageForm} {tags : Option (List String)} {node : KbNode}
    {revisionId : RevisionId} {v : Store} (h : Onward hash s [] v) (hnode : node ∈ v.nodes) (hkind : node.kind = .page)
    (hpath : node.path = page.path)
    (hrecorded : (v.addRevision (pageRevision actor page form tags node revisionId)).Integral) :
    Onward hash s [] (written hash actor page (pageRevision actor page form tags node revisionId) node v) := by
  have hadded := h.addRevision hrecorded ⟨node, hnode, rfl⟩ fun _ n hn hid => by
    rwa [Store.eq_of_getNode_of_mem h.rooted.integral (Store.getNode_of_mem h.rooted.integral hnode) hn hid]
  rw [Kb.written, ← hpath]
  split
  · exact (hadded.publish hnode hkind _ _).syncPending
  · exact hadded.syncPending

/-- Every operation but a metadata edit leaves hashes that stand and summaries that were there. -/
theorem Onward.apply (h : Onward hash s [] s) (htree : s.Tree) {op : Operation} {r : Recorded} (hplain : op.Plain r)
    (hop : ∀ actor form revisionId, op ≠ .setMeta actor form revisionId) : Onward hash s [] (op.apply hash s) := by
  rcases op.apply_cases hash s with hsame | ⟨τ, hcall, hview, hτ⟩
  · rwa [hsame]
  have hs := htree.rooted.integral
  have hnext : τ.view.Tree := hview ▸ htree.apply op
  rw [hview]
  cases op with
  | writePage actor form d =>
    obtain ⟨rev, hrun⟩ := exec_void_ok.mp hcall
    obtain ⟨page, node, tags, v, hpage, -, hprepared, rfl, hrecorded, hwritten⟩ := writePage_ok hs hrun
    obtain ⟨hvalid, hmd, -⟩ := normalizePath_ok (checkPage_ok hpage)
    obtain ⟨hv, hnode, hkind, hpath⟩ := h.prepared htree hvalid (hmd rfl) (hplain _ (checkPage_ok hpage)) hprepared
    rw [hwritten]
    exact hv.written hnode hkind hpath hrecorded
  | setMeta actor form revisionId => exact absurd rfl (hop actor form revisionId)
  | makeDir actor rawPath description d =>
    obtain ⟨nodeId, hrun⟩ := exec_void_ok.mp hcall
    obtain ⟨-, path, cleaned, hpath, hmade⟩ := makeDir_ok hs hrun
    obtain ⟨hvalid, -, hmd⟩ := normalizePath_ok hpath
    generalize τ.view = t at hmade ⊢
    cases hmade with
    | existing hlive => exact h.described
    | new hnone hdirs hintegral =>
      obtain ⟨hv, hthere⟩ := Store.ensured_ancestors htree hvalid hdirs
      have hadded := hv.addNode hintegral hvalid (fun _ => Nat.one_pos) rfl hthere
      have hensured := h.ensured hv.rooted (hplain path hpath) hdirs
      have hnew := hensured.append hadded.rooted fun n hn => by
        obtain rfl := List.mem_singleton.mp hn
        exact ⟨iff_of_false NodeKind.noConfusion (hmd rfl), fun hp => NodeKind.noConfusion hp.2.1, fun _ => rfl, rfl⟩
      refine (Onward.refreshDirHashes ⟨hnew.rooted, ⟨hnew.hashed.kinds, hnew.hashed.pages, ?_⟩, hnew.carried⟩).described
      exact fun n hn hlive hkind _ => hnew.hashed.dirs n hn hlive hkind List.not_mem_nil
  | deleteNode actor rawPath =>
    obtain ⟨count, hrun⟩ := exec_void_ok.mp hcall
    obtain ⟨-, path, hpath, hdeleted, hrefreshed⟩ := deleteNode_ok hrun
    rw [hrefreshed]
    exact (h.deleteSubtree (htree.deleteSubtree actor hdeleted).rooted).refreshDirHashes
  | approve actor revisionId =>
    obtain ⟨result, hrun⟩ := exec_void_ok.mp hcall
    obtain ⟨rev, node, hreview, hlive, happroved⟩ := approve_ok hrun
    have hnode : node ∈ s.nodes := List.mem_of_find?_eq_some hreview.page
    have hkind := h.carried.drafted rev (List.mem_of_find?_eq_some hreview.found) hreview.proposed node hnode
      (Store.nodeId_of_getNode hreview.page)
    rw [happroved, approved]
    split
    · exact (h.review actor .superseded (by decide) revisionId).syncPending
    · exact ((h.review actor .published (by decide) revisionId).publish hnode hkind _ _).syncPending
  | rejectRevision actor revisionId note =>
    obtain ⟨rev, node, hreview, hrejected⟩ := rejectRevision_ok hcall
    rw [hrejected] at hnext ⊢
    have hreviewed := h.review actor .rejected (by decide) revisionId
    have hnoted : Onward hash s [] ((s.review actor .rejected revisionId).updateRevision revisionId fun r =>
        { r with note := if Truthy note then note else r.note }) := hreviewed.updateRevision fun _ => ⟨⟨rfl, rfl⟩, rfl, id⟩
    exact hnoted.syncPending.dropEmptyPage hnext.rooted

theorem unhashed_edit (kind : Source) (description summary : Option String) :
    Unhashed fun n => (setSummary kind summary (setDescription kind description n).1).1 := by
  constructor
  all_goals
    intro n
    obtain ⟨given, source, hdescribed⟩ := setDescription_eq kind description n
    obtain ⟨given', source', sourceHash, hsummarized⟩ := setSummary_eq kind summary (setDescription kind description n).1
    rw [hsummarized, hdescribed]

theorem summary_edit (kind : Source) (description summary : Option String) (n : KbNode) :
    let described := (setDescription kind description n).1
    let summarized := setSummary kind summary described
    (summarized.2 = some .applied ∧ summarized.1.summarySourceHash = n.contentHash) ∨
      (summarized.2 ≠ some .applied ∧ summarized.1.summary = n.summary ∧
        summarized.1.summarySourceHash = n.summarySourceHash) := by
  obtain ⟨given, source, hdescribed⟩ := setDescription_eq kind description n
  dsimp only
  rw [hdescribed]
  unfold setSummary
  split
  · exact .inr ⟨nofun, rfl, rfl⟩
  · split
    · exact .inr ⟨nofun, rfl, rfl⟩
    · exact .inl ⟨rfl, rfl⟩

end Operations

/-! ### Every run -/

/-- What every run keeps: the tree, the hashes, and for every summary of a directory the pages it was written for. -/
structure Kept (hash : String → String) (r : Recorded) : Prop where
  tree : r.store.Tree
  hashed : Hashed hash [] r.store
  drafted : Drafted r.store
  noted : ∀ n ∈ r.store.nodes, n.kind = .dir → Truthy n.summary →
    ∃ pages, r.summarized n.nodeId = some pages ∧ Digests (scheme hash) n.summarySourceHash {x | x ∈ pages}

section Runs

variable {hash : String → String} {r : Recorded}

theorem Kept.onward (h : Kept hash r) : Onward hash r.store [] r.store :=
  ⟨h.tree.rooted, h.hashed, h.drafted, fun n hn hkind _ => ⟨n, hn, hkind, rfl, rfl, rfl⟩⟩

theorem Kept.freshSummaries (h : Kept hash r) (hhash : CollisionFree hash) : FreshSummaries r := by
  intro n hn hlive hkind htruthy hfresh
  obtain ⟨pages, hpages, hdigests⟩ := h.noted n hn hkind htruthy
  have hsame : n.summarySourceHash = n.contentHash := not_not.mp fun hne => hfresh ⟨htruthy, hne⟩
  rw [hsame] at hdigests
  have hnow := hdigests.unique (scheme_collisionFree hhash) (h.hashed.dirs n hn hlive hkind List.not_mem_nil)
  rw [below_published] at hnow
  exact ⟨pages, hpages, fun page => (Set.ext_iff.mp hnow page).mp, fun page => (Set.ext_iff.mp hnow page).mpr⟩

theorem Kept.setMeta (h : Kept hash r) (actor : Actor) (form : MetaForm) (revisionId : RevisionId) :
    Kept hash (r.apply hash (.setMeta actor form revisionId)) := by
  rcases hx : exec (Kb.setMeta actor form revisionId) ⟨r.store, r.store⟩ with ⟨e | result, τ⟩
  · -- a call that is rejected writes no summary
    have hcall : exec (void (Kb.setMeta actor form revisionId)) ⟨r.store, r.store⟩ = (.error e, τ) := by
      rw [void, exec_bind, hx]
    have hstore : (Operation.setMeta actor form revisionId).apply hash r.store = r.store := Operation.apply_error hcall
    have hnone : (Operation.setMeta actor form revisionId).summarizes r.store = none := by
      rw [Operation.summarizes, hx]
    have hsame : r.apply hash (.setMeta actor form revisionId) = r := by
      rw [Recorded.apply, hstore, hnone]
      simp
    rwa [hsame]
  · have hs := h.tree.rooted.integral
    obtain ⟨path, node, description, summary, hedit, hedited, hintegral, hid, happlied⟩ := setMeta_ok hx
    have hstore : (Operation.setMeta actor form revisionId).apply hash r.store = τ.view :=
      Operation.apply_eq (exec_void_ok.mpr ⟨result, hx⟩) hintegral
    have hsummarizes : (Operation.setMeta actor form revisionId).summarizes r.store =
        if result.summary = some .applied then some node.nodeId else none := by
      rw [Operation.summarizes, hx, ← hid]
    have hnode := Store.mem_of_liveNode hedit.live
    have hunhashed := unhashed_edit actor.kind description summary
    have hquiet := quiet_edit actor.kind description summary
    let edit : KbNode → KbNode := fun n => (setSummary actor.kind summary (setDescription actor.kind description n).1).1
    have hnodes : τ.view.nodes = (r.store.updateNode node.nodeId edit).nodes := by
      rw [hedited, edited, ← Store.updateNode_const hs hnode edit]
      dsimp only
      split <;> rfl
    have hpublished : τ.view.published = (r.store.updateNode node.nodeId edit).published := by
      rw [Store.published, Store.published, hnodes]
    have hupdated : Hashed hash [] (r.store.updateNode node.nodeId edit) := h.hashed.updateNode hunhashed
    have hstay : ∀ dir, below τ.view.published dir = below r.store.published dir := fun dir => by
      rw [hpublished, below_updateNode hunhashed]
    have hnext : (r.apply hash (.setMeta actor form revisionId)).store = τ.view := hstore
    refine ⟨h.tree.apply _, ?_, ?_, ?_⟩
    · rw [hnext]
      refine ⟨?_, ?_, ?_⟩
      · rw [hnodes]
        exact hupdated.kinds
      · rw [hnodes]
        exact hupdated.pages
      · rw [hnodes, hpublished]
        exact hupdated.dirs
    · rw [hnext]
      refine h.drafted.map (g := fun n => if n.nodeId = node.nodeId then edit n else n) hnodes (fun n => ?_) ?_
      · split
        exacts [⟨hquiet.nodeId n, hquiet.kind n⟩, ⟨rfl, rfl⟩]
      · intro rev hrev hproposed
        rw [hedited, edited] at hrev
        dsimp only at hrev
        split at hrev
        · rcases List.mem_append.mp hrev with hrev | hrev
          · exact ⟨rev, hrev, hproposed, rfl⟩
          · obtain rfl := List.mem_singleton.mp hrev
            cases hproposed
        · exact ⟨rev, hrev, hproposed, rfl⟩
    · intro n' hn' hkind htruthy
      rw [hnext] at hn'
      have hfound := Store.getNode_of_mem hintegral hn'
      rw [hnodes] at hn'
      obtain ⟨n, hn, hn_eq⟩ := Store.mem_updateNode.mp hn'
      show ∃ pages, (if (Operation.setMeta actor form revisionId).summarizes r.store = some n'.nodeId then
          (((Operation.setMeta actor form revisionId).apply hash r.store).getNode n'.nodeId).map fun n =>
            ((Operation.setMeta actor form revisionId).apply hash r.store).pagesBelow n.path
        else r.summarized n'.nodeId) = some pages ∧ Digests (scheme hash) n'.summarySourceHash {x | x ∈ pages}
      rw [hsummarizes, hstore]
      split at hn_eq
      · rename_i hsame
        obtain rfl : n = node :=
          Store.eq_of_getNode_of_mem hs (Store.getNode_of_mem hs hnode) hn hsame
        have hn'_id : n'.nodeId = n.nodeId := hn_eq ▸ hquiet.nodeId n
        have hn'_path : n'.path = n.path := hn_eq ▸ hunhashed.path n
        have hn_kind : n.kind = .dir := by
          rw [← hn_eq] at hkind
          exact (hquiet.kind n).symm.trans hkind
        rcases summary_edit actor.kind description summary n with ⟨hwritten, hsource⟩ | ⟨hleft, hsummary, hsource⟩
        · refine ⟨τ.view.pagesBelow n.path, ?_, ?_⟩
          · rw [happlied, if_pos hwritten, hn'_id, if_pos rfl, ← hn'_id, hfound, Option.map_some, hn'_path]
          · rw [← hn_eq, hsource, ← below_published, hstay]
            exact h.hashed.dirs n hn (Store.live_liveNode hedit.live).1 hn_kind List.not_mem_nil
        · rw [← hn_eq, hsummary] at htruthy
          rw [happlied, if_neg hleft, if_neg (Option.some_ne_none _).symm, hn'_id, ← hn_eq, hsource]
          exact h.noted n hn hn_kind htruthy
      · rename_i hother
        rw [← hn_eq] at hkind htruthy ⊢
        rw [if_neg fun heq => ?_]
        · exact h.noted n hn hkind htruthy
        · split at heq
          · exact hother (Option.some.inj heq).symm
          · cases heq

theorem Kept.step (h : Kept hash r) {op : Operation} (hplain : op.Plain r) : Kept hash (r.apply hash op) := by
  by_cases hop : ∃ actor form revisionId, op = .setMeta actor form revisionId
  · obtain ⟨actor, form, revisionId, rfl⟩ := hop
    exact h.setMeta actor form revisionId
  · have hnext := h.onward.apply h.tree hplain fun actor form revisionId heq => hop ⟨actor, form, revisionId, heq⟩
    have hnone : op.summarizes r.store = none := by
      cases op with
      | setMeta actor form revisionId => exact absurd ⟨actor, form, revisionId, rfl⟩ hop
      | _ => rfl
    refine ⟨h.tree.apply op, hnext.hashed, hnext.carried.drafted, fun n' hn' hkind htruthy => ?_⟩
    obtain ⟨n, hn, hn_kind, hid, hsummary, hsource⟩ := hnext.carried.dirs n' hn' hkind htruthy
    obtain ⟨pages, hpages, hdigests⟩ := h.noted n hn hn_kind (hsummary ▸ htruthy)
    refine ⟨pages, ?_, hsource ▸ hdigests⟩
    show (if op.summarizes r.store = some n'.nodeId then _ else r.summarized n'.nodeId) = some pages
    rw [hnone, if_neg (Option.some_ne_none _).symm, ← hid, hpages]

theorem Kept.empty : Kept hash .empty :=
  ⟨tree_empty, ⟨by simp [Recorded.empty, Store.empty], by simp [Recorded.empty, Store.empty],
    by simp [Recorded.empty, Store.empty]⟩, by simp [Drafted, Recorded.empty, Store.empty],
    by simp [Recorded.empty, Store.empty]⟩

end Runs

/-- In every run that makes no directory with the name of a page, a summary that counts as fresh was written for the pages that are below its directory. -/
theorem summaries_fresh (hash : String → String) (hhash : CollisionFree hash) (ops : List Operation) (r : Recorded)
    (hmeets : (recorded hash).Meets Operation.Plain .empty ops) (hrun : (recorded hash).run .empty ops = some r) :
    FreshSummaries r :=
  ((recorded hash).run_invariant_of_meets (P := Kept hash)
    (fun _ _ _ h hplain hstep => Option.some.inj hstep ▸ h.step hplain) .empty hmeets hrun).freshSummaries hhash

def hexDigit (n : ℕ) : Char := "0123456789abcdef".toList.getD (n % 16) '0'

def hexChar (c : Char) : List Char :=
  [hexDigit (c.toNat / 16 ^ 5), hexDigit (c.toNat / 16 ^ 4), hexDigit (c.toNat / 16 ^ 3), hexDigit (c.toNat / 16 ^ 2),
    hexDigit (c.toNat / 16), hexDigit c.toNat]

def hexHash (text : String) : String := String.ofList ('0' :: text.toList.flatMap hexChar)

theorem hexDigit_inj {m n : ℕ} (h : hexDigit m = hexDigit n) : m % 16 = n % 16 := by
  have hall : ∀ i < 16, ∀ j < 16, "0123456789abcdef".toList.getD i '0' = "0123456789abcdef".toList.getD j '0' → i = j := by
    decide
  exact hall _ (Nat.mod_lt _ (by decide)) _ (Nat.mod_lt _ (by decide)) h

theorem hexDigit_mem (n : ℕ) : hexDigit n ∈ "0123456789abcdef".toList := by
  have hall : ∀ i < 16, "0123456789abcdef".toList.getD i '0' ∈ "0123456789abcdef".toList := by decide
  exact hall _ (Nat.mod_lt _ (by decide))

theorem hexChar_inj {c d : Char} (h : hexChar c = hexChar d) : c = d := by
  simp only [hexChar, List.cons.injEq, and_true] at h
  obtain ⟨h5, h4, h3, h2, h1, h0⟩ := h
  have hbound : ∀ x : Char, x.toNat < 16 ^ 6 := fun x => by
    have hvalid : x.toNat < 0xd800 ∨ 0xdfff < x.toNat ∧ x.toNat < 0x110000 := x.valid
    omega
  have hc := hbound c
  have hd := hbound d
  have e5 := hexDigit_inj h5
  have e4 := hexDigit_inj h4
  have e3 := hexDigit_inj h3
  have e2 := hexDigit_inj h2
  have e1 := hexDigit_inj h1
  have e0 := hexDigit_inj h0
  apply Char.toNat_inj.mp
  omega

theorem flatMap_hexChar_inj {left right : List Char} (h : left.flatMap hexChar = right.flatMap hexChar) : left = right := by
  induction left generalizing right with
  | nil =>
    cases right with
    | nil => rfl
    | cons d rest => cases h
  | cons c rest ih =>
    cases right with
    | nil => cases h
    | cons d rest' =>
      rw [List.flatMap_cons, List.flatMap_cons] at h
      obtain ⟨hfirst, hrest⟩ := List.append_inj h rfl
      rw [hexChar_inj hfirst, ih hrest]

theorem hexHash_collisionFree : CollisionFree hexHash where
  injective := by
    intro left right h
    have hlist := (List.cons.inj (String.ofList_injective h)).2
    exact String.toList_inj.mp (flatMap_hexChar_inj hlist)
  hex := by
    intro text
    refine ⟨fun hempty => ?_, fun c hc => ?_⟩
    · have hlist := congrArg String.toList hempty
      rw [hexHash, String.toList_ofList] at hlist
      cases hlist
    · rw [hexHash, String.toList_ofList] at hc
      rcases List.mem_cons.mp hc with rfl | hc
      · decide
      · obtain ⟨d, -, hd⟩ := List.mem_flatMap.mp hc
        simp only [hexChar, List.mem_cons, List.not_mem_nil, or_false] at hd
        rcases hd with rfl | rfl | rfl | rfl | rfl | rfl <;> exact hexDigit_mem _

/-- The same, with short digests for the texts that are hashed below. -/
def shortHash (text : String) : String :=
  if text = "Y" then "1" else if text = "/d/x.md/y.md:1" then "2" else if text = "/d/x.md:2" then "3" else hexHash text

theorem hexHash_ne {text digest : String} (h : digest.toList.head? ≠ some '0') : digest ≠ hexHash text := by
  rintro rfl
  rw [hexHash, String.toList_ofList] at h
  exact h rfl

theorem shortHash_cases (text : String) :
    text = "Y" ∧ shortHash text = "1" ∨ text = "/d/x.md/y.md:1" ∧ shortHash text = "2" ∨
      text = "/d/x.md:2" ∧ shortHash text = "3" ∨ shortHash text = hexHash text := by
  unfold shortHash
  split_ifs with hfirst hsecond hthird
  · exact .inl ⟨hfirst, rfl⟩
  · exact .inr (.inl ⟨hsecond, rfl⟩)
  · exact .inr (.inr (.inl ⟨hthird, rfl⟩))
  · exact .inr (.inr (.inr rfl))

theorem shortHash_collisionFree : CollisionFree shortHash where
  injective := by
    intro left right h
    rcases shortHash_cases left with ⟨hleft, hl⟩ | ⟨hleft, hl⟩ | ⟨hleft, hl⟩ | hl <;>
      rcases shortHash_cases right with ⟨hright, hr⟩ | ⟨hright, hr⟩ | ⟨hright, hr⟩ | hr <;> rw [hl, hr] at h
    exacts [hleft.trans hright.symm, absurd h (by decide), absurd h (by decide), absurd h (hexHash_ne (by decide)),
      absurd h (by decide), hleft.trans hright.symm, absurd h (by decide), absurd h (hexHash_ne (by decide)),
      absurd h (by decide), absurd h (by decide), hleft.trans hright.symm, absurd h (hexHash_ne (by decide)),
      absurd h.symm (hexHash_ne (by decide)), absurd h.symm (hexHash_ne (by decide)),
      absurd h.symm (hexHash_ne (by decide)), hexHash_collisionFree.injective h]
  hex := by
    intro text
    rcases shortHash_cases text with ⟨-, h⟩ | ⟨-, h⟩ | ⟨-, h⟩ | h <;> rw [h]
    · exact hex_of_all (by decide) (by decide)
    · exact hex_of_all (by decide) (by decide)
    · exact hex_of_all (by decide) (by decide)
    · exact hexHash_collisionFree.hex text

def curator : Actor := .human "hu_curator" (by decide) true

/-- A page whose content is the listing of a directory with one page in it, and a summary of the page's directory. -/
def summarized : List Operation :=
  [.writePage curator { path := "/d/x.md", content := "/d/x.md/y.md:1" } ⟨"n_x", "r_1", fun _ => "n_d"⟩,
    .setMeta curator { path := "/d", summary := some "One page.", contentHash := some "3" } "r_2"]

/-- The page goes, and a directory with its name comes with another page in it. -/
def replaced : List Operation :=
  [.deleteNode curator "/d/x.md",
    .writePage curator { path := "/d/x.md/y.md", content := "Y" } ⟨"n_y", "r_3", fun _ => "n_x_dir"⟩]

theorem summaries_fresh_one_page : ∃ r, (recorded shortHash).run .empty summarized = some r ∧ FreshSummaries r := by
  obtain ⟨r, hrun⟩ : ∃ r, (recorded shortHash).run .empty summarized = some r :=
    Option.isSome_iff_exists.mp (by decide +kernel)
  have hpath : normalizePath "/d/x.md" (some .page) = .ok [['d'], "x.md".toList] := by decide +kernel
  have hplain : PlainDirs "/d/x.md" .page := by
    intro path hnormalized
    obtain rfl := Except.ok.inj (hpath.symm.trans hnormalized)
    decide +kernel
  exact ⟨r, hrun, summaries_fresh shortHash shortHash_collisionFree summarized r
    ⟨hplain, fun _ _ => ⟨trivial, fun _ _ => trivial⟩⟩ hrun⟩

theorem summary_silently_stale : ∃ r ∈ (recorded shortHash).run .empty (summarized ++ replaced), ¬ FreshSummaries r := by
  decide +kernel

end BotCord.Kb
