import BotCord.Kb.Specs

/-!
# Agents and the text of humans

An agent is to leave the descriptions that a human wrote, and the summaries that a human wrote and that are fresh for the content after the agent's operation. The metadata path leaves both. The publishing path leaves the description, but writes the summary of the revision over whatever summary is there; a human's summary is lost exactly when the content published is the content it was written for.
-/

namespace BotCord.Kb

open Transaction

/-- What an agent leaves of a node: `n'` is the node after the operation. -/
structure Keeps (n n' : KbNode) : Prop where
  description : n.descriptionSource = some .human → n'.description = n.description
  summary : n.summarySource = some .human → n.summarySourceHash = n'.contentHash → n'.summary = n.summary

def KeepsHumanText (s s' : Store) : Prop :=
  ∀ nodeId n, s.getNode nodeId = some n → ∃ n', s'.getNode nodeId = some n' ∧ Keeps n n'

/-- An operation of an agent, or a review of what an agent wrote. -/
def Operation.ByAgent (s : Store) : Operation → Prop
  | .writePage actor _ _ | .setMeta actor _ _ | .makeDir actor _ _ _ | .deleteNode actor _ | .rejectRevision actor _ _ =>
    actor.kind = .agent
  | .approve actor revisionId =>
    actor.kind = .agent ∨
      ∃ rev author, s.getRevision revisionId = some rev ∧ rev.author = Actor.id author ∧ author.kind = .agent

/-- A human's summary of just this content, and another summary that comes with it. -/
def Replaces (hash : String → String) (content : String) (summary : Option String) (n : KbNode) : Prop :=
  n.summarySource = some .human ∧ n.summarySourceHash = some (hash content) ∧ Truthy summary ∧ summary ≠ n.summary

/-- The operation publishes, on a page with a fresh human summary, the content that is summarized with another summary. -/
def Operation.Overwrites (hash : String → String) (s : Store) : Operation → Prop
  | .writePage actor form d => ∃ page node tags, checkPage actor form = .ok page ∧ cleanTags form.tags = .ok tags ∧
      s.liveNode page.path = some node ∧ checkVersion node form.baseVersion = .ok () ∧ Publishes actor page.path ∧
      s.getRevision d.revisionId = none ∧ page.title.length ≤ 256 ∧ Replaces hash form.content page.summary node
  | .approve actor revisionId => ∃ rev node, Reviewable actor revisionId s rev node ∧ node.Live ∧
      rev.baseVersion = node.version ∧ Replaces hash (rev.content.getD "") rev.summary node
  | _ => False

theorem Keeps.of_text {n n' : KbNode} (hdescription : n'.description = n.description) (hsummary : n'.summary = n.summary) :
    Keeps n n' :=
  ⟨fun _ => hdescription, fun _ _ => hsummary⟩

theorem KeepsHumanText.refl (s : Store) : KeepsHumanText s s := fun _ n hn => ⟨n, hn, .of_text rfl rfl⟩

variable {rev : KbRevision}

theorem keeps_applyContent {hash : String → String} {n : KbNode}
    (h : ¬ Replaces hash (rev.content.getD "") rev.summary n) : Keeps n (applyContent hash rev .agent n) := by
  constructor
  · intro hhuman
    rw [Store.description_applyContent, if_neg fun hwrites => hwrites.2 ⟨rfl, hhuman⟩]
  · intro hhuman hfresh
    rw [Store.contentHash_applyContent] at hfresh
    rw [Store.summary_applyContent]
    split
    · rename_i hgiven
      by_contra hother
      exact h ⟨hhuman, hfresh, hgiven, hother⟩
    · rfl

theorem not_keeps_applyContent {hash : String → String} {kind : Source} {n : KbNode}
    (h : Replaces hash (rev.content.getD "") rev.summary n) : ¬ Keeps n (applyContent hash rev kind n) := by
  obtain ⟨hhuman, hfresh, hgiven, hother⟩ := h
  intro hkeeps
  have hsummary := hkeeps.summary hhuman (by rw [Store.contentHash_applyContent, hfresh])
  rw [Store.summary_applyContent, if_pos hgiven] at hsummary
  exact hother hsummary

theorem keeps_setMeta (description summary : Option String) (n : KbNode) :
    Keeps n (setSummary .agent summary (setDescription .agent description n).1).1 := by
  constructor
  · intro hhuman
    cases description <;> cases summary <;> simp [setDescription, setSummary, hhuman] <;> split <;> rfl
  · intro hhuman hfresh
    cases description <;> cases summary <;> simp only [setDescription, setSummary] at hfresh ⊢ <;> split_ifs at hfresh ⊢ <;>
      simp_all

/-- A publication on the page of an agent's revision, in a store that began with the nodes of `s`. -/
theorem keeps_publish {hash : String → String} {s : Store} (hs : s.Integral) {node : KbNode}
    (hnode : s.getNode node.nodeId = some node) :
    KeepsHumanText s (s.publish hash rev .agent node.nodeId node.path) ↔
      ¬ Replaces hash (rev.content.getD "") rev.summary node := by
  have hself := Store.getNode_publish_self hs hash rev .agent hnode
  constructor
  · intro hkeeps hreplaces
    obtain ⟨n', hn', hkept⟩ := hkeeps _ _ hnode
    rw [hself] at hn'
    exact not_keeps_applyContent hreplaces (Option.some.inj hn' ▸ hkept)
  · intro hreplaces nodeId n hn
    by_cases hid : nodeId = node.nodeId
    · subst hid
      obtain rfl := Option.some.inj (hn.symm.trans hnode)
      exact ⟨_, hself, keeps_applyContent hreplaces⟩
    · obtain ⟨contentHash, hget⟩ := Store.getNode_publish_other hs hash rev .agent node.path hn hid
      exact ⟨_, hget, .of_text rfl rfl⟩

theorem keeps_syncPending {s t : Store} {nodeId : NodeId} : KeepsHumanText s (t.syncPending nodeId) ↔ KeepsHumanText s t := by
  have hget : ∀ other, (t.syncPending nodeId).getNode other = _ := fun other => Store.getNode_updateNode fun _ hn => hn
  constructor
  · intro hkeeps other n hn
    obtain ⟨n', hn', hkept⟩ := hkeeps other n hn
    rw [hget, Option.map_eq_some_iff] at hn'
    obtain ⟨m, hm, rfl⟩ := hn'
    refine ⟨m, hm, ?_⟩
    split at hkept
    · exact ⟨hkept.description, hkept.summary⟩
    · exact hkept
  · intro hkeeps other n hn
    obtain ⟨n', hn', hkept⟩ := hkeeps other n hn
    rw [hget, hn', Option.map_some]
    refine ⟨_, rfl, ?_⟩
    split
    · exact ⟨hkept.description, hkept.summary⟩
    · exact hkept

/-- A page that was made for the write, and its directories, are not among the nodes that were there. -/
theorem keeps_new {actor : Actor} {page : PageText} {nodeId : NodeId} {s v w : Store}
    (hdirs : Ensured actor page.path.ancestors s v) (hw : w.Integral)
    (hnodes : w.nodes = (v.addNode (newPage actor page nodeId)).nodes) :
    KeepsHumanText s w ∧ ∀ hash rev kind, KeepsHumanText s (w.publish hash rev kind nodeId page.path) := by
  obtain ⟨added, rfl, -⟩ := hdirs.added
  have hkept : ∀ other n, s.getNode other = some n → w.getNode other = some n := by
    intro other n hn
    rw [Store.getNode, hnodes]
    refine Store.getNode_addNode_of_some (s := { s with nodes := s.nodes ++ added }) ?_
    show (s.nodes ++ added).find? _ = _
    rw [List.find?_append, show s.nodes.find? _ = some n from hn, Option.some_or]
  refine ⟨fun other n hn => ⟨n, hkept other n hn, .of_text rfl rfl⟩, fun hash rev kind other n hn => ?_⟩
  have hne : other ≠ nodeId := by
    rintro rfl
    have hids := hw.node_ids
    rw [hnodes, Store.addNode, List.map_append, List.map_singleton] at hids
    refine (List.nodup_append.mp hids).2.2 other ?_ other (List.mem_singleton_self _) rfl
    exact List.mem_map.mpr ⟨n, List.mem_append_left _ (List.mem_of_find?_eq_some hn), Store.nodeId_of_getNode hn⟩
  obtain ⟨contentHash, hget⟩ := Store.getNode_publish_other hw hash rev kind page.path (hkept other n hn) hne
  exact ⟨_, hget, .of_text rfl rfl⟩

section Operations

variable {hash : String → String} {s : Store}

variable {revisionId : RevisionId} {actor : Actor}

theorem keeps_written (hactor : actor.kind = .agent) {page : PageText} {form : PageForm}
    {tags : Option (List String)} {node : KbNode} (hs : s.Integral) (hlive : s.liveNode page.path = some node)
    (hrecorded : (s.addRevision (pageRevision actor page form tags node revisionId)).Integral) :
    KeepsHumanText s (written hash actor page (pageRevision actor page form tags node revisionId) node s) ↔
      ¬ (Publishes actor page.path ∧ Replaces hash form.content page.summary node) := by
  have hnode := Store.getNode_of_mem hs (Store.mem_of_liveNode hlive)
  have hpath := (Store.live_liveNode hlive).2
  rw [written, keeps_syncPending]
  split
  · rename_i hpublishes
    rw [hactor, ← hpath]
    refine (keeps_publish (s := s.addRevision _) hrecorded hnode).trans ?_
    rw [hpath]
    exact not_congr ⟨fun hreplaces => ⟨hpublishes, hreplaces⟩, fun h => h.2⟩
  · rename_i hpublishes
    exact iff_of_true (KeepsHumanText.refl s) fun h => hpublishes h.1

theorem writePage_keeps (hactor : actor.kind = .agent) {form : PageForm} {d : Draw} (hs : s.Integral) :
    KeepsHumanText s ((Operation.writePage actor form d).apply hash s) ↔
      ¬ (Operation.writePage actor form d).Overwrites hash s := by
  constructor
  · rintro hkeeps ⟨page, node, tags, hpage, htags, hlive, hversion, hpublishes, hfresh, htitle, hreplaces⟩
    have hrun : exec (Kb.writePage hash actor form d) ⟨s, s⟩ = _ := writePage_runs hs hpage htags hlive hversion hfresh htitle
    have hrecorded : (s.addRevision (pageRevision actor page form tags node d.revisionId)).Integral :=
      hs.addRevision hfresh fun _ ht => Option.some.inj ht ▸ htitle
    have hwritten : (written hash actor page (pageRevision actor page form tags node d.revisionId) node s).Integral := by
      rw [written, if_pos hpublishes]
      exact (hrecorded.publish _ _ _ _ _).syncPending _
    have happly : (Operation.writePage actor form d).apply hash s = _ :=
      Operation.apply_eq (exec_void_ok.mpr ⟨_, hrun⟩) hwritten
    rw [happly, keeps_written hactor hs hlive hrecorded] at hkeeps
    exact hkeeps ⟨hpublishes, hreplaces⟩
  · intro hnot
    rcases Operation.apply_cases hash (.writePage actor form d) s with hsame | ⟨τ, hcall, hview, -⟩
    · rw [hsame]
      exact .refl s
    · obtain ⟨rev, hrun⟩ := exec_void_ok.mp hcall
      obtain ⟨page, node, tags, v, hpage, htags, hprepared, rfl, hrecorded, hwritten⟩ := writePage_ok hs hrun
      rw [hview, hwritten]
      cases hprepared with
      | existing hlive hversion =>
        have hfresh : s.getRevision d.revisionId = none := Store.getRevision_of_addRevision hrecorded
        have htitle := hrecorded.titles _ (List.mem_append_right _ (List.mem_singleton_self _)) page.title rfl
        refine (keeps_written hactor hs hlive hrecorded).mpr fun h => hnot ?_
        exact ⟨page, node, tags, hpage, htags, hlive, hversion, h.1, hfresh, htitle, h.2⟩
      | new hnone hdirs hintegral =>
        rw [written, keeps_syncPending]
        split
        · exact (keeps_new hdirs hrecorded rfl).2 _ _ _
        · exact (keeps_new hdirs hrecorded rfl).1

theorem setMeta_keeps (hactor : actor.kind = .agent) {form : MetaForm}
    (hs : s.Integral) : KeepsHumanText s ((Operation.setMeta actor form revisionId).apply hash s) := by
  rcases Operation.apply_cases hash (.setMeta actor form revisionId) s with hsame | ⟨τ, hcall, hview, -⟩
  · rw [hsame]
    exact .refl s
  · obtain ⟨result, hrun⟩ := exec_void_ok.mp hcall
    obtain ⟨path, node, description, summary, hedit, hedited, -⟩ := setMeta_ok hrun
    have hnode := Store.getNode_of_mem hs (Store.mem_of_liveNode hedit.live)
    rw [hview, hedited, edited, hactor]
    dsimp only
    have hkeeps : KeepsHumanText s
        (s.updateNode node.nodeId fun _ => (setSummary .agent summary (setDescription .agent description node).1).1) := by
      have hid : (setSummary .agent summary (setDescription .agent description node).1).1.nodeId = node.nodeId := by
        rw [nodeId_setSummary, nodeId_setDescription]
      intro nodeId n hn
      by_cases hsame : nodeId = node.nodeId
      · subst hsame
        obtain rfl := Option.some.inj (hn.symm.trans hnode)
        exact ⟨_, Store.getNode_updateNode_self (fun _ _ => hid) hn, keeps_setMeta description summary n⟩
      · exact ⟨n, Store.getNode_updateNode_other (fun _ _ => hid) hn hsame, .of_text rfl rfl⟩
    split
    · exact hkeeps
    · exact hkeeps

theorem keeps_approved {actor author : Actor} {rev : KbRevision} {node : KbNode} (hs : s.Integral)
    (h : Reviewable actor revisionId s rev node) (hauthor : rev.author = author.id) (hagent : author.kind = .agent) :
    KeepsHumanText s (approved hash actor rev node revisionId s) ↔
      ¬ (rev.baseVersion = node.version ∧ Replaces hash (rev.content.getD "") rev.summary node) := by
  have hnode : s.getNode node.nodeId = some node := Store.nodeId_of_getNode h.page ▸ h.page
  rw [approved, keeps_syncPending]
  split
  · rename_i hstale
    exact iff_of_true (KeepsHumanText.refl s) fun hcurrent => hstale hcurrent.1
  · rename_i hcurrent
    rw [hauthor, authorKind_id, hagent]
    refine (keeps_publish (s := s.review actor .published revisionId) (hs.review _ _ _) hnode).trans ?_
    exact not_congr ⟨fun hreplaces => ⟨not_not.mp hcurrent, hreplaces⟩, fun h => h.2⟩

theorem approve_keeps {actor author : Actor} {rev : KbRevision} (hs : s.Integral)
    (hrev : s.getRevision revisionId = some rev) (hauthor : rev.author = author.id) (hagent : author.kind = .agent) :
    KeepsHumanText s ((Operation.approve actor revisionId).apply hash s) ↔
      ¬ (Operation.approve actor revisionId).Overwrites hash s := by
  constructor
  · rintro hkeeps ⟨found, node, hreview, hlive, hbase, hreplaces⟩
    obtain rfl := Option.some.inj (hrev.symm.trans hreview.found)
    have happroved : (approved hash actor rev node revisionId s).Integral := by
      rw [approved, if_neg fun hstale => hstale hbase]
      exact ((hs.review _ _ _).publish _ _ _ _ _).syncPending _
    have happly : (Operation.approve actor revisionId).apply hash s = _ :=
      Operation.apply_eq (exec_void_ok.mpr ⟨_, approve_runs hs hreview hlive hbase⟩) happroved
    rw [happly, keeps_approved hs hreview hauthor hagent] at hkeeps
    exact hkeeps ⟨hbase, hreplaces⟩
  · intro hnot
    rcases Operation.apply_cases hash (.approve actor revisionId) s with hsame | ⟨τ, hcall, hview, -⟩
    · rw [hsame]
      exact .refl s
    · obtain ⟨result, hrun⟩ := exec_void_ok.mp hcall
      obtain ⟨found, node, hreview, hlive, happroved⟩ := approve_ok hrun
      obtain rfl := Option.some.inj (hrev.symm.trans hreview.found)
      rw [hview, happroved, keeps_approved hs hreview hauthor hagent]
      exact fun h => hnot ⟨rev, node, hreview, hlive, h.1, h.2⟩

theorem apply_eq_self_of_agent (hactor : actor.kind = .agent) {op : Operation} (hs : s.Integral)
    (hop : (∃ path description d, op = .makeDir actor path description d) ∨ (∃ path, op = .deleteNode actor path) ∨
      (∃ revisionId note, op = .rejectRevision actor revisionId note) ∨ ∃ revisionId, op = .approve actor revisionId) :
    op.apply hash s = s := by
  have hnot : ¬ actor.canPublish = true := by
    cases actor with
    | agent id named => exact Bool.false_ne_true
    | human id named publisher => cases hactor
  rcases op.apply_cases hash s with hsame | ⟨τ, hcall, -, -⟩
  · exact hsame
  · rcases hop with ⟨path, description, d, rfl⟩ | ⟨path, rfl⟩ | ⟨revisionId, note, rfl⟩ | ⟨revisionId, rfl⟩
    · obtain ⟨nodeId, hrun⟩ := exec_void_ok.mp hcall
      exact absurd (makeDir_ok hs hrun).1 hnot
    · obtain ⟨count, hrun⟩ := exec_void_ok.mp hcall
      exact absurd (deleteNode_ok hrun).1 hnot
    · obtain ⟨rev, node, hreview, -⟩ := rejectRevision_ok hcall
      exact absurd hreview.publisher hnot
    · obtain ⟨result, hrun⟩ := exec_void_ok.mp hcall
      obtain ⟨rev, node, hreview, -⟩ := approve_ok hrun
      exact absurd hreview.publisher hnot

/-- One operation: an agent's operation keeps what humans wrote exactly when it does not overwrite a fresh summary. -/
theorem apply_keeps (hs : s.Integral) {op : Operation} (hagent : op.ByAgent s) :
    KeepsHumanText s (op.apply hash s) ↔ ¬ op.Overwrites hash s := by
  cases op with
  | writePage actor form d => exact writePage_keeps hagent hs
  | setMeta actor form revisionId => exact iff_of_true (setMeta_keeps hagent hs) id
  | makeDir actor path description d =>
    have hsame : (Operation.makeDir actor path description d).apply hash s = s :=
      apply_eq_self_of_agent hagent hs (.inl ⟨path, description, d, rfl⟩)
    exact iff_of_true (by rw [hsame]; exact .refl s) id
  | deleteNode actor path =>
    have hsame : (Operation.deleteNode actor path).apply hash s = s :=
      apply_eq_self_of_agent hagent hs (.inr (.inl ⟨path, rfl⟩))
    exact iff_of_true (by rw [hsame]; exact .refl s) id
  | rejectRevision actor revisionId note =>
    have hsame : (Operation.rejectRevision actor revisionId note).apply hash s = s :=
      apply_eq_self_of_agent hagent hs (.inr (.inr (.inl ⟨revisionId, note, rfl⟩)))
    exact iff_of_true (by rw [hsame]; exact .refl s) id
  | approve actor revisionId =>
    rcases hagent with hactor | ⟨rev, author, hrev, hauthor, hagent⟩
    · have hsame : (Operation.approve actor revisionId).apply hash s = s :=
        apply_eq_self_of_agent hactor hs (.inr (.inr (.inr ⟨revisionId, rfl⟩)))
      refine iff_of_true (by rw [hsame]; exact .refl s) ?_
      rintro ⟨rev, node, hreview, -⟩
      cases actor with
      | agent id named => exact absurd hreview.publisher Bool.false_ne_true
      | human id named publisher => cases hactor
    · exact approve_keeps hs hrev hauthor hagent

end Operations

/-- In every reachable space, an operation of an agent or an approval of an agent's draft keeps the text of humans exactly when it does not publish, with another summary, the content that a human's fresh summary is for. -/
theorem agent_keeps_human_text (hash : String → String) (ops : List Operation) (s : Store) (op : Operation)
    (hrun : (service hash).run .empty ops = some s) (hagent : op.ByAgent s) :
    KeepsHumanText s (op.apply hash s) ↔ ¬ op.Overwrites hash s :=
  apply_keeps (integral_run hrun) hagent

def owner : Actor := .human "hu_owner" (by decide) true
def writer : Actor := .agent "ag_writer" (by decide)

/-- The digest of the one text that is hashed here. -/
def planHash (text : String) : String :=
  if text = "Plan" then "fa8ed0bdabdd6bcb1c0746f1d3e15212f7f3439d74339fbaaf16c60c0a80fb8e" else ""

/-- A page of the owner with a summary, and an agent's draft of the same content with another one. -/
def sameContent : List Operation :=
  [.writePage owner { path := "/plan.md", content := "Plan", summary := some "By a human." } ⟨"n_1", "r_1", fun _ => ""⟩,
    .writePage writer
      { path := "/plan.md", content := "Plan", description := some "The plan.", summary := some "By an agent."
        baseVersion := some 1 }
      ⟨"n_2", "r_2", fun _ => ""⟩]

theorem agent_keeps_human_text_draft : ∃ s, (service planHash).run .empty (sameContent.take 1) = some s ∧
    (KeepsHumanText s ((sameContent[1]).apply planHash s) ↔ ¬ (sameContent[1]).Overwrites planHash s) :=
  ⟨_, rfl, agent_keeps_human_text planHash (sameContent.take 1) _ sameContent[1] rfl rfl⟩

/-- The owner approves the draft, and the human's summary of the same content is gone. -/
theorem fresh_summary_lost : ∃ s, (service planHash).run .empty sameContent = some s ∧
    (Operation.approve owner "r_2").ByAgent s ∧
    ¬ KeepsHumanText s ((Operation.approve owner "r_2").apply planHash s) := by
  refine ⟨_, rfl, .inr ⟨_, writer, rfl, rfl, rfl⟩, fun h => ?_⟩
  obtain ⟨n', hn', hkeeps⟩ := h "n_1" _ rfl
  obtain rfl := Option.some.inj hn'
  have hsummary := hkeeps.summary (by decide +kernel) (by decide +kernel)
  exact absurd hsummary (by decide +kernel)

end BotCord.Kb
