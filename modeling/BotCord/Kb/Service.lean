import BotCord.Foundation.Run
import BotCord.Foundation.Table
import BotCord.Foundation.Transaction
import BotCord.Kb.Path
import Mathlib.Data.List.Sort

/-!
# The knowledge base service

The writes and the review of `hub/services/kb.py`, function by function. `hash` is `_hash`, the hex digest of a text's SHA-256; the ids a call generates are its arguments. An operation runs in one transaction: an error rolls it back, except the stale draft of `approve`, whose mark is committed with the error response.
-/

/-!
## The knowledge base tables

The rows of `kb_nodes` and `kb_revisions` of one space, as `hub/models.py` has them. A node is deleted softly: it keeps its row, and another node may take its path. Times are left out but for whether `deleted_at` is set.
-/

namespace BotCord.Kb

abbrev NodeId := String
abbrev RevisionId := String

inductive Source
  | human | agent
deriving DecidableEq

inductive RevisionKind
  | content | metadata

inductive RevisionStatus
  | proposed | published | rejected | superseded
deriving DecidableEq

def RevisionStatus.value : RevisionStatus → String
  | proposed => "proposed"
  | published => "published"
  | rejected => "rejected"
  | superseded => "superseded"

structure KbNode where
  nodeId : NodeId
  path : Path
  kind : NodeKind
  title : Option String := none
  description : Option String := none
  descriptionSource : Option Source := none
  summary : Option String := none
  summarySource : Option Source := none
  summarySourceHash : Option String := none
  tags : List String := []
  content : Option String := none
  contentHash : Option String := none
  sizeBytes : ℕ := 0
  version : ℕ := 0
  publishedRevisionId : Option RevisionId := none
  pendingCount : ℕ := 0
  sourceRefs : List String := []
  createdBy : String
  updatedBy : String
  deleted : Bool := false

structure KbRevision where
  revisionId : RevisionId
  nodeId : NodeId
  baseVersion : ℕ
  kind : RevisionKind := .content
  title : Option String := none
  description : Option String := none
  summary : Option String := none
  tags : Option (List String) := none
  content : Option String := none
  sourceRefs : Option (List String) := none
  status : RevisionStatus
  author : String
  reviewer : Option String := none
  note : Option String := none

structure Store where
  nodes : List KbNode := []
  revisions : List KbRevision := []

/-- Who acts, under an id of its kind. An agent never publishes; a human does as an owner or admin of the space. -/
inductive Actor
  | agent (id : String) (named : "ag_".toList <+: id.toList)
  | human (id : String) (named : "hu_".toList <+: id.toList) (publisher : Bool)

namespace Actor

def id : Actor → String
  | agent id _ => id
  | human id _ _ => id

def kind : Actor → Source
  | agent _ _ => .agent
  | human _ _ _ => .human

def canPublish : Actor → Bool
  | agent _ _ => false
  | human _ _ publisher => publisher

end Actor

/-- A text that counts as given: `None` and the empty text do not. -/
def Truthy (text : Option String) : Prop := ∃ value ∈ text, value ≠ ""
deriving Decidable

/-- `summary_stale` -/
def summaryStale (node : KbNode) : Prop := Truthy node.summary ∧ node.summarySourceHash ≠ node.contentHash
deriving Decidable

def KbNode.Live (node : KbNode) : Prop := node.deleted = false
deriving Decidable

def KbNode.Published (node : KbNode) : Prop := node.Live ∧ node.kind = .page ∧ 0 < node.version
deriving Decidable

namespace Store

/-- The keys of the tables, the partial index on the live paths, and the width of a title, which a page has from its revision. -/
structure Integral (s : Store) : Prop where
  node_ids : (s.nodes.map KbNode.nodeId).Nodup
  live_paths : ((s.nodes.filter (KbNode.Live ·)).map KbNode.path).Nodup
  revision_ids : (s.revisions.map KbRevision.revisionId).Nodup
  titles : ∀ r ∈ s.revisions, ∀ title ∈ r.title, title.length ≤ 256

instance (s : Store) : Decidable s.Integral :=
  decidable_of_iff ((s.nodes.map KbNode.nodeId).Nodup ∧ ((s.nodes.filter (KbNode.Live ·)).map KbNode.path).Nodup ∧
      (s.revisions.map KbRevision.revisionId).Nodup ∧ ∀ r ∈ s.revisions, ∀ title ∈ r.title, title.length ≤ 256)
    ⟨fun ⟨a, b, c, e⟩ => ⟨a, b, c, e⟩, fun ⟨a, b, c, e⟩ => ⟨a, b, c, e⟩⟩

def constraints (s : Store) : Except Error Unit := if s.Integral then .ok () else .error .integrity

theorem constraints_ok {s : Store} : s.constraints = .ok () ↔ s.Integral := by
  rw [constraints]
  split <;> simp [*]

/-- `_live_node` -/
def liveNode (s : Store) (path : Path) : Option KbNode := s.nodes.find? fun n => n.Live ∧ n.path = path

def getNode (s : Store) (nodeId : NodeId) : Option KbNode := s.nodes.find? (·.nodeId = nodeId)

def getRevision (s : Store) (revisionId : RevisionId) : Option KbRevision :=
  s.revisions.find? (·.revisionId = revisionId)

def subtree (s : Store) (path : Path) : List KbNode := s.nodes.filter fun n => n.Live ∧ Path.Under path n.path

def addNode (s : Store) (n : KbNode) : Store := { s with nodes := s.nodes ++ [n] }

def updateNode (s : Store) (nodeId : NodeId) (f : KbNode → KbNode) : Store :=
  { s with nodes := Table.update (·.nodeId = nodeId) f s.nodes }

def addRevision (s : Store) (r : KbRevision) : Store := { s with revisions := s.revisions ++ [r] }

def updateRevision (s : Store) (revisionId : RevisionId) (f : KbRevision → KbRevision) : Store :=
  { s with revisions := Table.update (·.revisionId = revisionId) f s.revisions }

/-- The knowledge base before anything was written. -/
def empty : Store := {}

end Store

end BotCord.Kb

namespace BotCord.Kb

open Transaction

abbrev Tx (α : Type) := Transaction Store Error α

def maxPageBytes : ℕ := 50000
def maxTitleLen : ℕ := 256
def maxDescriptionLen : ℕ := 200
def maxSummaryLen : ℕ := 500
def maxTags : ℕ := 16

/-- `ARCHIVE_PREFIX`: agents publish below it. -/
def InArchive (path : Path) : Prop := "/archive/".toList <+: path.text
deriving Decidable

def flushStore : Tx Unit := flush Store.constraints

def cleanText (value : Option String) (limit : ℕ) (code : String) : Except Error (Option String) :=
  match value with
  | none => .ok none
  | some text =>
    let text := strip text.toList
    if limit < text.length then .error (reject code 400 none)
    else .ok (if text = [] then none else some (String.ofList text))

/-- The loop of `_clean_tags`: tags already kept are dropped, and the kept ones cut to 64 characters. -/
def keepTags : List String → List String → List String
  | cleaned, [] => cleaned
  | cleaned, tag :: rest =>
    let tag := strip tag.toList
    if tag ≠ [] ∧ String.ofList tag ∉ cleaned then keepTags (cleaned ++ [String.ofList (tag.take 64)]) rest
    else keepTags cleaned rest

def cleanTags : Option (List String) → Except Error (Option (List String))
  | none => .ok none
  | some tags =>
    let cleaned := keepTags [] tags
    if maxTags < cleaned.length then .error (reject "kb_too_many_tags" 400 none) else .ok (some cleaned)

/-- The children of a directory that its hash covers: directories and published pages, sorted by path. -/
def children (s : Store) (dir : Path) : List KbNode :=
  (s.nodes.filter fun n => n.Live ∧ n.path.parentOf = dir ∧ (n.kind = .dir ∨ 0 < n.version)).insertionSort
    fun a b => String.ofList a.path.text ≤ String.ofList b.path.text

def line (path : Path) (contentHash : Option String) : List Char :=
  path.text ++ ':' :: (contentHash.getD "").toList

def listing (s : Store) (dir : Path) : String :=
  String.ofList (['\n'].intercalate ((children s dir).map fun c => line c.path c.contentHash))

section Hash

variable (hash : String → String)

def refreshDir (s : Store) (dir : Path) : Store :=
  match s.liveNode dir with
  | none => s
  | some node =>
    if node.kind = .dir then s.updateNode node.nodeId fun n => { n with contentHash := some (hash (listing s dir)) }
    else s

def Store.refreshDirHashes (s : Store) (path : Path) : Store := path.ancestors.reverse.foldl (refreshDir hash) s

def refreshDirHashes (path : Path) : Tx Unit := do
  modifyView (·.refreshDirHashes hash path)
  flushStore

def newDir (actor : Actor) (path : Path) (nodeId : NodeId) : KbNode :=
  { nodeId, path, kind := .dir, version := 1, createdBy := actor.id, updatedBy := actor.id }

/-- The loop of `_ensure_dirs`; the `k`th directory that is missing gets the id `dirIds k`. -/
def ensureDirs (actor : Actor) (dirIds : ℕ → NodeId) : ℕ → List Path → Tx Unit
  | _, [] => return ()
  | k, dir :: rest => do
    match (← view).liveNode dir with
    | none =>
      modifyView (·.addNode (newDir actor dir (dirIds k)))
      flushStore
      ensureDirs actor dirIds (k + 1) rest
    | some existing =>
      require (existing.kind = .dir)
        (reject "kb_parent_is_page" 409 (some (.text "path" (some (String.ofList dir.text)))))
      ensureDirs actor dirIds (k + 1) rest

def Store.syncPending (s : Store) (nodeId : NodeId) : Store :=
  let pendingCount := (s.revisions.filter fun r => r.nodeId = nodeId ∧ r.status = .proposed).length
  s.updateNode nodeId fun n => { n with pendingCount }

def syncPending (nodeId : NodeId) : Tx Unit := modifyView (·.syncPending nodeId)

/-- `_apply_content`, for an actor of the given kind. -/
def applyContent (rev : KbRevision) (kind : Source) (node : KbNode) : KbNode :=
  let content := rev.content.getD ""
  let contentHash := hash content
  let node := { node with
    title := rev.title, content := some content, contentHash := some contentHash
    sizeBytes := content.utf8ByteSize, tags := rev.tags.getD node.tags
    sourceRefs := rev.sourceRefs.getD node.sourceRefs }
  let node :=
    if Truthy rev.description ∧ ¬ (kind = .agent ∧ node.descriptionSource = some .human) then
      { node with description := rev.description, descriptionSource := some kind }
    else node
  let node :=
    if Truthy rev.summary then
      { node with summary := rev.summary, summarySource := some kind, summarySourceHash := some contentHash }
    else node
  { node with
    version := node.version + 1, publishedRevisionId := some rev.revisionId, updatedBy := rev.author }

structure PageForm where
  path : String
  content : String
  title : Option String := none
  description : Option String := none
  summary : Option String := none
  tags : Option (List String) := none
  sourceRefs : Option (List String) := none
  baseVersion : Option ℕ := none
  note : Option String := none

/-- The ids one write generates. -/
structure Draw where
  nodeId : NodeId
  revisionId : RevisionId
  dirIds : ℕ → NodeId

/-- The texts of a form, cleaned. -/
structure PageText where
  path : Path
  title : String
  description : Option String
  summary : Option String

def defaultTitle (path : Path) : String :=
  let name := path.getLastD []
  String.ofList (name.take (name.length - 3))

/-- What `write_page` checks before it reads a row. -/
def checkPage (actor : Actor) (form : PageForm) : Except Error PageText := do
  let path ← normalizePath form.path (some .page)
  if maxPageBytes < form.content.utf8ByteSize then
    throw (reject "kb_page_too_large" 413 (some (.number "max_bytes" maxPageBytes)))
  let title ← cleanText form.title maxTitleLen "kb_title_too_long"
  let description ← cleanText form.description maxDescriptionLen "kb_description_too_long"
  let summary ← cleanText form.summary maxSummaryLen "kb_summary_too_long"
  if actor.kind = .agent ∧ (¬ Truthy description ∨ ¬ Truthy summary) then
    throw (reject "kb_agent_requires_description_and_summary" 400 none)
  return { path, title := title.getD (defaultTitle path), description, summary }

def newPage (actor : Actor) (page : PageText) (nodeId : NodeId) : KbNode :=
  { nodeId, path := page.path, kind := .page, title := some page.title, version := 0, createdBy := actor.id
    updatedBy := actor.id }

def versionConflict (code : String) (version : ℕ) : Error :=
  reject code 409 (some (.number "current_version" version))

/-- What a write asks of the page that is there: that it was read at its present version. -/
def checkVersion (node : KbNode) (baseVersion : Option ℕ) : Except Error Unit :=
  if node.kind ≠ .page then .error (reject "kb_path_is_dir" 409 none)
  else match baseVersion with
  | none => .error (versionConflict "kb_base_version_required" node.version)
  | some base => if base ≠ node.version then .error (versionConflict "kb_version_conflict" node.version) else .ok ()

def pageToWrite (actor : Actor) (page : PageText) (baseVersion : Option ℕ) (d : Draw) : Tx KbNode := do
  match (← view).liveNode page.path with
  | none =>
    require (baseVersion = none ∨ baseVersion = some 0) (versionConflict "kb_version_conflict" 0)
    ensureDirs actor d.dirIds 0 page.path.ancestors
    modifyView (·.addNode (newPage actor page d.nodeId))
    flushStore
    return newPage actor page d.nodeId
  | some node =>
    fromExcept (checkVersion node baseVersion)
    return node

def Publishes (actor : Actor) (path : Path) : Prop := actor.canPublish = true ∨ InArchive path
deriving Decidable

def pageRevision (actor : Actor) (page : PageText) (form : PageForm) (tags : Option (List String)) (node : KbNode)
    (revisionId : RevisionId) : KbRevision :=
  { revisionId, nodeId := node.nodeId, baseVersion := node.version, kind := .content, title := some page.title
    description := page.description, summary := page.summary, tags, content := some form.content
    sourceRefs := form.sourceRefs, status := if Publishes actor page.path then .published else .proposed
    author := actor.id, note := form.note }

/-- The store after a content revision was published on its page. -/
def Store.publish (s : Store) (rev : KbRevision) (kind : Source) (nodeId : NodeId) (path : Path) : Store :=
  (s.updateNode nodeId (applyContent hash rev kind)).refreshDirHashes hash path

def publish (rev : KbRevision) (kind : Source) (nodeId : NodeId) (path : Path) : Tx Unit := do
  modifyView (·.updateNode nodeId (applyContent hash rev kind))
  flushStore
  refreshDirHashes hash path

def writePage (actor : Actor) (form : PageForm) (d : Draw) : Tx KbRevision := do
  let page ← fromExcept (checkPage actor form)
  let node ← pageToWrite actor page form.baseVersion d
  let tags ← fromExcept (cleanTags form.tags)
  let rev := pageRevision actor page form tags node d.revisionId
  modifyView (·.addRevision rev)
  flushStore
  if Publishes actor page.path then publish hash rev actor.kind node.nodeId page.path
  syncPending node.nodeId
  flushStore
  return rev

structure MetaForm where
  path : String
  description : Option String := none
  summary : Option String := none
  contentHash : Option String := none

inductive Applied
  | applied | skippedHumanOwned
deriving DecidableEq

structure MetaResult where
  nodeId : NodeId
  description : Option Applied := none
  summary : Option Applied := none

def setDescription (kind : Source) (description : Option String) (node : KbNode) : KbNode × Option Applied :=
  match description with
  | none => (node, none)
  | some text =>
    if kind = .agent ∧ node.descriptionSource = some .human then (node, some .skippedHumanOwned)
    else ({ node with description := some text, descriptionSource := some kind }, some .applied)

/-- An agent leaves the summary that a human wrote while it is fresh. -/
def setSummary (kind : Source) (summary : Option String) (node : KbNode) : KbNode × Option Applied :=
  match summary with
  | none => (node, none)
  | some text =>
    if kind = .agent ∧ node.summarySource = some .human ∧ node.summarySourceHash = node.contentHash then
      (node, some .skippedHumanOwned)
    else
      ({ node with summary := some text, summarySource := some kind, summarySourceHash := node.contentHash },
        some .applied)

def metaRevision (actor : Actor) (description summary : Option String) (node : KbNode) (result : MetaResult)
    (revisionId : RevisionId) : KbRevision :=
  { revisionId, nodeId := node.nodeId, baseVersion := node.version, kind := .metadata
    description := if result.description = some .applied then description else none
    summary := if result.summary = some .applied then summary else none
    status := .published, author := actor.id }

/-- The node a metadata edit is for: a directory or a published page. -/
def metaNode (path : Path) : Tx KbNode := do
  match (← view).liveNode path with
  | none => throw (reject "kb_node_not_found" 404 none)
  | some node =>
    require (¬ (node.kind = .page ∧ node.version = 0)) (reject "kb_node_not_found" 404 none)
    return node

def setMeta (actor : Actor) (form : MetaForm) (revisionId : RevisionId) : Tx MetaResult := do
  require (actor.kind = .agent ∨ actor.canPublish = true) (reject "kb_publish_role_required" 403 none)
  let path ← fromExcept (normalizePath form.path none)
  let node ← metaNode path
  let description ← fromExcept (cleanText form.description maxDescriptionLen "kb_description_too_long")
  let summary ← fromExcept (cleanText form.summary maxSummaryLen "kb_summary_too_long")
  require (description ≠ none ∨ summary ≠ none) (reject "kb_meta_empty" 400 none)
  require (summary ≠ none → form.contentHash = node.contentHash)
    (reject "kb_content_changed" 409 (some (.text "content_hash" node.contentHash)))
  let described := setDescription actor.kind description node
  let summarized := setSummary actor.kind summary described.1
  let result : MetaResult := ⟨node.nodeId, described.2, summarized.2⟩
  modifyView (·.updateNode node.nodeId fun _ => summarized.1)
  if result.description = some .applied ∨ result.summary = some .applied then
    modifyView (·.addRevision (metaRevision actor description summary node result revisionId))
  flushStore
  return result

def describeDir (actor : Actor) (description : Option String) (nodeId : NodeId) : Tx Unit := do
  if Truthy description then
    modifyView (·.updateNode nodeId fun n => { n with description, descriptionSource := some actor.kind })
  flushStore

def makeDir (actor : Actor) (rawPath : String) (description : Option String) (d : Draw) : Tx NodeId := do
  require (actor.canPublish = true) (reject "kb_publish_role_required" 403 none)
  let path ← fromExcept (normalizePath rawPath (some .dir))
  let description ← fromExcept (cleanText description maxDescriptionLen "kb_description_too_long")
  match (← view).liveNode path with
  | some node =>
    require (node.kind = .dir) (reject "kb_path_is_page" 409 none)
    describeDir actor description node.nodeId
    return node.nodeId
  | none =>
    ensureDirs actor d.dirIds 0 path.ancestors
    modifyView (·.addNode (newDir actor path d.nodeId))
    flushStore
    refreshDirHashes hash path
    describeDir actor description d.nodeId
    return d.nodeId

/-- The rows of a deletion: the nodes marked, and their proposed revisions rejected. -/
def Store.deleteSubtree (s : Store) (actor : Actor) (path : Path) : Store where
  nodes := Table.update (fun n => n.Live ∧ Path.Under path n.path)
    (fun n => { n with deleted := true, pendingCount := 0 }) s.nodes
  revisions := Table.update (fun r => r.nodeId ∈ (s.subtree path).map KbNode.nodeId ∧ r.status = .proposed)
    (fun r => { r with
      status := .rejected, reviewer := some actor.id, note := if Truthy r.note then r.note else some "node deleted" })
    s.revisions

def deleteNode (actor : Actor) (rawPath : String) : Tx ℕ := do
  require (actor.canPublish = true) (reject "kb_publish_role_required" 403 none)
  let path ← fromExcept (normalizePath rawPath none)
  let count := ((← view).subtree path).length
  require (count ≠ 0) (reject "kb_node_not_found" 404 none)
  modifyView (·.deleteSubtree actor path)
  flushStore
  refreshDirHashes hash path
  return count

/-- `get_revision` -/
def findRevision (revisionId : RevisionId) : Tx (KbRevision × KbNode) := do
  let s ← view
  match s.getRevision revisionId with
  | none => throw (reject "kb_revision_not_found" 404 none)
  | some rev =>
    match s.getNode rev.nodeId with
    | none => throw .attribute
    | some node => return (rev, node)

def authorKind (author : String) : Source := if "ag_".toList <+: author.toList then .agent else .human

theorem authorKind_id (actor : Actor) : authorKind actor.id = actor.kind := by
  cases actor with
  | agent id named => exact if_pos named
  | human id named publisher =>
    refine if_neg fun hagent => ?_
    obtain ⟨rest, hrest⟩ := hagent
    obtain ⟨rest', hrest'⟩ := named
    have hfirst := congrArg List.head? (hrest.trans hrest'.symm)
    exact absurd hfirst (by simp)

inductive Approval
  | published
  /-- The error response `kb_revision_stale`, whose side effects are committed. -/
  | stale (currentVersion : ℕ)

def Store.review (s : Store) (actor : Actor) (status : RevisionStatus) (revisionId : RevisionId) : Store :=
  s.updateRevision revisionId fun r => { r with status, reviewer := some actor.id }

def notPending (rev : KbRevision) : Error :=
  reject "kb_revision_not_pending" 409 (some (.text "status" (some rev.status.value)))

def approve (actor : Actor) (revisionId : RevisionId) : Tx Approval := do
  require (actor.canPublish = true) (reject "kb_publish_role_required" 403 none)
  let (rev, node) ← findRevision revisionId
  require (rev.status = .proposed) (notPending rev)
  require node.Live (reject "kb_node_not_found" 404 none)
  if rev.baseVersion ≠ node.version then do
    modifyView (·.review actor .superseded revisionId)
    syncPending node.nodeId
    flushStore
    return .stale node.version
  else do
    modifyView (·.review actor .published revisionId)
    publish hash rev (authorKind rev.author) node.nodeId node.path
    syncPending node.nodeId
    flushStore
    return .published

/-- A page that was never published and has no drafts left is gone. -/
def Store.dropEmptyPage (s : Store) (nodeId : NodeId) : Store :=
  s.updateNode nodeId fun n => if n.version = 0 ∧ n.pendingCount = 0 then { n with deleted := true } else n

def rejectRevision (actor : Actor) (revisionId : RevisionId) (note : Option String) : Tx Unit := do
  require (actor.canPublish = true) (reject "kb_publish_role_required" 403 none)
  let (rev, node) ← findRevision revisionId
  require (rev.status = .proposed) (notPending rev)
  modifyView (·.review actor .rejected revisionId)
  modifyView (·.updateRevision revisionId fun r => { r with note := if Truthy note then note else r.note })
  syncPending node.nodeId
  modifyView (·.dropEmptyPage node.nodeId)
  flushStore

inductive Operation
  | writePage (actor : Actor) (form : PageForm) (d : Draw)
  | setMeta (actor : Actor) (form : MetaForm) (revisionId : RevisionId)
  | makeDir (actor : Actor) (path : String) (description : Option String) (d : Draw)
  | deleteNode (actor : Actor) (path : String)
  | approve (actor : Actor) (revisionId : RevisionId)
  | rejectRevision (actor : Actor) (revisionId : RevisionId) (note : Option String)

def Operation.call : Operation → Tx Unit
  | .writePage actor form d => void (Kb.writePage hash actor form d)
  | .setMeta actor form revisionId => void (Kb.setMeta actor form revisionId)
  | .makeDir actor path description d => void (Kb.makeDir hash actor path description d)
  | .deleteNode actor path => void (Kb.deleteNode hash actor path)
  | .approve actor revisionId => void (Kb.approve hash actor revisionId)
  | .rejectRevision actor revisionId note => Kb.rejectRevision actor revisionId note

/-- One operation as one transaction: the call, and the flush of the commit. -/
def Operation.apply (op : Operation) (s : Store) : Store := (atomically (do op.call hash; flushStore) s).2

def service : System Store Operation := System.total fun s op => op.apply hash s

end Hash

end BotCord.Kb
