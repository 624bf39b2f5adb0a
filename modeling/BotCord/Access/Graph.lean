import BotCord.Foundation.Select

/-!
# The access graph

The tables `access_edges`, `access_edge_deps` and `principals` of `hub/models.py`, and the selects `hub/services/access_decide.py` builds its decisions from. No select there is ordered, so a session answers each with the rows that satisfy it in whatever order the plan of the database gives.
-/

namespace BotCord.Access

abbrev EdgeId := ℕ
abbrev PrincipalId := String

/-- Instants in microseconds; `_aware` reads a stored time without a zone as UTC. -/
abbrev Instant := ℤ

inductive EdgeKind
  | ownership | membership | member | grant | manage | offer | order | connection | block
deriving DecidableEq

inductive EdgeStatus
  | pending | active | revoked | expired
deriving DecidableEq

/-- The entries of an edge's terms that a decision reads, by their truth value. -/
structure Terms where
  direct : Bool := false
  roomInvite : Bool := false
deriving DecidableEq

structure AccessEdge where
  id : EdgeId
  kind : EdgeKind
  fromId : PrincipalId
  toId : PrincipalId
  scopeOrgId : PrincipalId := ""
  role : Option String := none
  terms : Terms := {}
  status : EdgeStatus := .active
  version : ℕ := 1
  issuedBy : Option PrincipalId := none
  capability : Option String := none
  expiresAt : Option Instant := none
deriving DecidableEq

/-- The edge is valid only while the one it depends on is live at the recorded version. -/
structure AccessEdgeDep where
  edgeId : EdgeId
  dependsOnEdgeId : EdgeId
  dependsOnVersion : ℕ

structure AccessPrincipal where
  id : PrincipalId
  active : Bool := true

structure Graph where
  edges : List AccessEdge := []
  deps : List AccessEdgeDep := []
  principals : List AccessPrincipal := []
  edges_distinct : (edges.map (·.id)).Nodup := by decide

/-- A database session: each select on the edges returns the rows of its condition in some order. -/
structure Session (graph : Graph) where
  scan : (AccessEdge → Bool) → List AccessEdge
  scan_perm : ∀ condition, (scan condition).Perm (graph.edges.filter condition)

/-- The plan that reads the table from its start. -/
def Graph.inOrder (graph : Graph) : Session graph where
  scan condition := graph.edges.filter condition
  scan_perm _ := .rfl

/-- The plan that reads the table from its end. -/
def Graph.backwards (graph : Graph) : Session graph where
  scan condition := (graph.edges.filter condition).reverse
  scan_perm _ := List.reverse_perm _

variable {graph : Graph}

variable {condition : AccessEdge → Bool} {e : AccessEdge}

theorem Session.mem_scan (db : Session graph) :
    e ∈ db.scan condition ↔ e ∈ graph.edges ∧ condition e = true := by
  rw [(db.scan_perm condition).mem_iff, List.mem_filter]

def AccessEdge.unexpired (e : AccessEdge) (now : Instant) : Bool := e.expiresAt.all (now < ·)

/-- The rows of the dependencies of some edges joined with the edges they depend on. -/
def Graph.joinDeps (graph : Graph) (ids : List EdgeId) : List (AccessEdgeDep × AccessEdge) :=
  (graph.deps.filter (·.edgeId ∈ ids)).flatMap fun d =>
    (graph.edges.filter (·.id = d.dependsOnEdgeId)).map fun e => (d, e)

/-- A dependency on an edge that is no longer live, or has a newer version. -/
def outdated (row : AccessEdgeDep × AccessEdge) : Bool :=
  row.2.status ≠ .active || row.2.version ≠ row.1.dependsOnVersion

/-- Active, unexpired edges whose dependencies are still live at the recorded version. -/
def liveEdges (db : Session graph) (condition : AccessEdge → Bool) (now : Instant) : List AccessEdge :=
  let edges := (db.scan fun e => e.status = .active && condition e).filter (·.unexpired now)
  if edges.isEmpty then edges
  else
    let broken := ((graph.joinDeps (edges.map (·.id))).filter outdated).map (·.1.edgeId)
    edges.filter (·.id ∉ broken)

def Graph.activeAmong (graph : Graph) (ids : List PrincipalId) : List PrincipalId :=
  (graph.principals.filter fun p => p.id ∈ ids && p.active).map (·.id)

/-- The ids a grant refers to, as `valid_grants` collects them: the empty ones are left out. -/
def AccessEdge.parties (g : AccessEdge) : List PrincipalId :=
  [g.fromId, g.toId, g.scopeOrgId].filter (· ≠ "")

/-- Grant edges that are live and still backed by the agent's current owner. -/
def validGrants (db : Session graph) (edges : List AccessEdge) (now : Instant) : List AccessEdge :=
  let edges := edges.filter (·.kind = .grant)
  if edges.isEmpty then edges
  else
    let owned := liveEdges db (fun e => e.kind = .ownership && e.toId ∈ edges.map (·.toId)) now
    let owners := fun agent => (owned.reverse.find? (·.toId = agent)).map (·.fromId)
    let active := graph.activeAmong (edges.flatMap (·.parties))
    edges.filter fun g =>
      g.issuedBy.any (fun issuer => issuer ≠ "" && owners g.toId = some issuer)
        && g.fromId ∈ active && g.toId ∈ active && (g.scopeOrgId = "" || g.scopeOrgId ∈ active)

/-- Live at an instant: active, unexpired, and no dependency outdated. -/
def Graph.Live (graph : Graph) (now : Instant) (e : AccessEdge) : Prop :=
  e.status = .active ∧ e.unexpired now ∧
    ∀ d ∈ graph.deps, d.edgeId = e.id → ∀ t ∈ graph.edges, t.id = d.dependsOnEdgeId →
      t.status = .active ∧ t.version = d.dependsOnVersion
deriving Decidable

/-- Every agent has at most one live ownership edge. -/
def Graph.SoleOwners (graph : Graph) (now : Instant) : Prop :=
  ∀ x ∈ graph.edges, ∀ y ∈ graph.edges, graph.Live now x ∧ x.kind = .ownership →
    graph.Live now y ∧ y.kind = .ownership → x.toId = y.toId → x = y
deriving Decidable

theorem Graph.SoleOwners.sole (hsole : graph.SoleOwners now) (agent : PrincipalId) :
    Select.Sole (fun e => graph.Live now e ∧ e.kind = .ownership ∧ e.toId = agent) graph.edges :=
  fun x hx y hy hlive hlive' =>
    hsole x hx y hy ⟨hlive.1, hlive.2.1⟩ ⟨hlive'.1, hlive'.2.1⟩ (hlive.2.2.trans hlive'.2.2.symm)

theorem mem_joinDeps {ids : List EdgeId} {row : AccessEdgeDep × AccessEdge} :
    row ∈ graph.joinDeps ids ↔
      row.1 ∈ graph.deps ∧ row.1.edgeId ∈ ids ∧ row.2 ∈ graph.edges ∧ row.2.id = row.1.dependsOnEdgeId := by
  simp only [Graph.joinDeps, List.mem_flatMap, List.mem_filter, List.mem_map, decide_eq_true_eq]
  constructor
  · rintro ⟨d, ⟨hd, hids⟩, e, ⟨he, hid⟩, rfl⟩
    exact ⟨hd, hids, he, hid⟩
  · rintro ⟨hd, hids, he, hid⟩
    exact ⟨row.1, ⟨hd, hids⟩, row.2, ⟨he, hid⟩, rfl⟩

/-- An edge is broken exactly if one of its dependencies is outdated, whichever edges were asked about with it. -/
theorem mem_broken {ids : List EdgeId} {id : EdgeId} :
    id ∈ ((graph.joinDeps ids).filter outdated).map (·.1.edgeId) ↔
      id ∈ ids ∧ ∃ d ∈ graph.deps, d.edgeId = id ∧ ∃ t ∈ graph.edges, t.id = d.dependsOnEdgeId ∧
        ¬ (t.status = .active ∧ t.version = d.dependsOnVersion) := by
  simp only [List.mem_map, List.mem_filter, mem_joinDeps, outdated, Bool.or_eq_true, decide_eq_true_eq]
  constructor
  · rintro ⟨row, ⟨⟨hd, hids, ht, htid⟩, hout⟩, rfl⟩
    exact ⟨hids, row.1, hd, rfl, row.2, ht, htid, fun hlive => hout.elim (· hlive.1) (· hlive.2)⟩
  · rintro ⟨hids, d, hd, rfl, t, ht, htid, hout⟩
    exact ⟨(d, t), ⟨⟨hd, hids, ht, htid⟩, not_and_or.mp hout⟩, rfl⟩

theorem mem_liveEdges (db : Session graph) {now : Instant} :
    e ∈ liveEdges db condition now ↔ e ∈ graph.edges ∧ graph.Live now e ∧ condition e = true := by
  have hselected : e ∈ (db.scan fun e => e.status = .active && condition e).filter (·.unexpired now) ↔
      e ∈ graph.edges ∧ e.status = .active ∧ condition e = true ∧ e.unexpired now = true := by
    simp only [List.mem_filter, db.mem_scan, Bool.and_eq_true, decide_eq_true_eq, and_assoc]
  simp only [liveEdges]
  split_ifs with hempty
  · rw [hselected]
    have hnone : e ∉ (db.scan fun e => e.status = .active && condition e).filter (·.unexpired now) := by
      rw [List.isEmpty_iff.mp hempty]
      exact List.not_mem_nil
    rw [hselected] at hnone
    constructor
    · intro h
      exact absurd h hnone
    · rintro ⟨he, hlive, hc⟩
      exact absurd ⟨he, hlive.1, hc, hlive.2.1⟩ hnone
  · rw [List.mem_filter, hselected, decide_eq_true_eq, mem_broken]
    constructor
    · rintro ⟨⟨he, hstatus, hc, hexp⟩, hbroken⟩
      refine ⟨he, ⟨hstatus, hexp, fun d hd hid t ht htid => ?_⟩, hc⟩
      by_contra hout
      refine hbroken ⟨List.mem_map_of_mem (hselected.mpr ⟨he, hstatus, hc, hexp⟩), d, hd, hid, t, ht, htid, hout⟩
    · rintro ⟨he, ⟨hstatus, hexp, hdeps⟩, hc⟩
      refine ⟨⟨he, hstatus, hc, hexp⟩, ?_⟩
      rintro ⟨-, d, hd, hid, t, ht, htid, hout⟩
      exact hout (hdeps d hd hid t ht htid)

/-- The agent's owner: the source of its live ownership edge. -/
def Graph.OwnedBy (graph : Graph) (now : Instant) (agent owner : PrincipalId) : Prop :=
  ∃ e ∈ graph.edges, graph.Live now e ∧ e.kind = .ownership ∧ e.toId = agent ∧ e.fromId = owner
deriving Decidable

/-- The live ownership edges of an agent that a select returned, when it asked for all of them, are those of the graph. -/
theorem mem_owned (db : Session graph) {agent : PrincipalId}
    (hkind : ∀ e, condition e = true → e.kind = .ownership)
    (hall : ∀ e : AccessEdge, e.kind = .ownership → e.toId = agent → condition e = true) :
    e ∈ liveEdges db condition now ∧ e.toId = agent ↔
      e ∈ graph.edges ∧ graph.Live now e ∧ e.kind = .ownership ∧ e.toId = agent := by
  rw [mem_liveEdges]
  constructor
  · rintro ⟨⟨he, hlive, hc⟩, hto⟩
    exact ⟨he, hlive, hkind e hc, hto⟩
  · rintro ⟨he, hlive, hown, hto⟩
    exact ⟨⟨he, hlive, hall e hown hto⟩, hto⟩

theorem sole_owned (hsole : graph.SoleOwners now) (db : Session graph)
    (hkind : ∀ e, condition e = true → e.kind = .ownership) (agent : PrincipalId) :
    Select.Sole (fun e => e.toId = agent) (liveEdges db condition now) := by
  refine (hsole.sole agent).subset (fun x hx => ((mem_liveEdges db).mp hx).1) fun x hx hto => ?_
  obtain ⟨-, hlive, hc⟩ := (mem_liveEdges db).mp hx
  exact ⟨hlive, hkind x hc, hto⟩

/-- The last ownership edge of an agent, which a dictionary filled from the rows keeps, is its live one. -/
theorem last_owned_eq_some_iff (hsole : graph.SoleOwners now) (db : Session graph)
    (condition : AccessEdge → Bool) (agent : PrincipalId)
    (hkind : ∀ e, condition e = true → e.kind = .ownership)
    (hall : ∀ e : AccessEdge, e.kind = .ownership → e.toId = agent → condition e = true) :
    (liveEdges db condition now).reverse.find? (fun x => x.toId = agent) = some e ↔
      e ∈ graph.edges ∧ graph.Live now e ∧ e.kind = .ownership ∧ e.toId = agent := by
  have hone : Select.Sole (fun x => (decide (x.toId = agent) : Bool) = true) (liveEdges db condition now) := by
    simpa using sole_owned hsole db hkind agent
  rw [Select.find?_reverse_eq_some_iff_of_sole hone, decide_eq_true_eq, mem_owned db hkind hall]

def Graph.ActivePrincipal (graph : Graph) (id : PrincipalId) : Prop :=
  ∃ p ∈ graph.principals, p.id = id ∧ p.active

/-- A grant is backed if its issuer is the agent's current owner and its parties are active. -/
def Graph.Backed (graph : Graph) (now : Instant) (g : AccessEdge) : Prop :=
  g.kind = .grant ∧ (∃ issuer, g.issuedBy = some issuer ∧ issuer ≠ "" ∧ graph.OwnedBy now g.toId issuer) ∧
    (g.fromId ≠ "" ∧ graph.ActivePrincipal g.fromId) ∧ (g.toId ≠ "" ∧ graph.ActivePrincipal g.toId) ∧
    (g.scopeOrgId = "" ∨ graph.ActivePrincipal g.scopeOrgId)

theorem mem_activeAmong {ids : List PrincipalId} {x : PrincipalId} :
    x ∈ graph.activeAmong ids ↔ x ∈ ids ∧ graph.ActivePrincipal x := by
  simp only [Graph.activeAmong, Graph.ActivePrincipal, List.mem_map, List.mem_filter, Bool.and_eq_true,
    decide_eq_true_eq]
  constructor
  · rintro ⟨p, ⟨hp, hid, hactive⟩, rfl⟩
    exact ⟨hid, p, hp, rfl, hactive⟩
  · rintro ⟨hid, p, hp, rfl, hactive⟩
    exact ⟨p, ⟨hp, hid, hactive⟩, rfl⟩

theorem mem_parties {edges : List AccessEdge} {g : AccessEdge} (hg : g ∈ edges) {x : PrincipalId}
    (hx : x ∈ [g.fromId, g.toId, g.scopeOrgId]) : x ∈ edges.flatMap (·.parties) ↔ x ≠ "" := by
  simp only [List.mem_flatMap, AccessEdge.parties, List.mem_filter, decide_eq_true_eq]
  constructor
  · rintro ⟨-, -, -, hne⟩
    exact hne
  · intro hne
    exact ⟨g, hg, hx, hne⟩

/-- Whichever grants are asked about together, the valid ones are those the graph backs. -/
theorem mem_validGrants (hsole : graph.SoleOwners now) (db : Session graph) {edges : List AccessEdge}
    {g : AccessEdge} : g ∈ validGrants db edges now ↔ g ∈ edges ∧ graph.Backed now g := by
  have hgrants : g ∈ edges.filter (·.kind = .grant) ↔ g ∈ edges ∧ g.kind = .grant := by
    rw [List.mem_filter, decide_eq_true_eq]
  simp only [validGrants]
  split_ifs with hempty
  · rw [hgrants]
    have hnone : g ∉ edges.filter (·.kind = .grant) := by
      rw [List.isEmpty_iff.mp hempty]
      exact List.not_mem_nil
    rw [hgrants] at hnone
    constructor
    · intro h
      exact absurd h hnone
    · rintro ⟨hg, hbacked⟩
      exact absurd ⟨hg, hbacked.1⟩ hnone
  · rw [List.mem_filter, hgrants, and_assoc]
    refine and_congr_right fun hg => and_congr_right fun hkind => ?_
    have howner : ∀ issuer, ((liveEdges db (fun e => e.kind = .ownership
        && e.toId ∈ (edges.filter (·.kind = .grant)).map (·.toId)) now).reverse.find?
          (·.toId = g.toId)).map (·.fromId) = some issuer ↔ graph.OwnedBy now g.toId issuer := by
      intro issuer
      have hmem : g.toId ∈ (edges.filter (·.kind = .grant)).map (·.toId) :=
        List.mem_map_of_mem (hgrants.mpr ⟨hg, hkind⟩)
      have hlast := fun e => last_owned_eq_some_iff (e := e) hsole db
        (fun e => e.kind = .ownership && e.toId ∈ (edges.filter (·.kind = .grant)).map (·.toId)) g.toId
        (fun e hc => of_decide_eq_true (Bool.and_eq_true _ _ ▸ hc).1)
        (fun e hown hto => by rw [hown, hto]; simpa using hmem)
      simp only [Option.map_eq_some_iff, hlast, Graph.OwnedBy, and_assoc]
    have hactive : ∀ x ∈ [g.fromId, g.toId, g.scopeOrgId],
        (x ∈ graph.activeAmong ((edges.filter (·.kind = .grant)).flatMap (·.parties)) ↔
          x ≠ "" ∧ graph.ActivePrincipal x) := fun x hx => by
      rw [mem_activeAmong, mem_parties (hgrants.mpr ⟨hg, hkind⟩) hx]
    simp only [Bool.and_eq_true, Bool.or_eq_true, decide_eq_true_eq, Option.any_eq_true, howner,
      hactive g.fromId (by simp), hactive g.toId (by simp), hactive g.scopeOrgId (by simp), and_assoc]
    constructor
    · rintro ⟨⟨issuer, hissued, hne, hown⟩, hfrom, hfromActive, hto, htoActive, hscope⟩
      exact ⟨⟨issuer, hissued, hne, hown⟩, hfrom, hfromActive, hto, htoActive, hscope.imp_right (·.2)⟩
    · rintro ⟨⟨issuer, hissued, hne, hown⟩, hfrom, hfromActive, hto, htoActive, hscope⟩
      refine ⟨⟨issuer, hissued, hne, hown⟩, hfrom, hfromActive, hto, htoActive, ?_⟩
      by_cases hempty : g.scopeOrgId = ""
      · exact Or.inl hempty
      · exact Or.inr ⟨hempty, hscope.resolve_left hempty⟩

end BotCord.Access
