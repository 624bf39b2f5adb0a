import BotCord.Spaces.Projection

/-!
# What the projection leaves behind

After a synchronization every edge that the tables ask for is there as they ask for it, with the dependencies they name, no other edge of the projected kinds is open, and every principal has its status. Where the sources and the open keys of the wanted edges are distinct and their ends are known, nothing is skipped.
-/

namespace BotCord.Spaces

open Access (EdgeId EdgeKind EdgeStatus AccessEdge AccessEdgeDep AccessPrincipal)

/-- The row is as wanted. -/
structure Settled (row : EdgeRow) (want : Edge) : Prop where
  source : row.source = want.source
  fields : row.fields = want.fields
  version : ∀ v ∈ want.version, 0 < v → row.version = v

namespace Projection

variable {p q : Projection} {want : Edge}

theorem mem_modifyRows {cond : EdgeRow → Prop} [DecidablePred cond] {f : EdgeRow → EdgeRow}
    {hsource : ∀ r, (f r).source = r.source} {hid : ∀ r, (f r).id = r.id} {row : EdgeRow} :
    row ∈ (p.modifyRows cond f hsource hid).rows ↔ ∃ r ∈ p.rows, (if cond r then f r else r) = row :=
  Keyed.mem_modify hsource

/-- What writing one edge does: it is as wanted, and the edges of other sources are as they were. -/
structure Upserted (p : Projection) (want : Edge) (q : Projection) : Prop where
  deps : q.deps = p.deps
  principals : q.principals = p.principals
  settled : ∃ row ∈ q.rows, Settled row want
  other : ∀ row : EdgeRow, row.source ≠ want.source → (row ∈ q.rows ↔ row ∈ p.rows)

theorem upserted_addRow (hnew : ∀ x ∈ p.rows, x.source ≠ want.source) : p.Upserted want (p.addRow want) := by
  unfold addRow
  split
  · rename_i rows hrows
    have hadds := Keyed.insert?_eq_some hrows
    refine ⟨rfl, rfl, ⟨_, hadds.mem_iff.mpr (.inr rfl), ⟨rfl, rfl, fun v hv hpos => ?_⟩⟩, fun row hrow => ?_⟩
    · have hsome : want.version = some v := hv
      simp [hsome, Option.filter_some, hpos]
    · rw [hadds.mem_iff, or_iff_left_iff_imp]
      rintro rfl
      exact absurd rfl hrow
  · rename_i hnone
    obtain ⟨x, hx, hkey⟩ := Keyed.insert?_eq_none hnone
    exact absurd hkey (hnew x hx)

theorem upserted (p : Projection) (want : Edge) : p.Upserted want (p.upsert want) := by
  unfold upsert
  split
  · rename_i hnone
    exact upserted_addRow (Keyed.get?_eq_none_iff.mp hnone)
  · rename_i row hrow
    obtain ⟨hmem, hsource⟩ := Keyed.get?_eq_some_iff.mp hrow
    split
    · rename_i hsame
      exact ⟨rfl, rfl, ⟨row, hmem, hsource, hsame.1, fun v hv _ => hsame.2 v hv⟩, fun _ _ => Iff.rfl⟩
    · refine ⟨rfl, rfl, ⟨_, mem_modifyRows.mpr ⟨row, hmem, rfl⟩, ?_⟩, fun other hother => ?_⟩
      · rw [if_pos hsource]
        refine ⟨hsource, rfl, fun v hv _ => ?_⟩
        have hsome : want.version = some v := hv
        rw [hsome, Option.getD_some]
      · rw [mem_modifyRows]
        constructor
        · rintro ⟨r, hr, rfl⟩
          by_cases hcond : r.source = want.source
          · rw [if_pos hcond] at hother
            exact absurd hcond hother
          · rwa [if_neg hcond]
        · intro hr
          exact ⟨other, hr, if_neg hother⟩

def Distinct (wanted : List Edge) : Prop := ∀ e ∈ wanted, ∀ e' ∈ wanted, e.source = e'.source → e = e'

theorem foldl_upsert (wanted : List Edge) (hdistinct : Distinct wanted) (p : Projection) :
    (wanted.foldl upsert p).deps = p.deps ∧ (wanted.foldl upsert p).principals = p.principals ∧
      (∀ want ∈ wanted, ∃ row ∈ (wanted.foldl upsert p).rows, Settled row want) ∧
      ∀ row : EdgeRow, row.source ∉ wanted.map (·.source) → (row ∈ (wanted.foldl upsert p).rows ↔ row ∈ p.rows) := by
  induction wanted generalizing p with
  | nil => simp
  | cons first rest ih =>
    have hfirst := p.upserted first
    obtain ⟨hdeps, hprincipals, hsettled, hother⟩ :=
      ih (fun e he e' he' => hdistinct e (List.mem_cons_of_mem _ he) e' (List.mem_cons_of_mem _ he')) (p.upsert first)
    rw [List.foldl_cons]
    refine ⟨hdeps.trans hfirst.deps, hprincipals.trans hfirst.principals, fun want hwant => ?_, fun row hrow => ?_⟩
    · by_cases hlater : want ∈ rest
      · exact hsettled want hlater
      · -- the first one, which no later one has the source of
        obtain rfl : want = first := (List.mem_cons.mp hwant).resolve_right hlater
        obtain ⟨row, hrow, hdone⟩ := hfirst.settled
        refine ⟨row, (hother row ?_).mpr hrow, hdone⟩
        rw [hdone.source]
        intro hsource
        obtain ⟨later, hmem, heq⟩ := List.mem_map.mp hsource
        have hsame := hdistinct later (List.mem_cons_of_mem _ hmem) want List.mem_cons_self heq
        exact hlater (hsame ▸ hmem)
    · rw [List.map_cons, List.mem_cons, not_or] at hrow
      rw [hother row hrow.2, hfirst.other row hrow.1]

theorem syncDeps_rows (p : Projection) (want : Edge) : (p.syncDeps want).rows = p.rows := by
  unfold syncDeps
  split <;> rfl

theorem syncDeps_principals (p : Projection) (want : Edge) : (p.syncDeps want).principals = p.principals := by
  unfold syncDeps
  split <;> rfl

theorem eq_of_id {r x : EdgeRow} (hr : r ∈ p.rows) (hx : x ∈ p.rows) (h : r.id = x.id) : r = x :=
  List.inj_on_of_nodup_map p.ids hr hx h

theorem mem_targets {id : EdgeId} {d : AccessEdgeDep} :
    d ∈ p.targets id want ↔ ∃ dep ∈ want.deps, ∃ r ∈ p.rows, r.source = dep.1 ∧
      d = { edgeId := id, dependsOnEdgeId := r.id, dependsOnVersion := dep.2 } := by
  simp only [targets, List.mem_filterMap, Option.map_eq_some_iff, Keyed.get?_eq_some_iff]
  constructor
  · rintro ⟨dep, hdep, r, ⟨hr, hsource⟩, rfl⟩
    exact ⟨dep, hdep, r, hr, hsource, rfl⟩
  · rintro ⟨dep, hdep, r, hr, hsource, rfl⟩
    exact ⟨dep, hdep, r, ⟨hr, hsource⟩, rfl⟩

def DepsOf (p : Projection) (row : EdgeRow) (want : Edge) : Prop :=
  ∀ d, d ∈ p.deps ∧ d.edgeId = row.id ↔ d ∈ p.targets row.id want

theorem targets_congr (h : q.rows = p.rows) (id : EdgeId) : q.targets id want = p.targets id want := by
  unfold targets
  rw [h]

theorem depsOf_syncDeps {row : EdgeRow} (hrow : row ∈ p.rows) (hsource : row.source = want.source) :
    (p.syncDeps want).DepsOf row want := by
  intro d
  rw [targets_congr (syncDeps_rows p want)]
  have hget : p.rows.get? want.source = some row := Keyed.get?_eq_some_iff.mpr ⟨hrow, hsource⟩
  rw [syncDeps, hget]
  simp only [List.mem_append, List.mem_filter, ne_eq, decide_not, Bool.not_eq_true', decide_eq_false_iff_not]
  constructor
  · rintro ⟨⟨-, hne⟩ | htarget, hid⟩
    · exact absurd hid hne
    · exact htarget
  · intro htarget
    obtain ⟨dep, hdep, r, hr, hsource, rfl⟩ := mem_targets.mp htarget
    exact ⟨.inr htarget, rfl⟩

theorem DepsOf.syncDeps {row : EdgeRow} {other : Edge} (h : p.DepsOf row want) (hrow : row ∈ p.rows)
    (hother : row.source ≠ other.source) : (p.syncDeps other).DepsOf row want := by
  intro d
  rw [targets_congr (syncDeps_rows p other), ← h d]
  refine and_congr_left fun hid => ?_
  rw [Projection.syncDeps]
  split
  · exact Iff.rfl
  · rename_i x hx
    obtain ⟨hmem, hsource⟩ := Keyed.get?_eq_some_iff.mp hx
    have hne : d.edgeId ≠ x.id := by
      rw [hid]
      intro heq
      exact hother (eq_of_id hrow hmem heq ▸ hsource)
    have hnot : d ∉ p.targets x.id other := by
      intro htarget
      obtain ⟨_, _, _, _, _, hd⟩ := mem_targets.mp htarget
      exact hne (congrArg AccessEdgeDep.edgeId hd)
    simp only [List.mem_append, List.mem_filter, ne_eq, hne, not_false_eq_true, decide_true, and_true, hnot, or_false]

theorem foldl_syncDeps (wanted : List Edge) (hdistinct : Distinct wanted) (p : Projection) :
    (wanted.foldl syncDeps p).rows = p.rows ∧ (wanted.foldl syncDeps p).principals = p.principals ∧
      ∀ want, ∀ row ∈ p.rows, row.source = want.source →
        (want ∈ wanted → (wanted.foldl syncDeps p).DepsOf row want) ∧
          (want.source ∉ wanted.map (·.source) → p.DepsOf row want → (wanted.foldl syncDeps p).DepsOf row want) := by
  induction wanted generalizing p with
  | nil => simp
  | cons first rest ih =>
    obtain ⟨hrows, hprincipals, hdeps⟩ :=
      ih (fun e he e' he' => hdistinct e (List.mem_cons_of_mem _ he) e' (List.mem_cons_of_mem _ he')) (p.syncDeps first)
    rw [List.foldl_cons]
    refine ⟨hrows.trans (syncDeps_rows p first), hprincipals.trans (syncDeps_principals p first),
      fun want row hrow hsource => ?_⟩
    have hrow' : row ∈ (p.syncDeps first).rows := by rwa [syncDeps_rows]
    obtain ⟨hin, hout⟩ := hdeps want row hrow' hsource
    constructor
    · intro hwant
      by_cases hlater : want ∈ rest
      · exact hin hlater
      · obtain rfl : want = first := (List.mem_cons.mp hwant).resolve_right hlater
        refine hout (fun hmem => ?_) (depsOf_syncDeps hrow hsource)
        obtain ⟨later, hmem, heq⟩ := List.mem_map.mp hmem
        have hsame := hdistinct later (List.mem_cons_of_mem _ hmem) want List.mem_cons_self heq
        exact hlater (hsame ▸ hmem)
    · intro hnot hbefore
      rw [List.map_cons, List.mem_cons, not_or] at hnot
      exact hout hnot.2 (hbefore.syncDeps hrow (hsource ▸ hnot.1))

structure Applied (wanted : List Edge) (p q : Projection) : Prop where
  edge : ∀ want ∈ wanted, ∃ row ∈ q.rows, Settled row want
  other : ∀ row : EdgeRow, row.source ∉ wanted.map (·.source) → (row ∈ q.rows ↔ row ∈ p.rows)
  deps : ∀ want ∈ wanted, ∀ row ∈ q.rows, row.source = want.source → q.DepsOf row want
  principals : q.principals = p.principals

theorem applied {wanted : List Edge} (hdistinct : Distinct wanted) (p : Projection) :
    Applied wanted p (wanted.foldl syncDeps
      ((wanted.filter (¬ ·.fields.Open) ++ wanted.filter (·.fields.Open)).foldl upsert p)) := by
  have horder : ∀ e, e ∈ wanted.filter (¬ ·.fields.Open) ++ wanted.filter (·.fields.Open) ↔ e ∈ wanted := by
    intro e
    by_cases hopen : e.fields.Open <;> simp [hopen]
  generalize wanted.filter (¬ ·.fields.Open) ++ wanted.filter (·.fields.Open) = ordered at horder
  obtain ⟨-, hprincipals, hsettled, hother⟩ := foldl_upsert ordered
    (fun e he e' he' => hdistinct e ((horder e).mp he) e' ((horder e').mp he')) p
  generalize ordered.foldl upsert p = mid at hprincipals hsettled hother
  obtain ⟨hrows, hprincipals', hdeps⟩ := foldl_syncDeps wanted hdistinct mid
  refine ⟨fun want hwant => ?_, fun row hrow => ?_, fun want hwant row hrow hsource => ?_, hprincipals'.trans hprincipals⟩
  · rw [hrows]
    exact hsettled want ((horder want).mpr hwant)
  · rw [hrows]
    refine hother row fun hmem => hrow ?_
    obtain ⟨want, hwant, hsource⟩ := List.mem_map.mp hmem
    exact List.mem_map.mpr ⟨want, (horder want).mp hwant, hsource⟩
  · rw [hrows] at hrow
    exact (hdeps want row hrow hsource).1 hwant

theorem mem_putPrincipal_self (p : Projection) (want : AccessPrincipal) : want ∈ (p.putPrincipal want).principals := by
  unfold putPrincipal
  cases hinsert : p.principals.insert? want with
  | some principals => exact (Keyed.insert?_eq_some hinsert).mem_iff.mpr (.inr rfl)
  | none =>
    obtain ⟨x, hx, hid⟩ := Keyed.insert?_eq_none hinsert
    refine Keyed.mem_def.mpr (Table.mem_update.mpr ⟨x, hx, ?_⟩)
    rw [if_pos hid]
    obtain ⟨id, active⟩ := want
    obtain rfl : x.id = id := hid
    rfl

theorem mem_putPrincipal_of_ne {want other : AccessPrincipal} (hne : other.id ≠ want.id) (h : other ∈ p.principals) :
    other ∈ (p.putPrincipal want).principals := by
  unfold putPrincipal
  cases hinsert : p.principals.insert? want with
  | some principals => exact (Keyed.insert?_eq_some hinsert).mem_iff.mpr (.inl h)
  | none => exact Table.mem_update_of_not h hne

theorem foldl_putPrincipal (want : List AccessPrincipal) (hids : (want.map (·.id)).Nodup) (p : Projection) :
    (want.foldl putPrincipal p).rows = p.rows ∧ (∀ w ∈ want, w ∈ (want.foldl putPrincipal p).principals) ∧
      ∀ q ∈ p.principals, q.id ∉ want.map (·.id) → q ∈ (want.foldl putPrincipal p).principals := by
  induction want generalizing p with
  | nil => simp
  | cons first rest ih =>
    rw [List.map_cons, List.nodup_cons] at hids
    obtain ⟨hrows, hwant, hkeep⟩ := ih hids.2 (p.putPrincipal first)
    rw [List.foldl_cons]
    refine ⟨hrows, fun w hw => ?_, fun q hq hnot => ?_⟩
    · rcases List.mem_cons.mp hw with rfl | hlater
      · exact hkeep w (mem_putPrincipal_self p w) hids.1
      · exact hwant w hlater
    · rw [List.map_cons, List.mem_cons, not_or] at hnot
      exact hkeep q (mem_putPrincipal_of_ne hnot.1 hq) hnot.2

end Projection

theorem selectWanted_eq {known : List PrincipalId} {wanted : List Edge}
    {seen : List (EdgeKind × PrincipalId × PrincipalId × PrincipalId)} (hnodup : wanted.Nodup)
    (hkeys : ∀ e ∈ wanted, ∀ e' ∈ wanted, e.fields.Open → e'.fields.Open → e.fields.key = e'.fields.key → e = e')
    (hknown : ∀ e ∈ wanted, e.fields.fromId ∈ known ∧ e.fields.toId ∈ known)
    (hseen : ∀ e ∈ wanted, e.fields.Open → e.fields.key ∉ seen) : selectWanted known seen wanted = wanted := by
  induction wanted generalizing seen with
  | nil => rfl
  | cons first rest ih =>
    rw [List.nodup_cons] at hnodup
    obtain ⟨hfrom, hto⟩ := hknown first List.mem_cons_self
    have hrest := fun seen => @ih seen hnodup.2
      (fun e he e' he' => hkeys e (List.mem_cons_of_mem _ he) e' (List.mem_cons_of_mem _ he'))
      (fun e he => hknown e (List.mem_cons_of_mem _ he))
    rw [selectWanted, if_neg (not_not.mpr ⟨hfrom, .inr hto⟩)]
    by_cases hopen : first.fields.Open
    · rw [if_pos hopen, if_neg (hseen first List.mem_cons_self hopen), hrest]
      intro e he heopen
      rw [List.mem_cons, not_or]
      refine ⟨fun hkey => ?_, hseen e (List.mem_cons_of_mem _ he) heopen⟩
      have hsame := hkeys e (List.mem_cons_of_mem _ he) first List.mem_cons_self heopen hopen hkey
      exact hnodup.1 (hsame ▸ he)
    · rw [if_neg hopen, hrest seen fun e he => hseen e (List.mem_cons_of_mem _ he)]

/-- Nothing stands in the way of a projection: one edge for each source and each open key, between known principals. -/
structure Projectable (t : Tables) (now : Instant) : Prop where
  sources : ((t.desiredEdges now).map (·.source)).Nodup
  keys : ∀ e ∈ t.desiredEdges now, ∀ e' ∈ t.desiredEdges now, e.fields.Open → e'.fields.Open →
    e.fields.key = e'.fields.key → e = e'
  ends : ∀ e ∈ t.desiredEdges now,
    e.fields.fromId ∈ t.desiredPrincipals.map (·.id) ∧ e.fields.toId ∈ t.desiredPrincipals.map (·.id)
  principals : (t.desiredPrincipals.map (·.id)).Nodup

structure Mirrors (t : Tables) (p : Projection) (now : Instant) : Prop where
  edge : ∀ want ∈ t.desiredEdges now, ∃ row ∈ p.rows, Settled row want
  wanted : ∀ row ∈ p.rows, WriteThrough row.fields.kind → row.fields.Open →
    ∃ want ∈ t.desiredEdges now, want.source = row.source
  deps : ∀ want ∈ t.desiredEdges now, ∀ row ∈ p.rows, row.source = want.source → p.DepsOf row want
  principal : ∀ w ∈ t.desiredPrincipals, w ∈ p.principals

theorem distinct_of_sources {wanted : List Edge} (h : (wanted.map (·.source)).Nodup) : Projection.Distinct wanted :=
  fun _ he _ he' hsource => List.inj_on_of_nodup_map h he he' hsource

theorem selectWanted_desiredEdges {t : Tables} {now : Instant} (h : Projectable t now) (p : Projection) :
    selectWanted ((p.syncPrincipals t.desiredPrincipals).principals.rows.map (·.id)) [] (t.desiredEdges now) =
      t.desiredEdges now := by
  have hknown : ∀ id ∈ t.desiredPrincipals.map (·.id),
      id ∈ (p.syncPrincipals t.desiredPrincipals).principals.rows.map (·.id) := by
    intro id hid
    obtain ⟨w, hw, rfl⟩ := List.mem_map.mp hid
    exact List.mem_map_of_mem ((Projection.foldl_putPrincipal _ h.principals _).2.1 w hw)
  refine selectWanted_eq h.sources.of_map h.keys (fun e he => ?_) fun _ _ _ => List.not_mem_nil
  exact ⟨hknown _ (h.ends e he).1, hknown _ (h.ends e he).2⟩

theorem mirrors_sync {t : Tables} {now : Instant} (h : Projectable t now) (p : Projection) :
    Mirrors t (p.sync t now) now := by
  unfold Projection.sync
  simp only [selectWanted_desiredEdges h p]
  have happlied := Projection.applied (distinct_of_sources h.sources)
    ((p.syncPrincipals t.desiredPrincipals).revokeUnwanted (t.desiredEdges now) now)
  refine ⟨happlied.edge, fun row hrow hkind hopen => ?_, happlied.deps, fun w hw => ?_⟩
  · by_contra hnone
    have hunwanted : row.source ∉ (t.desiredEdges now).map (·.source) := by
      intro hmem
      obtain ⟨want, hwant, hsource⟩ := List.mem_map.mp hmem
      exact hnone ⟨want, hwant, hsource⟩
    have hbefore := (happlied.other row hunwanted).mp hrow
    obtain ⟨r, -, hr⟩ := Projection.mem_modifyRows.mp hbefore
    split at hr
    · -- the row was revoked just before
      rw [← hr] at hopen
      exact absurd hopen (by simp [Fields.Open])
    · rename_i hkept
      rw [hr] at hkept
      exact hkept ⟨hkind, hunwanted, hopen⟩
  · rw [happlied.principals]
    exact (Projection.foldl_putPrincipal _ h.principals _).2.1 w hw

/-- An edge with a source of its own, written beside the projection, changes nothing of it. -/
theorem Mirrors.upsert_other {t : Tables} {p : Projection} {now : Instant} (h : Mirrors t p now) {want : Edge}
    (hsource : ∀ e ∈ t.desiredEdges now, e.source ≠ want.source ∧ ∀ dep ∈ e.deps, dep.1 ≠ want.source)
    (hkind : ¬ WriteThrough want.fields.kind) : Mirrors t (p.upsert want) now := by
  have hup := p.upserted want
  have hrow : ∀ {row : EdgeRow} {e : Edge}, e ∈ t.desiredEdges now → row.source = e.source →
      (row ∈ (p.upsert want).rows ↔ row ∈ p.rows) :=
    fun he hsame => hup.other _ fun heq => (hsource _ he).1 (hsame.symm.trans heq)
  refine ⟨fun e he => ?_, fun row hmem hwt hopen => ?_, fun e he row hmem hsame d => ?_, fun w hw => ?_⟩
  · obtain ⟨row, hmem, hsettled⟩ := h.edge e he
    exact ⟨row, (hrow he hsettled.source).mpr hmem, hsettled⟩
  · by_cases hown : row.source = want.source
    · obtain ⟨settled, hsettled, hdone⟩ := hup.settled
      obtain rfl := Keyed.eq_of_key hmem hsettled (hown.trans hdone.source.symm)
      rw [hdone.fields] at hwt
      exact absurd hwt hkind
    · exact h.wanted row ((hup.other row hown).mp hmem) hwt hopen
  · have htargets : d ∈ (p.upsert want).targets row.id e ↔ d ∈ p.targets row.id e := by
      simp only [Projection.mem_targets]
      refine exists_congr fun dep => and_congr_right fun hdep => exists_congr fun r => ?_
      constructor
      · rintro ⟨hr, hto, hd⟩
        exact ⟨(hup.other r fun heq => (hsource e he).2 dep hdep (hto.symm.trans heq)).mp hr, hto, hd⟩
      · rintro ⟨hr, hto, hd⟩
        exact ⟨(hup.other r fun heq => (hsource e he).2 dep hdep (hto.symm.trans heq)).mpr hr, hto, hd⟩
    rw [hup.deps, htargets]
    exact h.deps e he row ((hrow he hsame).mp hmem) hsame d
  · rw [hup.principals]
    exact h.principal w hw

end BotCord.Spaces
