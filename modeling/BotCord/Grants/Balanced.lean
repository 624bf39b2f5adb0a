import BotCord.Grants.Reserve

/-!
# A grant is spent once for each operation

The count of a grant should be that of the operations that took effect under it. A cancellation is no exception that the operation's handler catches: a request that is cancelled while it works or refunds keeps what it has spent, and so does one whose refund fails. The time a reservation compares with is the one at which it began, and it may have waited since.
-/

namespace BotCord.Grants

structure Balanced (d : Hub) : Prop where
  bounded : ∀ g ∈ d.grants, 0 ≤ g.useCount ∧ ∀ maxUses ∈ g.limit, g.useCount ≤ maxUses
  settled : (∀ r ∈ d.requests, r.phase = .ended) → ∀ g ∈ d.grants, g.useCount = d.effects.countP (g.id ∈ ·)

/-- A request begins its operation. -/
def Begins (d d' : Hub) (r : Request) (reserved : List GrantId) : Prop :=
  r ∈ d'.requests ∧ r.phase = .working reserved ∧ r ∉ d.requests

/-- Grants are spent by the requests that begin their operations, which have good grants for all their scopes. -/
structure Authorised (d d' : Hub) : Prop where
  complete : ∀ r reserved, Begins d d' r reserved → ∀ scope ∈ r.scopes, ∃ g ∈ d.grants, g.id ∈ reserved ∧ g.scope = scope
  live : ∀ r reserved, Begins d d' r reserved → ∀ g ∈ d.grants, g.id ∈ reserved → g.revokedAt = none ∧ g.Unexpired d.now
  spends : ∀ g ∈ d.grants, ∀ g' ∈ d'.grants, g.id = g'.id → g.useCount < g'.useCount →
    ∃ r reserved, Begins d d' r reserved ∧ g.id ∈ reserved

/-- The grants that are spent for an operation which has not taken effect. -/
def Phase.held : Phase → List GrantId
  | .working reserved | .releasing reserved => reserved
  | _ => []

def Phase.bound : Phase → List GrantId
  | .committed reserved | .releasing reserved => reserved
  | _ => []

def Phase.reserved : Phase → List GrantId
  | .reserving [] reserved [] => reserved
  | _ => []

/-- The condition on a step. -/
def Hub.Orderly (d : Hub) : Action → Prop
  | .next i => ∀ r ∈ d.requests.get? i, ∀ g ∈ d.grants, g.id ∈ r.phase.reserved → g.Unexpired d.now
  | .fail i => ∀ r ∈ d.requests.get? i, r.phase.bound = []
  | .cancel i => ∀ r ∈ d.requests.get? i, r.phase.held = []
  | _ => True

instance (d : Hub) : DecidablePred d.Orderly := fun _ => by
  unfold Hub.Orderly
  split <;> infer_instance

/-! ### The invariant -/

def Phase.ids : Phase → List GrantId
  | .reserving _ reserved _ | .working reserved | .committed reserved | .releasing reserved => reserved
  | _ => []

/-- What a request has spent of a grant for an operation that has not taken effect. -/
def outstanding (id : GrantId) (r : Request) : ℤ := if id ∈ r.phase.held then 1 else 0

def Hub.Has (d : Hub) (id : GrantId) : Prop := ∃ g ∈ d.grants, g.id = id

/-- A reservation holds the rows that it is to spend, and has looked at every scope. -/
structure Reserving (d : Hub) (r : Request) (left : List Scope) (reserved : List GrantId) (missing : List Scope) : Prop where
  spent : ∀ id ∈ reserved, d.locked id = some r.id ∧
    ∃ g ∈ d.grants, g.id = id ∧ g.revokedAt = none ∧ ∀ maxUses ∈ g.limit, g.useCount < maxUses
  scopes : ∀ scope ∈ r.scopes, scope ∈ left ∨ scope ∈ missing ∨ ∃ g ∈ d.grants, g.id ∈ reserved ∧ g.scope = scope

structure Inv (d : Hub) : Prop where
  count : ∀ g ∈ d.grants,
    g.useCount = d.effects.countP (g.id ∈ ·) + Table.total (outstanding g.id) d.requests.rows
  bounded : ∀ g ∈ d.grants, ∀ maxUses ∈ g.limit, g.useCount ≤ maxUses
  effects : ∀ reserved ∈ d.effects, ∀ id ∈ reserved, d.Has id
  ids : ∀ r ∈ d.requests, ∀ id ∈ r.phase.ids, d.Has id
  loaded : ∀ r ∈ d.requests, ∀ g ∈ r.loaded, ∃ row ∈ d.grants, row.id = g.id ∧ row.limit = g.limit
  reserving : ∀ r ∈ d.requests, ∀ left reserved missing, r.phase = .reserving left reserved missing →
    Reserving d r left reserved missing

variable {d d' : Hub} {i : ℕ} {r : Request} {g : AgentManagementGrant} {id : GrantId} {a : Action}

theorem outstanding_nonneg : 0 ≤ outstanding id r := by
  unfold outstanding
  split <;> decide

theorem outstanding_of_held (h : r.phase.held = []) : outstanding id r = 0 := by
  rw [outstanding, h, if_neg List.not_mem_nil]

namespace Inv

theorem nonneg (h : Inv d) (hg : g ∈ d.grants) : 0 ≤ g.useCount := by
  rw [h.count g hg]
  have htotal : 0 ≤ Table.total (outstanding g.id) d.requests.rows := Table.total_nonneg fun _ _ => outstanding_nonneg
  omega

theorem pos_of_held (h : Inv d) (hg : g ∈ d.grants) (hr : r ∈ d.requests) (hheld : g.id ∈ r.phase.held) :
    0 < g.useCount := by
  rw [h.count g hg]
  have hle : outstanding g.id r ≤ Table.total (outstanding g.id) d.requests.rows :=
    Table.le_total (fun _ _ => outstanding_nonneg) hr
  rw [outstanding, if_pos hheld] at hle
  omega

theorem balanced (h : Inv d) : Balanced d where
  bounded g hg := ⟨h.nonneg hg, h.bounded g hg⟩
  settled hended g hg := by
    have hzero : Table.total (outstanding g.id) d.requests.rows = 0 :=
      Table.total_eq_zero fun r hr => outstanding_of_held (by rw [hended r hr]; rfl)
    rw [h.count g hg, hzero, add_zero]

end Inv

theorem limit_congr {g g' : AgentManagementGrant} (h : g'.maxUses = g.maxUses) : g'.limit = g.limit := by
  rw [AgentManagementGrant.limit, AgentManagementGrant.limit, h]

variable {f : Request → Request}

theorem mem_requests (hr : d.requests.get? i = some r) (hf : ∀ r, (f r).id = r.id) {x : Request}
    (hx : x ∈ d.requests.modify (·.id = i) f hf) : (x ∈ d.requests ∧ x.id ≠ i) ∨ x = f r := by
  obtain ⟨hmem, hid⟩ := Keyed.get?_eq_some_iff.mp hr
  obtain ⟨y, hy, rfl⟩ := (Keyed.mem_modify hf).mp hx
  split
  · rename_i hyi
    cases Keyed.eq_of_key hy hmem (hyi.trans hid.symm)
    exact .inr rfl
  · rename_i hyi
    exact .inl ⟨hy, hyi⟩

structure Rewrites (d : Hub) (p : AgentManagementGrant → Prop) (u : AgentManagementGrant → AgentManagementGrant) : Prop where
  scope : ∀ g, (u g).scope = g.scope
  maxUses : ∀ g, (u g).maxUses = g.maxUses
  bounded : ∀ g ∈ d.grants, p g → ∀ maxUses ∈ g.limit, (u g).useCount ≤ maxUses

/-- One request goes on, and some grants are rewritten that no other request is about to spend. -/
theorem Inv.next (h : Inv d) (hr : d.requests.get? i = some r) (hf : ∀ r, (f r).id = r.id)
    {p : AgentManagementGrant → Prop} [DecidablePred p] {u : AgentManagementGrant → AgentManagementGrant}
    (hu : ∀ g, (u g).id = g.id) (hrequests : d'.requests = d.requests.modify (·.id = i) f hf)
    (hgrants : d'.grants = d.grants.modify p u hu) (hrewrites : Rewrites d p u) (hloaded : (f r).loaded = r.loaded)
    (hcount : ∀ g ∈ d.grants, (if p g then u g else g).useCount + d.effects.countP (g.id ∈ ·) + outstanding g.id r =
      g.useCount + d'.effects.countP (g.id ∈ ·) + outstanding g.id (f r))
    (heffects : ∀ reserved ∈ d'.effects, reserved ∈ d.effects ∨ reserved = r.phase.ids)
    (hids : ∀ id ∈ (f r).phase.ids, d.Has id)
    (hothers : ∀ x ∈ d.requests, x.id ≠ i → ∀ id, d.locked id = some x.id →
      d'.locked id = some x.id ∧ ∀ g ∈ d.grants, g.id = id → ¬ p g)
    (hown : ∀ left reserved missing, (f r).phase = .reserving left reserved missing →
      Reserving d' (f r) left reserved missing) : Inv d' := by
  obtain ⟨hmem, hid⟩ := Keyed.get?_eq_some_iff.mp hr
  have hrow : ∀ g ∈ d.grants, (if p g then u g else g) ∈ d'.grants := fun g hg => hgrants ▸ Keyed.mem_modify_of_mem hu hg
  have hkey : ∀ g, (if p g then u g else g).id = g.id ∧ (if p g then u g else g).scope = g.scope ∧
      (if p g then u g else g).limit = g.limit := by
    intro g
    split
    · exact ⟨hu g, hrewrites.scope g, limit_congr (hrewrites.maxUses g)⟩
    · exact ⟨rfl, rfl, rfl⟩
  have hhas : ∀ id, d.Has id → d'.Has id := by
    rintro id ⟨g, hg, rfl⟩
    exact ⟨_, hrow g hg, (hkey g).1⟩
  have hcases : ∀ x ∈ d'.requests, (x ∈ d.requests ∧ x.id ≠ i) ∨ x = f r := fun x hx => mem_requests hr hf (hrequests ▸ hx)
  have htotal : ∀ id, Table.total (outstanding id) d'.requests.rows =
      Table.total (outstanding id) d.requests.rows - outstanding id r + outstanding id (f r) := by
    intro id
    rw [hrequests]
    subst hid
    exact Table.total_update_key d.requests.distinct hmem
  refine ⟨fun g' hg' => ?_, fun g' hg' maxUses hmax => ?_, fun reserved hreserved id hidm => ?_, fun x hx id hidm => ?_,
    fun x hx g hg => ?_, fun x hx left reserved missing hphase => ?_⟩
  · rw [hgrants] at hg'
    obtain ⟨g, hg, rfl⟩ := (Keyed.mem_modify hu).mp hg'
    have hold := h.count g hg
    have hnew := hcount g hg
    have hsum := htotal g.id
    rw [(hkey g).1]
    omega
  · rw [hgrants] at hg'
    obtain ⟨g, hg, rfl⟩ := (Keyed.mem_modify hu).mp hg'
    rw [(hkey g).2.2] at hmax
    split
    · rename_i hp
      exact hrewrites.bounded g hg hp maxUses hmax
    · exact h.bounded g hg maxUses hmax
  · rcases heffects reserved hreserved with hold | rfl
    · exact hhas id (h.effects reserved hold id hidm)
    · exact hhas id (h.ids r hmem id hidm)
  · rcases hcases x hx with ⟨hx, -⟩ | rfl
    · exact hhas id (h.ids x hx id hidm)
    · exact hhas id (hids id hidm)
  · have hold : ∃ y ∈ d.requests, g ∈ y.loaded := by
      rcases hcases x hx with ⟨hx, -⟩ | rfl
      · exact ⟨x, hx, hg⟩
      · exact ⟨r, hmem, hloaded ▸ hg⟩
    obtain ⟨y, hy, hg⟩ := hold
    obtain ⟨row, hrowmem, hrowid, hlimit⟩ := h.loaded y hy g hg
    exact ⟨_, hrow row hrowmem, (hkey row).1.trans hrowid, (hkey row).2.2.trans hlimit⟩
  · rcases hcases x hx with ⟨hx, hne⟩ | rfl
    · obtain ⟨hspent, hscopes⟩ := h.reserving x hx left reserved missing hphase
      refine ⟨fun id hidm => ?_, fun scope hscope => ?_⟩
      · obtain ⟨hlocked, g, hg, rfl, hlive⟩ := hspent id hidm
        obtain ⟨hlocked', hp⟩ := hothers x hx hne g.id hlocked
        have hsame := hrow g hg
        rw [if_neg (hp g hg rfl)] at hsame
        exact ⟨hlocked', g, hsame, rfl, hlive⟩
      · rcases hscopes scope hscope with hleft | hmissing | ⟨g, hg, hgid, hgscope⟩
        · exact .inl hleft
        · exact .inr (.inl hmissing)
        · exact .inr (.inr ⟨_, hrow g hg, (hkey g).1.symm ▸ hgid, (hkey g).2.1.trans hgscope⟩)
    · exact hown left reserved missing hphase

theorem Inv.go (h : Inv d) (hr : d.requests.get? i = some r) (hf : ∀ r, (f r).id = r.id)
    (hrequests : d'.requests = d.requests.modify (·.id = i) f hf) (hgrants : d'.grants = d.grants)
    (hloaded : (f r).loaded = r.loaded)
    (hcount : ∀ id, d.effects.countP (id ∈ ·) + outstanding id r = d'.effects.countP (id ∈ ·) + outstanding id (f r))
    (heffects : ∀ reserved ∈ d'.effects, reserved ∈ d.effects ∨ reserved = r.phase.ids)
    (hids : ∀ id ∈ (f r).phase.ids, d.Has id)
    (hlocked : ∀ x ∈ d.requests, x.id ≠ i → ∀ id, d.locked id = some x.id → d'.locked id = some x.id)
    (hown : ∀ left reserved missing, (f r).phase = .reserving left reserved missing →
      Reserving d' (f r) left reserved missing) : Inv d' := by
  refine h.next hr hf (p := fun _ => False) (u := fun g => g) (fun _ => rfl) hrequests ?_
    ⟨fun _ => rfl, fun _ => rfl, fun _ _ hp => hp.elim⟩ hloaded (fun g _ => ?_) heffects hids
    (fun x hx hne id hid => ⟨hlocked x hx hne id hid, fun _ _ _ hp => hp⟩) hown
  · exact hgrants.trans (Keyed.modify_eq_self _ fun _ _ hp => hp.elim).symm
  · rw [if_neg not_false]
    have hcount := hcount g.id
    omega

theorem unlock_other {j : ℕ} (hne : j ≠ i) (h : d.locked id = some j) : (d.unlock i).locked id = some j := by
  show (if d.locked id = some i then none else d.locked id) = some j
  rw [if_neg, h]
  rw [h]
  exact fun heq => hne (Option.some.inj heq)

/-! ### Reservations -/

variable {scope : Scope}

theorem mem_rowsOf : g ∈ d.rowsOf scope ↔ g ∈ d.grants ∧ g.scope = scope := by
  simp [Hub.rowsOf, Keyed.mem_def]

theorem limit_candidate (h : Inv d) (hr : r ∈ d.requests) {row : AgentManagementGrant}
    (hg : g ∈ r.candidates (d.rowsOf scope)) (hrow : row ∈ d.grants) (hid : row.id = g.id) : row.limit = g.limit := by
  obtain ⟨hg, -⟩ := List.mem_filter.mp ((List.mem_insertionSort _).mp hg)
  obtain ⟨x, hx, rfl⟩ := List.mem_map.mp hg
  unfold Request.object at hid ⊢
  cases hfound : r.loaded.find? (·.id = x.id) with
  | none =>
    rw [hfound, Option.getD_none] at hid
    rw [Option.getD_none, Keyed.eq_of_key hrow (mem_rowsOf.mp hx).1 hid]
  | some y =>
    rw [hfound, Option.getD_some] at hid
    obtain ⟨row', hrow', hid', hlimit⟩ := h.loaded r hr y (List.mem_of_find?_eq_some hfound)
    rw [Option.getD_some, ← hlimit, Keyed.eq_of_key hrow hrow' (hid.trans hid'.symm)]

theorem reserve_eq_some (h : Inv d) (hr : r ∈ d.requests) (hreserve : r.reserve (d.rowsOf scope) = some id) :
    ∃ row ∈ d.grants, row.id = id ∧ row.scope = scope ∧ row.revokedAt = none ∧
      ∀ maxUses ∈ row.limit, row.useCount < maxUses := by
  obtain ⟨g, hfound, rfl⟩ := Option.map_eq_some_iff.mp hreserve
  have hcandidate := List.mem_of_find?_eq_some hfound
  have hreservable := List.find?_some hfound
  obtain ⟨row, hrow, hid, hlive, -, -, hlimit⟩ := of_decide_eq_true hreservable
  obtain ⟨hrow, hscope⟩ := mem_rowsOf.mp hrow
  refine ⟨row, hrow, hid, hscope, hlive, ?_⟩
  rw [limit_candidate h hr hcandidate hrow hid]
  exact hlimit

variable {reserved : List GrantId}

theorem inv_reserveScope (h : Inv d) (hr : d.requests.get? i = some r) {left missing : List Scope}
    (hphase : r.phase = .reserving (scope :: left) reserved missing)
    (hfree : ∀ g ∈ d.rowsOf scope, d.locked g.id = none ∨ d.locked g.id = some i) :
    Inv (d.reserveScope i r scope left reserved missing) := by
  obtain ⟨hmem, hid⟩ := Keyed.get?_eq_some_iff.mp hr
  obtain ⟨hspent, hscopes⟩ := h.reserving r hmem _ _ _ hphase
  have hheld : ∀ id, outstanding id r = 0 := fun id => outstanding_of_held (by rw [hphase]; rfl)
  have hids := h.ids r hmem
  rw [hphase] at hids
  have hlocked : ∀ id j, d.locked id = some j →
      (if ∃ g ∈ d.rowsOf scope, g.id = id then some i else d.locked id) = some j := by
    intro id j hj
    split
    · rename_i hrow
      obtain ⟨g, hg, rfl⟩ := hrow
      rcases hfree g hg with hfree | hfree <;> rw [hfree] at hj
      · cases hj
      · exact hj
    · exact hj
  unfold Hub.reserveScope
  cases hreserve : r.reserve (d.rowsOf scope) with
  | none =>
    refine h.go hr (fun r => r.id_goto _) rfl rfl rfl (fun id => ?_) (fun _ h => .inl h) hids
      (fun x _ _ id hx => hlocked id x.id hx) ?_
    · rw [hheld, outstanding_of_held rfl]
      rfl
    · rintro _ _ _ ⟨⟩
      refine ⟨fun id hid => ⟨hlocked id r.id (hspent id hid).1, (hspent id hid).2⟩, fun s hs => ?_⟩
      rcases hscopes s hs with hleft | hmissing | hreserved
      · rcases List.mem_cons.mp hleft with rfl | hleft
        · exact .inr (.inl (List.mem_append_right _ (List.mem_singleton_self _)))
        · exact .inl hleft
      · exact .inr (.inl (List.mem_append_left _ hmissing))
      · exact .inr (.inr hreserved)
  | some id =>
    obtain ⟨row, hrow, rfl, rfl, hlive⟩ := reserve_eq_some h hmem hreserve
    refine h.go hr (fun r => r.id_goto _) rfl rfl rfl (fun id => ?_) (fun _ h => .inl h) (fun id hid => ?_)
      (fun x _ _ id hx => hlocked id x.id hx) ?_
    · rw [hheld, outstanding_of_held rfl]
      rfl
    · rcases List.mem_append.mp hid with hid | hid
      · exact hids id hid
      · exact ⟨row, hrow, (List.mem_singleton.mp hid).symm⟩
    · rintro _ _ _ ⟨⟩
      refine ⟨fun x hx => ?_, fun s hs => ?_⟩
      · rcases List.mem_append.mp hx with hx | hx
        · exact ⟨hlocked x r.id (hspent x hx).1, (hspent x hx).2⟩
        · cases List.mem_singleton.mp hx
          refine ⟨?_, row, hrow, rfl, hlive⟩
          show (if ∃ g ∈ d.rowsOf row.scope, g.id = row.id then some i else d.locked row.id) = some r.id
          rw [if_pos ⟨row, mem_rowsOf.mpr ⟨hrow, rfl⟩, rfl⟩, hid]
      · rcases hscopes s hs with hleft | hmissing | ⟨g, hg, hgid, hgscope⟩
        · rcases List.mem_cons.mp hleft with rfl | hleft
          · exact .inr (.inr ⟨row, hrow, List.mem_append_right _ (List.mem_singleton_self _), rfl⟩)
          · exact .inl hleft
        · exact .inr (.inl hmissing)
        · exact .inr (.inr ⟨g, hg, List.mem_append_left _ hgid, hgscope⟩)

theorem inv_commitReserved (h : Inv d) (hr : d.requests.get? i = some r)
    (hphase : r.phase = .reserving [] reserved []) : Inv (d.commitReserved i reserved) := by
  obtain ⟨hmem, hid⟩ := Keyed.get?_eq_some_iff.mp hr
  obtain ⟨hspent, -⟩ := h.reserving r hmem _ _ _ hphase
  have hids := h.ids r hmem
  rw [hphase] at hids
  refine h.next hr (fun r => r.id_goto (.working reserved)) AgentManagementGrant.id_spend rfl rfl
    ⟨fun _ => rfl, fun _ => rfl, fun g hg hp maxUses hmax => ?_⟩ rfl (fun g hg => ?_) (fun _ h => .inl h) hids
    (fun x _ hne id hx => ⟨unlock_other hne hx, fun g _ hg hp => ?_⟩) ?_
  · obtain ⟨-, row, hrow, hrowid, -, hlimit⟩ := hspent g.id hp
    cases Keyed.eq_of_key hrow hg hrowid
    exact Int.add_one_le_of_lt (hlimit maxUses hmax)
  · have hzero : outstanding g.id r = 0 := outstanding_of_held (by rw [hphase]; rfl)
    show _ = g.useCount + d.effects.countP (g.id ∈ ·) + (if g.id ∈ reserved then 1 else 0)
    rw [hzero]
    split
    · show g.useCount + 1 + _ + 0 = _
      omega
    · rfl
  · subst hg
    have hlocked := (hspent g.id hp).1.symm.trans hx
    exact hne ((Option.some.inj hlocked).symm.trans hid)
  · rintro _ _ _ ⟨⟩

theorem inv_release (h : Inv d) (hr : d.requests.get? i = some r)
    (hphase : r.phase = .releasing reserved) (hfree : ∀ id ∈ reserved, d.locked id = none) :
    Inv (d.release i reserved) := by
  obtain ⟨hmem, -⟩ := Keyed.get?_eq_some_iff.mp hr
  refine h.next hr (fun r => r.id_goto .ended) AgentManagementGrant.id_refund rfl rfl
    ⟨fun _ => rfl, fun _ => rfl, fun g hg hp maxUses hmax => ?_⟩ rfl (fun g hg => ?_) (fun _ h => .inl h)
    (fun _ h => absurd h List.not_mem_nil) (fun x _ hne id hx => ⟨hx, fun g _ hg hp => ?_⟩) ?_
  · have hbounded := h.bounded g hg maxUses hmax
    show g.useCount - 1 ≤ maxUses
    omega
  · have hzero : outstanding g.id (r.goto .ended) = 0 := outstanding_of_held rfl
    have hheld : outstanding g.id r = if g.id ∈ reserved then 1 else 0 := by rw [outstanding, hphase]; rfl
    rw [hzero, hheld]
    by_cases hg' : g.id ∈ reserved
    · have hpos : 0 < g.useCount := h.pos_of_held hg hmem (by rw [hphase]; exact hg')
      rw [if_pos ⟨hg', hpos⟩, if_pos hg']
      show g.useCount - 1 + _ + 1 = _
      have hsame : (d.release i reserved).effects = d.effects := rfl
      rw [hsame]
      omega
    · rw [if_neg fun hp => hg' hp.1, if_neg hg']
      rfl
  · subst hg
    rw [hfree g.id hp.1] at hx
    cases hx
  · rintro _ _ _ ⟨⟩

theorem inv_stop (h : Inv d) (hr : d.requests.get? i = some r) (hheld : r.phase.held = []) : Inv (d.stop i) := by
  refine h.go hr (fun r => r.id_goto .ended) rfl rfl rfl (fun id => ?_) (fun _ h => .inl h)
    (fun _ h => absurd h List.not_mem_nil) (fun x _ hne id hx => unlock_other hne hx) ?_
  · rw [outstanding_of_held hheld, outstanding_of_held rfl]
    rfl
  · rintro _ _ _ ⟨⟩

/-! ### Steps -/

theorem authorised_of_not (hnot : ∀ r reserved, ¬ Begins d d' r reserved)
    (hspends : ∀ g ∈ d.grants, ∀ g' ∈ d'.grants, g.id = g'.id → g'.useCount ≤ g.useCount) : Authorised d d' where
  complete r reserved h := absurd h (hnot r reserved)
  live r reserved h := absurd h (hnot r reserved)
  spends g hg g' hg' hid hlt := absurd (hspends g hg g' hg' hid) (not_le_of_gt hlt)

theorem not_spent {p : AgentManagementGrant → Prop} [DecidablePred p] {u : AgentManagementGrant → AgentManagementGrant}
    (hu : ∀ g, (u g).id = g.id) (hgrants : d'.grants = d.grants.modify p u hu) (hcount : ∀ g, (u g).useCount ≤ g.useCount) :
    ∀ g ∈ d.grants, ∀ g' ∈ d'.grants, g.id = g'.id → g'.useCount ≤ g.useCount := by
  intro g hg g' hg' hid
  rw [hgrants] at hg'
  obtain ⟨x, hx, rfl⟩ := (Keyed.mem_modify hu).mp hg'
  have hkey : (if p x then u x else x).id = x.id := by
    split
    · exact hu x
    · rfl
  cases Keyed.eq_of_key hg hx (hid.trans hkey)
  split
  · exact hcount g
  · rfl

theorem not_spent_same (hgrants : d'.grants = d.grants) :
    ∀ g ∈ d.grants, ∀ g' ∈ d'.grants, g.id = g'.id → g'.useCount ≤ g.useCount := by
  intro g hg g' hg' hid
  rw [Keyed.eq_of_key hg (hgrants ▸ hg') hid]

theorem not_begins (hr : d.requests.get? i = some r) (hf : ∀ r, (f r).id = r.id)
    (hrequests : d'.requests = d.requests.modify (·.id = i) f hf) (hphase : ∀ reserved, (f r).phase ≠ .working reserved)
    (x : Request) (reserved : List GrantId) : ¬ Begins d d' x reserved := by
  rintro ⟨hx, hworking, hnew⟩
  rcases mem_requests hr hf (hrequests ▸ hx) with ⟨hx, -⟩ | rfl
  · exact hnew hx
  · exact hphase reserved hworking

theorem authorised_commitReserved (h : Inv d) (hr : d.requests.get? i = some r)
    (hphase : r.phase = .reserving [] reserved []) (hmeets : d.Orderly (.next i)) :
    Authorised d (d.commitReserved i reserved) := by
  obtain ⟨hmem, hid⟩ := Keyed.get?_eq_some_iff.mp hr
  obtain ⟨hspent, hscopes⟩ := h.reserving r hmem _ _ _ hphase
  have hbegins : ∀ x list, Begins d (d.commitReserved i reserved) x list → x = r.goto (.working reserved) ∧ list = reserved := by
    rintro x list ⟨hx, hworking, hnew⟩
    rcases mem_requests hr (fun r => r.id_goto (.working reserved)) hx with ⟨hx, -⟩ | rfl
    · exact absurd hx hnew
    · cases hworking
      exact ⟨rfl, rfl⟩
  refine ⟨fun x list hx scope hscope => ?_, fun x list hx g hg hgid => ?_, fun g hg g' hg' hgid hlt => ?_⟩
  · obtain ⟨rfl, rfl⟩ := hbegins x list hx
    rcases hscopes scope hscope with hleft | hmissing | hreserved
    · exact absurd hleft List.not_mem_nil
    · exact absurd hmissing List.not_mem_nil
    · exact hreserved
  · obtain ⟨rfl, rfl⟩ := hbegins x list hx
    obtain ⟨-, row, hrow, hrowid, hlive, -⟩ := hspent g.id hgid
    cases Keyed.eq_of_key hrow hg hrowid
    exact ⟨hlive, hmeets r hr g hg (by rw [hphase]; exact hgid)⟩
  · obtain ⟨x, hx, rfl⟩ := (Keyed.mem_modify AgentManagementGrant.id_spend).mp hg'
    by_cases hreserved : x.id ∈ reserved
    · rw [if_pos hreserved] at hgid
      refine ⟨r.goto (.working reserved), reserved, ⟨?_, rfl, fun hold => ?_⟩, hgid.symm ▸ hreserved⟩
      · have hmodified := Keyed.mem_modify_of_mem (p := fun x => x.id = i) (fun r => r.id_goto (.working reserved)) hmem
        rwa [if_pos hid] at hmodified
      · have hphase' := congrArg Request.phase (Keyed.eq_of_key hold hmem rfl)
        rw [hphase] at hphase'
        cases hphase'
    · rw [if_neg hreserved] at hgid hlt
      cases Keyed.eq_of_key hg hx hgid
      exact absurd hlt (lt_irrefl _)

theorem step_next (h : Inv d) (hmeets : d.Orderly (.next i)) (hstep : hub.step d (.next i) = some d') :
    Inv d' ∧ Authorised d d' := by
  simp only [hub] at hstep
  split at hstep
  · cases hstep
  · rename_i r hr
    split at hstep
    · rename_i hphase
      cases hstep
      refine ⟨h.go hr (fun r => r.id_start d.now) rfl rfl rfl (fun id => ?_) (fun _ h => .inl h)
        (fun _ h => absurd h List.not_mem_nil) (fun _ _ _ _ h => h) ?_,
        authorised_of_not (not_begins hr (fun r => r.id_start d.now) rfl fun _ h => (by cases h)) (not_spent_same rfl)⟩
      · rw [outstanding_of_held (by rw [hphase]; rfl), outstanding_of_held rfl]
      · rintro _ _ _ ⟨⟩
        exact ⟨fun _ h => absurd h List.not_mem_nil, fun _ h => .inl h⟩
    · rename_i scope left reserved missing hphase
      obtain ⟨hfree, hstep⟩ := Option.ite_none_right_eq_some.mp hstep
      cases hstep
      refine ⟨inv_reserveScope h hr hphase hfree, ?_⟩
      refine authorised_of_not (not_begins hr (fun r => r.id_goto _) rfl fun list hworking => ?_) (not_spent_same rfl)
      unfold Request.goto at hworking
      split at hworking <;> cases hworking
    · rename_i reserved hphase
      cases hstep
      exact ⟨inv_commitReserved h hr hphase, authorised_commitReserved h hr hphase hmeets⟩
    · rename_i hphase
      cases hstep
      exact ⟨inv_stop h hr (by rw [hphase]; rfl),
        authorised_of_not (not_begins hr (fun r => r.id_goto .ended) rfl fun _ h => (by cases h)) (not_spent_same rfl)⟩
    · rename_i reserved hphase
      obtain ⟨hfree, hstep⟩ := Option.ite_none_right_eq_some.mp hstep
      cases hstep
      refine ⟨inv_release h hr hphase hfree, authorised_of_not
        (not_begins hr (fun r => r.id_goto .ended) rfl fun _ h => (by cases h))
        (not_spent AgentManagementGrant.id_refund rfl fun g => ?_)⟩
      show g.useCount - 1 ≤ g.useCount
      omega
    · cases hstep

theorem step_effect (h : Inv d) (hstep : hub.step d (.effect i) = some d') : Inv d' ∧ Authorised d d' := by
  simp only [hub] at hstep
  split at hstep
  · rename_i reserved hr
    cases hstep
    have hmem := (Keyed.get?_eq_some_iff.mp hr).1
    refine ⟨h.go hr (fun r => r.id_goto (.committed reserved)) rfl rfl rfl (fun id => ?_) (fun list hlist => ?_)
      (fun id hid => h.ids _ hmem id hid) (fun _ _ _ _ h => h) ?_,
      authorised_of_not (not_begins hr (fun r => r.id_goto (.committed reserved)) rfl fun _ h => (by cases h))
        (not_spent_same rfl)⟩
    · rw [outstanding_of_held (r := Request.goto _ _) rfl, List.countP_append, List.countP_singleton]
      unfold outstanding Phase.held
      simp only [decide_eq_true_eq]
      split <;> simp
    · rcases List.mem_append.mp hlist with hlist | hlist
      · exact .inl hlist
      · exact .inr (List.mem_singleton.mp hlist)
    · rintro _ _ _ ⟨⟩
  · cases hstep

theorem step_answer (h : Inv d) (hstep : hub.step d (.answer i) = some d') : Inv d' ∧ Authorised d d' := by
  simp only [hub] at hstep
  split at hstep
  · rename_i hr
    cases hstep
    refine ⟨h.go hr (fun r => r.id_goto .ended) rfl rfl rfl (fun id => ?_) (fun _ h => .inl h)
      (fun _ h => absurd h List.not_mem_nil) (fun _ _ _ _ h => h) ?_,
      authorised_of_not (not_begins hr (fun r => r.id_goto .ended) rfl fun _ h => (by cases h)) (not_spent_same rfl)⟩
    · rw [outstanding_of_held rfl, outstanding_of_held rfl]
      rfl
    · rintro _ _ _ ⟨⟩
  · cases hstep

/-- An operation that has not taken effect fails, and its grants are to be refunded. -/
theorem step_refunds (h : Inv d) (hr : d.requests.get? i = some r)
    (hids : r.phase.ids = reserved) (hheld : r.phase.held = reserved) :
    Inv (d.goto i (.releasing reserved)) ∧ Authorised d (d.goto i (.releasing reserved)) := by
  have hmem := (Keyed.get?_eq_some_iff.mp hr).1
  refine ⟨h.go hr (fun r => r.id_goto (.releasing reserved)) rfl rfl rfl (fun id => ?_) (fun _ h => .inl h)
    (fun id hid => h.ids r hmem id (hids ▸ hid)) (fun _ _ _ _ h => h) ?_,
    authorised_of_not (not_begins hr (fun r => r.id_goto (.releasing reserved)) rfl fun _ h => (by cases h))
      (not_spent_same rfl)⟩
  · rw [outstanding, outstanding, hheld]
    rfl
  · rintro _ _ _ ⟨⟩

theorem step_stops (h : Inv d) (hr : d.requests.get? i = some r) (hheld : r.phase.held = []) :
    Inv (d.stop i) ∧ Authorised d (d.stop i) :=
  ⟨inv_stop h hr hheld,
    authorised_of_not (not_begins hr (fun r => r.id_goto .ended) rfl fun _ h => (by cases h)) (not_spent_same rfl)⟩

theorem step_fail (h : Inv d) (hmeets : d.Orderly (.fail i)) (hstep : hub.step d (.fail i) = some d') :
    Inv d' ∧ Authorised d d' := by
  simp only [hub] at hstep
  split at hstep
  · rename_i hr
    cases hstep
    exact step_stops h hr rfl
  · rename_i hr
    cases hstep
    exact step_stops h hr rfl
  · rename_i hr
    cases hstep
    exact step_stops h hr (hmeets _ hr)
  · rename_i hr
    cases hstep
    exact step_refunds h hr rfl rfl
  · rename_i reserved hr
    cases hstep
    have hnone : reserved = [] := hmeets _ hr
    subst hnone
    exact step_refunds h hr rfl rfl
  · cases hstep

theorem step_cancel (h : Inv d) (hmeets : d.Orderly (.cancel i)) (hstep : hub.step d (.cancel i) = some d') :
    Inv d' ∧ Authorised d d' := by
  simp only [hub] at hstep
  split at hstep
  · cases hstep
  · cases hstep
  · rename_i r _ hr
    cases hstep
    exact step_stops h hr (hmeets r hr)

theorem step_tick (h : Inv d) (seconds : ℕ) :
    Inv { d with now := d.now + seconds } ∧ Authorised d { d with now := d.now + seconds } := by
  refine ⟨⟨h.count, h.bounded, h.effects, h.ids, h.loaded, fun r hr left reserved missing hphase => ?_⟩,
    authorised_of_not (fun r reserved hbegins => hbegins.2.2 hbegins.1) (not_spent_same rfl)⟩
  obtain ⟨hspent, hscopes⟩ := h.reserving r hr left reserved missing hphase
  exact ⟨hspent, hscopes⟩

theorem step_revoke (h : Inv d) (hfree : d.locked id = none) {grants : Keyed AgentManagementGrant.id}
    (hgrants : grants = d.grants.modify (·.id = id) (·.revoke d.now) (·.id_revoke d.now)) :
    Inv { d with grants } ∧ Authorised d { d with grants } := by
  have hrow : ∀ g ∈ d.grants, (if g.id = id then g.revoke d.now else g) ∈ grants := fun g hg =>
    hgrants ▸ Keyed.mem_modify_of_mem (fun g => g.id_revoke d.now) hg
  have hkey : ∀ g : AgentManagementGrant, (if g.id = id then g.revoke d.now else g).id = g.id ∧
      (if g.id = id then g.revoke d.now else g).scope = g.scope ∧
      (if g.id = id then g.revoke d.now else g).limit = g.limit ∧
      (if g.id = id then g.revoke d.now else g).useCount = g.useCount := by
    intro g
    split <;> exact ⟨rfl, rfl, rfl, rfl⟩
  have hold : ∀ g' ∈ grants, ∃ g ∈ d.grants, g.id = g'.id ∧ g.limit = g'.limit ∧ g.useCount = g'.useCount := by
    intro g' hg'
    rw [hgrants] at hg'
    obtain ⟨g, hg, rfl⟩ := (Keyed.mem_modify fun g => g.id_revoke d.now).mp hg'
    obtain ⟨hid, -, hlimit, hcount⟩ := hkey g
    exact ⟨g, hg, hid.symm, hlimit.symm, hcount.symm⟩
  have hhas : ∀ x, d.Has x → Hub.Has { d with grants } x := by
    rintro x ⟨g, hg, rfl⟩
    exact ⟨_, hrow g hg, (hkey g).1⟩
  refine ⟨⟨fun g' hg' => ?_, fun g' hg' => ?_, fun list hlist x hx => hhas x (h.effects list hlist x hx),
    fun r hr x hx => hhas x (h.ids r hr x hx), fun r hr g hg => ?_, fun r hr left reserved missing hphase => ?_⟩,
    authorised_of_not (fun r reserved hbegins => hbegins.2.2 hbegins.1) (not_spent _ hgrants fun g => le_rfl)⟩
  · obtain ⟨g, hg, hid, -, hcount⟩ := hold g' hg'
    rw [← hid, ← hcount]
    exact h.count g hg
  · obtain ⟨g, hg, -, hlimit, hcount⟩ := hold g' hg'
    rw [← hlimit, ← hcount]
    exact h.bounded g hg
  · obtain ⟨row, hrowmem, hrowid, hlimit⟩ := h.loaded r hr g hg
    exact ⟨_, hrow row hrowmem, (hkey row).1.trans hrowid, (hkey row).2.2.1.trans hlimit⟩
  · obtain ⟨hspent, hscopes⟩ := h.reserving r hr left reserved missing hphase
    refine ⟨fun x hx => ?_, fun scope hscope => ?_⟩
    · obtain ⟨hlocked, g, hg, rfl, hlive⟩ := hspent x hx
      have hne : g.id ≠ id := by
        rintro rfl
        rw [hfree] at hlocked
        cases hlocked
      have hsame := hrow g hg
      rw [if_neg hne] at hsame
      exact ⟨hlocked, g, hsame, rfl, hlive⟩
    · rcases hscopes scope hscope with hleft | hmissing | ⟨g, hg, hgid, hgscope⟩
      · exact .inl hleft
      · exact .inr (.inl hmissing)
      · exact .inr (.inr ⟨_, hrow g hg, (hkey g).1.symm ▸ hgid, (hkey g).2.1.trans hgscope⟩)

theorem step_create (h : Inv d) {grants : Keyed AgentManagementGrant.id} (hadds : d.grants.Adds g grants)
    (hzero : g.useCount = 0) : Inv { d with grants } ∧ Authorised d { d with grants } := by
  have hmem : ∀ x, x ∈ grants ↔ x ∈ d.grants ∨ x = g := fun x => hadds.mem_iff
  have hnew : ¬ d.Has g.id := by
    rintro ⟨x, hx, hid⟩
    exact hadds.new x hx hid
  have hhas : ∀ x, d.Has x → Hub.Has { d with grants } x := by
    rintro x ⟨y, hy, rfl⟩
    exact ⟨y, (hmem y).mpr (.inl hy), rfl⟩
  refine ⟨⟨fun x hx => ?_, fun x hx maxUses hmax => ?_, fun list hlist x hx => hhas x (h.effects list hlist x hx),
    fun r hr x hx => hhas x (h.ids r hr x hx), fun r hr x hx => ?_, fun r hr left reserved missing hphase => ?_⟩,
    authorised_of_not (fun r reserved hbegins => hbegins.2.2 hbegins.1) fun x hx y hy hid => ?_⟩
  · rcases (hmem x).mp hx with hx | rfl
    · exact h.count x hx
    · have heffects : d.effects.countP (x.id ∈ ·) = 0 := by
        rw [List.countP_eq_zero]
        intro list hlist hid
        exact hnew (h.effects list hlist x.id (of_decide_eq_true hid))
      have htotal : Table.total (outstanding x.id) d.requests.rows = 0 := by
        refine Table.total_eq_zero fun r hr => if_neg fun hheld => hnew (h.ids r hr x.id ?_)
        cases hphase : r.phase <;> simp_all [Phase.held, Phase.ids]
      show x.useCount = d.effects.countP (x.id ∈ ·) + Table.total (outstanding x.id) d.requests.rows
      rw [hzero, heffects, htotal]
      rfl
  · rcases (hmem x).mp hx with hx | rfl
    · exact h.bounded x hx maxUses hmax
    · rw [hzero]
      exact of_decide_eq_true (Option.filter_eq_some_iff.mp hmax).2
  · obtain ⟨row, hrow, hrow'⟩ := h.loaded r hr x hx
    exact ⟨row, (hmem row).mpr (.inl hrow), hrow'⟩
  · obtain ⟨hspent, hscopes⟩ := h.reserving r hr left reserved missing hphase
    refine ⟨fun x hx => ?_, fun scope hscope => ?_⟩
    · obtain ⟨hlocked, y, hy, hrest⟩ := hspent x hx
      exact ⟨hlocked, y, (hmem y).mpr (.inl hy), hrest⟩
    · rcases hscopes scope hscope with hleft | hmissing | ⟨y, hy, hrest⟩
      · exact .inl hleft
      · exact .inr (.inl hmissing)
      · exact .inr (.inr ⟨y, (hmem y).mpr (.inl hy), hrest⟩)
  · rcases (hmem y).mp hy with hy | rfl
    · rw [Keyed.eq_of_key hx hy hid]
    · exact absurd hid (hadds.new x hx)

theorem step_require (h : Inv d) {requests : Keyed Request.id} (hadds : d.requests.Adds r requests)
    (hphase : r.phase = .required) (hloaded : ∀ g ∈ r.loaded, g ∈ d.grants) :
    Inv { d with requests } ∧ Authorised d { d with requests } := by
  have hmem : ∀ x, x ∈ requests ↔ x ∈ d.requests ∨ x = r := fun x => hadds.mem_iff
  refine ⟨⟨fun g hg => ?_, h.bounded, h.effects, fun x hx id hid => ?_, fun x hx g hg => ?_,
    fun x hx left reserved missing hreserving => ?_⟩,
    authorised_of_not (fun x reserved hbegins => ?_) (not_spent_same rfl)⟩
  · have htotal : Table.total (outstanding g.id) requests.rows = Table.total (outstanding g.id) d.requests.rows := by
      rw [hadds.rows, Table.total_append, Table.total_cons, Table.total_nil,
        outstanding_of_held (by rw [hphase]; rfl), add_zero, add_zero]
    exact (h.count g hg).trans (by rw [htotal])
  · rcases (hmem x).mp hx with hx | rfl
    · exact h.ids x hx id hid
    · rw [hphase] at hid
      exact absurd hid List.not_mem_nil
  · rcases (hmem x).mp hx with hx | rfl
    · exact h.loaded x hx g hg
    · exact ⟨g, hloaded g hg, rfl, rfl⟩
  · rcases (hmem x).mp hx with hx | rfl
    · obtain ⟨hspent, hscopes⟩ := h.reserving x hx left reserved missing hreserving
      exact ⟨hspent, hscopes⟩
    · rw [hphase] at hreserving
      cases hreserving
  · obtain ⟨hx, hworking, hnew⟩ := hbegins
    rcases (hmem x).mp hx with hx | rfl
    · exact hnew hx
    · rw [hphase] at hworking
      cases hworking

theorem step_balanced (h : Inv d) (hmeets : d.Orderly a) (hstep : hub.step d a = some d') : Inv d' ∧ Authorised d d' := by
  cases a with
  | tick seconds =>
    cases hstep
    exact step_tick h seconds
  | createGrant id scope daemonInstanceId maxUses expiresAt =>
    obtain ⟨grants, hinsert, rfl⟩ := Option.map_eq_some_iff.mp hstep
    exact step_create h (Keyed.insert?_eq_some hinsert) rfl
  | revokeGrant id =>
    obtain ⟨hfree, hstep⟩ := Option.ite_none_right_eq_some.mp hstep
    cases hstep
    exact step_revoke h hfree rfl
  | require i scopes daemonInstanceId allowGlobalDaemonGrant kept =>
    obtain ⟨requests, hinsert, rfl⟩ := Option.map_eq_some_iff.mp hstep
    exact step_require h (Keyed.insert?_eq_some hinsert) rfl fun g hg => (List.mem_filter.mp hg).1
  | next i => exact step_next h hmeets hstep
  | effect i => exact step_effect h hstep
  | answer i => exact step_answer h hstep
  | fail i => exact step_fail h hmeets hstep
  | cancel i => exact step_cancel h hmeets hstep

theorem inv_empty : Inv {} where
  count _ hg := absurd hg Keyed.not_mem_empty
  bounded _ hg := absurd hg Keyed.not_mem_empty
  effects _ hlist := absurd hlist List.not_mem_nil
  ids _ hr := absurd hr Keyed.not_mem_empty
  loaded _ hr := absurd hr Keyed.not_mem_empty
  reserving _ hr := absurd hr Keyed.not_mem_empty

/-- In a run whose steps all meet the condition, every grant is balanced, and grants are spent by authorised requests. -/
theorem grants_balanced {actions : List Action} (hmeets : hub.Meets Hub.Orderly {} (actions ++ [a]))
    (hrun : hub.run {} actions = some d) (hstep : hub.step d a = some d') :
    Balanced d ∧ Balanced d' ∧ Authorised d d' := by
  obtain ⟨hactions, hlast⟩ := hub.meets_append.mp hmeets
  have hinv : Inv d := hub.run_invariant_of_meets (fun _ _ _ h hmeets hstep => (step_balanced h hmeets hstep).1)
    inv_empty hactions hrun
  obtain ⟨hinv', hauthorised⟩ := step_balanced hinv (hlast d hrun).1 hstep
  exact ⟨hinv.balanced, hinv'.balanced, hauthorised⟩

/-- A request for a grant that can be used twice reserves it and works. -/
def working : List Action :=
  [.createGrant "g_1" .daemonAgentsProvision (some "dm_1") (some 2) (some 60),
    .require 1 [.daemonAgentsProvision] (some "dm_1") false [], .next 1, .next 1, .next 1]

/-- The operation fails and the grant is refunded, while another request takes effect. -/
theorem refunded_balanced : ∃ d d', hub.run {} (working ++ [.fail 1, .require 2 [.daemonAgentsProvision] (some "dm_1") false
      ["g_1"], .next 2, .next 1, .next 2, .next 2, .effect 2]) = some d ∧ hub.step d (.answer 2) = some d' ∧
    (∀ r ∈ d'.requests, r.phase = .ended) ∧ (∃ g ∈ d'.grants, g.useCount = 1) ∧
      Balanced d ∧ Balanced d' ∧ Authorised d d' := by
  have hrun : (hub.run {} (working ++ [.fail 1, .require 2 [.daemonAgentsProvision] (some "dm_1") false
      ["g_1"], .next 2, .next 1, .next 2, .next 2, .effect 2])).any (fun d => (hub.step d (.answer 2)).any fun d' =>
        (∀ r ∈ d'.requests, r.phase = .ended) ∧ ∃ g ∈ d'.grants, g.useCount = 1) = true := by
    decide +kernel
  obtain ⟨d, hrun, hstep⟩ := (Option.any_eq_true _ _).mp hrun
  obtain ⟨d', hstep, hcount⟩ := (Option.any_eq_true _ _).mp hstep
  obtain ⟨hended, hcount⟩ := of_decide_eq_true hcount
  have hbalanced := grants_balanced (by decide +kernel) hrun hstep
  exact ⟨d, d', hrun, hstep, hended, hcount, hbalanced⟩

/-- A request that is cancelled while its operation runs keeps what it has spent. -/
theorem cancelled_keeps_its_use : ¬ ∀ (actions : List Action) (d : Hub), hub.run {} actions = some d → Balanced d := by
  intro hbalanced
  have hrun : (hub.run {} (working ++ [.cancel 1])).any (fun d => (∀ r ∈ d.requests, r.phase = .ended) ∧
      d.effects = [] ∧ ∃ g ∈ d.grants, g.useCount = 1) = true := by
    decide +kernel
  obtain ⟨d, hrun, hcount⟩ := (Option.any_eq_true _ _).mp hrun
  obtain ⟨hended, heffects, g, hg, hone⟩ := of_decide_eq_true hcount
  have hcount := (hbalanced _ d hrun).settled hended g hg
  rw [hone, heffects] at hcount
  cases hcount

end BotCord.Grants
