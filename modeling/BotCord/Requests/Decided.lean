import BotCord.Foundation.Exchange
import BotCord.Requests.Hub

/-!
# Requests that are decided once

A request should be decided once, and a person have one live grant of an agent in an organization. The index on pending requests holds what it says. But a request is checked as pending and decided in separate statements, and the UPDATE of `create_grant` does not see a grant that is being inserted.
-/

namespace BotCord.Requests

open Delivery (column)
open Spaces (GrantId AgentAccessGrant Tables Replaces)

def SamePair (g g' : AgentAccessGrant) : Prop :=
  g'.spaceId = g.spaceId ∧ g'.agentId = g.agentId ∧ g'.granteeUserId = g.granteeUserId
deriving Decidable

structure Hub.Consistent (d : Hub) : Prop where
  once : (d.log.map Decision.requestId).Nodup
  granted : ∀ r ∈ d.requests, r.grantId.isSome ↔ r.status = .approved
  refused : ∀ r ∈ d.requests, r.status = .rejected ∨ r.status = .cancelled →
    ∀ e ∈ d.log, e.requestId = r.id → e.grantId = none
  pending : ∀ r ∈ d.requests, ∀ r' ∈ d.requests, r.status = .pending → r'.status = .pending → r.key = r'.key → r = r'
  live : ∀ g ∈ d.tables.grants, ∀ g' ∈ d.tables.grants, g.revokedAt = none → g'.revokedAt = none → SamePair g g' → g' = g

def Call.revokes? : Call → Option GrantId
  | .revokeCommit loaded _ => some loaded.id
  | _ => none

def Hub.revokes? (d : Hub) : Action → Option GrantId
  | .next i => (d.calls.get? i).bind fun t => t.call.revokes?
  | _ => none

/-- The step commits the revocation of a grant that the list shows. -/
def Hub.Revokes (d : Hub) (a : Action) (g : AgentAccessGrant) : Prop :=
  g ∈ d.listGrants g.spaceId g.agentId ∧ d.revokes? a = some g.id
deriving Decidable

/-- No live grant of the pair is left. -/
def Hub.Withdrawn (d : Hub) (g : AgentAccessGrant) : Prop := ∀ x ∈ d.tables.grants, SamePair g x → x.revokedAt ≠ none
deriving Decidable

def Hub.Undecided (d : Hub) (loaded : AgentAccessRequest) : Prop :=
  ∀ r ∈ d.requests.get? loaded.id, r.status = .pending
deriving Decidable

/-- What a call finds when it commits. -/
def Hub.Meets (d : Hub) : Call → Prop
  | .decideCommit loaded _ _ _ => d.Undecided loaded
  | .grantCommit r _ => (∀ loaded ∈ r.request, d.Undecided loaded) ∧
      ∀ g ∈ d.tables.grants, Replaces r.grant g → g.id ∈ r.revoked
  | _ => True

/-- The condition on a step. -/
def Hub.Careful (d : Hub) : Action → Prop
  | .next i => ∀ t ∈ d.calls.get? i, d.Meets t.call
  | _ => True

instance (d : Hub) : DecidablePred d.Meets := fun _ => by
  unfold Hub.Meets
  split <;> infer_instance

instance (d : Hub) : DecidablePred d.Careful := fun _ => by
  unfold Hub.Careful
  split <;> infer_instance

/-- What is committed. -/
structure Kept (requests : Keyed AgentAccessRequest.id) (grants : Keyed AgentAccessGrant.id) (log : List Decision) : Prop where
  once : (log.map Decision.requestId).Nodup
  decided : ∀ e ∈ log, (e.grantId.isSome ↔ e.status = .approved) ∧ ∃ r ∈ requests, r.id = e.requestId
  undecided : ∀ r ∈ requests, r.status = .pending → r.grantId = none ∧ ∀ e ∈ log, e.requestId ≠ r.id
  told : ∀ r ∈ requests, r.status ≠ .pending → ⟨r.id, r.status, r.grantId⟩ ∈ log
  pending : ∀ r ∈ requests, ∀ r' ∈ requests, r.status = .pending → r'.status = .pending → r.key = r'.key → r = r'
  live : ∀ g ∈ grants, ∀ g' ∈ grants, g.revokedAt = none → Replaces g g' → g' = g

def Asked (requests : Keyed AgentAccessRequest.id) (loaded : AgentAccessRequest) : Prop :=
  loaded.status = .pending ∧ loaded.grantId = none ∧ ∃ r ∈ requests, r.id = loaded.id

def Call.Held (requests : Keyed AgentAccessRequest.id) : Call → Prop
  | .insert row => row.status = .pending ∧ row.grantId = none
  | .insertCommit row => (row.status = .pending ∧ row.grantId = none) ∧
      ∀ r ∈ requests, r.status = .pending → r.key ≠ row.key
  | .approveOwner _ loaded _ | .rejectOwner _ loaded => Asked requests loaded
  | .decideCommit loaded status _ _ => Asked requests loaded ∧ (status = .rejected ∨ status = .cancelled)
  | .createGrant _ _ _ request => ∀ loaded ∈ request, Asked requests loaded
  | .update r | .lock r _ | .grantCommit r _ => ∀ loaded ∈ r.request, Asked requests loaded
  | _ => True

structure Inv (d : Hub) : Prop where
  kept : Kept d.requests d.tables.grants d.log
  held : ∀ t ∈ d.calls, t.call.Held d.requests
  inserts : ∀ t ∈ d.calls, ∀ t' ∈ d.calls, ∀ row ∈ t.call.inserted?, ∀ row' ∈ t'.call.inserted?, row.key = row'.key → t = t'

variable {d d' : Hub} {requests requests' : Keyed AgentAccessRequest.id} {grants grants' : Keyed AgentAccessGrant.id}
  {log : List Decision} {i : ℕ} {a : Action} {t : Task} {call : Call} {loaded row r : AgentAccessRequest}
  {status : RequestStatus} {decidedBy : Option Spaces.UserId} {now : Spaces.Instant} {grantId : Option GrantId}

theorem status_decide (hloaded : loaded.status = .pending) (hstatus : status ≠ .pending) :
    (r.decide loaded status decidedBy now grantId).status = status := by
  show column loaded.status status r.status = status
  rw [column, hloaded, if_neg hstatus.symm]

theorem grantId_decide (hloaded : loaded.grantId = none) (hr : r.grantId = none) :
    (r.decide loaded status decidedBy now grantId).grantId = grantId := by
  show column loaded.grantId grantId r.grantId = grantId
  rw [column, hloaded, hr]
  split
  · assumption
  · rfl

theorem Kept.decide (h : Kept requests grants log) (hasked : Asked requests loaded)
    (hpending : ∀ r ∈ requests.get? loaded.id, r.status = .pending) (hstatus : status ≠ .pending)
    (hgrant : grantId.isSome ↔ status = .approved) :
    Kept (requests.modify (·.id = loaded.id) (·.decide loaded status decidedBy now grantId) fun r =>
      r.id_decide loaded status decidedBy now grantId) grants (⟨loaded.id, status, grantId⟩ :: log) := by
  obtain ⟨hloaded, hnone, r₀, hr₀, hid⟩ := hasked
  have hcurrent : r₀.status = .pending := hpending r₀ (Keyed.get?_eq_some_iff.mpr ⟨hr₀, hid⟩)
  obtain ⟨hungranted, hunlogged⟩ := h.undecided r₀ hr₀ hcurrent
  have hid_decide := fun r : AgentAccessRequest => r.id_decide loaded status decidedBy now grantId
  have hopen : ∀ r' ∈ requests.modify (·.id = loaded.id) (·.decide loaded status decidedBy now grantId) hid_decide,
      r'.status = .pending → r' ∈ requests ∧ r'.id ≠ loaded.id := by
    intro r' hr' hopen
    obtain ⟨r, hr, rfl⟩ := (Keyed.mem_modify _).mp hr'
    split at hopen
    · exact absurd ((status_decide hloaded hstatus).symm.trans hopen) hstatus
    · rename_i hother
      rw [if_neg hother]
      exact ⟨hr, hother⟩
  constructor
  · rw [List.map_cons, List.nodup_cons]
    refine ⟨fun hmem => ?_, h.once⟩
    obtain ⟨e, he, heid⟩ := List.mem_map.mp hmem
    exact hunlogged e he (heid.trans hid.symm)
  · intro e he
    rcases List.mem_cons.mp he with rfl | he
    · refine ⟨hgrant, _, Keyed.mem_modify_of_mem hid_decide hr₀, ?_⟩
      rw [if_pos hid]
      exact hid
    · obtain ⟨hiff, r, hr, hrid⟩ := h.decided e he
      refine ⟨hiff, _, Keyed.mem_modify_of_mem hid_decide hr, ?_⟩
      split
      · exact hrid
      · exact hrid
  · intro r' hr' hpending'
    obtain ⟨hr, hother⟩ := hopen r' hr' hpending'
    obtain ⟨hnone', hlog⟩ := h.undecided r' hr hpending'
    refine ⟨hnone', fun e he => ?_⟩
    rcases List.mem_cons.mp he with rfl | he
    · exact Ne.symm hother
    · exact hlog e he
  · intro r' hr' hdecided
    obtain ⟨r, hr, rfl⟩ := (Keyed.mem_modify _).mp hr'
    by_cases hsame : r.id = loaded.id
    · obtain rfl := Keyed.eq_of_key hr hr₀ (hsame.trans hid.symm)
      rw [if_pos hsame, status_decide hloaded hstatus, grantId_decide hnone hungranted, AgentAccessRequest.id_decide, hsame]
      exact List.mem_cons_self
    · rw [if_neg hsame] at hdecided ⊢
      exact List.mem_cons_of_mem _ (h.told r hr hdecided)
  · intro r₁ hr₁ r₂ hr₂ hpending₁ hpending₂ hkey
    exact h.pending r₁ (hopen r₁ hr₁ hpending₁).1 r₂ (hopen r₂ hr₂ hpending₂).1 hpending₁ hpending₂ hkey
  · exact h.live

theorem Kept.insert (h : Kept requests grants log) (hadds : requests.Adds row requests') (hrow : row.status = .pending)
    (hnone : row.grantId = none) (hfree : ∀ r ∈ requests, r.status = .pending → r.key ≠ row.key) :
    Kept requests' grants log := by
  constructor
  · exact h.once
  · intro e he
    obtain ⟨hiff, r, hr, hid⟩ := h.decided e he
    exact ⟨hiff, r, hadds.mem_iff.mpr (.inl hr), hid⟩
  · intro r hr hpending
    rcases hadds.mem_iff.mp hr with hr | rfl
    · exact h.undecided r hr hpending
    · refine ⟨hnone, fun e he heid => ?_⟩
      obtain ⟨-, x, hx, hxid⟩ := h.decided e he
      exact hadds.new x hx (hxid.trans heid)
  · intro r hr hdecided
    rcases hadds.mem_iff.mp hr with hr | rfl
    · exact h.told r hr hdecided
    · exact absurd hrow hdecided
  · intro r hr r' hr' hpending hpending' hkey
    rcases hadds.mem_iff.mp hr with hr | rfl
    · rcases hadds.mem_iff.mp hr' with hr' | rfl
      · exact h.pending r hr r' hr' hpending hpending' hkey
      · exact absurd hkey (hfree r hr hpending)
    · rcases hadds.mem_iff.mp hr' with hr' | rfl
      · exact absurd hkey.symm (hfree r' hr' hpending')
      · rfl
  · exact h.live

theorem Kept.rewrite (h : Kept requests grants log) (role : Spaces.GrantRole) (message : Option String) :
    Kept (requests.modify (·.id = loaded.id) (·.rewrite loaded role message) fun r => r.id_rewrite loaded role message)
      grants log := by
  have hid := fun r : AgentAccessRequest => r.id_rewrite loaded role message
  have hcases : ∀ r' ∈ requests.modify (·.id = loaded.id) (·.rewrite loaded role message) hid,
      ∃ r ∈ requests, r'.id = r.id ∧ r'.status = r.status ∧ r'.grantId = r.grantId ∧ r'.key = r.key := by
    intro r' hr'
    obtain ⟨r, hr, rfl⟩ := (Keyed.mem_modify _).mp hr'
    refine ⟨r, hr, ?_⟩
    split
    · exact ⟨rfl, rfl, rfl, rfl⟩
    · exact ⟨rfl, rfl, rfl, rfl⟩
  constructor
  · exact h.once
  · intro e he
    obtain ⟨hiff, r, hr, hrid⟩ := h.decided e he
    refine ⟨hiff, _, Keyed.mem_modify_of_mem hid hr, ?_⟩
    split
    · exact hrid
    · exact hrid
  · intro r' hr' hpending
    obtain ⟨r, hr, hrid, hstatus, hgrant, -⟩ := hcases r' hr'
    rw [hgrant, hrid]
    exact h.undecided r hr (hstatus.symm.trans hpending)
  · intro r' hr' hdecided
    obtain ⟨r, hr, hrid, hstatus, hgrant, -⟩ := hcases r' hr'
    rw [hrid, hstatus, hgrant]
    exact h.told r hr (hstatus ▸ hdecided)
  · intro r₁ hr₁ r₂ hr₂ hpending₁ hpending₂ hkey
    obtain ⟨x, hx, hxid, hxstatus, -, hxkey⟩ := hcases r₁ hr₁
    obtain ⟨y, hy, hyid, hystatus, -, hykey⟩ := hcases r₂ hr₂
    obtain rfl := h.pending x hx y hy (hxstatus.symm.trans hpending₁) (hystatus.symm.trans hpending₂)
      (hxkey.symm.trans (hkey.trans hykey))
    exact Keyed.eq_of_key hr₁ hr₂ (hxid.trans hyid.symm)
  · exact h.live

theorem mem_of_live {p : AgentAccessGrant → Prop} [DecidablePred p] {g : AgentAccessGrant}
    (hg : g ∈ grants.modify p fun g => { g with revokedAt := some now }) (hlive : g.revokedAt = none) : g ∈ grants ∧ ¬ p g := by
  obtain ⟨x, hx, rfl⟩ := (Keyed.mem_modify _).mp hg
  by_cases hp : p x
  · rw [if_pos hp] at hlive
    cases hlive
  · rw [if_neg hp]
    exact ⟨hx, hp⟩

theorem Kept.revoke (h : Kept requests grants log) (p : AgentAccessGrant → Prop) [DecidablePred p] :
    Kept requests (grants.modify p fun g => { g with revokedAt := some now }) log := by
  refine { h with live := fun g hg g' hg' hlive hreplaces => ?_ }
  exact h.live g (mem_of_live hg hlive).1 g' (mem_of_live hg' hreplaces.2.2.2).1 hlive hreplaces

theorem Kept.add (h : Kept requests grants log) {g : AgentAccessGrant} (hadds : grants.Adds g grants')
    (hfree : ∀ x ∈ grants, ¬ Replaces g x) : Kept requests grants' log := by
  refine { h with live := fun x hx y hy hlive hreplaces => ?_ }
  rcases hadds.mem_iff.mp hx with hx | rfl
  · rcases hadds.mem_iff.mp hy with hy | rfl
    · exact h.live x hx y hy hlive hreplaces
    · obtain ⟨hspace, hagent, hgrantee, -⟩ := hreplaces
      exact absurd ⟨hspace.symm, hagent.symm, hgrantee.symm, hlive⟩ (hfree x hx)
  · rcases hadds.mem_iff.mp hy with hy | rfl
    · exact absurd hreplaces (hfree y hy)
    · rfl

/-- What a step leaves of the requests: none goes, and under the key of a pending one there was one. -/
structure Turn (requests requests' : Keyed AgentAccessRequest.id) : Prop where
  known : ∀ r ∈ requests, ∃ r' ∈ requests', r'.id = r.id
  pending : ∀ r' ∈ requests', r'.status = .pending → ∃ r ∈ requests, r.status = .pending ∧ r.key = r'.key

theorem Turn.refl (requests : Keyed AgentAccessRequest.id) : Turn requests requests :=
  ⟨fun r hr => ⟨r, hr, rfl⟩, fun r hr hpending => ⟨r, hr, hpending, rfl⟩⟩

theorem Turn.modify {p : AgentAccessRequest → Prop} [DecidablePred p] {f : AgentAccessRequest → AgentAccessRequest}
    (hf : ∀ r, (f r).id = r.id) (hkey : ∀ r, (f r).key = r.key) (hpending : ∀ r, (f r).status = .pending → r.status = .pending) :
    Turn requests (requests.modify p f hf) := by
  constructor
  · intro r hr
    refine ⟨_, Keyed.mem_modify_of_mem hf hr, ?_⟩
    split
    · exact hf r
    · rfl
  · intro r' hr' hpending'
    obtain ⟨r, hr, rfl⟩ := (Keyed.mem_modify hf).mp hr'
    split at hpending'
    · rename_i hp
      rw [if_pos hp]
      exact ⟨r, hr, hpending r hpending', (hkey r).symm⟩
    · rename_i hp
      rw [if_neg hp]
      exact ⟨r, hr, hpending', rfl⟩

theorem Asked.turn (h : Asked requests loaded) (hturn : Turn requests requests') : Asked requests' loaded := by
  obtain ⟨hpending, hnone, r, hr, hid⟩ := h
  obtain ⟨r', hr', hid'⟩ := hturn.known r hr
  exact ⟨hpending, hnone, r', hr', hid'.trans hid⟩

theorem Call.Held.turn (h : call.Held requests) (hturn : Turn requests requests') : call.Held requests' := by
  cases call with
  | insert => exact h
  | insertCommit row =>
    refine ⟨h.1, fun r' hr' hpending => ?_⟩
    obtain ⟨r, hr, hpending', hkey⟩ := hturn.pending r' hr' hpending
    rw [← hkey]
    exact h.2 r hr hpending'
  | approveOwner | rejectOwner => exact Asked.turn h hturn
  | decideCommit => exact ⟨Asked.turn h.1 hturn, h.2⟩
  | createGrant | update | lock | grantCommit => exact fun loaded hloaded => Asked.turn (h loaded hloaded) hturn
  | requestAccess | existing | rewriteCommit | approve | reject | cancel | revokeGrant | revokeCommit => trivial

theorem Inv.step {before after : Option Task} (h : Inv d) (d' : Hub) (hcalls : d.calls.Exchange d'.calls before after)
    (hkept : Kept d'.requests d'.tables.grants d'.log)
    (hothers : ∀ t ∈ d.calls, some t ≠ before → t.call.Held d'.requests) (hheld : ∀ t ∈ after, t.call.Held d'.requests)
    (hinserts : ∀ t ∈ after, ∀ row ∈ t.call.inserted?, ¬ d.Inserting row) : Inv d' := by
  refine ⟨hkept, fun t ht => ?_, fun t ht t' ht' row hrow row' hrow' hkey => ?_⟩
  · rcases hcalls.cases t ht with ⟨ht, hne⟩ | rfl
    · exact hothers t ht hne
    · exact hheld t rfl
  · rcases hcalls.cases t ht with ⟨ht, -⟩ | rfl
    · rcases hcalls.cases t' ht' with ⟨ht', -⟩ | rfl
      · exact h.inserts t ht t' ht' row hrow row' hrow' hkey
      · exact absurd ⟨t, ht, row, hrow, hkey⟩ (hinserts t' rfl row' hrow')
    · rcases hcalls.cases t' ht' with ⟨ht', -⟩ | heq
      · exact absurd ⟨t', ht', row', hrow', hkey.symm⟩ (hinserts t rfl row hrow)
      · exact Option.some.inj heq

section Calls

variable (h : Inv d) (ht : d.calls.get? i = some t)
include h ht

theorem Inv.goto (d' : Hub) (hcalls : d'.calls = d.calls) (hkept : Kept d'.requests d'.tables.grants d'.log)
    (hturn : Turn d.requests d'.requests) (hheld : call.Held d'.requests)
    (hinserts : ∀ row ∈ call.inserted?, ¬ d.Inserting row) : Inv (d'.goto i call) := by
  have hexchange : d.calls.Exchange (d'.goto i call).calls (some t) (some (t.goto call)) := by
    simp only [Hub.goto, hcalls]
    exact Keyed.exchange_modify (Task.id_goto call) ht
  refine h.step _ hexchange hkept (fun t' ht' _ => (h.held t' ht').turn hturn) (fun t' ht' => ?_) fun t' ht' => ?_
  · cases ht'
    exact hheld
  · cases ht'
    exact hinserts

theorem Inv.read (d' : Hub) (hcalls : d'.calls = d.calls) (hrequests : d'.requests = d.requests)
    (hgrants : d'.tables.grants = d.tables.grants) (hlog : d'.log = d.log) (hheld : call.Held d.requests)
    (hinserts : ∀ row ∈ call.inserted?, ¬ d.Inserting row) : Inv (d'.goto i call) := by
  refine h.goto ht d' hcalls ?_ ?_ (hrequests ▸ hheld) hinserts
  · rw [hrequests, hgrants, hlog]
    exact h.kept
  · rw [hrequests]
    exact .refl _

theorem Inv.finish (d' : Hub) (hcalls : d'.calls = d.calls) (hkept : Kept d'.requests d'.tables.grants d'.log)
    (hturn : Turn d.requests d'.requests) : Inv (d'.finish i) := by
  have hexchange : d.calls.Exchange (d'.finish i).calls (some t) none := by
    simp only [Hub.finish, hcalls]
    exact Keyed.exchange_remove ht
  refine h.step _ hexchange hkept (fun t' ht' _ => (h.held t' ht').turn hturn) (fun t' ht' => ?_) fun t' ht' => ?_
  · cases ht'
  · cases ht'

theorem Inv.leave : Inv (d.finish i) := h.finish ht d rfl h.kept (.refl _)

theorem Inv.check {α : Type} {x : Except Spaces.Error α} {f : α → Hub} (hok : ∀ a, x = .ok a → Inv (f a)) :
    Inv (d.check i x f) := by
  unfold Hub.check
  split
  · exact hok _ rfl
  · exact h.leave ht

end Calls

theorem Inv.asked (h : Inv d) {spaceId : Spaces.SpaceId} {requestId : RequestId}
    (hfound : d.pendingRequest spaceId requestId = .ok loaded) : Asked d.requests loaded := by
  unfold Hub.pendingRequest at hfound
  split at hfound
  · cases hfound
  · rename_i r hr
    split at hfound
    · rename_i hpending
      cases hfound
      have hmem := (Keyed.get?_eq_some_iff.mp (Option.filter_eq_some_iff.mp hr).1).1
      exact ⟨hpending, (h.kept.undecided loaded hmem hpending).1, loaded, hmem, rfl⟩
    · cases hfound

theorem Turn.decide (hasked : Asked requests loaded) (hstatus : status ≠ .pending) :
    Turn requests (requests.modify (·.id = loaded.id) (·.decide loaded status decidedBy now grantId) fun r =>
      r.id_decide loaded status decidedBy now grantId) := by
  refine .modify _ (fun _ => rfl) fun r hpending => ?_
  exact absurd ((status_decide hasked.1 hstatus).symm.trans hpending) hstatus

theorem Turn.rewrite (role : Spaces.GrantRole) (message : Option String) :
    Turn requests (requests.modify (·.id = loaded.id) (·.rewrite loaded role message) fun r =>
      r.id_rewrite loaded role message) :=
  .modify _ (fun _ => rfl) fun _ hpending => hpending

theorem putGrant_spec (h : Kept d.requests d.tables.grants d.log) {r : Replacement}
    (hfree : ∀ g ∈ d.tables.grants, Replaces r.grant g → g.id ∈ r.revoked) (hput : d.putGrant r = some d') :
    d'.requests = d.requests ∧ d'.log = d.log ∧ d'.calls = d.calls ∧ Kept d'.requests d'.tables.grants d'.log := by
  obtain ⟨grants, hinsert, rfl⟩ := Option.map_eq_some_iff.mp hput
  refine ⟨rfl, rfl, rfl, (h.revoke _).add (Keyed.insert?_eq_some hinsert) fun g hg hreplaces => ?_⟩
  obtain ⟨hg, hother⟩ := mem_of_live hg hreplaces.2.2.2
  exact hother (hfree g hg hreplaces)

theorem Inv.held_insert (h : Inv d) {j : ℕ} (ht : t ∈ d.calls) (hne : some t ≠ some ⟨j, .insertCommit row⟩)
    (hrow : (⟨j, .insertCommit row⟩ : Task) ∈ d.calls) (hadds : d.requests.Adds row requests') : t.call.Held requests' := by
  have hold := h.held t ht
  have hknown : ∀ loaded, Asked d.requests loaded → Asked requests' loaded := by
    intro loaded hasked
    obtain ⟨hpending, hnone, r, hr, hid⟩ := hasked
    exact ⟨hpending, hnone, r, hadds.mem_iff.mpr (.inl hr), hid⟩
  obtain ⟨k, call⟩ := t
  cases call with
  | insert => exact hold
  | insertCommit other =>
    refine ⟨hold.1, fun r hr hpending hkey => ?_⟩
    rcases hadds.mem_iff.mp hr with hr | rfl
    · exact hold.2 r hr hpending hkey
    · exact hne (congrArg some (h.inserts _ ht _ hrow other rfl r rfl hkey.symm))
  | approveOwner | rejectOwner => exact hknown _ hold
  | decideCommit => exact ⟨hknown _ hold.1, hold.2⟩
  | createGrant | update | lock | grantCommit => exact fun loaded hloaded => hknown loaded (hold loaded hloaded)
  | requestAccess | existing | rewriteCommit | approve | reject | cancel | revokeGrant | revokeCommit => trivial

theorem next_inv {j : ℕ} (h : Inv d) (hmeets : d.Meets call) (ht : d.calls.get? i = some ⟨j, call⟩)
    (hnext : d.next i call = some d') : Inv d' := by
  have hheld : call.Held d.requests := h.held _ (Keyed.get?_eq_some_iff.mp ht).1
  cases call with
  | requestAccess spaceId userId agentId role message active =>
    cases hnext
    exact h.check ht fun role _ => h.read ht d rfl rfl rfl rfl trivial fun _ hrow => by cases hrow
  | existing spaceId userId agentId role message =>
    simp only [Hub.next] at hnext
    split at hnext
    · cases hnext
      exact h.read ht d rfl rfl rfl rfl trivial fun _ hrow => by cases hrow
    · cases hnext
      exact h.read ht _ rfl rfl rfl rfl ⟨rfl, rfl⟩ fun _ hrow => by cases hrow
  | rewriteCommit loaded role message =>
    cases hnext
    exact h.finish ht _ rfl (h.kept.rewrite role message) (.rewrite role message)
  | insert row =>
    simp only [Hub.next] at hnext
    split at hnext
    · cases hnext
    · rename_i hinserting
      split at hnext
      · cases hnext
        exact h.leave ht
      · rename_i htaken
        cases hnext
        refine h.read ht d rfl rfl rfl rfl ⟨hheld, fun r hr hpending hkey => htaken ⟨r, hr, hpending, hkey⟩⟩ ?_
        intro row' hrow'
        cases hrow'
        exact hinserting
  | insertCommit row =>
    obtain ⟨requests, hinsert, rfl⟩ := Option.map_eq_some_iff.mp hnext
    obtain ⟨⟨hrow, hnone⟩, hfree⟩ := hheld
    have hadds := Keyed.insert?_eq_some hinsert
    refine h.step _ (Keyed.exchange_remove ht) (h.kept.insert hadds hrow hnone hfree) (fun t' ht' hne => ?_)
      (fun _ hafter => by cases hafter) fun _ hafter => by cases hafter
    exact h.held_insert ht' hne (Keyed.get?_eq_some_iff.mp ht).1 hadds
  | approve spaceId userId requestId form =>
    cases hnext
    refine h.check ht fun loaded hfound => ?_
    have hread : (Call.approveOwner userId loaded form).Held d.requests := h.asked hfound
    exact h.read ht d rfl rfl rfl rfl hread fun _ hrow => by cases hrow
  | approveOwner userId loaded form =>
    cases hnext
    refine h.check ht fun _ _ => h.read ht d rfl rfl rfl rfl (fun _ hsome => ?_) fun _ hrow => by cases hrow
    cases hsome
    exact hheld
  | reject spaceId userId requestId =>
    cases hnext
    refine h.check ht fun loaded hfound => ?_
    have hread : (Call.rejectOwner userId loaded).Held d.requests := h.asked hfound
    exact h.read ht d rfl rfl rfl rfl hread fun _ hrow => by cases hrow
  | rejectOwner userId loaded =>
    cases hnext
    exact h.check ht fun _ _ => h.read ht d rfl rfl rfl rfl ⟨hheld, .inl rfl⟩ fun _ hrow => by cases hrow
  | cancel spaceId userId requestId =>
    cases hnext
    refine h.check ht fun loaded hfound => ?_
    split
    · exact h.read ht d rfl rfl rfl rfl ⟨h.asked hfound, .inr rfl⟩ fun _ hrow => by cases hrow
    · exact h.leave ht
  | decideCommit loaded status decidedBy now =>
    cases hnext
    obtain ⟨hasked, hrefused⟩ := hheld
    have hstatus : status ≠ .pending ∧ status ≠ .approved := by
      rcases hrefused with rfl | rfl
      · decide
      · decide
    refine h.finish ht _ rfl (h.kept.decide hasked hmeets hstatus.1 ?_) (.decide hasked hstatus.1)
    simp [hstatus.2]
  | createGrant spaceId actorId form request =>
    cases hnext
    exact h.check ht fun grant _ => h.read ht _ rfl rfl rfl rfl hheld fun _ hrow => by cases hrow
  | update r =>
    cases hnext
    exact h.read ht d rfl rfl rfl rfl hheld fun _ hrow => by cases hrow
  | lock r rest =>
    cases rest with
    | nil =>
      cases hnext
      exact h.read ht d rfl rfl rfl rfl hheld fun _ hrow => by cases hrow
    | cons grantId rest =>
      simp only [Hub.next] at hnext
      split at hnext
      · cases hnext
      · split at hnext
        · cases hnext
          exact h.read ht d rfl rfl rfl rfl hheld fun _ hrow => by cases hrow
        · cases hnext
          exact h.read ht d rfl rfl rfl rfl hheld fun _ hrow => by cases hrow
  | grantCommit r now =>
    obtain ⟨d₁, hput, rfl⟩ := Option.map_eq_some_iff.mp hnext
    obtain ⟨hundecided, hfree⟩ := hmeets
    obtain ⟨hrequests, hlog, hcalls, hkept⟩ := putGrant_spec h.kept hfree hput
    cases hrequest : r.request with
    | none => exact h.finish ht d₁ hcalls hkept (hrequests ▸ .refl _)
    | some loaded =>
      have hasked : Asked d₁.requests loaded := hrequests ▸ hheld loaded hrequest
      refine h.finish ht _ hcalls (hkept.decide hasked ?_ (by decide) ⟨fun _ => rfl, fun _ => rfl⟩) ?_
      · rw [hrequests]
        exact hundecided loaded hrequest
      · rw [← hrequests]
        exact .decide hasked (by decide)
  | revokeGrant spaceId actorId grantId =>
    cases hnext
    refine h.check ht fun loaded _ => ?_
    split
    · exact h.read ht d rfl rfl rfl rfl trivial fun _ hrow => by cases hrow
    · exact h.leave ht
  | revokeCommit loaded now =>
    simp only [Hub.next] at hnext
    split at hnext
    · cases hnext
    · cases hnext
      exact h.finish ht _ rfl (h.kept.revoke _) (.refl _)

theorem Inv.begin (h : Inv d) (hheld : call.Held d.requests) (hinserted : call.inserted? = none)
    (hbegin : d.begin i call = some d') : Inv d' := by
  obtain ⟨calls, hinsert, rfl⟩ := Option.map_eq_some_iff.mp hbegin
  refine h.step _ (Keyed.insert?_eq_some hinsert).exchange h.kept (fun t ht _ => h.held t ht) (fun t ht => ?_) fun t ht => ?_
  · cases ht
    exact hheld
  · cases ht
    intro row hrow
    rw [hinserted] at hrow
    cases hrow

theorem step_inv (h : Inv d) (hmeets : d.Careful a) (hstep : hub.step d a = some d') : Inv d' := by
  cases a with
  | tick seconds =>
    cases hstep
    exact h.step _ (.refl _) h.kept (fun t ht _ => h.held t ht) (fun _ ht => by cases ht) fun _ ht => by cases ht
  | requestAccess | approveRequest | rejectRequest | cancelRequest | revokeGrant =>
    refine h.begin ?_ rfl hstep
    exact trivial
  | createGrant i spaceId actorId form =>
    have hheld : (Call.createGrant spaceId actorId form none).Held d.requests := fun _ hnone => by cases hnone
    exact h.begin hheld rfl hstep
  | next i =>
    obtain ⟨⟨j, call⟩, ht, hnext⟩ := Option.bind_eq_some_iff.mp hstep
    exact next_inv h (hmeets _ ht) ht hnext
  | abort i =>
    obtain ⟨t, ht, rfl⟩ := Option.map_eq_some_iff.mp hstep
    exact h.leave ht

theorem Inv.consistent (h : Inv d) : d.Consistent := by
  have htold : ∀ r ∈ d.requests, r.status ≠ .pending → ⟨r.id, r.status, r.grantId⟩ ∈ d.log := h.kept.told
  constructor
  · exact h.kept.once
  · intro r hr
    by_cases hpending : r.status = .pending
    · rw [(h.kept.undecided r hr hpending).1, hpending]
      decide
    · exact (h.kept.decided _ (htold r hr hpending)).1
  · intro r hr hrefused e he hid
    have hdecided : r.status ≠ .pending ∧ r.status ≠ .approved := by
      rcases hrefused with hstatus | hstatus
      · rw [hstatus]
        decide
      · rw [hstatus]
        decide
    have htold := htold r hr hdecided.1
    obtain rfl := List.inj_on_of_nodup_map h.kept.once he htold hid
    have hgrant := (h.kept.decided _ htold).1
    rw [← Option.not_isSome_iff_eq_none, hgrant]
    exact hdecided.2
  · exact h.kept.pending
  · intro g hg g' hg' hlive hlive' hsame
    exact h.kept.live g hg g' hg' hlive ⟨hsame.1, hsame.2.1, hsame.2.2, hlive'⟩

theorem Inv.withdrawn (h : Inv d) {g : AgentAccessGrant} (hrevokes : d.Revokes a g) (hstep : hub.step d a = some d') :
    d'.Withdrawn g := by
  obtain ⟨hshown, hrevokes⟩ := hrevokes
  obtain ⟨hg, hshown⟩ := List.mem_filter.mp hshown
  obtain ⟨-, -, hlive⟩ := of_decide_eq_true hshown
  cases a with
  | next i =>
    obtain ⟨⟨j, call⟩, ht, hnext⟩ := Option.bind_eq_some_iff.mp hstep
    obtain ⟨t, ht', hid⟩ := Option.bind_eq_some_iff.mp hrevokes
    obtain rfl := Option.some.inj (ht.symm.trans ht')
    cases call with
    | revokeCommit loaded now =>
      have hid : loaded.id = g.id := Option.some.inj hid
      simp only [Hub.next] at hnext
      split at hnext
      · cases hnext
      · cases hnext
        intro x hx hsame hlive'
        obtain ⟨hx, hother⟩ := mem_of_live hx hlive'
        obtain rfl := h.kept.live g hg x hx hlive ⟨hsame.1, hsame.2.1, hsame.2.2, hlive'⟩
        exact hother hid.symm
    | _ => cases hid
  | _ => cases hrevokes

/-- Organizations there may be any, but no request and no grant yet. -/
def opened (tables : Tables) : Hub := { tables := { tables with grants := {} } }

theorem inv_opened (tables : Tables) : Inv (opened tables) :=
  ⟨⟨List.nodup_nil, fun _ he => (by cases he), fun _ hr => (by cases hr), fun _ hr => (by cases hr), fun _ hr => (by cases hr),
    fun _ hg => (by cases hg)⟩, fun _ ht => (by cases ht), fun _ ht => (by cases ht)⟩

/-- In a run whose steps all meet the condition, requests and grants are consistent, and the revocation of the grant that the list shows leaves none. -/
theorem requests_consistent {tables : Tables} {actions : List Action}
    (hmeets : hub.Meets Hub.Careful (opened tables) (actions ++ [a])) (hrun : hub.run (opened tables) actions = some d)
    (hstep : hub.step d a = some d') : d'.Consistent ∧ ∀ g, d.Revokes a g → d'.Withdrawn g := by
  obtain ⟨hfront, hlast⟩ := hub.meets_append.mp hmeets
  have hinv : Inv d := hub.run_invariant_of_meets (fun _ _ _ => step_inv) (inv_opened tables) hfront hrun
  exact ⟨(step_inv hinv (hlast d hrun).1 hstep).consistent, fun _ hrevokes => hinv.withdrawn hrevokes hstep⟩

/-- An organization with an owner, a member and an agent of the owner. -/
def team : Tables where
  users := { rows := [{ id := 1, humanId := "hu_1" }, { id := 2, humanId := "hu_2" }], distinct := by decide }
  agents := { rows := [{ agentId := "ag_x", userId := some 1, claimedAt := some 0, claimCode := "" }], distinct := by decide }
  ownerships := { rows := [{ agentId := "ag_x", owner := .user 1 }], distinct := by decide }
  spaces := { rows := [{ id := 1, kind := .organization }], distinct := by decide }
  userMemberships :=
    { rows := [{ id := 1, spaceId := 1, userId := 1 }, { id := 2, spaceId := 1, userId := 2 }], distinct := by decide }
  agentMemberships :=
    { rows := [{ id := 1, spaceId := 1, agentId := "ag_x", sponsorUserMembershipId := 1, sponsorVersion := 1, status := .active }],
      distinct := by decide }

/-- The member asks for the agent. -/
def asks : List Action := [.requestAccess 1 1 2 "ag_x" "consultant" none none, .next 1, .next 1, .next 1, .next 1]

/-- The owner approves: the request is read and its owner checked, and the grant planned, put in place of others and about to be committed. -/
def approves (i : ℕ) : List Action := [.approveRequest i 1 1 0 {}, .next i, .next i, .next i, .next i, .next i]

def gives (i : ℕ) : List Action :=
  [.createGrant i 1 1 { agentId := "ag_x", granteeUserId := 2, role := "consultant" }, .next i, .next i, .next i]

/-- The owner revokes a grant. -/
def revokes (grantId : GrantId) : List Action := [.revokeGrant 3 1 1 grantId, .next 3]

/-- A request that is approved, and its grant revoked. -/
theorem requests_consistent_approved : ∃ d d' g, hub.run (opened team) (asks ++ approves 2 ++ .next 2 :: revokes 1) = some d ∧
    hub.step d (.next 3) = some d' ∧ d.Revokes (.next 3) g ∧ d'.Consistent ∧ d'.Withdrawn g := by
  have hrun : (hub.run (opened team) (asks ++ approves 2 ++ .next 2 :: revokes 1)).any (fun d =>
      (hub.step d (.next 3)).any fun _ => ∃ g ∈ d.tables.grants, d.Revokes (.next 3) g) = true := by
    decide +kernel
  obtain ⟨d, hrun, hstep⟩ := (Option.any_eq_true _ _).mp hrun
  obtain ⟨d', hstep, hshown⟩ := (Option.any_eq_true _ _).mp hstep
  obtain ⟨g, -, hrevokes⟩ := of_decide_eq_true hshown
  obtain ⟨hconsistent, hwithdrawn⟩ := requests_consistent (by decide +kernel) hrun hstep
  exact ⟨d, d', g, hrun, hstep, hrevokes, hconsistent, hwithdrawn g hrevokes⟩

/-- A request that is approved and cancelled at once ends as cancelled, with a grant. Of two grants that are created at once one is left when the other is revoked. -/
theorem approved_and_cancelled :
    (¬ ∀ actions d, hub.run (opened team) actions = some d → d.Consistent) ∧
      ¬ ∀ actions a d d', hub.run (opened team) actions = some d → hub.step d a = some d' →
        ∀ g, d.Revokes a g → d'.Withdrawn g := by
  constructor
  · intro hsound
    have hrun : (hub.run (opened team) (asks ++ approves 2 ++ [.cancelRequest 3 1 2 0, .next 3, .next 2, .next 3])).any
        (fun d => ∃ r ∈ d.requests, r.status = .cancelled ∧ r.grantId.isSome) = true := by
      decide +kernel
    obtain ⟨d, hrun, hcancelled⟩ := (Option.any_eq_true _ _).mp hrun
    obtain ⟨r, hr, hstatus, hgrant⟩ := of_decide_eq_true hcancelled
    have happroved := ((hsound _ d hrun).granted r hr).mp hgrant
    rw [hstatus] at happroved
    cases happroved
  · intro hsound
    have hrun : (hub.run (opened team) (gives 1 ++ gives 2 ++ [.next 1, .next 2] ++ revokes 1)).any
        (fun d => (hub.step d (.next 3)).any fun d' => ∃ g ∈ d.tables.grants, d.Revokes (.next 3) g ∧ ¬ d'.Withdrawn g) = true := by
      decide +kernel
    obtain ⟨d, hrun, hstep⟩ := (Option.any_eq_true _ _).mp hrun
    obtain ⟨d', hstep, hleft⟩ := (Option.any_eq_true _ _).mp hstep
    obtain ⟨g, -, hrevokes, hnot⟩ := of_decide_eq_true hleft
    exact hnot (hsound _ _ d d' hrun hstep g hrevokes)

end BotCord.Requests
