import BotCord.Gateway.Execution

/-!
# Authority under batching

A turn runs with one profile for all of its messages. Profiles are ordered by what they allow, and a turn with more messages is compared with a turn that has some of them.
-/

namespace BotCord.Gateway

/-- `refused < restricted < collaborator < default` -/
def TurnExecution.rank : TurnExecution → ℕ
  | .refused _ _ => 0
  | .restricted _ => 1
  | .collaborator _ => 2
  | .default => 3

theorem TurnExecution.rank_le_default (e : TurnExecution) : e.rank ≤ 3 := by
  cases e <;> simp [rank]

/-- Messages under one grant carry the same role and the same mark of activity. -/
def GrantsAgree (entries : List (Option InboxMessage)) : Prop :=
  ∀ e ∈ entries, ∀ e' ∈ entries, ∀ c ∈ readAccessContext e, ∀ c' ∈ readAccessContext e',
    c.grant.grantId = c'.grant.grantId → c.grant.role = c'.grant.role ∧ c.active = c'.active
deriving Decidable

/-- No message has full permissions on the basis of a grant. -/
def NoFullGrant (entries : List (Option InboxMessage)) : Prop :=
  ∀ e ∈ entries, ∀ d ∈ readHubDecision e, d.profile = .full → d.basis ≠ "grant"
deriving Decidable

/-- No message has a profile that is only the name of a member that all objects inherit. -/
def NoInherited (entries : List (Option InboxMessage)) : Prop :=
  ∀ e ∈ entries, ∀ d ∈ readHubDecision e, d.profile ≠ .inherited
deriving Decidable

theorem rank_restrictedOrRefused (route : GatewayRoute) (grant : Option TurnAccessGrant) :
    (restrictedOrRefused route grant).rank = if route.runtime ∈ RESTRICTION_CAPABLE_RUNTIMES then 1 else 0 := by
  unfold restrictedOrRefused
  split <;> rfl

theorem rank_restrictedOrRefused_eq (route : GatewayRoute) (grant grant' : Option TurnAccessGrant) :
    (restrictedOrRefused route grant).rank = (restrictedOrRefused route grant').rank := by
  rw [rank_restrictedOrRefused, rank_restrictedOrRefused]

theorem rank_restrictedOrRefused_le (route : GatewayRoute) (grant : Option TurnAccessGrant) :
    (restrictedOrRefused route grant).rank ≤ 1 := by
  rw [rank_restrictedOrRefused]
  split <;> omega

variable {msg a b : GatewayInboundMessage} {route : GatewayRoute} {decisions : List EntryHubDecision}
  {entries : List (Option InboxMessage)} {latest : EntryGrant}

theorem hubDecisions_eq_some_iff :
    hubDecisions msg = some decisions ↔
      (∀ e ∈ inboundEntries msg, (readHubDecision e).isSome) ∧ decisions = (inboundEntries msg).filterMap readHubDecision := by
  rw [hubDecisions, Option.ite_some_none_eq_some, List.all_eq_true]
  exact and_congr_right fun _ => eq_comm

theorem mem_hubDecisions (h : hubDecisions msg = some decisions) {d : EntryHubDecision} :
    d ∈ decisions ↔ ∃ e ∈ inboundEntries msg, readHubDecision e = some d := by
  rw [(hubDecisions_eq_some_iff.mp h).2, List.mem_filterMap]

theorem hubDecisions_isSome_of_subset (hsub : inboundEntries a ⊆ inboundEntries b)
    (h : (hubDecisions b).isSome) : (hubDecisions a).isSome := by
  obtain ⟨decisions, hb⟩ := Option.isSome_iff_exists.mp h
  refine Option.isSome_iff_exists.mpr ⟨_, hubDecisions_eq_some_iff.mpr ⟨?_, rfl⟩⟩
  exact fun e he => (hubDecisions_eq_some_iff.mp hb).1 e (hsub he)

def profileLevel (profile : HubExecutionProfile) : ℕ := (hubProfileRank profile).getD 4

theorem rankBelow_iff {p q : HubExecutionProfile} (hp : p ≠ .inherited) (hq : q ≠ .inherited) :
    rankBelow (hubProfileRank p) (hubProfileRank q) = true ↔ profileLevel p < profileLevel q := by
  cases p <;> cases q <;> first | exact absurd rfl hp | exact absurd rfl hq | decide

theorem weaker_cases {a b : EntryHubDecision} (ha : a.profile ≠ .inherited) (hb : b.profile ≠ .inherited) :
    (weaker a b = a ∨ weaker a b = b) ∧ profileLevel (weaker a b).profile ≤ profileLevel a.profile ∧
      profileLevel (weaker a b).profile ≤ profileLevel b.profile := by
  unfold weaker
  simp only [rankBelow_iff hb ha]
  split
  · exact ⟨.inr rfl, by omega, le_rfl⟩
  · exact ⟨.inl rfl, le_rfl, by omega⟩

theorem foldl_weaker_mem (first : EntryHubDecision) (rest : List EntryHubDecision) :
    rest.foldl weaker first ∈ first :: rest := by
  induction rest generalizing first with
  | nil => exact List.mem_cons_self
  | cons next rest ih =>
    rw [List.foldl_cons]
    have hcase : weaker first next = first ∨ weaker first next = next := by
      unfold weaker
      split <;> simp
    rcases List.mem_cons.mp (ih (weaker first next)) with heq | hrest
    · rw [heq]
      rcases hcase with h | h <;> rw [h] <;> simp
    · exact List.mem_cons_of_mem _ (List.mem_cons_of_mem _ hrest)

theorem foldl_weaker_le {first : EntryHubDecision} {rest : List EntryHubDecision}
    (hnone : ∀ d ∈ first :: rest, d.profile ≠ .inherited) {d : EntryHubDecision} (hd : d ∈ first :: rest) :
    profileLevel (rest.foldl weaker first).profile ≤ profileLevel d.profile := by
  induction rest generalizing first d with
  | nil => rw [List.mem_singleton.mp hd, List.foldl_nil]
  | cons next rest ih =>
    obtain ⟨hfirst, hrest⟩ := List.forall_mem_cons.mp hnone
    obtain ⟨hcase, hle, hle'⟩ := weaker_cases hfirst (hrest next List.mem_cons_self)
    have hih : ∀ d ∈ weaker first next :: rest,
        profileLevel (rest.foldl weaker (weaker first next)).profile ≤ profileLevel d.profile := by
      refine fun d => ih (List.forall_mem_cons.mpr ⟨?_, fun x hx => hrest x (List.mem_cons_of_mem _ hx)⟩)
      rcases hcase with h | h
      · rw [h]
        exact hfirst
      · rw [h]
        exact hrest next List.mem_cons_self
    have hhead := hih _ List.mem_cons_self
    rw [List.foldl_cons]
    rcases List.mem_cons.mp hd with rfl | hd
    · exact hhead.trans hle
    · rcases List.mem_cons.mp hd with rfl | hd
      · exact hhead.trans hle'
      · exact hih d (List.mem_cons_of_mem _ hd)

theorem weakest_mem (decisions : List EntryHubDecision) (hne : decisions ≠ []) : weakest decisions hne ∈ decisions := by
  have h := foldl_weaker_mem (decisions.head hne) decisions.tail
  rwa [List.cons_head_tail] at h

theorem weakest_le (hne : decisions ≠ []) (hnone : ∀ d ∈ decisions, d.profile ≠ .inherited)
    {d : EntryHubDecision} (hd : d ∈ decisions) : profileLevel (weakest decisions hne).profile ≤ profileLevel d.profile := by
  rw [← List.cons_head_tail hne] at hnone hd
  exact foldl_weaker_le hnone hd

def entryDecisionGrant (entry : Option InboxMessage) : Option EntryGrant :=
  (readHubDecision entry).bind fun d => if d.basis = "grant" then readAccessContext entry else none

theorem zipWith_filterMap {α β γ : Type*} (f : α → Option β) (g : α → β → Option γ) {entries : List α}
    (h : ∀ e ∈ entries, (f e).isSome) :
    List.zipWith g entries (entries.filterMap f) = entries.map fun e => (f e).bind (g e) := by
  induction entries with
  | nil => rfl
  | cons e rest ih =>
    obtain ⟨d, hd⟩ := Option.isSome_iff_exists.mp (h e List.mem_cons_self)
    have hrest := ih fun x hx => h x (List.mem_cons_of_mem _ hx)
    rw [List.filterMap_cons_some hd, List.zipWith_cons_cons, List.map_cons, hrest, hd]
    rfl

theorem decisionGrants_eq (h : hubDecisions msg = some decisions) :
    decisionGrants msg decisions = (inboundEntries msg).map entryDecisionGrant := by
  obtain ⟨hall, rfl⟩ := hubDecisions_eq_some_iff.mp h
  exact zipWith_filterMap readHubDecision (fun entry d => if d.basis = "grant" then readAccessContext entry else none) hall

theorem entryDecisionGrant_eq_some {entry : Option InboxMessage} {c : EntryGrant}
    (h : entryDecisionGrant entry = some c) :
    readAccessContext entry = some c ∧ ∃ d, readHubDecision entry = some d ∧ d.basis = "grant" := by
  obtain ⟨d, hd, hc⟩ := Option.bind_eq_some_iff.mp h
  obtain ⟨hbasis, hc⟩ := Option.ite_none_right_eq_some.mp hc
  exact ⟨hc, d, hd, hbasis⟩

/-- All entries are there on the basis of one grant, which the last one says is active. -/
def OneGrant (entries : List (Option InboxMessage)) (latest : EntryGrant) : Prop :=
  (entries.map entryDecisionGrant).reduceOption.getLast? = some latest ∧ latest.active = true ∧
    ∀ e ∈ entries, ∃ c, entryDecisionGrant e = some c ∧ c.grant.grantId = latest.grant.grantId

theorem OneGrant.subset {entries entries' : List (Option InboxMessage)}
    (h : OneGrant entries latest) (hgrants : GrantsAgree entries) (hsub : entries' ⊆ entries) (hne : entries' ≠ []) :
    ∃ latest', OneGrant entries' latest' := by
  obtain ⟨hlast, hactive, hall⟩ := h
  have hmem : ∀ {xs : List (Option InboxMessage)} {c : EntryGrant},
      c ∈ (xs.map entryDecisionGrant).reduceOption → ∃ e ∈ xs, entryDecisionGrant e = some c := by
    intro xs c hc
    obtain ⟨e, he, heq⟩ := List.mem_map.mp (List.reduceOption_mem_iff.mp hc)
    exact ⟨e, he, heq⟩
  obtain ⟨first, hfirst⟩ := List.exists_mem_of_ne_nil _ hne
  obtain ⟨c, hc, -⟩ := hall first (hsub hfirst)
  have hsome : (entries'.map entryDecisionGrant).reduceOption ≠ [] :=
    List.ne_nil_of_mem (List.reduceOption_mem_iff.mpr (List.mem_map.mpr ⟨first, hfirst, hc⟩))
  obtain ⟨last, hlast'⟩ := hmem (List.getLast_mem hsome)
  obtain ⟨cl, hcl, hcleq⟩ := hall last (hsub hlast'.1)
  obtain ⟨eb, heb, hebl⟩ := hmem (List.mem_of_getLast? hlast)
  have hlatest : (entries'.map entryDecisionGrant).reduceOption.getLast? = some cl := by
    rw [List.getLast?_eq_some_getLast hsome, ← Option.some.inj (hlast'.2.symm.trans hcl)]
  -- the last grants of the two lists are the same grant, so they agree on its activity
  have hsame := hgrants last (hsub hlast'.1) eb heb cl (entryDecisionGrant_eq_some hcl).1 latest
    (entryDecisionGrant_eq_some hebl).1 hcleq
  refine ⟨cl, hlatest, hsame.2.trans hactive, fun e he => ?_⟩
  obtain ⟨ce, hce, heq⟩ := hall e (hsub he)
  exact ⟨ce, hce, heq.trans hcleq.symm⟩

theorem sameActiveGrant_iff (hlast : (entries.map entryDecisionGrant).reduceOption.getLast? = some latest) :
    sameActiveGrant (entries.map entryDecisionGrant) latest = true ↔ OneGrant entries latest := by
  simp only [sameActiveGrant, OneGrant, hlast, true_and, Bool.and_eq_true, List.all_eq_true, List.mem_map,
    forall_exists_index, and_imp, forall_apply_eq_imp_iff₂, Option.any_eq_true, decide_eq_true_eq]

section Hub

theorem resolveTurnExecution_of_hub (h : hubDecisions msg = some decisions) :
    resolveTurnExecution msg route true = fromHubDecisions msg decisions (hubDecisions_ne_nil h) route := by
  unfold resolveTurnExecution
  split
  · split
    · rename_i h'
      cases h.symm.trans h'
      rfl
    · rename_i h'
      cases h.symm.trans h'
  · contradiction

variable (h : hubDecisions msg = some decisions)
include h

theorem rank_hub_deny (hprofile : (weakest decisions (hubDecisions_ne_nil h)).profile = .deny) :
    (resolveTurnExecution msg route true).rank = 0 := by
  rw [resolveTurnExecution_of_hub h]
  simp [fromHubDecisions, hprofile, TurnExecution.rank]

theorem rank_hub_consult (hprofile : (weakest decisions (hubDecisions_ne_nil h)).profile = .consult) :
    (resolveTurnExecution msg route true).rank = (restrictedOrRefused route none).rank := by
  rw [resolveTurnExecution_of_hub h]
  simp [fromHubDecisions, hprofile, rank_restrictedOrRefused]

theorem rank_hub_collaborator (hprofile : (weakest decisions (hubDecisions_ne_nil h)).profile = .collaborator)
    (hone : ∃ latest, OneGrant (inboundEntries msg) latest) (hcapable : route.runtime ∈ COLLABORATOR_CAPABLE_RUNTIMES) :
    (resolveTurnExecution msg route true).rank = 2 := by
  obtain ⟨latest, hone⟩ := hone
  have hsame := (sameActiveGrant_iff hone.1).mpr hone
  rw [resolveTurnExecution_of_hub h]
  simp [fromHubDecisions, hprofile, decisionGrants_eq h, hone.1, hsame, hcapable, TurnExecution.rank]

theorem rank_hub_collaborator_not (hprofile : (weakest decisions (hubDecisions_ne_nil h)).profile = .collaborator)
    (hnot : ¬ ((∃ latest, OneGrant (inboundEntries msg) latest) ∧ route.runtime ∈ COLLABORATOR_CAPABLE_RUNTIMES)) :
    (resolveTurnExecution msg route true).rank = (restrictedOrRefused route none).rank := by
  rw [resolveTurnExecution_of_hub h]
  simp only [fromHubDecisions, hprofile, decisionGrants_eq h]
  split
  · rename_i latest hlast
    rw [if_neg]
    · exact rank_restrictedOrRefused_eq _ _ _
    · exact fun hboth => hnot ⟨⟨latest, (sameActiveGrant_iff hlast).mp hboth.1⟩, hboth.2⟩
  · exact rank_restrictedOrRefused_eq _ _ _

theorem rank_hub_full (hprofile : (weakest decisions (hubDecisions_ne_nil h)).profile = .full) :
    (resolveTurnExecution msg route true).rank =
      if (decisions.all fun d => d.basis = "owner" || d.basis = "owner_channel") = false ∧
        route.nonOwnerExecution = some .restricted then (restrictedOrRefused route none).rank else 3 := by
  rw [resolveTurnExecution_of_hub h]
  simp only [fromHubDecisions, hprofile]
  split
  · exact rank_restrictedOrRefused_eq _ _ _
  · rfl

omit h in
theorem rank_hub_le (h : hubDecisions msg = some decisions)
    (hprofile : profileLevel (weakest decisions (hubDecisions_ne_nil h)).profile ≤ 2) :
    (resolveTurnExecution msg route true).rank ≤ profileLevel (weakest decisions (hubDecisions_ne_nil h)).profile := by
  have hle := rank_restrictedOrRefused_le route none
  cases hp : (weakest decisions (hubDecisions_ne_nil h)).profile with
  | deny => exact (rank_hub_deny h hp).le
  | consult => exact (rank_hub_consult h hp).trans_le hle
  | collaborator =>
    by_cases hone : (∃ latest, OneGrant (inboundEntries msg) latest) ∧ route.runtime ∈ COLLABORATOR_CAPABLE_RUNTIMES
    · exact (rank_hub_collaborator h hp hone.1 hone.2).le
    · exact (rank_hub_collaborator_not h hp hone).trans_le (hle.trans (by decide))
  | full | inherited =>
    rw [hp] at hprofile
    exact absurd hprofile (by decide)

omit h in
/-- A message that is at most to be consulted leaves the turn restricted, if the runtime can be. -/
theorem rank_hub_le_restricted (h : hubDecisions msg = some decisions)
    (hprofile : profileLevel (weakest decisions (hubDecisions_ne_nil h)).profile ≤ 1) :
    (resolveTurnExecution msg route true).rank ≤ (restrictedOrRefused route none).rank := by
  cases hp : (weakest decisions (hubDecisions_ne_nil h)).profile with
  | deny => exact (rank_hub_deny h hp).trans_le (Nat.zero_le _)
  | consult => exact (rank_hub_consult h hp).le
  | collaborator =>
    rw [hp] at hprofile
    exact absurd hprofile (by decide)
  | full | inherited =>
    rw [hp] at hprofile
    exact absurd hprofile (by decide)

end Hub

theorem rank_hub_anti {decisions decisions' : List EntryHubDecision}
    (ha : hubDecisions a = some decisions) (hb : hubDecisions b = some decisions')
    (hsub : inboundEntries a ⊆ inboundEntries b) (hgrants : GrantsAgree (inboundEntries b))
    (hfull : NoFullGrant (inboundEntries b)) (hnone : NoInherited (inboundEntries b)) :
    (resolveTurnExecution b route true).rank ≤ (resolveTurnExecution a route true).rank := by
  have hdecisions : decisions ⊆ decisions' := fun d hd => by
    obtain ⟨e, he, hread⟩ := (mem_hubDecisions ha).mp hd
    exact (mem_hubDecisions hb).mpr ⟨e, hsub he, hread⟩
  have hnone : ∀ d ∈ decisions', d.profile ≠ .inherited := fun d hd => by
    obtain ⟨e, he, hread⟩ := (mem_hubDecisions hb).mp hd
    exact hnone e he d hread
  have hmem := weakest_mem decisions (hubDecisions_ne_nil ha)
  have hweakest := weakest_le (hubDecisions_ne_nil hb) hnone (hdecisions hmem)
  have hone : (∃ latest, OneGrant (inboundEntries b) latest) → ∃ latest, OneGrant (inboundEntries a) latest :=
    fun ⟨_, hlatest⟩ => hlatest.subset hgrants hsub (inboundEntries_ne_nil a)
  cases hpa : (weakest decisions (hubDecisions_ne_nil ha)).profile with
  | deny =>
    rw [hpa] at hweakest
    exact (rank_hub_le hb (hweakest.trans (by decide))).trans (hweakest.trans (Nat.zero_le _))
  | consult =>
    rw [hpa] at hweakest
    exact (rank_hub_le_restricted hb hweakest).trans (rank_hub_consult ha hpa).ge
  | collaborator =>
    rw [hpa] at hweakest
    by_cases hcollaborator : (∃ latest, OneGrant (inboundEntries a) latest) ∧ route.runtime ∈ COLLABORATOR_CAPABLE_RUNTIMES
    · rw [rank_hub_collaborator ha hpa hcollaborator.1 hcollaborator.2]
      exact (rank_hub_le hb hweakest).trans hweakest
    · rw [rank_hub_collaborator_not ha hpa hcollaborator]
      cases hpb : (weakest decisions' (hubDecisions_ne_nil hb)).profile with
      | collaborator =>
        exact (rank_hub_collaborator_not hb hpb fun hboth => hcollaborator ⟨hone hboth.1, hboth.2⟩).le
      | deny => exact rank_hub_le_restricted hb (by rw [hpb]; decide)
      | consult => exact rank_hub_le_restricted hb (by rw [hpb]; decide)
      | full | inherited =>
        rw [hpb] at hweakest
        exact absurd hweakest (by decide)
  | inherited => exact absurd hpa (hnone _ (hdecisions hmem))
  | full =>
    rw [rank_hub_full ha hpa]
    split
    · rename_i hrestricted
      cases hpb : (weakest decisions' (hubDecisions_ne_nil hb)).profile with
      | deny => exact rank_hub_le_restricted hb (by rw [hpb]; decide)
      | consult => exact rank_hub_le_restricted hb (by rw [hpb]; decide)
      | collaborator =>
        -- the entries of `a` are full, so not on the basis of a grant, and `b` has them too
        refine (rank_hub_collaborator_not hb hpb fun hboth => ?_).le
        obtain ⟨latest, -, -, hall⟩ := hone hboth.1
        obtain ⟨e, he, hread⟩ := (mem_hubDecisions ha).mp hmem
        obtain ⟨c, hc, -⟩ := hall e he
        obtain ⟨-, d, hd, hbasis⟩ := entryDecisionGrant_eq_some hc
        cases hread.symm.trans hd
        exact hfull e (hsub he) _ hread hpa hbasis
      | full =>
        have howner : (decisions'.all fun d => d.basis = "owner" || d.basis = "owner_channel") = false := by
          rw [← Bool.not_eq_true, List.all_eq_true] at hrestricted ⊢
          exact fun hall => hrestricted.1 fun d hd => hall d (hdecisions hd)
        rw [rank_hub_full hb hpb, if_pos ⟨howner, hrestricted.2⟩]
      | inherited => exact absurd hpb (hnone _ (weakest_mem decisions' (hubDecisions_ne_nil hb)))
    · exact TurnExecution.rank_le_default _

theorem resolveTurnExecution_of_local
    (h : hubDecisions msg = none) : resolveTurnExecution msg route true = fromLocalRules msg route true := by
  unfold resolveTurnExecution
  split
  · split
    · rename_i h'
      cases h.symm.trans h'
    · rfl
  · contradiction

/-- Every entry has the grant of the latest one, which is a collaborator's. -/
def CollaboratorGrant (entries : List (Option InboxMessage)) (latest : EntryGrant) : Prop :=
  latest.grant.role = .collaborator ∧ ∀ e ∈ entries, ∃ c, readAccessContext e = some c ∧ c.grant.grantId = latest.grant.grantId

theorem collaboratorGrant_iff :
    (latest.grant.role = .collaborator ∧ (entries.filterMap readAccessContext).length = entries.length ∧
        ((entries.filterMap readAccessContext).all fun c => c.grant.grantId = latest.grant.grantId)) ↔
      CollaboratorGrant entries latest := by
  rw [CollaboratorGrant, List.filterMap_length_eq_length]
  refine and_congr_right fun _ => ⟨fun ⟨hsome, hsame⟩ e he => ?_, fun hall => ⟨fun e he => ?_, ?_⟩⟩
  · obtain ⟨c, hc⟩ := Option.isSome_iff_exists.mp (hsome e he)
    have hid := List.all_eq_true.mp hsame c (List.mem_filterMap.mpr ⟨e, he, hc⟩)
    exact ⟨c, hc, of_decide_eq_true hid⟩
  · obtain ⟨c, hc, -⟩ := hall e he
    exact Option.isSome_iff_exists.mpr ⟨c, hc⟩
  · refine List.all_eq_true.mpr fun c hc => ?_
    obtain ⟨e, he, hce⟩ := List.mem_filterMap.mp hc
    obtain ⟨c', hc', hid⟩ := hall e he
    cases hce.symm.trans hc'
    exact decide_eq_true hid

section Grants

theorem rank_fromGrants_inactive (h : ∃ e ∈ entries, ∃ c, readAccessContext e = some c ∧ c.active = false) :
    (fromGrants entries latest (entries.filterMap readAccessContext) route).rank = 0 := by
  obtain ⟨e, he, c, hc, hinactive⟩ := h
  have hany : (entries.filterMap readAccessContext).any (fun c => !c.active) = true :=
    List.any_eq_true.mpr ⟨c, List.mem_filterMap.mpr ⟨e, he, hc⟩, by rw [hinactive]; rfl⟩
  rw [fromGrants, if_pos hany]
  rfl

theorem rank_fromGrants_le : (fromGrants entries latest (entries.filterMap readAccessContext) route).rank ≤ 2 := by
  unfold fromGrants
  split
  · exact Nat.zero_le _
  · split
    · exact le_rfl
    · exact (rank_restrictedOrRefused_le _ _).trans (by decide)

theorem rank_fromGrants_not (h : ¬ (CollaboratorGrant entries latest ∧ route.runtime ∈ COLLABORATOR_CAPABLE_RUNTIMES)) :
    (fromGrants entries latest (entries.filterMap readAccessContext) route).rank ≤ (restrictedOrRefused route none).rank := by
  unfold fromGrants
  split
  · exact Nat.zero_le _
  · rw [if_neg]
    · exact (rank_restrictedOrRefused_eq _ _ _).le
    · exact fun ⟨hrole, hlength, hsame, hcapable⟩ =>
        h ⟨collaboratorGrant_iff.mp ⟨hrole, hlength, hsame⟩, hcapable⟩

/-- A turn under active grants is a collaborator's turn, or as restricted as the runtime can be. -/
theorem rank_fromGrants_active (latest : EntryGrant) (route : GatewayRoute)
    (h : ∀ e ∈ entries, ∀ c, readAccessContext e = some c → c.active = true) :
    (fromGrants entries latest (entries.filterMap readAccessContext) route).rank = 2 ∨
      ¬ (CollaboratorGrant entries latest ∧ route.runtime ∈ COLLABORATOR_CAPABLE_RUNTIMES) ∧
        (fromGrants entries latest (entries.filterMap readAccessContext) route).rank =
          (restrictedOrRefused route none).rank := by
  have hactive : ¬ (entries.filterMap readAccessContext).any (fun c => !c.active) = true := fun hany => by
    obtain ⟨c, hc, hinactive⟩ := List.any_eq_true.mp hany
    obtain ⟨e, he, hce⟩ := List.mem_filterMap.mp hc
    rw [h e he c hce] at hinactive
    contradiction
  rw [fromGrants, if_neg hactive]
  split
  · exact .inl rfl
  · rename_i hnot
    refine .inr ⟨fun ⟨hone, hcapable⟩ => hnot ?_, rank_restrictedOrRefused_eq _ _ _⟩
    obtain ⟨hrole, hlength, hsame⟩ := collaboratorGrant_iff.mpr hone
    exact ⟨hrole, hlength, hsame, hcapable⟩

end Grants

theorem mem_of_getLast?_filterMap
    (h : (entries.filterMap readAccessContext).getLast? = some latest) : ∃ e ∈ entries, readAccessContext e = some latest :=
  List.mem_filterMap.mp (List.mem_of_getLast? h)

theorem getLast?_filterMap_eq_none :
    (entries.filterMap readAccessContext).getLast? = none ↔ ∀ e ∈ entries, readAccessContext e = none := by
  rw [List.getLast?_eq_none_iff, List.filterMap_eq_nil_iff]

theorem CollaboratorGrant.subset {entries entries' : List (Option InboxMessage)} {latest latest' : EntryGrant}
    (h : CollaboratorGrant entries latest) (hgrants : GrantsAgree entries) (hsub : entries' ⊆ entries)
    (hlatest : ∃ e ∈ entries, readAccessContext e = some latest)
    (hlatest' : ∃ e ∈ entries', readAccessContext e = some latest') : CollaboratorGrant entries' latest' := by
  obtain ⟨e, he, hread⟩ := hlatest
  obtain ⟨e', he', hread'⟩ := hlatest'
  obtain ⟨c, hc, hid⟩ := h.2 e' (hsub he')
  cases hread'.symm.trans hc
  have hrole := (hgrants e' (hsub he') e he _ hread' _ hread hid).1
  refine ⟨hrole.trans h.1, fun x hx => ?_⟩
  obtain ⟨cx, hcx, hidx⟩ := h.2 x (hsub hx)
  exact ⟨cx, hcx, hidx.trans hid.symm⟩

def withoutGrants (entries : List (Option InboxMessage)) (route : GatewayRoute) : TurnExecution :=
  if entries.any entryTeamRestricted then restrictedOrRefused route none
  else if route.nonOwnerExecution = some .restricted ∧ route.runtime ∈ RESTRICTION_CAPABLE_RUNTIMES then .restricted none
  else .default

/-- The team marks one of the messages, or the route restricts all of them and the runtime can be restricted. -/
def Marked (entries : List (Option InboxMessage)) (route : GatewayRoute) : Prop :=
  entries.any entryTeamRestricted = true ∨
    route.nonOwnerExecution = some .restricted ∧ route.runtime ∈ RESTRICTION_CAPABLE_RUNTIMES

theorem Marked.of_subset {entries entries' : List (Option InboxMessage)}
    (h : Marked entries route) (hsub : entries ⊆ entries') : Marked entries' route := by
  rcases h with hteam | hroute
  · obtain ⟨e, he, hmark⟩ := List.any_eq_true.mp hteam
    exact .inl (List.any_eq_true.mpr ⟨e, hsub he, hmark⟩)
  · exact .inr hroute

theorem rank_withoutGrants_of_marked
    (h : Marked entries route) : (withoutGrants entries route).rank = (restrictedOrRefused route none).rank := by
  unfold withoutGrants
  split
  · rfl
  · rename_i hteam
    obtain ⟨hroute, hcapable⟩ := h.resolve_left hteam
    rw [if_pos ⟨hroute, hcapable⟩, rank_restrictedOrRefused, if_pos hcapable]
    rfl

theorem withoutGrants_of_not_marked (h : ¬ Marked entries route) : withoutGrants entries route = .default := by
  rw [withoutGrants, if_neg fun hteam => h (.inl hteam), if_neg fun hroute => h (.inr hroute)]

theorem fromLocalRules_of_not_trusted (h : isOwnerTrustedInbound msg true = false) :
    fromLocalRules msg route true =
      ((inboundEntries msg).filterMap readAccessContext).getLast?.elim (withoutGrants (inboundEntries msg) route)
        (fun latest => fromGrants (inboundEntries msg) latest ((inboundEntries msg).filterMap readAccessContext) route) := by
  simp only [fromLocalRules, h, isRestrictedTurn, wantsRestriction, withoutGrants]
  cases ((inboundEntries msg).filterMap readAccessContext).getLast? <;> simp

theorem isOwnerTrustedInbound_of_subset
    (hroom : startsWith b.conversation.id OWNER_CHAT_PREFIX = false) (hsub : inboundEntries a ⊆ inboundEntries b)
    (h : isOwnerTrustedInbound b true = true) : isOwnerTrustedInbound a true = true := by
  simp only [isOwnerTrustedInbound, Bool.not_true, Bool.false_or, hroom, List.all_eq_true] at h
  simp only [isOwnerTrustedInbound, Bool.not_true, Bool.false_or, Bool.or_eq_true, List.all_eq_true]
  exact .inr fun e he => h e (hsub he)

theorem rank_local_anti
    (hroom : startsWith b.conversation.id OWNER_CHAT_PREFIX = false) (hsub : inboundEntries a ⊆ inboundEntries b)
    (hgrants : GrantsAgree (inboundEntries b)) :
    (fromLocalRules b route true).rank ≤ (fromLocalRules a route true).rank := by
  by_cases ha : isOwnerTrustedInbound a true = true
  · rw [show fromLocalRules a route true = .default by simp [fromLocalRules, ha]]
    exact TurnExecution.rank_le_default _
  · have hb : isOwnerTrustedInbound b true = false :=
      Bool.eq_false_iff.mpr fun hb => ha (isOwnerTrustedInbound_of_subset hroom hsub hb)
    rw [fromLocalRules_of_not_trusted hb, fromLocalRules_of_not_trusted (Bool.eq_false_iff.mpr ha)]
    cases hla : ((inboundEntries a).filterMap readAccessContext).getLast? with
    | some latest =>
      obtain ⟨e, he, hread⟩ := mem_of_getLast?_filterMap hla
      cases hlb : ((inboundEntries b).filterMap readAccessContext).getLast? with
      | none =>
        have hnone := getLast?_filterMap_eq_none.mp hlb e (hsub he)
        cases hread.symm.trans hnone
      | some latest' =>
        have hlatest' := mem_of_getLast?_filterMap hlb
        by_cases hinactive : ∃ e ∈ inboundEntries a, ∃ c, readAccessContext e = some c ∧ c.active = false
        · obtain ⟨x, hx, c, hc, hoff⟩ := hinactive
          exact (rank_fromGrants_inactive ⟨x, hsub hx, c, hc, hoff⟩).trans_le (Nat.zero_le _)
        · have hactive : ∀ x ∈ inboundEntries a, ∀ c, readAccessContext x = some c → c.active = true :=
            fun x hx c hc => Bool.of_not_eq_false fun hoff => hinactive ⟨x, hx, c, hc, hoff⟩
          rcases rank_fromGrants_active latest route hactive with htwo | ⟨hnot, hrank⟩
          · exact rank_fromGrants_le.trans htwo.ge
          · refine (rank_fromGrants_not fun hboth => hnot ⟨?_, hboth.2⟩).trans hrank.ge
            exact hboth.1.subset hgrants hsub hlatest' ⟨e, he, hread⟩
    | none =>
      have hnone := getLast?_filterMap_eq_none.mp hla
      by_cases hmarked : Marked (inboundEntries a) route
      · refine (?_ : _ ≤ (restrictedOrRefused route none).rank).trans (rank_withoutGrants_of_marked hmarked).ge
        cases hlb : ((inboundEntries b).filterMap readAccessContext).getLast? with
        | none => exact (rank_withoutGrants_of_marked (hmarked.of_subset hsub)).le
        | some latest' =>
          refine rank_fromGrants_not fun hboth => ?_
          obtain ⟨e, he⟩ := List.exists_mem_of_ne_nil _ (inboundEntries_ne_nil a)
          obtain ⟨c, hc, -⟩ := hboth.1.2 e (hsub he)
          cases (hnone e he).symm.trans hc
      · rw [Option.elim_none, withoutGrants_of_not_marked hmarked]
        exact TurnExecution.rank_le_default _

/-- More messages never raise a turn's profile, as long as both turns are decided by the same rules, messages under one grant agree about it, nothing is fully permitted by a grant and no profile is one by inheritance only. -/
theorem resolveTurnExecution_anti (a b : GatewayInboundMessage) (route : GatewayRoute)
    (hroom : startsWith b.conversation.id OWNER_CHAT_PREFIX = false) (hsub : inboundEntries a ⊆ inboundEntries b)
    (hsame : (hubDecisions a).isSome → (hubDecisions b).isSome) (hgrants : GrantsAgree (inboundEntries b))
    (hfull : NoFullGrant (inboundEntries b)) (hnone : NoInherited (inboundEntries b)) :
    (resolveTurnExecution b route true).rank ≤ (resolveTurnExecution a route true).rank := by
  cases ha : hubDecisions a with
  | some decisions =>
    obtain ⟨decisions', hb⟩ := Option.isSome_iff_exists.mp (hsame (by rw [ha]; rfl))
    exact rank_hub_anti ha hb hsub hgrants hfull hnone
  | none =>
    have hb : hubDecisions b = none := by
      rw [← Option.not_isSome_iff_eq_none]
      intro hb
      have hsome := hubDecisions_isSome_of_subset hsub hb
      rw [ha] at hsome
      exact Bool.false_ne_true hsome
    rw [resolveTurnExecution_of_local ha, resolveTurnExecution_of_local hb]
    exact rank_local_anti hroom hsub hgrants

/-- A drained group of messages of one room. -/
def groupMessage (batch : List InboxMessage) : GatewayInboundMessage where
  id := "h_1"
  channel := "botcord"
  accountId := "ag_me"
  conversation := { id := "rm_1", kind := .group }
  sender := { id := "ag_other", kind := .agent }
  text := "hi"
  raw := some { hubMsgId := "h_1", batch := some batch }

def consulted : InboxMessage :=
  { hubMsgId := "h_1", hubDecision := some { wake := some true, profile := some "consult", basis := some "room" } }

def ownersOwn : InboxMessage :=
  { hubMsgId := "h_2", senderSameOwner := some true
    hubDecision := some { wake := some true, profile := some "full", basis := some "owner" } }

theorem resolveTurnExecution_anti_consulted :
    (resolveTurnExecution (groupMessage [consulted, ownersOwn]) { runtime := "codex" } true).rank ≤
      (resolveTurnExecution (groupMessage [ownersOwn]) { runtime := "codex" } true).rank :=
  resolveTurnExecution_anti (groupMessage [ownersOwn]) (groupMessage [consulted, ownersOwn]) { runtime := "codex" }
    (by decide) (by decide) (by decide) (by decide) (by decide) (by decide)

/-- One message without a decision, and the rules of the daemon decide in place of the Hub. -/
theorem undecided_raises :
    ¬ ∀ (a b : GatewayInboundMessage) (route : GatewayRoute), a.conversation = b.conversation →
      startsWith b.conversation.id OWNER_CHAT_PREFIX = false → inboundEntries a ⊆ inboundEntries b →
      (resolveTurnExecution b route true).rank ≤ (resolveTurnExecution a route true).rank := fun h =>
  absurd (h (groupMessage [consulted]) (groupMessage [consulted, { hubMsgId := "h_3", senderSameOwner := some true }])
    { runtime := "codex" } rfl (by decide) (by decide)) (by decide)

end BotCord.Gateway
