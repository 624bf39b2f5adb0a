import BotCord.Foundation.Exchange
import BotCord.Onboarding.Codes

/-!
# What a ticket and a code are good for

A ticket should be good for one success, of the kind that it names, and a code for one. A ticket is burned and a code consumed in one statement each, so that no credential serves twice. But a bind does not look at what a ticket is for; a claim whose ticket turns out to be used leaves its stamp on the code; and a provisioning that is given up while its code is being claimed cannot take the code back.
-/

namespace BotCord.Onboarding

inductive Credential
  | code (code : Code)
  | ticket (jti : Jti)
deriving DecidableEq

def credentials (code : Option Code) (ticket : Option Ticket) : List Credential :=
  code.toList.map .code ++ ticket.toList.map fun t => .ticket t.jti

def Success.credentials (x : Success) : List Credential := Onboarding.credentials x.code x.ticket

def Success.Named (x : Success) : Prop := ∀ t ∈ x.ticket, x.deed = t.deed

def Call.claim? : Call → Option Claim
  | .claimConsumed c _ | .claimInsert c | .claimRevert c => some c
  | _ => none

def Call.Installs (call : Call) (code : Code) (agentId : AgentId) : Prop :=
  ∃ c ∈ call.claim?, c.kind = .bind ∧ c.code = code ∧ c.agentId = agentId

def Store.Committed (s : Store) (agentId : AgentId) : Prop := ∃ a ∈ s.agents, a.agentId = agentId

structure Hub.Honoured (d : Hub) : Prop where
  once : (d.store.done.flatMap (·.credentials)).Nodup
  named : ∀ x ∈ d.store.done, x.Named
  polled : ∀ row ∈ d.store.codes, row.kind = .bind → ∀ agentId, row.status d.store.now = .claimed agentId →
    d.store.Committed agentId ∨ ∃ r ∈ d.calls, r.call.Installs row.code agentId

/-- From one state to a later one: a code that has ended yields nothing. -/
structure Hub.Follows (d d' : Hub) : Prop where
  ended : d.store.ended ⊆ d'.store.ended
  fruitless : ∀ code ∈ d.store.ended, ∀ x ∈ d'.store.done, x.code = some code → x ∈ d.store.done

def Call.holds : Call → List Credential
  | .claimConsumed c _ => credentials (some c.code) none
  | .claimInsert c | .claimRevert c => credentials (some c.code) c.ticket
  | .resetConsumed _ code _ => credentials code none
  | .resetWrite t code _ => credentials code (some t)
  | .bindWrite t _ => credentials none (some t)
  | _ => []

/-- What a call finds when it commits. -/
def Hub.Meets (d : Hub) : Call → Prop
  | .claimConsumed _ t => t.jti ∉ d.store.usedTickets
  | .provisionFailed code => ∀ r ∈ d.calls, .code code ∉ r.call.holds
  | .bindWrite t agentId => t.purpose = none ∨ ∃ a ∈ d.store.agents, a.agentId = agentId ∧ a.userId ≠ none
  | _ => True

/-- The condition on a step. -/
def Hub.Orderly (d : Hub) : Action → Prop
  | .next i => ∀ r ∈ d.calls.get? i, d.Meets r.call
  | .crash i => ∀ r ∈ d.calls.get? i, ∀ c ∈ r.call.claim?, c.kind ≠ .bind
  | _ => True

instance (d : Hub) : DecidablePred d.Meets := fun _ => by
  unfold Hub.Meets
  split <;> infer_instance

instance (d : Hub) : DecidablePred d.Orderly := fun _ => by
  unfold Hub.Orderly
  split <;> infer_instance

namespace Store

variable (s : Store)

def Spent : Credential → Prop
  | .code code => ∃ row ∈ s.codes, row.code = code ∧ row.consumedAt ≠ none
  | .ticket jti => jti ∈ s.usedTickets

def HasCode (code : Code) (kind : CodeKind) : Prop := ∃ row ∈ s.codes, row.code = code ∧ row.kind = kind

end Store

/-- A claim has the ticket that its kind of code comes with. -/
def Claim.Fits (c : Claim) : Prop :=
  c.kind = .bind ∧ (∃ t ∈ c.ticket, t.purpose = some .openclawInstall) ∨ c.kind = .openclawProvision ∧ c.ticket = none

def Call.Read (s : Store) : Call → Prop
  | .claim c | .claimInsert c | .claimRevert c => c.Fits
  | .claimConsumed c t => c.Fits ∧ c.ticket = some t
  | .provision code _ _ | .provisionFailed code => s.HasCode code .openclawProvision
  | .reset t _ _ | .resetConsumed t _ _ | .resetWrite t _ _ => t.purpose = some .credentialReset
  | .bind _ _ | .bindWrite _ _ => True

structure Inv (d : Hub) : Prop where
  used : ∀ x ∈ d.store.done, ∀ c ∈ x.credentials, d.store.Spent c
  once : (d.store.done.flatMap (·.credentials)).Nodup
  named : ∀ x ∈ d.store.done, x.Named
  held : ∀ r ∈ d.calls, ∀ c ∈ r.call.holds, d.store.Spent c ∧ ∀ x ∈ d.store.done, c ∉ x.credentials
  alone : ∀ r ∈ d.calls, ∀ r' ∈ d.calls, ∀ c ∈ r.call.holds, c ∈ r'.call.holds → r = r'
  read : ∀ r ∈ d.calls, r.call.Read d.store
  ended : ∀ code ∈ d.store.ended, d.store.Spent (.code code) ∧ ∀ r ∈ d.calls, .code code ∉ r.call.holds
  claimed : ∀ row ∈ d.store.codes, row.kind = .bind → ∀ agentId ∈ row.claimedAgentId,
    d.store.Committed agentId ∨ ∃ r ∈ d.calls, r.call.Installs row.code agentId

structure Store.Keeps (s s' : Store) : Prop where
  codes : ∀ row ∈ s.codes, ∃ row' ∈ s'.codes, row'.code = row.code ∧ row'.kind = row.kind
  agents : ∀ a ∈ s.agents, ∃ a' ∈ s'.agents, a'.agentId = a.agentId

def holding (r : Option Request) : List Credential := r.elim [] (·.call.holds)

/-- What one step does to the store for the call that takes it: what the call held may be opened again, what it holds from now on was free, and if it succeeds it gives up what it held. -/
structure Turn (s s' : Store) (before after : Option Request) (success : Option Success) : Prop where
  spent : ∀ c, c ∉ holding before → s.Spent c → s'.Spent c
  holds : ∀ c ∈ holding after, s'.Spent c ∧ (c ∈ holding before ∨ ¬ s.Spent c)
  done : s'.done = success.toList ++ s.done
  success : ∀ x ∈ success, x.Named ∧ x.credentials = holding before ∧ after = none ∧ ∀ c ∈ x.credentials, s'.Spent c
  keeps : s.Keeps s'
  read : ∀ r ∈ after, r.call.Read s'
  claimed : ∀ row' ∈ s'.codes, row'.kind = .bind → ∀ agentId ∈ row'.claimedAgentId,
    s'.Committed agentId ∨ (∃ r ∈ after, r.call.Installs row'.code agentId) ∨
      (∃ row ∈ s.codes, row.code = row'.code ∧ row.kind = .bind ∧ row.claimedAgentId = some agentId) ∧
        ∀ r ∈ before, ¬ r.call.Installs row'.code agentId

variable {d d' : Hub} {s s' : Store} {a : Action} {i : ℕ} {r : Request} {call : Call} {before after : Option Request}
  {success : Option Success} {calls : Keyed Request.id}

theorem mem_credentials {c : Credential} {code : Option Code} {ticket : Option Ticket} :
    c ∈ credentials code ticket ↔ (∃ k ∈ code, c = .code k) ∨ ∃ t ∈ ticket, c = .ticket t.jti := by
  simp [credentials, eq_comm]

theorem nodup_credentials (code : Option Code) (ticket : Option Ticket) : (credentials code ticket).Nodup := by
  cases code <;> cases ticket <;> simp [credentials]

theorem mem_credentials_of_code {x : Success} {code : Code} (h : x.code = some code) : .code code ∈ x.credentials :=
  mem_credentials.mpr (.inl ⟨code, h, rfl⟩)

theorem Call.Read.mono (h : call.Read s) (hkeeps : s.Keeps s') : call.Read s' := by
  cases call with
  | provision | provisionFailed =>
    obtain ⟨row, hrow, hcode, hkind⟩ := h
    obtain ⟨row', hrow', hcode', hkind'⟩ := hkeeps.codes row hrow
    exact ⟨row', hrow', hcode'.trans hcode, hkind'.trans hkind⟩
  | claim | claimConsumed | claimInsert | claimRevert | reset | resetConsumed | resetWrite | bind | bindWrite => exact h

/-! ### Turns -/

section Turn

theorem Inv.held_before (h : Inv d) (hturns : d.calls.Exchange calls before after) {c : Credential} (hc : c ∈ holding before) :
    d.store.Spent c ∧ ∀ x ∈ d.store.done, c ∉ x.credentials := by
  cases before with
  | none => cases hc
  | some r => exact h.held r (hturns.mem r rfl) c hc

theorem Inv.not_held (h : Inv d) (hturns : d.calls.Exchange calls before after) (hr : r ∈ d.calls) (hne : some r ≠ before)
    {c : Credential} (hc : c ∈ r.call.holds) : c ∉ holding before := by
  intro hbefore
  cases before with
  | none => cases hbefore
  | some r' => exact hne (congrArg some (h.alone r hr r' (hturns.mem r' rfl) c hc hbefore))

theorem Inv.turn (h : Inv d) (hturns : d.calls.Exchange calls before after) (hturn : Turn d.store s before after success)
    (hended : ∀ code ∈ s.ended, code ∈ d.store.ended ∨
      s.Spent (.code code) ∧ (∀ r ∈ d.calls, .code code ∉ r.call.holds) ∧ after = none)
    (hsubset : d.store.ended ⊆ s.ended) : Inv { store := s, calls } ∧ d.Follows { store := s, calls } := by
  have hdone : ∀ x ∈ s.done, x ∈ d.store.done ∨ success = some x := by
    intro x hx
    rw [hturn.done] at hx
    rcases List.mem_append.mp hx with hx | hx
    · exact .inr (Option.mem_toList.mp hx)
    · exact .inl hx
  have hspent : ∀ x ∈ d.store.done, ∀ c ∈ x.credentials, s.Spent c := fun x hx c hc =>
    hturn.spent c (fun hheld => (h.held_before hturns hheld).2 x hx hc) (h.used x hx c hc)
  have hsuccess : ∀ x, success = some x → ∀ c ∈ x.credentials, ∀ y ∈ d.store.done, c ∉ y.credentials := by
    intro x hx c hc
    rw [(hturn.success x hx).2.1] at hc
    exact (h.held_before hturns hc).2
  refine ⟨⟨fun x hx c hc => ?_, ?_, fun x hx => ?_, fun r hr c hc => ?_, fun r hr r' hr' c hc hc' => ?_, fun r hr => ?_,
    fun code hcode => ?_, fun row' hrow' hkind agentId hagent => ?_⟩, hsubset, fun code hcode x hx hxcode => ?_⟩
  · rcases hdone x hx with hx | hx
    · exact hspent x hx c hc
    · exact (hturn.success x hx).2.2.2 c hc
  · show (s.done.flatMap (·.credentials)).Nodup
    rw [hturn.done]
    cases success with
    | none => exact h.once
    | some x =>
      rw [Option.toList_some, List.singleton_append, List.flatMap_cons]
      refine List.nodup_append'.mpr ⟨nodup_credentials _ _, h.once, fun c hc hc' => ?_⟩
      obtain ⟨y, hy, hcy⟩ := List.mem_flatMap.mp hc'
      exact hsuccess x rfl c hc y hy hcy
  · rcases hdone x hx with hx | hx
    · exact h.named x hx
    · exact (hturn.success x hx).1
  · rcases hturns.cases r hr with ⟨hr, hne⟩ | hr
    · obtain ⟨hspent', hfree⟩ := h.held r hr c hc
      have hother := h.not_held hturns hr hne hc
      refine ⟨hturn.spent c hother hspent', fun x hx hcx => ?_⟩
      rcases hdone x hx with hx | hx
      · exact hfree x hx hcx
      · rw [(hturn.success x hx).2.1] at hcx
        exact hother hcx
    · rw [hr] at hturn
      obtain ⟨hspent', hfree⟩ := hturn.holds c hc
      refine ⟨hspent', fun x hx hcx => ?_⟩
      rcases hdone x hx with hx | hx
      · rcases hfree with hbefore | hfree
        · exact (h.held_before hturns hbefore).2 x hx hcx
        · exact hfree (h.used x hx c hcx)
      · cases (hturn.success x hx).2.2.1
  · have hnew : ∀ r₁ ∈ d.calls, some r₁ ≠ before → c ∈ r₁.call.holds → c ∉ holding after := by
      intro r₁ hr₁ hne hc₁ hafter
      rcases (hturn.holds c hafter).2 with hbefore | hfree
      · exact h.not_held hturns hr₁ hne hc₁ hbefore
      · exact hfree (h.held r₁ hr₁ c hc₁).1
    rcases hturns.cases r hr with ⟨hr, hne⟩ | hr <;> rcases hturns.cases r' hr' with ⟨hr', hne'⟩ | hr'
    · exact h.alone r hr r' hr' c hc hc'
    · exact absurd (by rw [hr']; exact hc') (hnew r hr hne hc)
    · exact absurd (by rw [hr]; exact hc) (hnew r' hr' hne' hc')
    · exact Option.some.inj (hr.symm.trans hr')
  · rcases hturns.cases r hr with ⟨hr, -⟩ | hr
    · exact (h.read r hr).mono hturn.keeps
    · exact hturn.read r hr
  · rcases hended code hcode with hold | ⟨hspent', hnone, rfl⟩
    · obtain ⟨hspent', hnone⟩ := h.ended code hold
      have hbefore : .code code ∉ holding before := by
        cases before with
        | none => exact List.not_mem_nil
        | some r => exact hnone r (hturns.mem r rfl)
      refine ⟨hturn.spent _ hbefore hspent', fun r hr hc => ?_⟩
      rcases hturns.cases r hr with ⟨hr, -⟩ | hr
      · exact hnone r hr hc
      · rw [hr] at hturn
        rcases (hturn.holds _ hc).2 with hheld | hfree
        · exact hbefore hheld
        · exact hfree hspent'
    · refine ⟨hspent', fun r hr hc => ?_⟩
      rcases hturns.cases r hr with ⟨hr, -⟩ | hr
      · exact hnone r hr hc
      · cases hr
  · rcases hturn.claimed row' hrow' hkind agentId hagent with hthere | ⟨r, hr, hinstalls⟩ | ⟨⟨row, hrow, hcode, hkind', hagent'⟩, hnot⟩
    · exact .inl hthere
    · exact .inr ⟨r, hturns.new r hr, hinstalls⟩
    · rcases h.claimed row hrow hkind' agentId hagent' with ⟨a, ha, hid⟩ | ⟨r, hr, hinstalls⟩
      · obtain ⟨a', ha', hid'⟩ := hturn.keeps.agents a ha
        exact .inl ⟨a', ha', hid'.trans hid⟩
      · rw [hcode] at hinstalls
        exact .inr ⟨r, hturns.others r hr fun heq => hnot r heq.symm hinstalls, hinstalls⟩
  · rcases hdone x hx with hx | hx
    · exact hx
    · have hheld := mem_credentials_of_code hxcode
      rw [(hturn.success x hx).2.1] at hheld
      cases before with
      | none => cases hheld
      | some r => exact absurd hheld ((h.ended code hcode).2 r (hturns.mem r rfl))

theorem turns_begin (h : d.begin i s call = some d') :
    d.calls.Exchange d'.calls none (some ⟨i, call⟩) ∧ d'.store = s := by
  obtain ⟨calls, hinsert, rfl⟩ := Option.map_eq_some_iff.mp h
  exact ⟨(Keyed.insert?_eq_some hinsert).exchange, rfl⟩

theorem turns_goto (hr : d.calls.get? i = some r) :
    d.calls.Exchange (d.goto i s call).calls (some r) (some (r.goto call)) := Keyed.exchange_modify (Request.id_goto call) hr

theorem turns_finish (hr : d.calls.get? i = some r) : d.calls.Exchange (d.finish i s).calls (some r) none :=
  Keyed.exchange_remove hr

/-! ### What each write does -/

theorem Store.Keeps.refl (s : Store) : s.Keeps s := ⟨fun row hrow => ⟨row, hrow, rfl, rfl⟩, fun a ha => ⟨a, ha, rfl⟩⟩

theorem claimed_of_rows
    (hrows : ∀ row' ∈ s'.codes, row'.kind = .bind → ∀ agentId ∈ row'.claimedAgentId,
      ∃ row ∈ s.codes, row.code = row'.code ∧ row.kind = .bind ∧ row.claimedAgentId = some agentId)
    (hinstalls : ∀ r ∈ before, ∀ code agentId, r.call.Installs code agentId →
      s'.Committed agentId ∨ ∃ r' ∈ after, r'.call.Installs code agentId) :
    ∀ row' ∈ s'.codes, row'.kind = .bind → ∀ agentId ∈ row'.claimedAgentId,
      s'.Committed agentId ∨ (∃ r ∈ after, r.call.Installs row'.code agentId) ∨
        (∃ row ∈ s.codes, row.code = row'.code ∧ row.kind = .bind ∧ row.claimedAgentId = some agentId) ∧
          ∀ r ∈ before, ¬ r.call.Installs row'.code agentId := by
  intro row' hrow' hkind agentId hagent
  by_cases hinstall : ∃ r ∈ before, r.call.Installs row'.code agentId
  · obtain ⟨r, hr, hinstall⟩ := hinstall
    rcases hinstalls r hr _ _ hinstall with hthere | hafter
    · exact .inl hthere
    · exact .inr (.inl hafter)
  · exact .inr (.inr ⟨hrows row' hrow' hkind agentId hagent, fun r hr hinstall' => hinstall ⟨r, hr, hinstall'⟩⟩)

theorem turn_same (hspent : ∀ c ∈ holding before, s.Spent c) (hholds : holding after ⊆ holding before)
    (hread : ∀ r ∈ after, r.call.Read s)
    (hinstalls : ∀ r ∈ before, ∀ code agentId, r.call.Installs code agentId → ∃ r' ∈ after, r'.call.Installs code agentId) :
    Turn s s before after none :=
  ⟨fun _ _ h => h, fun c hc => ⟨hspent c (hholds hc), .inl (hholds hc)⟩, rfl, fun _ h => (by cases h), .refl s, hread,
    claimed_of_rows (fun row hrow hkind _ hagent => ⟨row, hrow, rfl, hkind, hagent⟩) fun r hr code agentId hinstall =>
      .inr (hinstalls r hr code agentId hinstall)⟩

theorem turn_issue (hcodes : ∀ row ∈ s'.codes, row ∈ s.codes ∨ row.claimedAgentId = none)
    (hold : ∀ row ∈ s.codes, row ∈ s'.codes) (hused : s'.usedTickets = s.usedTickets) (hagents : s'.agents = s.agents)
    (hdone : s'.done = s.done) (hholds : holding after = []) (hread : ∀ r ∈ after, r.call.Read s') :
    Turn s s' none after none := by
  refine ⟨fun c _ hc => ?_, fun c hc => ?_, hdone, fun _ h => (by cases h), ⟨fun row hrow => ⟨row, hold row hrow, rfl, rfl⟩,
    fun a ha => ⟨a, hagents ▸ ha, rfl⟩⟩, hread, fun row hrow hkind agentId hagent => ?_⟩
  · cases c with
    | code code =>
      obtain ⟨row, hrow, hspent⟩ := hc
      exact ⟨row, hold row hrow, hspent⟩
    | ticket jti =>
      show jti ∈ s'.usedTickets
      rw [hused]
      exact hc
  · rw [hholds] at hc
    cases hc
  · rcases hcodes row hrow with hrow | hnone
    · exact .inr (.inr ⟨⟨row, hrow, rfl, hkind, hagent⟩, fun _ h => (by cases h)⟩)
    · rw [hnone] at hagent
      cases hagent

theorem turn_useTicket {t : Ticket} (huse : s.useTicket t = some s') (hspent : ∀ c ∈ holding before, s.Spent c)
    (hholds : ∀ c ∈ holding after, c ∈ holding before ∨ c = .ticket t.jti) (hread : ∀ r ∈ after, r.call.Read s)
    (hinstalls : ∀ r ∈ before, ∀ code agentId, r.call.Installs code agentId → ∃ r' ∈ after, r'.call.Installs code agentId) :
    Turn s s' before after none := by
  obtain ⟨hnew, huse⟩ := Option.ite_none_left_eq_some.mp huse
  cases huse
  have hmono : ∀ c, s.Spent c → Store.Spent { s with usedTickets := t.jti :: s.usedTickets } c := by
    intro c hc
    cases c with
    | code code => exact hc
    | ticket jti => exact List.mem_cons_of_mem _ hc
  refine ⟨fun c _ => hmono c, fun c hc => ?_, rfl, fun _ h => (by cases h),
    ⟨(Store.Keeps.refl s).codes, (Store.Keeps.refl s).agents⟩, hread,
    claimed_of_rows (fun row hrow hkind _ hagent => ⟨row, hrow, rfl, hkind, hagent⟩) fun r hr code agentId hinstall =>
      .inr (hinstalls r hr code agentId hinstall)⟩
  rcases hholds c hc with hbefore | rfl
  · exact ⟨hmono c (hspent c hbefore), .inl hbefore⟩
  · exact ⟨List.mem_cons_self, .inr hnew⟩

theorem turn_consume {code : Code} {kind : CodeKind} {agentId : Option AgentId}
    (hconsume : s.consume code kind agentId = some s') (hbefore : ∀ r ∈ before, r.call.holds = [] ∧ r.call.claim? = none)
    (hholds : ∀ c ∈ holding after, c = .code code) (hread : ∀ r ∈ after, r.call.Read s')
    (hinstalls : ∀ a ∈ agentId, kind = .bind → ∃ r ∈ after, r.call.Installs code a) : Turn s s' before after none := by
  obtain ⟨row₀, hpeek, rfl⟩ := Option.map_eq_some_iff.mp hconsume
  obtain ⟨hfound, hopen⟩ := Option.filter_eq_some_iff.mp hpeek
  obtain ⟨hrow₀, hcode₀⟩ := Keyed.get?_eq_some_iff.mp hfound
  obtain ⟨hkind₀, hfree, -⟩ := of_decide_eq_true hopen
  have hkey : ∀ row : ShortCode, (row.consume s.now agentId).code = row.code := fun row => row.code_consume s.now agentId
  have hmem := fun row (hrow : row ∈ s.codes) => Keyed.mem_modify_of_mem (p := (·.code = code)) hkey hrow
  refine ⟨fun c _ hc => ?_, fun c hc => ?_, rfl, fun _ h => (by cases h), ⟨fun row hrow => ⟨_, hmem row hrow, ?_⟩,
    fun a ha => ⟨a, ha, rfl⟩⟩, hread, fun row' hrow' hkind a ha => ?_⟩
  · cases c with
    | code k =>
      obtain ⟨row, hrow, hcode, hspent⟩ := hc
      refine ⟨_, hmem row hrow, ?_⟩
      split
      · exact ⟨hcode, by simp [ShortCode.consume, maxUses]⟩
      · exact ⟨hcode, hspent⟩
    | ticket jti => exact hc
  · cases hholds c hc
    refine ⟨⟨_, hmem row₀ hrow₀, ?_⟩, .inr fun hspent => ?_⟩
    · rw [if_pos hcode₀]
      exact ⟨hcode₀, by simp [ShortCode.consume, maxUses]⟩
    · obtain ⟨row, hrow, hcode, hspent⟩ := hspent
      rw [Keyed.eq_of_key hrow hrow₀ (hcode.trans hcode₀.symm)] at hspent
      exact hspent hfree
  · split <;> exact ⟨rfl, rfl⟩
  · have hno : ∀ r ∈ before, ¬ r.call.Installs row'.code a := by
      intro r hr hinstall
      obtain ⟨c, hc, -⟩ := hinstall
      rw [(hbefore r hr).2] at hc
      cases hc
    obtain ⟨row, hrow, rfl⟩ := (Keyed.mem_modify hkey).mp hrow'
    split at hkind
    · rename_i hcode
      rw [if_pos hcode] at ha hno ⊢
      cases agentId with
      | none => exact .inr (.inr ⟨⟨row, hrow, rfl, hkind, ha⟩, hno⟩)
      | some agentId =>
        cases ha
        obtain ⟨r, hr, hinstall⟩ := hinstalls a rfl (by
          rw [← hkind₀, ← Keyed.eq_of_key hrow hrow₀ (hcode.trans hcode₀.symm)]
          exact hkind)
        refine .inr (.inl ⟨r, hr, ?_⟩)
        rw [ShortCode.code_consume, hcode]
        exact hinstall
    · rename_i hcode
      rw [if_neg hcode] at ha hno ⊢
      exact .inr (.inr ⟨⟨row, hrow, rfl, hkind, ha⟩, hno⟩)

theorem turn_success {x : Success} (hcodes : s'.codes = s.codes) (hused : s'.usedTickets = s.usedTickets)
    (hagents : ∀ a ∈ s.agents, ∃ a' ∈ s'.agents, a'.agentId = a.agentId) (hdone : s'.done = x :: s.done)
    (hnamed : x.Named) (hcredentials : x.credentials = holding before) (hspent : ∀ c ∈ holding before, s.Spent c)
    (hinstalls : ∀ r ∈ before, ∀ code agentId, r.call.Installs code agentId → s'.Committed agentId) :
    Turn s s' before none (some x) := by
  have hsame : ∀ c, s.Spent c → s'.Spent c := by
    intro c hc
    cases c with
    | code code =>
      obtain ⟨row, hrow, hspent⟩ := hc
      exact ⟨row, hcodes ▸ hrow, hspent⟩
    | ticket jti =>
      show jti ∈ s'.usedTickets
      rw [hused]
      exact hc
  refine ⟨fun c _ => hsame c, fun _ h => absurd h List.not_mem_nil, hdone, fun y hy => ?_,
    ⟨fun row hrow => ⟨row, hcodes ▸ hrow, rfl, rfl⟩, hagents⟩, fun _ h => (by cases h), ?_⟩
  · cases hy
    exact ⟨hnamed, hcredentials, rfl, fun c hc => hsame c (hspent c (hcredentials ▸ hc))⟩
  · exact claimed_of_rows (fun row hrow hkind _ hagent => ⟨row, hcodes ▸ hrow, rfl, hkind, hagent⟩)
      fun r hr code agentId hinstall => .inl (hinstalls r hr code agentId hinstall)

theorem turn_modify {p : ShortCode → Prop} [DecidablePred p] {f : ShortCode → ShortCode}
    (hf : ∀ row, (f row).code = row.code) (hcodes : s'.codes = s.codes.modify p f hf)
    (hkind : ∀ row, (f row).kind = row.kind)
    (hstamp : ∀ row, (f row).claimedAgentId = row.claimedAgentId ∨ (f row).claimedAgentId = none)
    (hspent : ∀ row, p row → row.consumedAt ≠ none → (f row).consumedAt ≠ none ∨ .code row.code ∈ holding before)
    (hused : s'.usedTickets = s.usedTickets) (hagents : s'.agents = s.agents) (hdone : s'.done = s.done)
    (hinstalls : ∀ r ∈ before, ∀ row ∈ s.codes, row.kind = .bind → ∀ agentId, r.call.Installs row.code agentId →
      p row ∧ (f row).claimedAgentId = none) : Turn s s' before none none := by
  have hmem : ∀ row ∈ s.codes, (if p row then f row else row) ∈ s'.codes := by
    rw [hcodes]
    exact fun row hrow => Keyed.mem_modify_of_mem hf hrow
  refine ⟨fun c hfree hc => ?_, fun _ h => absurd h List.not_mem_nil, hdone, fun _ h => (by cases h),
    ⟨fun row hrow => ⟨_, hmem row hrow, ?_⟩, fun a ha => ⟨a, hagents ▸ ha, rfl⟩⟩, fun _ h => (by cases h),
    fun row' hrow' hbind agentId hagent => ?_⟩
  · cases c with
    | code code =>
      obtain ⟨row, hrow, rfl, hconsumed⟩ := hc
      refine ⟨_, hmem row hrow, ?_⟩
      split
      · rename_i hp
        exact ⟨hf row, (hspent row hp hconsumed).resolve_right hfree⟩
      · exact ⟨rfl, hconsumed⟩
    | ticket jti =>
      show jti ∈ s'.usedTickets
      rw [hused]
      exact hc
  · split
    · exact ⟨hf row, hkind row⟩
    · exact ⟨rfl, rfl⟩
  · rw [hcodes] at hrow'
    obtain ⟨row, hrow, rfl⟩ := (Keyed.mem_modify hf).mp hrow'
    split at hbind
    · rename_i hp
      rw [if_pos hp] at hagent ⊢
      rcases hstamp row with hsame | hnone
      · refine .inr (.inr ⟨⟨row, hrow, (hf row).symm, (hkind row).symm.trans hbind, hsame ▸ hagent⟩, fun r hr hinstall => ?_⟩)
        rw [hf row] at hinstall
        rw [(hinstalls r hr row hrow ((hkind row).symm.trans hbind) agentId hinstall).2] at hagent
        cases hagent
      · rw [hnone] at hagent
        cases hagent
    · rename_i hp
      rw [if_neg hp] at hagent ⊢
      exact .inr (.inr ⟨⟨row, hrow, rfl, hbind, hagent⟩, fun r hr hinstall =>
        hp (hinstalls r hr row hrow hbind agentId hinstall).1⟩)

end Turn

/-! ### Steps -/

theorem not_installs (h : call.claim? = none) (code : Code) (agentId : AgentId) : ¬ call.Installs code agentId := by
  intro hinstall
  obtain ⟨c, hc, -⟩ := hinstall
  rw [h] at hc
  cases hc

section Step

variable {t : Ticket} {c : Claim} {agentId : AgentId}

theorem ended_consume {code : Code} {kind : CodeKind} {stamp : Option AgentId}
    (h : s.consume code kind stamp = some s') : s'.ended = s.ended := by
  obtain ⟨_, -, rfl⟩ := Option.map_eq_some_iff.mp h
  rfl

theorem ended_useTicket (h : s.useTicket t = some s') : s'.ended = s.ended := by
  obtain ⟨-, h⟩ := Option.ite_none_left_eq_some.mp h
  cases h
  rfl

theorem insertAgent_eq_some (h : s.insertAgent c = some s') :
    s'.codes = s.codes ∧ s'.usedTickets = s.usedTickets ∧ s'.ended = s.ended ∧ s'.Committed c.agentId ∧
      (∀ a ∈ s.agents, ∃ a' ∈ s'.agents, a'.agentId = a.agentId) ∧
      s'.done = { deed := c.deed, agentId := c.agentId, ticket := c.ticket, code := some c.code } :: s.done := by
  obtain ⟨agents, hinsert, rfl⟩ := Option.map_eq_some_iff.mp h
  have hadds := Keyed.insert?_eq_some hinsert
  exact ⟨rfl, rfl, rfl, ⟨_, hadds.mem_iff.mpr (.inr rfl), rfl⟩, fun a ha => ⟨a, hadds.mem_iff.mpr (.inl ha), rfl⟩, rfl⟩

theorem bindAgent_eq_some (h : s.bindAgent t agentId = some s') :
    (∀ a ∈ s.agents, a.agentId = agentId → a.userId = none) ∧ s'.codes = s.codes ∧ s'.usedTickets = s.usedTickets ∧
      s'.ended = s.ended ∧ (∀ a ∈ s.agents, ∃ a' ∈ s'.agents, a'.agentId = a.agentId) ∧
      s'.done = { deed := .bind, agentId, ticket := some t } :: s.done := by
  unfold Store.bindAgent at h
  split at h
  · rename_i hnone
    obtain ⟨agents, hinsert, rfl⟩ := Option.map_eq_some_iff.mp h
    have hadds := Keyed.insert?_eq_some hinsert
    exact ⟨fun a ha hid => absurd hid (Keyed.get?_eq_none_iff.mp hnone a ha), rfl, rfl, rfl,
      fun a ha => ⟨a, hadds.mem_iff.mpr (.inl ha), rfl⟩, rfl⟩
  · rename_i a ha
    obtain ⟨hmem, hid⟩ := Keyed.get?_eq_some_iff.mp ha
    obtain ⟨hfree, h⟩ := Option.ite_none_left_eq_some.mp h
    cases h
    refine ⟨fun b hb hbid => ?_, rfl, rfl, rfl, fun b hb => ?_, rfl⟩
    · rw [Keyed.eq_of_key hb hmem (hbid.trans hid.symm)]
      exact not_not.mp hfree
    · refine ⟨_, Keyed.mem_modify_of_mem (Agent.agentId_bind (some t.uid)) hb, ?_⟩
      split <;> rfl

theorem Inv.leave (h : Inv d) (hr : d.calls.get? i = some r) (hturn : Turn d.store s (some r) none success)
    (hended : s.ended = d.store.ended) : Inv (d.finish i s) ∧ d.Follows (d.finish i s) :=
  h.turn (turns_finish (s := s) hr) hturn (fun _ hcode => .inl (hended ▸ hcode)) (hended ▸ List.Subset.refl _)

theorem Inv.proceed (h : Inv d) (hr : d.calls.get? i = some r) (hturn : Turn d.store s (some r) (some (r.goto call)) none)
    (hended : s.ended = d.store.ended) : Inv (d.goto i s call) ∧ d.Follows (d.goto i s call) :=
  h.turn (turns_goto (s := s) hr) hturn (fun _ hcode => .inl (hended ▸ hcode)) (hended ▸ List.Subset.refl _)

theorem Inv.abandon (h : Inv d) (hr : d.calls.get? i = some r) (hkind : ∀ c ∈ r.call.claim?, c.kind ≠ .bind) :
    Inv (d.finish i d.store) ∧ d.Follows (d.finish i d.store) := by
  refine h.leave hr (turn_same (fun c hc => ?_) (List.nil_subset _) (fun _ h => (by cases h)) fun x hx code agentId hinstall => ?_) rfl
  · exact (h.held r (Keyed.get?_eq_some_iff.mp hr).1 c hc).1
  · cases hx
    obtain ⟨c, hc, hbind, -⟩ := hinstall
    exact absurd hbind (hkind c hc)

theorem next_claim {id : ℕ} (h : Inv d) (hr : d.calls.get? i = some ⟨id, .claim c⟩)
    (hnext : d.next i (.claim c) = some d') : Inv d' ∧ d.Follows d' := by
  have hfits : c.Fits := h.read _ (Keyed.get?_eq_some_iff.mp hr).1
  have hbefore : ∀ r ∈ some (⟨id, .claim c⟩ : Request), r.call.holds = [] ∧ r.call.claim? = none := by
    intro r hr
    cases hr
    exact ⟨rfl, rfl⟩
  simp only [Hub.next] at hnext
  split at hnext
  · cases hnext
    exact h.abandon hr fun _ hc => (by cases hc)
  · rename_i s hconsume
    split at hnext
    · rename_i hticket
      cases hnext
      refine h.proceed hr (turn_consume hconsume hbefore (fun x hx => ?_) (fun r hr => ?_) fun a ha hkind => ?_)
        (ended_consume hconsume)
      · simpa [holding, Request.goto, Call.holds, hticket, mem_credentials] using hx
      · cases hr
        exact hfits
      · cases ha
        exact ⟨_, rfl, c, rfl, hkind, rfl, rfl⟩
    · rename_i t hticket
      cases hnext
      refine h.proceed hr (turn_consume hconsume hbefore (fun x hx => ?_) (fun r hr => ?_) fun a ha hkind => ?_)
        (ended_consume hconsume)
      · simpa [holding, Request.goto, Call.holds, mem_credentials] using hx
      · cases hr
        exact ⟨hfits, hticket⟩
      · cases ha
        exact ⟨_, rfl, c, rfl, hkind, rfl, rfl⟩

theorem named_of_fits (h : c.Fits) : Success.Named { deed := c.deed, agentId, ticket := c.ticket, code := some c.code } := by
  intro t ht
  rcases h with ⟨hkind, t', ht', hpurpose⟩ | ⟨-, hnone⟩
  · have htt : t = t' := Option.some.inj ((Eq.symm ht).trans ht')
    subst htt
    simp [Claim.deed, Ticket.deed, hkind, hpurpose]
  · have ht : c.ticket = some t := ht
    rw [hnone] at ht
    cases ht

theorem consumed_burn (row : ShortCode) (now : Instant) : (row.burn now).consumedAt ≠ none := by
  unfold ShortCode.burn
  split
  · exact Option.some_ne_none _
  · rename_i h
    exact h

theorem next_burn {id : ℕ} {code : Code} (h : Inv d) (hr : d.calls.get? i = some ⟨id, .provisionFailed code⟩)
    (hcode : d.store.HasCode code .openclawProvision) (hmeets : d.Meets (.provisionFailed code)) :
    Inv (d.finish i (d.store.burnCode code)) ∧ d.Follows (d.finish i (d.store.burnCode code)) := by
  have hturn : Turn d.store (d.store.burnCode code) (some ⟨id, .provisionFailed code⟩) none none := by
    refine turn_modify (fun row => row.code_burn d.store.now) rfl (fun row => ?_) (fun row => .inl ?_)
      (fun row _ _ => .inl (consumed_burn row _)) rfl rfl rfl fun r hr row _ _ agentId hinstall => ?_
    · unfold ShortCode.burn
      split <;> rfl
    · unfold ShortCode.burn
      split <;> rfl
    · cases hr
      exact absurd hinstall (not_installs rfl _ _)
  refine h.turn (turns_finish (s := d.store) hr) hturn (fun k hk => ?_) (List.subset_cons_self _ _)
  rcases List.mem_cons.mp hk with rfl | hk
  · obtain ⟨row, hrow, hkey⟩ := hcode
    refine .inr ⟨⟨_, Keyed.mem_modify_of_mem (fun row => row.code_burn d.store.now) hrow, ?_⟩, hmeets, rfl⟩
    rw [if_pos hkey]
    exact ⟨(row.code_burn _).trans hkey.1, consumed_burn row _⟩
  · exact .inl hk

theorem next_inv (h : Inv d) (hmeets : d.Orderly (.next i)) (hr : d.calls.get? i = some r)
    (hnext : d.next i r.call = some d') : Inv d' ∧ d.Follows d' := by
  obtain ⟨id, call⟩ := r
  have hread := h.read _ (Keyed.get?_eq_some_iff.mp hr).1
  have hspent : ∀ c ∈ holding (some ⟨id, call⟩), d.store.Spent c := fun c hc =>
    (h.held _ (Keyed.get?_eq_some_iff.mp hr).1 c hc).1
  have hmeets := hmeets _ hr
  cases call with
  | claim c => exact next_claim h hr hnext
  | claimConsumed c t =>
    obtain ⟨hfits, hticket⟩ := hread
    simp only [Hub.next, Store.useTicket, if_neg hmeets] at hnext
    cases hnext
    have huse : d.store.useTicket t = some { d.store with usedTickets := t.jti :: d.store.usedTickets } := if_neg hmeets
    refine h.proceed hr (turn_useTicket huse hspent (fun x hx => ?_) (fun r hr => ?_) fun r hr code agentId hinstall => ?_) rfl
    · rcases mem_credentials.mp hx with ⟨k, hk, rfl⟩ | ⟨t', ht', rfl⟩
      · exact .inl (mem_credentials.mpr (.inl ⟨k, hk, rfl⟩))
      · rw [hticket] at ht'
        cases ht'
        exact .inr rfl
    · cases hr
      exact hfits
    · cases hr
      exact ⟨_, rfl, hinstall⟩
  | claimInsert c =>
    simp only [Hub.next] at hnext
    split at hnext
    · cases hnext
      refine h.proceed hr (turn_same hspent (List.Subset.refl _) (fun r hr => ?_) fun r hr code agentId hinstall => ?_) rfl
      · cases hr
        exact hread
      · cases hr
        exact ⟨_, rfl, hinstall⟩
    · rename_i s hinsert
      cases hnext
      obtain ⟨hcodes, hused, hended, hthere, hagents, hdone⟩ := insertAgent_eq_some hinsert
      refine h.leave hr (turn_success hcodes hused hagents hdone (named_of_fits hread) rfl hspent
        fun r hr code agentId hinstall => ?_) hended
      cases hr
      obtain ⟨c', hc', -, -, rfl⟩ := hinstall
      cases hc'
      exact hthere
  | claimRevert c =>
    cases hnext
    refine h.leave hr (turn_modify (fun row => row.code_revert (c.kind = .openclawProvision)) rfl (fun row => ?_)
      (fun row => .inr ?_) (fun row hp _ => .inr ?_) rfl rfl rfl fun r hr row hrow hkind agentId hinstall => ?_) rfl
    · unfold ShortCode.revert
      split <;> rfl
    · unfold ShortCode.revert
      split <;> rfl
    · exact mem_credentials.mpr (.inl ⟨c.code, rfl, congrArg _ hp.1⟩)
    · cases hr
      obtain ⟨c', hc', hbind, hcode, -⟩ := hinstall
      cases hc'
      refine ⟨⟨hcode.symm, hkind.trans hbind.symm⟩, ?_⟩
      unfold ShortCode.revert
      split <;> rfl
  | provision => cases hnext
  | provisionFailed code =>
    cases hnext
    exact next_burn h hr hread hmeets
  | reset t code agentId =>
    simp only [Hub.next] at hnext
    split at hnext
    · cases hnext
      exact h.abandon hr fun _ hc => (by cases hc)
    · rename_i s hconsume
      cases hnext
      refine h.proceed hr (turn_consume hconsume (fun r hr => ?_) (fun x hx => ?_) (fun r hr => ?_) fun a ha => by cases ha)
        (ended_consume hconsume)
      · cases hr
        exact ⟨rfl, rfl⟩
      · simpa [holding, Request.goto, Call.holds, mem_credentials] using hx
      · cases hr
        exact hread
  | resetConsumed t code agentId =>
    simp only [Hub.next] at hnext
    split at hnext
    · cases hnext
      exact h.abandon hr fun _ hc => (by cases hc)
    · rename_i s huse
      cases hnext
      refine h.proceed hr (turn_useTicket huse hspent (fun x hx => ?_) (fun r hr => ?_) fun r hr code agentId hinstall => ?_)
        (ended_useTicket huse)
      · rcases mem_credentials.mp hx with ⟨k, hk, rfl⟩ | ⟨t', ht', rfl⟩
        · exact .inl (mem_credentials.mpr (.inl ⟨k, hk, rfl⟩))
        · cases ht'
          exact .inr rfl
      · cases hr
        exact hread
      · cases hr
        exact absurd hinstall (not_installs rfl _ _)
  | resetWrite t code agentId =>
    cases hnext
    refine h.leave hr (turn_success rfl rfl (fun a ha => ⟨a, ha, rfl⟩) rfl (fun t' ht' => ?_) rfl hspent
      fun r hr code agentId hinstall => ?_) rfl
    · cases ht'
      have hpurpose : t.purpose = some .credentialReset := hread
      simp [Ticket.deed, hpurpose]
    · cases hr
      exact absurd hinstall (not_installs rfl _ _)
  | bind t agentId =>
    simp only [Hub.next] at hnext
    split at hnext
    · cases hnext
      exact h.abandon hr fun _ hc => (by cases hc)
    · rename_i s huse
      cases hnext
      refine h.proceed hr (turn_useTicket huse hspent (fun x hx => ?_) (fun r hr => ?_) fun r hr code agentId hinstall => ?_)
        (ended_useTicket huse)
      · rcases mem_credentials.mp hx with ⟨k, hk, rfl⟩ | ⟨t', ht', rfl⟩
        · cases hk
        · cases ht'
          exact .inr rfl
      · cases hr
        trivial
      · cases hr
        exact absurd hinstall (not_installs rfl _ _)
  | bindWrite t agentId =>
    cases hnext
    cases hbind : d.store.bindAgent t agentId with
    | none => exact h.abandon hr fun _ hc => (by cases hc)
    | some s =>
      obtain ⟨hfree, hcodes, hused, hended, hagents, hdone⟩ := bindAgent_eq_some hbind
      refine h.leave hr (turn_success hcodes hused hagents hdone (fun t' ht' => ?_) rfl hspent
        fun r hr code agentId hinstall => ?_) hended
      · cases ht'
        rcases hmeets with hpurpose | ⟨a, ha, hid, howned⟩
        · simp [Ticket.deed, hpurpose]
        · exact absurd (hfree a ha hid) howned
      · cases hr
        exact absurd hinstall (not_installs rfl _ _)

theorem Inv.begin (h : Inv d) (hholds : call.holds = []) (hread : call.Read d.store)
    (hbegin : d.begin i d.store call = some d') : Inv d' ∧ d.Follows d' := by
  obtain ⟨hturns, hstore⟩ := turns_begin hbegin
  have hturn : Turn d.store d.store none (some ⟨i, call⟩) none := by
    refine turn_issue (fun row hrow => .inl hrow) (fun row hrow => hrow) rfl rfl rfl hholds fun r hr => ?_
    cases hr
    exact hread
  obtain ⟨store, calls⟩ := d'
  cases hstore
  exact h.turn hturns hturn (fun _ hcode => .inl hcode) (List.Subset.refl _)

theorem Inv.write (h : Inv d) (hturn : Turn d.store s none none none) (hended : s.ended = d.store.ended) :
    Inv { d with store := s } ∧ d.Follows { d with store := s } :=
  h.turn (.refl _) hturn (fun _ hcode => .inl (hended ▸ hcode)) (hended ▸ List.Subset.refl _)

theorem Inv.issue {uid : UserId} {purpose : Purpose} {stamp : Option AgentId} {kind : CodeKind} {ttl : ℕ} (h : Inv d)
    (hissue : d.store.issue uid purpose stamp kind ttl = some s) :
    Inv { d with store := s } ∧ d.Follows { d with store := s } := by
  obtain ⟨codes, hinsert, rfl⟩ := Option.map_eq_some_iff.mp hissue
  have hadds := Keyed.insert?_eq_some hinsert
  refine h.write (turn_issue (fun row hrow => ?_) (fun row hrow => hadds.mem_iff.mpr (.inl hrow)) rfl rfl rfl rfl
    fun _ h => (by cases h)) rfl
  rcases hadds.mem_iff.mp hrow with hrow | rfl
  · exact .inl hrow
  · exact .inr rfl

theorem Inv.revoke {code : Code} (h : Inv d)
    (hfree : ∃ row ∈ d.store.codes, row.code = code ∧ row.consumedAt = none) :
    Inv { d with store := d.store.revokeCode code } ∧ d.Follows { d with store := d.store.revokeCode code } := by
  have hconsumed : ∀ row : ShortCode, (row.revoke d.store.now).consumedAt ≠ none := by
    intro row
    unfold ShortCode.revoke
    split
    · exact Option.some_ne_none _
    · rename_i h
      exact h
  have hturn : Turn d.store (d.store.revokeCode code) none none none := by
    refine turn_modify (fun row => row.code_revoke d.store.now) rfl (fun row => ?_) (fun row => .inl ?_)
      (fun row _ _ => .inl (hconsumed row)) rfl rfl rfl fun _ h => (by cases h)
    · unfold ShortCode.revoke
      split <;> rfl
    · unfold ShortCode.revoke
      split <;> rfl
  refine h.turn (.refl _) hturn (fun k hk => ?_) (List.subset_cons_self _ _)
  rcases List.mem_cons.mp hk with rfl | hk
  · obtain ⟨row, hrow, hcode, hnone⟩ := hfree
    refine .inr ⟨⟨_, Keyed.mem_modify_of_mem (fun row => row.code_revoke d.store.now) hrow, ?_⟩, fun r hr hheld => ?_, rfl⟩
    · rw [if_pos hcode]
      exact ⟨(row.code_revoke _).trans hcode, hconsumed row⟩
    · obtain ⟨row', hrow', hcode', hspent⟩ := (h.held r hr _ hheld).1
      rw [Keyed.eq_of_key hrow' hrow (hcode'.trans hcode.symm)] at hspent
      exact hspent hnone
  · exact .inl hk

theorem Inv.provision {uid : UserId} {hostId : HostId} (h : Inv d) (hissue : d.store.issueProvision uid hostId = some s)
    (hbegin : d.begin i s (.provision d.store.drawn uid hostId) = some d') : Inv d' ∧ d.Follows d' := by
  obtain ⟨codes, hinsert, rfl⟩ := Option.map_eq_some_iff.mp hissue
  have hadds := Keyed.insert?_eq_some hinsert
  obtain ⟨hturns, hstore⟩ := turns_begin hbegin
  have hturn : Turn d.store d'.store none (some ⟨i, .provision d.store.drawn uid hostId⟩) none := by
    rw [hstore]
    refine turn_issue (fun row hrow => ?_) (fun row hrow => hadds.mem_iff.mpr (.inl hrow)) rfl rfl rfl rfl fun r hr => ?_
    · rcases hadds.mem_iff.mp hrow with hrow | rfl
      · exact .inl hrow
      · exact .inr rfl
    · cases hr
      exact ⟨_, hadds.mem_iff.mpr (.inr rfl), rfl, rfl⟩
  have hended : d'.store.ended = d.store.ended := by rw [hstore]
  exact h.turn hturns hturn (fun _ hcode => .inl (hended ▸ hcode)) (hended ▸ List.Subset.refl _)

theorem Inv.reset {code : Option Code} (h : Inv d) (hreset : d.reset i t code agentId = some d') :
    Inv d' ∧ d.Follows d' := by
  obtain ⟨⟨-, hpurpose, -⟩, hbegin⟩ := Option.ite_none_right_eq_some.mp hreset
  cases code with
  | none =>
    have hread : Call.Read d.store (.resetConsumed t none agentId) := hpurpose
    exact h.begin rfl hread hbegin
  | some code =>
    have hread : Call.Read d.store (.reset t code agentId) := hpurpose
    exact h.begin rfl hread hbegin

theorem step_inv (h : Inv d) (hmeets : d.Orderly a) (hstep : hub.step d a = some d') : Inv d' ∧ d.Follows d' := by
  cases a with
  | tick seconds =>
    cases hstep
    exact h.write (turn_issue (fun _ hrow => .inl hrow) (fun _ hrow => hrow) rfl rfl rfl rfl fun _ h => (by cases h)) rfl
  | issueBindTicket uid ttl =>
    cases hstep
    exact h.write (turn_issue (fun _ hrow => .inl hrow) (fun _ hrow => hrow) rfl rfl rfl rfl fun _ h => (by cases h)) rfl
  | openclawInstall uid =>
    obtain ⟨s, hissue, rfl⟩ := Option.map_eq_some_iff.mp hstep
    exact h.issue hissue
  | createCredentialResetTicket uid agentId =>
    obtain ⟨-, hstep⟩ := Option.ite_none_right_eq_some.mp hstep
    obtain ⟨s, hissue, rfl⟩ := Option.map_eq_some_iff.mp hstep
    exact h.issue hissue
  | revokeOpenclawInstallCode uid code =>
    obtain ⟨⟨row, hrow, hcode, -, -, hfree⟩, hstep⟩ := Option.ite_none_right_eq_some.mp hstep
    cases hstep
    exact h.revoke ⟨row, hrow, hcode, hfree⟩
  | openclawInstallClaim i code agentId hostId =>
    simp only [hub] at hstep
    split at hstep
    · cases hstep
    · rename_i t _
      obtain ⟨⟨-, hpurpose, -⟩, hbegin⟩ := Option.ite_none_right_eq_some.mp hstep
      have hread : Call.Read d.store (.claim
          { kind := .bind, code, ticket := some t, agentId, ownerUserId := t.uid, hostId }) :=
        .inl ⟨rfl, t, rfl, hpurpose⟩
      exact h.begin rfl hread hbegin
  | openclawProvision i uid hostId =>
    obtain ⟨s, hissue, hbegin⟩ := Option.bind_eq_some_iff.mp hstep
    exact h.provision hissue hbegin
  | ack i agentId =>
    simp only [hub] at hstep
    split at hstep
    · rename_i id code uid hostId hr
      split at hstep
      · cases hstep
        exact h.abandon hr fun _ hc => (by cases hc)
      · cases hstep
        have hread := h.read _ (Keyed.get?_eq_some_iff.mp hr).1
        refine h.proceed hr (turn_same (fun _ hc => (by cases hc)) (List.Subset.refl _) (fun r hr => ?_)
          fun r hr code agentId hinstall => ?_) rfl
        · cases hr
          exact hread
        · cases hr
          exact absurd hinstall (not_installs rfl _ _)
    · cases hstep
  | openclawProvisionClaim i uid hostId code agentId =>
    obtain ⟨-, hbegin⟩ := Option.ite_none_right_eq_some.mp hstep
    have hread : Call.Read d.store (.claim
        { kind := .openclawProvision, code, agentId, ownerUserId := uid, hostId }) := .inr ⟨rfl, rfl⟩
    exact h.begin rfl hread hbegin
  | resetByTicket i t agentId =>
    have hreset : d.reset i t none agentId = some d' := hstep
    exact h.reset hreset
  | resetByCode i code agentId =>
    obtain ⟨t, -, hreset⟩ := Option.bind_eq_some_iff.mp hstep
    exact h.reset hreset
  | claimAgent i uid t agentId =>
    obtain ⟨-, hbegin⟩ := Option.ite_none_right_eq_some.mp hstep
    have hread : Call.Read d.store (.bind t agentId) := trivial
    exact h.begin rfl hread hbegin
  | agentBind i t agentId =>
    obtain ⟨-, hbegin⟩ := Option.ite_none_right_eq_some.mp hstep
    have hread : Call.Read d.store (.bind t agentId) := trivial
    exact h.begin rfl hread hbegin
  | next i =>
    obtain ⟨r, hr, hnext⟩ := Option.bind_eq_some_iff.mp hstep
    exact next_inv h hmeets hr hnext
  | fail i =>
    simp only [hub] at hstep
    split at hstep
    · rename_i id c hr
      cases hstep
      have hmem := (Keyed.get?_eq_some_iff.mp hr).1
      have hread := h.read _ hmem
      refine h.proceed hr (turn_same (fun x hx => (h.held _ hmem x hx).1) (List.Subset.refl _) (fun r hr => ?_)
        fun r hr code agentId hinstall => ?_) rfl
      · cases hr
        exact hread
      · cases hr
        exact ⟨_, rfl, hinstall⟩
    · cases hstep
  | crash i =>
    obtain ⟨r, hr, rfl⟩ := Option.map_eq_some_iff.mp hstep
    exact h.abandon hr (hmeets r hr)

end Step

theorem Hub.Follows.refl (d : Hub) : d.Follows d := ⟨List.Subset.refl _, fun _ _ _ hx _ => hx⟩

theorem Hub.Follows.trans {d'' : Hub} (h : d.Follows d') (h' : d'.Follows d'') : d.Follows d'' :=
  ⟨fun _ hcode => h'.ended (h.ended hcode), fun code hcode x hx hxcode =>
    h.fruitless code hcode x (h'.fruitless code (h.ended hcode) x hx hxcode) hxcode⟩

theorem Inv.honoured (h : Inv d) : d.Honoured := by
  refine ⟨h.once, h.named, fun row hrow hkind agentId hstatus => h.claimed row hrow hkind agentId ?_⟩
  unfold ShortCode.status at hstatus
  split at hstatus
  · split at hstatus <;> cases hstatus
  · split at hstatus
    · rename_i hclaimed
      cases hstatus
      exact hclaimed
    · cases hstatus

theorem inv_empty : Inv {} := by
  refine ⟨?_, List.nodup_nil, ?_, ?_, ?_, ?_, ?_, ?_⟩
  all_goals
    intro x hx
    cases hx

/-- In a run whose steps all meet the condition, every ticket and every code is good for one success of its kind, an install code is shown as claimed for an agent that is there or about to be, and from one state of the run to a later one no code that has ended yields anything. -/
theorem codes_honoured {front back : List Action} {mid t : Hub} (hmeets : hub.Meets Hub.Orderly {} (front ++ back))
    (hmid : hub.run {} front = some mid) (hend : hub.run mid back = some t) : t.Honoured ∧ mid.Follows t := by
  obtain ⟨hfront, hback⟩ := hub.meets_append.mp hmeets
  have hinv : Inv mid := hub.run_invariant_of_meets (fun _ _ _ h hmeets hstep => (step_inv h hmeets hstep).1) inv_empty
    hfront hmid
  have hlater : Inv t ∧ mid.Follows t := by
    refine hub.run_invariant_of_meets (P := fun d => Inv d ∧ mid.Follows d) (fun d a d' h hmeets hstep => ?_)
      ⟨hinv, .refl _⟩ (hback mid hmid) hend
    obtain ⟨hinv, hfollows⟩ := step_inv h.1 hmeets hstep
    exact ⟨hinv, h.2.trans hfollows⟩
  exact ⟨hlater.1.honoured, hlater.2⟩

/-- Alice installs an agent on a host, and asks for a new credential for it. -/
def installed : List Action :=
  [.openclawInstall "alice", .openclawInstallClaim 1 0 "ag_1" "oc_1", .next 1, .next 1, .next 1,
    .createCredentialResetTicket "alice" "ag_1"]

/-- The credential is reset; a provisioning is given up before its host claims, and another agent binds with a ticket for that. -/
theorem installed_honoured : ∃ mid t, hub.run {} installed = some mid ∧
    hub.run mid [.resetByCode 1 2 "ag_1", .next 1, .next 1, .next 1, .openclawProvision 2 "alice" "oc_1", .ack 2 none,
      .openclawProvisionClaim 3 "alice" "oc_1" 4 "ag_2", .next 2, .next 3, .issueBindTicket "alice" 60,
      .agentBind 4 { uid := "alice", purpose := none, exp := 60, jti := 5 } "ag_3", .next 4, .next 4] = some t ∧
    t.store.done.length = 3 ∧ t.Honoured ∧ mid.Follows t := by
  have hrun : (hub.run {} installed).any (fun mid => (hub.run mid
      [.resetByCode 1 2 "ag_1", .next 1, .next 1, .next 1, .openclawProvision 2 "alice" "oc_1", .ack 2 none,
        .openclawProvisionClaim 3 "alice" "oc_1" 4 "ag_2", .next 2, .next 3, .issueBindTicket "alice" 60,
        .agentBind 4 { uid := "alice", purpose := none, exp := 60, jti := 5 } "ag_3", .next 4, .next 4]).any fun t =>
          t.store.done.length = 3) = true := by
    decide +kernel
  obtain ⟨mid, hmid, hrest⟩ := (Option.any_eq_true _ _).mp hrun
  obtain ⟨t, hend, hlength⟩ := (Option.any_eq_true _ _).mp hrest
  exact ⟨mid, t, hmid, hend, of_decide_eq_true hlength, codes_honoured (by decide +kernel) hmid hend⟩

/-- The reset ticket binds another agent to Alice. -/
theorem reset_ticket_binds : ¬ ∀ (actions : List Action) (d : Hub), hub.run {} actions = some d → d.Honoured := by
  intro hhonoured
  have hrun : (hub.run {} (installed ++ [.agentBind 1
      { uid := "alice", purpose := some .credentialReset, agentId := some "ag_1", exp := resetTicketTtl, jti := 3 } "ag_9",
      .next 1, .next 1])).any (fun d => ∃ x ∈ d.store.done, ∃ t ∈ x.ticket, x.deed ≠ t.deed) = true := by
    decide +kernel
  obtain ⟨d, hrun, hwrong⟩ := (Option.any_eq_true _ _).mp hrun
  obtain ⟨x, hx, t, ht, hne⟩ := of_decide_eq_true hwrong
  exact hne ((hhonoured _ d hrun).named x hx t ht)

end BotCord.Onboarding
