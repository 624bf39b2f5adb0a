import BotCord.Delivery.Hub
import BotCord.Foundation.Keyed

/-!
# Signing keys

The keys, challenges and nonces of one agent, the tokens that were issued for it, and what writes them: `add_key`, `verify_agent`, `revoke_key` and `refresh_token` of `hub/routers/registry.py`, `_refresh_agent_token_with_proof` and `reset_agent_credential` of `app/routers/users.py`; `get_current_claimed_agent` of `hub/auth.py` accepts a token. A call runs statement by statement and shows what it wrote when it commits. A token says nothing but the agent and the second in which it expires, so that second stands for it.

Whoever holds the key that a reset brings in is another party than the one before; the parties and the tokens are counted by the resets.
-/

namespace BotCord.Keys

open Delivery (column)

abbrev KeyId := ℕ

abbrev Nonce := String

/-- Seconds. -/
abbrev Instant := ℕ

abbrev Token := Instant

def jwtExpireSeconds : ℕ := 24 * 60 * 60

def challengeExpireSeconds : ℕ := 5 * 60

inductive KeyState
  | pending | active | revoked
deriving DecidableEq

inductive AgentStatus
  | active | deleted | other (status : String)
deriving DecidableEq

structure SigningKey where
  keyId : KeyId
  state : KeyState
  /-- Who has the private key. -/
  party : ℕ
  /-- How many resets there were when the token was issued that brought the key in. -/
  epoch : ℕ

structure Challenge where
  challenge : ℕ
  keyId : KeyId
  expiresAt : Instant
  used : Bool := false

structure Agent where
  status : AgentStatus := .active
  claimedAt : Option Instant := none
  agentToken : Option Token := none
  tokenExpiresAt : Option Instant := none

structure Issued where
  token : Token
  party : ℕ
  epoch : ℕ
deriving DecidableEq

inductive Proof
  | challenge (challenge : ℕ)
  | nonce (nonce : Nonce)

/-- A refresh makes its token the current one, the proof of a binding leaves that to its caller. -/
inductive ProofUse
  | refresh | bind
deriving DecidableEq

inductive Call
  | challenge (challenge : Challenge)
  | verify (challenge : Challenge) (key : SigningKey)
  | verified (challenge : Challenge) (key : SigningKey) (token : Token)
  | revoke (key : SigningKey)
  | revoking (key : SigningKey)
  | refresh (use : ProofUse) (agent : Agent) (key : SigningKey) (nonce : Nonce)
  | refreshed (use : ProofUse) (agent : Agent) (key : SigningKey) (nonce : Nonce) (token : Token)
  | reset (agent : Agent)
  | resetting (agent : Agent) (keys : List KeyId) (token : Token)

structure Store where
  now : Instant := 0
  /-- Everything that was drawn is below. -/
  drawn : ℕ := 0
  agent : Agent := {}
  keys : Keyed SigningKey.keyId := {}
  challenges : Keyed Challenge.challenge := {}
  nonces : List Nonce := []
  /-- How often the credential was reset. -/
  epoch : ℕ := 0
  issued : List Issued := []
  proofs : List Proof := []

namespace SigningKey

variable (k loaded : SigningKey)

/-- A key is made active by a call that has loaded it. -/
def activate : SigningKey := { k with state := column loaded.state .active k.state }

def revoke : SigningKey := { k with state := .revoked }

theorem keyId_activate : (k.activate loaded).keyId = k.keyId := rfl

theorem keyId_revoke : k.revoke.keyId = k.keyId := rfl

end SigningKey

def Challenge.use (c : Challenge) : Challenge := { c with used := true }

theorem Challenge.challenge_use (c : Challenge) : c.use.challenge = c.challenge := rfl

/-- The token of a call becomes the current one. -/
def Agent.store (a loaded : Agent) (token : Token) : Agent :=
  { a with
    agentToken := column loaded.agentToken (some token) a.agentToken
    tokenExpiresAt := column loaded.tokenExpiresAt (some token) a.tokenExpiresAt }

namespace Store

variable (s : Store)

def active : List SigningKey := s.keys.rows.filter (·.state = .active)

/-- `create_agent_token`. -/
def createToken : Token := s.now + jwtExpireSeconds

/-- A token that its holder presents to `get_current_agent`. -/
def Presents (t : Issued) : Prop := t ∈ s.issued ∧ s.now < t.token
deriving Decidable

/-- `get_current_claimed_agent`. -/
def Accepts (token : Token) : Prop :=
  s.now < token ∧ s.agent.status = .active ∧ (∀ current ∈ s.agent.agentToken, current = token) ∧
    (∀ expiresAt ∈ s.agent.tokenExpiresAt, ¬ expiresAt ≤ s.now) ∧ s.agent.claimedAt ≠ none
deriving Decidable

/-- A key is added, with a challenge for it. -/
def addKey (party epoch : ℕ) : Option Store :=
  (s.keys.insert? { keyId := s.drawn, state := .pending, party, epoch }).bind fun keys =>
    (s.challenges.insert?
        { challenge := s.drawn + 1, keyId := s.drawn, expiresAt := s.now + challengeExpireSeconds }).map fun challenges =>
      { s with keys, challenges, drawn := s.drawn + 2 }

/-- The writes of `verify_agent`. -/
def verify (c : Challenge) (k : SigningKey) (token : Token) : Store :=
  { s with
    challenges := s.challenges.modify (·.challenge = c.challenge) Challenge.use Challenge.challenge_use
    keys := s.keys.modify (·.keyId = k.keyId) (·.activate k) (·.keyId_activate k)
    issued := ⟨token, k.party, s.epoch⟩ :: s.issued
    proofs := .challenge c.challenge :: s.proofs }

def revoke (keyId : KeyId) : Store :=
  { s with keys := s.keys.modify (·.keyId = keyId) SigningKey.revoke SigningKey.keyId_revoke }

/-- The writes of a proof with a nonce; the nonces are unique. -/
def refresh (use : ProofUse) (agent : Agent) (k : SigningKey) (nonce : Nonce) (token : Token) : Store :=
  if nonce ∈ s.nonces then s
  else
    { s with
      nonces := nonce :: s.nonces
      agent := if use = .refresh then s.agent.store agent token else s.agent
      issued := ⟨token, k.party, s.epoch⟩ :: s.issued
      proofs := .nonce nonce :: s.proofs }

/-- The writes of `reset_agent_credential`. -/
def reset (agent : Agent) (keyIds : List KeyId) (token : Token) : Option Store :=
  ((s.keys.modify (·.keyId ∈ keyIds) SigningKey.revoke SigningKey.keyId_revoke).insert?
      { keyId := s.drawn, state := .active, party := s.epoch + 1, epoch := s.epoch + 1 }).map fun keys =>
    { s with
      keys
      drawn := s.drawn + 1
      agent := s.agent.store agent token
      epoch := s.epoch + 1
      issued := ⟨token, s.epoch + 1, s.epoch + 1⟩ :: s.issued }

def install : Option Store :=
  (s.keys.insert? { keyId := s.drawn, state := .active, party := s.epoch, epoch := s.epoch }).map fun keys =>
    { s with
      keys
      drawn := s.drawn + 1
      agent := { s.agent with agentToken := some s.createToken, tokenExpiresAt := some s.createToken }
      issued := ⟨s.createToken, s.epoch, s.epoch⟩ :: s.issued }

end Store

structure Hub where
  store : Store := {}
  calls : ℕ → Option Call := fun _ => none

inductive Action
  | tick (seconds : ℕ)
  /-- The first key is pending with an agent that registered while there was an endpoint for that. -/
  | register
  | install
  | addKey (token : Issued)
  | verifyAgent (i : ℕ) (challenge : ℕ)
  | revokeKey (i : ℕ) (token : Issued) (keyId : KeyId)
  | refreshToken (i : ℕ) (use : ProofUse) (keyId : KeyId) (nonce : Nonce)
  | resetAgentCredential (i : ℕ)
  /-- The next statement of a call, the last of which writes and commits. -/
  | next (i : ℕ)
  | crash (i : ℕ)

namespace Hub

variable (d : Hub) (i : ℕ)

def goto (call : Call) : Hub := { d with calls := Function.update d.calls i (some call) }

def begin (call : Call) : Option Hub := if d.calls i = none then some (d.goto i call) else none

def finish (store : Store) : Hub := { store, calls := Function.update d.calls i none }

/-- The next statement of a call. -/
def next : Call → Option Hub
  | .challenge c =>
    match d.store.keys.get? c.keyId with
    | some k => some (d.goto i (.verify c k))
    | none => some (d.finish i d.store)
  | .verify c k => some (d.goto i (.verified c k d.store.createToken))
  | .verified c k token => some (d.finish i (d.store.verify c k token))
  | .revoke k =>
    if d.store.active.length ≤ 1 ∧ k.state = .active then some (d.finish i d.store) else some (d.goto i (.revoking k))
  | .revoking k => some (d.finish i (d.store.revoke k.keyId))
  | .refresh use agent k nonce =>
    if nonce ∈ d.store.nonces then some (d.finish i d.store)
    else some (d.goto i (.refreshed use agent k nonce d.store.createToken))
  | .refreshed use agent k nonce token => some (d.finish i (d.store.refresh use agent k nonce token))
  | .reset agent => some (d.goto i (.resetting agent (d.store.active.map (·.keyId)) d.store.createToken))
  | .resetting agent keyIds token => (d.store.reset agent keyIds token).map (d.finish i)

end Hub

/-- The Hub with any number of calls for one agent. -/
def hub : System Hub Action where
  step d
    | .tick seconds => some { d with store := { d.store with now := d.store.now + seconds } }
    | .register =>
      if d.store.keys.rows = [] then (d.store.addKey d.store.epoch d.store.epoch).map fun store => { d with store } else none
    | .install => if d.store.keys.rows = [] then d.store.install.map fun store => { d with store } else none
    | .addKey token =>
      if d.store.Presents token then (d.store.addKey token.party token.epoch).map fun store => { d with store } else none
    | .verifyAgent i challenge =>
      match d.store.challenges.get? challenge with
      | none => none
      | some c => if c.used = false ∧ d.store.now ≤ c.expiresAt then d.begin i (.challenge c) else none
    | .revokeKey i token keyId =>
      if d.store.Presents token then
        match d.store.keys.get? keyId with
        | none => none
        | some k => if k.state = .revoked then none else d.begin i (.revoke k)
      else none
    | .refreshToken i use keyId nonce =>
      match d.store.keys.get? keyId with
      | none => none
      | some k =>
        if k.state = .active ∧ (use = .refresh → d.store.agent.status ≠ .deleted) then
          d.begin i (.refresh use d.store.agent k nonce)
        else none
    | .resetAgentCredential i => if d.store.agent.status = .active then d.begin i (.reset d.store.agent) else none
    | .next i => (d.calls i).bind (d.next i)
    | .crash i => (d.calls i).map fun _ => d.finish i d.store

inductive Hub.Writes (d : Hub) : Action → Store → Prop
  | reads (a : Action) : d.Writes a d.store
  | tick (seconds : ℕ) : d.Writes (.tick seconds) { d.store with now := d.store.now + seconds }
  | adds {a : Action} {party epoch : ℕ} {s : Store}
      (hholder : party = d.store.epoch ∧ epoch = d.store.epoch ∨
        ∃ t ∈ d.store.issued, t.party = party ∧ t.epoch = epoch)
      (hadd : d.store.addKey party epoch = some s) : d.Writes a s
  | installs {s : Store} (hempty : d.store.keys.rows = []) (hinstall : d.store.install = some s) : d.Writes .install s
  | verifies {i : ℕ} {c : Challenge} {k : SigningKey} {token : Token} (hcall : d.calls i = some (.verified c k token)) :
      d.Writes (.next i) (d.store.verify c k token)
  | revokes {i : ℕ} {k : SigningKey} (hcall : d.calls i = some (.revoking k)) :
      d.Writes (.next i) (d.store.revoke k.keyId)
  | refreshes {i : ℕ} {use : ProofUse} {agent : Agent} {k : SigningKey} {nonce : Nonce} {token : Token}
      (hcall : d.calls i = some (.refreshed use agent k nonce token)) :
      d.Writes (.next i) (d.store.refresh use agent k nonce token)
  | resets {i : ℕ} {agent : Agent} {keyIds : List KeyId} {token : Token} {s : Store}
      (hcall : d.calls i = some (.resetting agent keyIds token)) (hreset : d.store.reset agent keyIds token = some s) :
      d.Writes (.next i) s

variable {d d' : Hub} {i : ℕ} {a : Action} {call : Call}

theorem begin_store (h : d.begin i call = some d') : d'.store = d.store := by
  obtain ⟨-, h⟩ := Option.ite_none_right_eq_some.mp h
  cases h
  rfl

theorem next_writes (hcall : d.calls i = some call) (hnext : d.next i call = some d') : d.Writes (.next i) d'.store := by
  cases call with
  | challenge c =>
    simp only [Hub.next] at hnext
    split at hnext
    · cases hnext
      exact .reads _
    · cases hnext
      exact .reads _
  | verify c k =>
    cases hnext
    exact .reads _
  | verified c k token =>
    cases hnext
    exact .verifies hcall
  | revoke k =>
    simp only [Hub.next] at hnext
    split at hnext
    · cases hnext
      exact .reads _
    · cases hnext
      exact .reads _
  | revoking k =>
    cases hnext
    exact .revokes hcall
  | refresh use agent k nonce =>
    simp only [Hub.next] at hnext
    split at hnext
    · cases hnext
      exact .reads _
    · cases hnext
      exact .reads _
  | refreshed use agent k nonce token =>
    cases hnext
    exact .refreshes hcall
  | reset agent =>
    cases hnext
    exact .reads _
  | resetting agent keyIds token =>
    obtain ⟨s, hreset, rfl⟩ := Option.map_eq_some_iff.mp hnext
    exact .resets hcall hreset

theorem step_writes (hstep : hub.step d a = some d') : d.Writes a d'.store := by
  cases a with
  | tick seconds =>
    cases hstep
    exact .tick seconds
  | register =>
    obtain ⟨-, hstep⟩ := Option.ite_none_right_eq_some.mp hstep
    obtain ⟨s, hadd, rfl⟩ := Option.map_eq_some_iff.mp hstep
    exact .adds (.inl ⟨rfl, rfl⟩) hadd
  | install =>
    obtain ⟨hempty, hstep⟩ := Option.ite_none_right_eq_some.mp hstep
    obtain ⟨s, hinstall, rfl⟩ := Option.map_eq_some_iff.mp hstep
    exact .installs hempty hinstall
  | addKey token =>
    obtain ⟨hpresents, hstep⟩ := Option.ite_none_right_eq_some.mp hstep
    obtain ⟨s, hadd, rfl⟩ := Option.map_eq_some_iff.mp hstep
    exact .adds (.inr ⟨token, hpresents.1, rfl, rfl⟩) hadd
  | verifyAgent i challenge =>
    simp only [hub] at hstep
    split at hstep
    · cases hstep
    · obtain ⟨-, hstep⟩ := Option.ite_none_right_eq_some.mp hstep
      rw [begin_store hstep]
      exact .reads _
  | revokeKey i token keyId =>
    obtain ⟨-, hstep⟩ := Option.ite_none_right_eq_some.mp hstep
    split at hstep
    · cases hstep
    · obtain ⟨-, hstep⟩ := Option.ite_none_left_eq_some.mp hstep
      rw [begin_store hstep]
      exact .reads _
  | refreshToken i use keyId nonce =>
    simp only [hub] at hstep
    split at hstep
    · cases hstep
    · obtain ⟨-, hstep⟩ := Option.ite_none_right_eq_some.mp hstep
      rw [begin_store hstep]
      exact .reads _
  | resetAgentCredential i =>
    obtain ⟨-, hstep⟩ := Option.ite_none_right_eq_some.mp hstep
    rw [begin_store hstep]
    exact .reads _
  | next i =>
    obtain ⟨call, hcall, hnext⟩ := Option.bind_eq_some_iff.mp hstep
    exact next_writes hcall hnext
  | crash i =>
    obtain ⟨call, -, rfl⟩ := Option.map_eq_some_iff.mp hstep
    exact .reads _

end BotCord.Keys
