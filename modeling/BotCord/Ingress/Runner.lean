import BotCord.Foundation.Run
import BotCord.Ingress.Store

/-!
# The runner of the provider adapters

`packages/gateway-ingress/src/provider-runner.ts` with the provider map of the orchestrator. A call runs to its next `await` in one step; what it has still to do after that is a list of frames, the innermost first. An adapter may take as long as it likes to stop, and whether it stops or fails to makes no difference, because the failure is caught.
-/

namespace BotCord.Ingress

abbrev AdapterId := ℕ

inductive GatewayStatus
  | active | disabled | pending | error
deriving DecidableEq

structure GatewayConnection where
  id : GatewayId
  status : GatewayStatus := .active
  enabled : Bool := true
deriving DecidableEq

structure Adapter where
  gatewayId : GatewayId
  started : Bool
  aborted : Bool := false
deriving DecidableEq

structure Entry where
  gatewayId : GatewayId
  adapter : AdapterId

/-- What is left of a call after an `await`: of a `stopOne` when its adapter has stopped, of a `startOne` when its `stopOne` has returned, of the loops when the call for one gateway has. -/
inductive Frame
  | stopOne (gatewayId : GatewayId) (adapter : AdapterId)
  | startOne (conn : GatewayConnection)
  | startAll (rest : List GatewayConnection)
  | stopAll (rest : List GatewayId)

/-- How the code outside the runner behaves while an adapter is set up: whether there is a factory that makes it and its secret can be loaded, and whether the row of the connection can be written. -/
structure Outside where
  built : Bool := true
  saved : Bool := true

/-- Adapters are known by their place in the list of all that were made. -/
structure ProviderRunner where
  created : List Adapter := []
  adapters : List Entry := []
  /-- The providers that are registered with the orchestrator. -/
  providers : GatewayId → Option AdapterId := fun _ => none
  calls : ℕ → List Frame := fun _ => []

namespace ProviderRunner

variable (r : ProviderRunner) (i : ℕ)

def get? (id : GatewayId) : Option AdapterId := (r.adapters.find? (·.gatewayId = id)).map (·.adapter)

def goto (frames : List Frame) : ProviderRunner := { r with calls := Function.update r.calls i frames }

def abort (adapter : AdapterId) : ProviderRunner :=
  { r with created := r.created.modify adapter fun a => { a with aborted := true } }

/-- The orchestrator forgets the provider and the entry is deleted, whichever adapter they name. -/
def unregister (id : GatewayId) : ProviderRunner :=
  { r with
    providers := Function.update r.providers id none
    adapters := r.adapters.filter (·.gatewayId ≠ id) }

/-- The second half of `startOne`: a new adapter is registered and started. The row of a connection that was not active is written in between. -/
def register (conn : GatewayConnection) (outside : Outside) : ProviderRunner :=
  if outside.built then
    let adapter := r.created.length
    let started := outside.saved || !(conn.enabled && conn.status ≠ .active)
    { r with
      created := r.created ++ [{ gatewayId := conn.id, started }]
      providers := Function.update r.providers conn.id (some adapter)
      adapters := Table.put Entry.gatewayId ⟨conn.id, adapter⟩ r.adapters }
  else r

/-- `stopOne` up to its `await`. -/
def stopOne (id : GatewayId) (rest : List Frame) : ProviderRunner :=
  match r.get? id with
  | none => r.goto i rest
  | some adapter => (r.abort adapter).goto i (.stopOne id adapter :: rest)

/-- `startOne` up to its `await`, or to its end where it has nothing to stop. -/
def startOne (conn : GatewayConnection) (outside : Outside) (rest : List Frame) : ProviderRunner :=
  match r.get? conn.id with
  | none => (r.register conn outside).goto i rest
  | some _ => r.stopOne i conn.id (.startOne conn :: rest)

end ProviderRunner

/-- What a call does before its next `await`: it calls `startOne` or `stopOne`, or goes on in one of them. -/
inductive Op
  | start (conn : GatewayConnection)
  | stop (id : GatewayId)
  | unregister (id : GatewayId) (adapter : AdapterId)
  | register (conn : GatewayConnection)
  | pass

/-- What a call does next and what it has to do after that. -/
def Frame.next : List Frame → Op × List Frame
  | [] => (.pass, [])
  | .stopOne id adapter :: rest => (.unregister id adapter, rest)
  | .startOne conn :: rest => (.register conn, rest)
  | .startAll [] :: rest => (.pass, rest)
  | .startAll (conn :: more) :: rest => (.start conn, .startAll more :: rest)
  | .stopAll [] :: rest => (.pass, rest)
  | .stopAll (id :: more) :: rest => (.stop id, .stopAll more :: rest)

/-- What happens to a runner: a call begins, or what it waits for is settled. `startAll` gets the connections that are in the store. -/
inductive RunnerAction
  | startOne (conn : GatewayConnection)
  | stopOne (id : GatewayId)
  | startAll (connections : List GatewayConnection)
  | stopAll
  | resume
deriving DecidableEq

namespace ProviderRunner

variable (r : ProviderRunner) (i : ℕ)

def next : RunnerAction → Op × List Frame
  | .startOne conn => (.start conn, [])
  | .stopOne id => (.stop id, [])
  | .startAll connections => Frame.next [.startAll (connections.filter (·.enabled))]
  | .stopAll => Frame.next [.stopAll (r.adapters.map (·.gatewayId))]
  | .resume => Frame.next (r.calls i)

def perform (outside : Outside) (rest : List Frame) : Op → ProviderRunner
  | .start conn => r.startOne i conn outside rest
  | .stop id => r.stopOne i id rest
  | .unregister id _ => (r.unregister id).goto i rest
  | .register conn => (r.register conn outside).goto i rest
  | .pass => r.goto i rest

end ProviderRunner

/-- A step of the call of a number, which begins only if none of that number is in progress. -/
structure RunnerStep where
  call : ℕ
  action : RunnerAction
  outside : Outside := {}

def providerRunner : System ProviderRunner RunnerStep where
  step r s :=
    if r.calls s.call = [] ↔ s.action ≠ .resume then
      let (op, rest) := r.next s.call s.action
      some (r.perform s.call s.outside rest op)
    else none

end BotCord.Ingress
