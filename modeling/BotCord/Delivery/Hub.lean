import BotCord.Foundation.Run
import Mathlib.Data.Nat.Notation
import Mathlib.Logic.Function.Basic

/-!
# One delivery

The row of a message for one receiver, and what writes it: `poll_inbox`, `ack_inbox_messages`, `renew_inbox_message_leases` and `receive_receipt` of `hub/routers/hub.py`, `_reclaim_stale_processing` and `_expire_batch` of `hub/expiry.py`. A call reads the row in one statement and writes and commits in a later one; a poll locks the row it reads. Topics and notifications are left out.
-/

namespace BotCord.Delivery

abbrev MsgId := String

/-- Seconds. -/
abbrev Instant := ℕ

inductive MessageState
  | queued | processing | delivered | acked | done | failed
deriving DecidableEq

structure MessageRecord where
  state : MessageState := .queued
  createdAt : Instant := 0
  ttlSec : ℕ
  recalled : Bool := false
  nextRetryAt : Option Instant := none
  lastError : Option String := none
  deliveredAt : Option Instant := none
  ackedAt : Option Instant := none

inductive ReceiptType
  | ack
  | result
  | error (code : String)

/-- The state that a receipt sets. -/
def ReceiptType.state : ReceiptType → MessageState
  | .ack => .acked
  | .result => .done
  | .error _ => .failed

def processingLeaseSeconds : ℕ := 120

namespace MessageRecord

variable (r : MessageRecord)

def poll (ack : Bool) (now : Instant) : MessageRecord :=
  if ack then { r with state := .delivered, deliveredAt := some now, nextRetryAt := none }
  else { r with state := .processing, nextRetryAt := some (now + processingLeaseSeconds) }

def ackInbox (now : Instant) : MessageRecord :=
  { r with state := .delivered, deliveredAt := some now, ackedAt := some now, nextRetryAt := none }

def expire : MessageRecord := { r with state := .failed, lastError := some "TTL_EXPIRED", nextRetryAt := none }

def Expired (now : Instant) : Prop := r.state = .queued ∧ r.recalled = false ∧ r.createdAt + r.ttlSec ≤ now
deriving Decidable

def Stale (now : Instant) : Prop := r.state = .processing ∧ ∃ deadline ∈ r.nextRetryAt, deadline ≤ now
deriving Decidable

end MessageRecord

/-- A column that a call sets: what it loaded is not written again. -/
def column {α : Type} [DecidableEq α] (loaded value current : α) : α := if loaded = value then current else value

/-- What a receipt writes over the row, from what it has loaded. -/
def MessageRecord.receive (r loaded : MessageRecord) (now : Instant) : ReceiptType → MessageRecord
  | .ack => { r with state := column loaded.state .acked r.state, ackedAt := column loaded.ackedAt (some now) r.ackedAt }
  | .result =>
    { r with
      state := column loaded.state .done r.state
      ackedAt := column loaded.ackedAt (some (loaded.ackedAt.getD now)) r.ackedAt }
  | .error code =>
    { r with state := column loaded.state .failed r.state, lastError := column loaded.lastError (some code) r.lastError }

inductive Call
  | poll (ack : Bool)
  | ackInbox
  | expire
  | receipt (msgId : MsgId) (type : ReceiptType) (loaded : MessageRecord)

structure Hub where
  record : MessageRecord
  /-- The ids of the messages that are stored for the sender. -/
  inbox : List MsgId := []
  now : Instant := 0
  /-- The poll that has locked the row. -/
  locked : Option ℕ := none
  calls : ℕ → Option Call := fun _ => none
  /-- The receipts that were forwarded to the sender. -/
  forwarded : List MsgId := []

inductive Action
  | tick (seconds : ℕ)
  /-- Another message is stored for the sender. -/
  | store (msgId : MsgId)
  | pollInbox (i : ℕ) (ack : Bool)
  | ackInboxMessages (i : ℕ)
  | expireBatch (i : ℕ)
  | receiveReceipt (i : ℕ) (msgId : MsgId) (type : ReceiptType)
  /-- A call writes and commits. -/
  | next (i : ℕ)
  | crash (i : ℕ)
  | reclaimStaleProcessing
  | renewInboxMessageLeases

namespace Hub

variable (d : Hub) (i : ℕ)

def begin (call : Call) : Option Hub :=
  if d.calls i = none then some { d with calls := Function.update d.calls i (some call) } else none

/-- A call ends and gives its lock up. -/
def finish : Hub :=
  { d with calls := Function.update d.calls i none, locked := d.locked.filter (· ≠ i) }

/-- Store a receipt for the sender, unless a message with its id is there. -/
def forward (msgId : MsgId) (record : MessageRecord) : Hub :=
  if msgId ∈ d.inbox then d
  else { d with record, inbox := d.inbox ++ [msgId], forwarded := d.forwarded ++ [msgId] }

end Hub

/-- The Hub with one delivery; a write waits for the lock of another call. -/
def delivery : System Hub Action where
  step d
    | .tick seconds => some { d with now := d.now + seconds }
    | .store msgId => if msgId ∈ d.inbox then none else some { d with inbox := d.inbox ++ [msgId] }
    | .pollInbox i ack =>
      if d.locked = none ∧ d.record.state = .queued ∧ d.record.recalled = false then
        (d.begin i (.poll ack)).map fun d => { d with locked := some i }
      else none
    | .ackInboxMessages i =>
      if d.record.state = .processing ∨ d.record.state = .queued then d.begin i .ackInbox else none
    | .expireBatch i => if d.record.Expired d.now then d.begin i .expire else none
    | .receiveReceipt i msgId type => d.begin i (.receipt msgId type d.record)
    | .next i =>
      match d.calls i with
      | none => none
      | some call =>
        if d.locked = none ∨ d.locked = some i then
          match call with
          | .poll ack => some ({ d with record := d.record.poll ack d.now }.finish i)
          | .ackInbox => some ({ d with record := d.record.ackInbox d.now }.finish i)
          | .expire => some ({ d with record := d.record.expire }.finish i)
          | .receipt msgId type loaded => some ((d.forward msgId (d.record.receive loaded d.now type)).finish i)
        else none
    | .crash i => (d.calls i).map fun _ => d.finish i
    | .reclaimStaleProcessing =>
      if d.locked = none ∧ d.record.Stale d.now then
        some { d with record := { d.record with state := .queued, nextRetryAt := none } }
      else none
    | .renewInboxMessageLeases =>
      if d.locked = none ∧ d.record.state = .processing then
        some { d with record := { d.record with nextRetryAt := some (d.now + processingLeaseSeconds) } }
      else none

end BotCord.Delivery
