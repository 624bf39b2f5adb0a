import BotCord.Foundation.Keyed
import BotCord.Foundation.Run
import BotCord.Sends.Service

/-!
# The messages of the hub

The table `message_records` and the transactions that write it: `send_message` of `hub/routers/hub.py`, which stores one copy of a message for each receiver, and `recall_room_message` of `app/routers/dashboard.py`. A row has its id when the insert begins and is seen by others when its transaction commits. An insert that finds the key of a row of an open transaction waits for that transaction.

What the other checks of a send say and who receives a room message is given with the call, so a send that fails a check is one that does not begin, or that is aborted.
-/

namespace BotCord.Messages

open Sends (Envelope MessageRecord MessageType Payload RoomId)

abbrev RecordId := ℕ

/-- A copy of a message; `writer` is the send that has inserted it and not yet committed. -/
structure Row extends MessageRecord where
  id : RecordId
  recalled : Bool := false
  writer : Option ℕ := none
deriving DecidableEq

structure Body where
  recipient : String
  type : MessageType
  payload : Payload
  replyTo : Option String
  topic : Option String
  goal : Option String
  mentions : Option (List String)
deriving DecidableEq

def body (envelope : Envelope) : Body where
  recipient := envelope.recipient
  type := envelope.type
  payload := envelope.payload
  replyTo := envelope.replyTo
  topic := envelope.topic
  goal := envelope.goal
  mentions := envelope.mentions

def isRoom (envelope : Envelope) : Bool := envelope.recipient.startsWith "rm_"

/-- The room of the copies of a message. -/
def roomOf (envelope : Envelope) : Option RoomId :=
  if isRoom envelope then some envelope.recipient else Sends.dmRoom envelope

/-- The receivers of a message: of a room the members besides the sender that are neither muted nor blocking, or the sender alone. -/
def receiversOf (envelope : Envelope) (members : List String) : List String :=
  if isRoom envelope then
    let receivers := members.dedup.filter (· ≠ envelope.sender)
    if receivers = [] then [envelope.sender] else receivers
  else [envelope.recipient]

/-- A send in its transaction: the receivers that have no copy yet, and the id that its insert has drawn. -/
structure Sending where
  envelope : Envelope
  receivers : List String
  left : List String
  drawn : Option RecordId := none

/-- The copy for one receiver. -/
def Sending.row (s : Sending) (i : ℕ) (hubMsgId receiverId : String) (id : RecordId) : Row where
  hubMsgId := hubMsgId
  msgId := s.envelope.msgId
  senderId := s.envelope.sender
  receiverId := receiverId
  roomId := roomOf s.envelope
  envelope := s.envelope
  id := id
  writer := some i

/-- A send that was answered with "queued", and the receivers that it had computed. -/
structure Answer where
  envelope : Envelope
  receivers : List String
deriving DecidableEq

structure Hub where
  rows : Keyed Row.id := {}
  nextId : RecordId := 0
  sends : ℕ → Option Sending := fun _ => none
  /-- The rows that a recall has found and not yet committed. -/
  recalls : ℕ → Option (List RecordId) := fun _ => none
  answers : List Answer := []

inductive HubAction
  /-- The checks of a send have passed; `members` are those that may receive a room message. -/
  | send (i : ℕ) (envelope : Envelope) (members : List String)
  | draw (i : ℕ)
  | insert (i : ℕ) (hubMsgId : String)
  | commit (i : ℕ)
  | abort (i : ℕ)
  | recallRoomMessage (j : ℕ) (roomId : RoomId) (msgId : String)
  | commitRecall (j : ℕ)

namespace Hub

variable (h : Hub)

/-- The rows that every statement sees. -/
def visible : List Row := h.rows.rows.filter (·.writer = none)

def goto (i : ℕ) (s : Sending) : Hub := { h with sends := Function.update h.sends i (some s) }

def endSend (i : ℕ) : Hub := { h with sends := Function.update h.sends i none }

def answer (envelope : Envelope) (receivers : List String) : Hub :=
  { h with answers := h.answers ++ [{ envelope, receivers }] }

/-- The beginning of `send_message`: a signed response whose id is there already is answered, or refused if its body is another. -/
def send (i : ℕ) (envelope : Envelope) (members : List String) : Hub :=
  let receivers := receiversOf envelope members
  match if envelope.payload.response = none then none else h.visible.find? (·.msgId = envelope.msgId) with
  | none => h.goto i { envelope, receivers, left := receivers }
  | some existing =>
    if existing.senderId ≠ envelope.sender ∨ body existing.envelope ≠ body envelope then h else h.answer envelope []

/-- The rows of a send become those of everybody. -/
def commit (i : ℕ) (s : Sending) : Hub :=
  { (h.endSend i).answer s.envelope s.receivers with rows := h.rows.modify (·.writer = some i) fun row => { row with writer := none } }

def abort (i : ℕ) : Hub := { h.endSend i with rows := h.rows.remove (·.writer = some i) }

/-- The insert for one receiver under the drawn id; `none` where it waits. A copy that is there already is taken for a retry, and a direct message is then answered without a commit. -/
def insert (i : ℕ) (hubMsgId : String) (s : Sending) (receiverId : String) (left : List String) (id : RecordId) : Option Hub :=
  match h.rows.rows.find? fun row => row.msgId = s.envelope.msgId ∧ row.receiverId = receiverId with
  | some row =>
    if row.writer = none then
      if isRoom s.envelope then some (h.goto i { s with left, drawn := none })
      else some ((h.abort i).answer s.envelope s.receivers)
    else none
  | none =>
    let row := s.row i hubMsgId receiverId id
    if ∀ x ∈ h.rows, x.hubMsgId ≠ hubMsgId then
      (h.rows.insert? row).map fun rows => { h.goto i { s with left, drawn := none } with rows }
    else none

/-- The update of a recall: the copies in the room that it sees, if the first of them is not recalled. -/
def recallRoomMessage (j : ℕ) (roomId : RoomId) (msgId : String) : Option Hub :=
  let records := h.visible.filter fun row => row.roomId = some roomId ∧ row.msgId = msgId
  if ∃ target ∈ records, (∀ row ∈ records, target.id ≤ row.id) ∧ target.recalled = false then
    some { h with recalls := Function.update h.recalls j (some (records.map Row.id)) }
  else none

def commitRecall (j : ℕ) (ids : List RecordId) : Hub :=
  { h with
    recalls := Function.update h.recalls j none
    rows := h.rows.modify (·.id ∈ ids) fun row => { row with recalled := true } }

def step : HubAction → Option Hub
  | .send i envelope members =>
    match h.sends i with
    | none => some (h.send i envelope members)
    | some _ => none
  | .draw i =>
    match h.sends i with
    | some { envelope, receivers, left := r :: rest, drawn := none } =>
      some { h.goto i { envelope, receivers, left := r :: rest, drawn := some h.nextId } with nextId := h.nextId + 1 }
    | _ => none
  | .insert i hubMsgId =>
    match h.sends i with
    | some { envelope, receivers, left := r :: rest, drawn := some id } =>
      h.insert i hubMsgId { envelope, receivers, left := r :: rest, drawn := some id } r rest id
    | _ => none
  | .commit i =>
    match h.sends i with
    | some { envelope, receivers, left := [], drawn } => some (h.commit i { envelope, receivers, left := [], drawn })
    | _ => none
  | .abort i => (h.sends i).map fun _ => h.abort i
  | .recallRoomMessage j roomId msgId =>
    match h.recalls j with
    | none => h.recallRoomMessage j roomId msgId
    | some _ => none
  | .commitRecall j => (h.recalls j).map (h.commitRecall j)

end Hub

def hub : System Hub HubAction where
  step h a := h.step a

section Steps

variable {h h' : Hub} {i j : ℕ}

inductive Stepped (h : Hub) : HubAction → Hub → Prop
  | began {i envelope members} (hfree : h.sends i = none) : Stepped h (.send i envelope members)
      (h.goto i { envelope, receivers := receiversOf envelope members, left := receiversOf envelope members })
  | refused {i envelope members} : Stepped h (.send i envelope members) h
  | retried {i envelope members} : Stepped h (.send i envelope members) (h.answer envelope [])
  | drew {i envelope receivers left} (hs : h.sends i = some { envelope, receivers, left }) : Stepped h (.draw i)
      { h.goto i { envelope, receivers, left, drawn := some h.nextId } with nextId := h.nextId + 1 }
  | skipped {i hubMsgId s r left row} (hs : h.sends i = some s) (hleft : s.left = r :: left) (hrow : row ∈ h.rows)
      (hkey : row.msgId = s.envelope.msgId ∧ row.receiverId = r) (hwriter : row.writer = none) :
      Stepped h (.insert i hubMsgId) (h.goto i { s with left, drawn := none })
  | existed {i hubMsgId s r left row} (hs : h.sends i = some s) (hdirect : isRoom s.envelope = false) (hleft : s.left = r :: left)
      (hrow : row ∈ h.rows) (hkey : row.msgId = s.envelope.msgId ∧ row.receiverId = r) (hwriter : row.writer = none) :
      Stepped h (.insert i hubMsgId) ((h.abort i).answer s.envelope s.receivers)
  | inserted {i hubMsgId s r left id rows} (hs : h.sends i = some s) (hleft : s.left = r :: left)
      (hnew : ∀ x ∈ h.rows, ¬ (x.msgId = s.envelope.msgId ∧ x.receiverId = r)) (hname : ∀ x ∈ h.rows, x.hubMsgId ≠ hubMsgId)
      (hadds : h.rows.Adds (s.row i hubMsgId r id) rows) :
      Stepped h (.insert i hubMsgId) { h.goto i { s with left, drawn := none } with rows }
  | committed {i s} (hs : h.sends i = some s) (hleft : s.left = []) : Stepped h (.commit i) (h.commit i s)
  | aborted {i s} (hs : h.sends i = some s) : Stepped h (.abort i) (h.abort i)
  | recalling {j roomId msgId} (ids : List RecordId) : Stepped h (.recallRoomMessage j roomId msgId)
      { h with recalls := Function.update h.recalls j (some ids) }
  | recalled {j ids} (hids : h.recalls j = some ids) : Stepped h (.commitRecall j) (h.commitRecall j ids)

theorem stepped {a : HubAction} (hstep : hub.step h a = some h') : Stepped h a h' := by
  cases a with
  | send i envelope members =>
    simp only [hub, Hub.step] at hstep
    split at hstep
    · rename_i hfree
      cases hstep
      unfold Hub.send
      dsimp only
      split
      · exact .began hfree
      · split
        · exact .refused
        · exact .retried
    · cases hstep
  | draw i =>
    simp only [hub, Hub.step] at hstep
    split at hstep
    · rename_i hs
      cases hstep
      exact .drew hs
    · cases hstep
  | insert i hubMsgId =>
    simp only [hub, Hub.step] at hstep
    split at hstep
    · rename_i hs
      unfold Hub.insert at hstep
      dsimp only at hstep
      split at hstep
      · rename_i row hrow
        have hkey := List.find?_some hrow
        simp only [decide_eq_true_eq] at hkey
        obtain ⟨hwriter, hstep⟩ := Option.ite_none_right_eq_some.mp hstep
        split at hstep
        · cases hstep
          exact .skipped hs rfl (List.mem_of_find?_eq_some hrow) hkey hwriter
        · rename_i hdirect
          cases hstep
          exact .existed hs (Bool.eq_false_of_not_eq_true hdirect) rfl (List.mem_of_find?_eq_some hrow) hkey hwriter
      · rename_i hnone
        obtain ⟨hname, hstep⟩ := Option.ite_none_right_eq_some.mp hstep
        obtain ⟨rows, hrows, rfl⟩ := Option.map_eq_some_iff.mp hstep
        refine .inserted hs rfl (fun x hx hkey => ?_) hname (Keyed.insert?_eq_some hrows)
        exact List.find?_eq_none.mp hnone x hx (decide_eq_true hkey)
    · cases hstep
  | commit i =>
    simp only [hub, Hub.step] at hstep
    split at hstep
    · rename_i hs
      cases hstep
      exact .committed hs rfl
    · cases hstep
  | abort i =>
    obtain ⟨s, hs, rfl⟩ := Option.map_eq_some_iff.mp hstep
    exact .aborted hs
  | recallRoomMessage j roomId msgId =>
    simp only [hub, Hub.step] at hstep
    split at hstep
    · obtain ⟨-, hstep⟩ := Option.ite_none_right_eq_some.mp hstep
      cases hstep
      exact .recalling _
    · cases hstep
  | commitRecall j =>
    obtain ⟨ids, hids, rfl⟩ := Option.map_eq_some_iff.mp hstep
    exact .recalled hids

end Steps

end BotCord.Messages
