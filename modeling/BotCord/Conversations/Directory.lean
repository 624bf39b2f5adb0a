import BotCord.Dashboard.Unread
import Mathlib.Data.Int.Notation

/-!
# The conversation directory

`useConversationDirectoryStore.ts`: the rooms of an account as the dashboard keeps and persists them, with the drain that fetches them page by page, the events that patch them and the switch of the account. A step is what runs between two awaits. The rooms are kept as a map; the order in which they are shown, the view and the human's id are left out.

The server of an account counts the changes of each of its rooms. A cursor stands for what a client has been told: for each room, up to which change.
-/

namespace BotCord.Conversations

open Dashboard (RoomId AccountId EventType)

/-- Milliseconds; a timestamp that cannot be read has the value 0, and an empty one is none. -/
abbrev Time := ℤ

/-- A row of the directory. The account for which the server made it is history. -/
structure Room where
  account : AccountId
  roomId : RoomId
  lastMessageAt : Option Time := none
  lastMessagePreview : Option String := none
  lastSenderName : Option String := none
  hasUnread : Bool := false
  unreadCount : ℕ := 0
  revision : String := ""
deriving DecidableEq

abbrev Rooms := RoomId → Option Room

structure Patch where
  lastMessageAt : Option (Option Time) := none
  lastMessagePreview : Option (Option String) := none
  lastSenderName : Option (Option String) := none
  hasUnread : Option Bool := none
  unreadCount : Option ℕ := none

def getIsoTimestampValue (isoTime : Option Time) : Time := isoTime.getD 0

/-- `{ ...room, ...patch, revision: "" }` -/
def Room.patched (room : Room) (p : Patch) : Room :=
  { room with
    lastMessageAt := p.lastMessageAt.getD room.lastMessageAt
    lastMessagePreview := p.lastMessagePreview.getD room.lastMessagePreview
    lastSenderName := p.lastSenderName.getD room.lastSenderName
    hasUnread := p.hasUnread.getD room.hasUnread
    unreadCount := p.unreadCount.getD room.unreadCount
    revision := "" }

/-- The directory of an account, with the number of changes of each room. A new epoch makes all cursors void. -/
structure Directory where
  epoch : ℕ := 0
  version : RoomId → ℕ := fun _ => 0
  room : Rooms := fun _ => none

structure Cursor where
  epoch : ℕ
  covers : RoomId → ℕ

structure Answer where
  accountId : AccountId
  reset : Bool
  upserts : List Room
  removedIds : List RoomId := []
  nextCursor : Cursor
  hasMore : Bool := false

/-- The cursor is one of this epoch. -/
def Directory.Knows (dir : Directory) (cursor : Option Cursor) : Prop := ∃ c ∈ cursor, c.epoch = dir.epoch

def told (cursor : Option Cursor) (r : RoomId) : ℕ := (cursor.map (·.covers r)).getD 0

/-- The cursor protocol: rows are as they are, what the next cursor covers has been told or is told now, and an answer with nothing more covers everything. -/
structure Directory.Answers (dir : Directory) (cursor : Option Cursor) (answer : Answer) : Prop where
  reset : answer.reset = false ↔ dir.Knows cursor
  epoch : answer.nextCursor.epoch = dir.epoch
  upserts : ∀ room ∈ answer.upserts, dir.room room.roomId = some room
  removed : ∀ r ∈ answer.removedIds, dir.room r = none
  covers : ∀ r, answer.nextCursor.covers r ≤ dir.version r
  tells : ∀ r, (if answer.reset then 0 else told cursor r) < answer.nextCursor.covers r →
    (∃ room ∈ answer.upserts, room.roomId = r) ∨ r ∈ answer.removedIds ∨ (answer.reset = true ∧ dir.room r = none)
  complete : answer.hasMore = false → ∀ r, answer.nextCursor.covers r = dir.version r

inductive Stage
  | requested
  | answered (answer : Answer)
  /-- Between two pages. -/
  | yielded
  | ended

/-- A running `sync`, with what it remembers. -/
structure Drain where
  generation : ℕ
  accountId : AccountId
  page : ℕ := 0
  versions : RoomId → ℕ
  cursor : Option Cursor
  stage : Stage := .requested

structure Snapshot where
  cursor : Option Cursor
  rooms : Rooms

/-- The store and the variables of its module, with the local storage; `requests` counts the requests made. -/
structure State where
  cursor : Option Cursor := none
  accountId : Option AccountId := none
  rooms : Rooms := fun _ => none
  ready : Bool := false
  syncing : Bool := false
  hasMore : Bool := false
  error : Option String := none
  generation : ℕ := 0
  pending : Option ℕ := none
  requestedAgain : Bool := false
  localVersions : RoomId → ℕ := fun _ => 0
  drains : List Drain := []
  requests : ℕ := 0
  storage : AccountId → Option Snapshot := fun _ => none
  storageWorks : Bool := true

structure Event where
  type : EventType
  roomId : Option RoomId := none
  createdAt : Option Time := none
  preview : Option String := none
  displaySenderName : Option String := none
  senderName : Option String := none

namespace State

variable (s : State)

def persist : State :=
  match s.accountId with
  | none => s
  | some accountId =>
    if s.ready = true ∧ s.storageWorks = true then
      { s with storage := Function.update s.storage accountId (some { cursor := s.cursor, rooms := s.rooms }) }
    else s

def forget : State :=
  match s.accountId with
  | none => s
  | some accountId => if s.storageWorks = true then { s with storage := Function.update s.storage accountId none } else s

def activate (accountId : Option AccountId) (forget : Bool) : State :=
  let s := if forget then s.forget else s
  if accountId = s.accountId ∧ forget = false then s
  else
    let cached := accountId.bind s.storage
    { s with
      generation := s.generation + 1
      pending := none
      requestedAgain := false
      localVersions := fun _ => 0
      accountId
      cursor := cached.bind (·.cursor)
      rooms := (cached.map (·.rooms)).getD fun _ => none
      ready := cached.isSome
      syncing := false
      hasMore := false
      error := none }

/-- Neither the account nor the generation has changed since the drain began. -/
def Current (drain : Drain) : Prop := s.generation = drain.generation ∧ s.accountId = some drain.accountId
deriving Decidable

def setDrain (i : ℕ) (drain : Drain) : State := { s with drains := s.drains.set i drain }

def sync : State :=
  match s.accountId with
  | none => s
  | some accountId =>
    if s.pending ≠ none then { s with requestedAgain := true }
    else
      { s with
        syncing := true
        error := none
        requestedAgain := false
        requests := s.requests + 1
        pending := some s.drains.length
        drains := s.drains ++
          [{ generation := s.generation, accountId, versions := s.localVersions, cursor := s.cursor }] }

/-- The end of a drain: `finally`. -/
def endDrain (i : ℕ) (drain : Drain) : State :=
  let s := s.setDrain i { drain with stage := .ended }
  if s.Current drain then { s with syncing := false, pending := none } else s

/-- The drain goes on with a page, or has made a hundred, or is fenced off. -/
def resume (i : ℕ) (drain : Drain) : State :=
  if drain.page + 1 < 100 ∧ s.Current drain then
    { s.setDrain i { drain with page := drain.page + 1, versions := s.localVersions, cursor := s.cursor, stage := .requested } with
      requestedAgain := false
      requests := s.requests + 1 }
  else s.endDrain i drain

def failDrain (i : ℕ) (drain : Drain) (message : String) : State :=
  (if s.Current drain then { s with error := some message } else s).endDrain i drain

/-- An event or a local change came between the request and its answer. -/
def Raced (versions : RoomId → ℕ) (roomId : RoomId) : Prop := s.localVersions roomId ≠ versions roomId
deriving Decidable

def removeRooms (rooms : Rooms) (removedIds : List RoomId) : Rooms :=
  removedIds.foldl (fun rooms id => Function.update rooms id none) rooms

def storeUpsert (versions : RoomId → ℕ) (rooms : Rooms) (room : Room) : Rooms :=
  if s.Raced versions room.roomId then
    match s.rooms room.roomId with
    | some row => Function.update rooms room.roomId (some row)
    | none => rooms
  else Function.update rooms room.roomId (some room)

def storeUpserts (versions : RoomId → ℕ) (rooms : Rooms) (upserts : List Room) : Rooms :=
  upserts.foldl (s.storeUpsert versions) rooms

def skipped (versions : RoomId → ℕ) (upserts : List Room) : Bool := upserts.any fun room => s.Raced versions room.roomId

/-- The rooms and the cursor after a page. A page of which a row was skipped is asked for again. -/
def takePage (drain : Drain) (answer : Answer) : State :=
  let skipped := s.skipped drain.versions answer.upserts
  let previous := if answer.reset then fun _ => none else s.rooms
  { s with
    requestedAgain := s.requestedAgain || skipped
    cursor := if skipped then drain.cursor else some answer.nextCursor
    rooms := s.storeUpserts drain.versions (removeRooms previous answer.removedIds) answer.upserts
    ready := true
    hasMore := answer.hasMore }

def applyPage (drain : Drain) (answer : Answer) : State := (s.takePage drain answer).persist

def deliver (i : ℕ) (drain : Drain) (answer : Answer) : State :=
  if s.Current drain then
    if answer.accountId = drain.accountId then
      let s := s.applyPage drain answer
      if answer.hasMore = false ∧ s.requestedAgain = false then s.endDrain i drain
      else s.setDrain i { drain with stage := .yielded }
    else s.failDrain i drain "Conversation account changed"
  else s.endDrain i drain

def patchable (roomId : RoomId) (p : Patch) : Option Room :=
  (s.rooms roomId).filter fun existing =>
    ∀ at_ ∈ p.lastMessageAt.join, getIsoTimestampValue existing.lastMessageAt ≤ getIsoTimestampValue (some at_)

def patch (roomId : RoomId) (p : Patch) : State :=
  match s.patchable roomId p with
  | none => s
  | some existing =>
    { s with
      localVersions := Function.update s.localVersions roomId (s.localVersions roomId + 1)
      rooms := Function.update s.rooms roomId (some (existing.patched p)) }.persist

def eventPatch (event : Event) : Option (RoomId × Patch) :=
  match event.roomId, event.preview with
  | some roomId, some preview =>
    if event.type = .message ∨ event.type = .system then
      (s.rooms roomId).map fun existing => (roomId,
        { lastMessageAt := some event.createdAt, lastMessagePreview := some (some preview),
          lastSenderName := some ((event.displaySenderName.or event.senderName).or existing.lastSenderName) })
    else none
  | _, _ => none

def Hints (type : EventType) : Prop :=
  type ≠ .typing ∧ type ≠ .ack ∧ type ≠ .result ∧ type ≠ .error ∧ type ≠ .messageStatusReaction
deriving Decidable

def onEvent (event : Event) : State :=
  if Hints event.type then
    (match s.eventPatch event with
    | some (roomId, p) => s.patch roomId p
    | none => s).sync
  else s

end State

structure World where
  store : State := {}
  server : AccountId → Directory := fun _ => {}

/-- The server answers a request at one moment and the answer arrives at another; a directory changes room by room. -/
inductive Action
  | activate (accountId : Option AccountId) (forget : Bool)
  | setView
  | sync
  | patch (roomId : RoomId) (p : Patch)
  | event (event : Event)
  | serve (i : ℕ) (answer : Answer)
  | deliver (i : ℕ)
  | fail (i : ℕ) (message : String)
  | resume (i : ℕ)
  | write (accountId : AccountId) (roomId : RoomId) (room : Option Room)
  | newEpoch (accountId : AccountId)
  | storage (works : Bool)

def Directory.write (dir : Directory) (accountId : AccountId) (roomId : RoomId) (room : Option Room) : Directory :=
  { dir with
    version := Function.update dir.version roomId (dir.version roomId + 1)
    room := Function.update dir.room roomId (room.map fun room => { room with account := accountId, roomId }) }

namespace World

variable (w : World)

def change (accountId : AccountId) (f : Directory → Directory) : World :=
  { w with server := Function.update w.server accountId (f (w.server accountId)) }

def step : Action → Option World
  | .activate accountId forget => some { w with store := w.store.activate accountId forget }
  | .setView => some { w with store := w.store.persist }
  | .sync => some { w with store := w.store.sync }
  | .patch roomId p => some { w with store := w.store.patch roomId p }
  | .event event => some { w with store := w.store.onEvent event }
  | .serve i answer =>
    match w.store.drains[i]? with
    | some drain =>
      match drain.stage with
      | .requested => some { w with store := w.store.setDrain i { drain with stage := .answered answer } }
      | .answered _ | .yielded | .ended => none
    | none => none
  | .deliver i =>
    match w.store.drains[i]? with
    | some drain =>
      match drain.stage with
      | .answered answer => some { w with store := w.store.deliver i drain answer }
      | .requested | .yielded | .ended => none
    | none => none
  | .fail i message =>
    match w.store.drains[i]? with
    | some drain =>
      match drain.stage with
      | .requested | .answered _ => some { w with store := w.store.failDrain i drain message }
      | .yielded | .ended => none
    | none => none
  | .resume i =>
    match w.store.drains[i]? with
    | some drain =>
      match drain.stage with
      | .yielded => some { w with store := w.store.resume i drain }
      | .requested | .answered _ | .ended => none
    | none => none
  | .write accountId roomId room => some (w.change accountId (·.write accountId roomId room))
  | .newEpoch accountId => some (w.change accountId fun dir => { dir with epoch := dir.epoch + 1 })
  | .storage works => some { w with store := { w.store with storageWorks := works } }

end World

def directory : System World Action where
  step := World.step

end BotCord.Conversations
