import BotCord.Foundation.Run
import Mathlib.Data.List.Basic

/-!
# The unread state of the dashboard

`useDashboardUnreadStore.ts`: what the dashboard shows as read or unread before the server knows, with the requests that mark rooms and the room lists that come from the server. A step is what runs between two awaits. The account is that of the conversation directory. Steps are counted, and a moment is the number of a step.
-/

namespace BotCord.Dashboard

abbrev RoomId := String
abbrev AccountId := String
abbrev RequestId := ℕ
abbrev ListId := ℕ

inductive EventType
  | message | messageRecalled | contactRequest | contactRequestResponse | contactRemoved | roomMemberAdded
  | roomMemberRemoved | ack | result | error | system | typing | messageStatusReaction | agentStatusChanged
  | accessRequestChanged
deriving DecidableEq

structure ListedRoom where
  roomId : RoomId
  hasUnread : Bool
deriving DecidableEq

structure UnreadState where
  pendingReadRoomIds : List RoomId := []
  optimisticSeenRoomIds : List RoomId := []
  optimisticUnreadRoomIds : List RoomId := []
  lastMarkedSeenAtByRoom : RoomId → Option String := fun _ => none

namespace UnreadState

variable (s : UnreadState)

def isRoomUnread (roomId : RoomId) (persistedUnread : Bool) : Bool :=
  if roomId ∈ s.optimisticSeenRoomIds then false else persistedUnread || decide (roomId ∈ s.optimisticUnreadRoomIds)

/-- `ids.includes(id) ? ids : [...ids, id]` -/
def including (ids : List RoomId) (id : RoomId) : List RoomId := if id ∈ ids then ids else ids ++ [id]

def applyRealtimeEvent (roomId : RoomId) : UnreadState :=
  { s with
    optimisticSeenRoomIds := s.optimisticSeenRoomIds.filter (· ≠ roomId)
    optimisticUnreadRoomIds := including s.optimisticUnreadRoomIds roomId }

/-- The list says that the room is read, and no answer of the room is awaited. -/
def ReportedRead (rooms : List ListedRoom) (roomId : RoomId) : Prop :=
  roomId ∉ s.pendingReadRoomIds ∧ { roomId, hasUnread := false } ∈ rooms
deriving Decidable

def reconcileUnreadRooms (rooms : List ListedRoom) : UnreadState :=
  { s with
    optimisticSeenRoomIds := s.optimisticSeenRoomIds.eraseDups.filter (¬ s.ReportedRead rooms ·)
    optimisticUnreadRoomIds := s.optimisticUnreadRoomIds.eraseDups.filter (¬ s.ReportedRead rooms ·)
    lastMarkedSeenAtByRoom := fun roomId =>
      if s.ReportedRead rooms roomId then none else s.lastMarkedSeenAtByRoom roomId }

/-- `markRoomRead` before its request. -/
def beginRead (roomId : RoomId) : UnreadState :=
  { s with
    pendingReadRoomIds := s.pendingReadRoomIds ++ [roomId]
    optimisticSeenRoomIds := (s.optimisticSeenRoomIds ++ [roomId]).eraseDups
    optimisticUnreadRoomIds := s.optimisticUnreadRoomIds.filter (· ≠ roomId) }

/-- `markRoomSeen` before its request. -/
def beginSeen (roomId : RoomId) (seenAt : Option String) : UnreadState :=
  { s with
    optimisticSeenRoomIds := including s.optimisticSeenRoomIds roomId
    optimisticUnreadRoomIds := s.optimisticUnreadRoomIds.filter (· ≠ roomId)
    lastMarkedSeenAtByRoom :=
      match seenAt with
      | some _ => Function.update s.lastMarkedSeenAtByRoom roomId seenAt
      | none => s.lastMarkedSeenAtByRoom }

def restore (before : UnreadState) (roomId : RoomId) : UnreadState :=
  { s with
    optimisticSeenRoomIds :=
      s.optimisticSeenRoomIds.filter (· ≠ roomId) ++ (if roomId ∈ before.optimisticSeenRoomIds then [roomId] else [])
    optimisticUnreadRoomIds :=
      s.optimisticUnreadRoomIds.filter (· ≠ roomId) ++ (if roomId ∈ before.optimisticUnreadRoomIds then [roomId] else []) }

def forgetSeenAt (roomId : RoomId) : UnreadState :=
  { s with lastMarkedSeenAtByRoom := Function.update s.lastMarkedSeenAtByRoom roomId none }

def endRead (roomId : RoomId) : UnreadState :=
  { s with pendingReadRoomIds := s.pendingReadRoomIds.filter (· ≠ roomId) }

end UnreadState

inductive MarkKind
  | read | seen

/-- A mark whose answer is awaited, with what it remembers; the last two fields are history. -/
structure MarkRequest where
  id : RequestId
  kind : MarkKind
  roomId : RoomId
  before : UnreadState
  generation : ℕ
  accountId : Option AccountId
  version : ℕ
  markedAt : ℕ
  stood : Bool

structure ListRequest where
  askedAt : ℕ
  generation : ℕ
  accountId : Option AccountId

/-- The store, the module's variables and the requests. The last four fields are history: when an event or a mark last touched a room, when a mark of a room was last answered, the event that came after the last mark of a room and has not been answered by a list, and whether the last mark of a room stands, that is, it has not failed and nothing has been heard of the room since. -/
structure Dashboard where
  unread : UnreadState := {}
  generation : ℕ := 0
  roomVersions : RoomId → ℕ := fun _ => 0
  accountId : Option AccountId := none
  marks : List MarkRequest := []
  lists : ListId → Option ListRequest := fun _ => none
  now : ℕ := 0
  touched : RoomId → Option ℕ := fun _ => none
  answeredAt : RoomId → ℕ := fun _ => 0
  alarm : RoomId → Option ℕ := fun _ => none
  standing : RoomId → Bool := fun _ => false

namespace Dashboard

variable (s : Dashboard)

def bumpRoom (roomId : RoomId) : Dashboard :=
  { s with
    roomVersions := Function.update s.roomVersions roomId (s.roomVersions roomId + 1)
    touched := Function.update s.touched roomId (some s.now) }

def applyRealtimeEvent (roomId : Option RoomId) (type : EventType) : Dashboard :=
  match roomId with
  | none => s
  | some roomId =>
    if type = .message ∨ type = .system then
      { s.bumpRoom roomId with
        unread := s.unread.applyRealtimeEvent roomId
        alarm := Function.update s.alarm roomId (some s.now)
        standing := Function.update s.standing roomId false }
    else s

def reconcileUnreadRooms (list : ListRequest) (rooms : List ListedRoom) : Dashboard :=
  { s with
    unread := s.unread.reconcileUnreadRooms rooms
    alarm := fun roomId =>
      if s.unread.ReportedRead rooms roomId then (s.alarm roomId).filter (list.askedAt < ·) else s.alarm roomId
    standing := fun roomId => s.standing roomId && !decide (s.unread.ReportedRead rooms roomId) }

def mark (roomId : RoomId) (unread : UnreadState) : Dashboard :=
  { s.bumpRoom roomId with
    unread
    alarm := Function.update s.alarm roomId none
    standing := Function.update s.standing roomId true }

def markRequest (id : RequestId) (kind : MarkKind) (roomId : RoomId) : MarkRequest where
  id := id
  kind := kind
  roomId := roomId
  before := s.unread
  generation := s.generation
  accountId := s.accountId
  version := s.roomVersions roomId + 1
  markedAt := s.now
  stood := s.standing roomId

def markRoomRead (id : RequestId) (roomId : RoomId) : Dashboard :=
  if roomId ∈ s.unread.pendingReadRoomIds then s
  else
    { s.mark roomId (s.unread.beginRead roomId) with marks := s.marks ++ [s.markRequest id .read roomId] }

def markRoomSeen (id : RequestId) (roomId : RoomId) (seenAt : Option String) : Dashboard :=
  if seenAt.isSome ∧ s.unread.lastMarkedSeenAtByRoom roomId = seenAt then s
  else
    let begun := s.mark roomId (s.unread.beginSeen roomId seenAt)
    if seenAt.isSome then { begun with marks := s.marks ++ [s.markRequest id .seen roomId] } else begun

def SameAccount (mark : MarkRequest) : Prop := s.generation = mark.generation ∧ s.accountId = mark.accountId
deriving Decidable

def Unchanged (mark : MarkRequest) : Prop := s.SameAccount mark ∧ s.roomVersions mark.roomId = mark.version
deriving Decidable

def undo (mark : MarkRequest) (unread : UnreadState) : Dashboard :=
  { s with
    unread := unread.restore mark.before mark.roomId
    standing := Function.update s.standing mark.roomId mark.stood }

/-- The answer to a mark of either kind. -/
def answer (mark : MarkRequest) (ok : Bool) : Dashboard :=
  let answered :=
    { s with
      marks := s.marks.filter (·.id ≠ mark.id), answeredAt := Function.update s.answeredAt mark.roomId s.now }
  match mark.kind with
  | .read =>
    let settled := if ok = false ∧ s.Unchanged mark then answered.undo mark s.unread else answered
    if s.SameAccount mark then { settled with unread := settled.unread.endRead mark.roomId } else settled
  | .seen =>
    if ok = false ∧ s.Unchanged mark then answered.undo mark (s.unread.forgetSeenAt mark.roomId) else answered

/-- `resetUnreadState`; what was marked for another account is nobody's any more. -/
def resetUnreadState : Dashboard :=
  { s with
    unread := {}
    generation := s.generation + 1
    roomVersions := fun _ => 0
    touched := fun _ => none
    alarm := fun _ => none
    standing := fun _ => false }

end Dashboard

inductive UnreadAction
  | event (roomId : Option RoomId) (type : EventType)
  | askRooms (id : ListId)
  | rooms (id : ListId) (rooms : List ListedRoom)
  | markRoomRead (id : RequestId) (roomId : RoomId)
  | markRoomSeen (id : RequestId) (roomId : RoomId) (seenAt : Option String)
  | answered (id : RequestId) (ok : Bool)
  | activate (accountId : Option AccountId)
  | resetUnreadState

namespace Dashboard

def perform (s : Dashboard) : UnreadAction → Option Dashboard
  | .event roomId type => some (s.applyRealtimeEvent roomId type)
  | .askRooms id =>
    if s.lists id = none then
      some { s with
        lists := Function.update s.lists id
          (some { askedAt := s.now, generation := s.generation, accountId := s.accountId }) }
    else none
  | .rooms id rooms => (s.lists id).map fun list => s.reconcileUnreadRooms list rooms
  | .markRoomRead id roomId => if ∀ mark ∈ s.marks, mark.id ≠ id then some (s.markRoomRead id roomId) else none
  | .markRoomSeen id roomId seenAt =>
    if ∀ mark ∈ s.marks, mark.id ≠ id then
      -- An empty moment is none.
      some (s.markRoomSeen id roomId (seenAt.filter (· ≠ "")))
    else none
  | .answered id ok => (s.marks.find? (·.id = id)).map fun mark => s.answer mark ok
  | .activate accountId => some { s with accountId }
  | .resetUnreadState => some s.resetUnreadState

end Dashboard

def dashboard : System Dashboard UnreadAction where
  step s a := (s.perform a).map fun t => { t with now := s.now + 1 }

end BotCord.Dashboard
