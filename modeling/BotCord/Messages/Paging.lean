import BotCord.Foundation.Page
import BotCord.Messages.Hub

/-!
# What paging misses

`query_history` of `hub/routers/hub.py` for a room, without its filters for topics and peers, and a reader that pages through it from a cursor. A message is shown by the copy with the lowest id of those that are not recalled, and a cursor names a copy whose id bounds the page.

Ids are handed out when rows are inserted, and rows are seen when they are committed. A row that commits behind the cursor is missed, and one that comes to stand for a message that was received is received again. Where neither happens, a reader that has no more pages has received every message on its way once.
-/

namespace BotCord.Messages

open Sends (RoomId)

inductive Direction
  | after | before
deriving DecidableEq

/-- The order of a page: oldest first after a cursor, newest first before one. -/
def Direction.le : Direction → RecordId → RecordId → Bool
  | .after, a, b => a ≤ b
  | .before, a, b => b ≤ a

def Direction.beyond : Direction → RecordId → RecordId → Bool
  | .after, cursor, id => cursor < id
  | .before, cursor, id => id < cursor

/-- Whether a reader that has begun at an id goes through another: forward past it, back from it on. -/
def Direction.goesThrough : Direction → RecordId → RecordId → Bool
  | .after, start, id => start < id
  | .before, start, id => id ≤ start

namespace Hub

variable (h : Hub)

/-- The copies of the messages of a room that are not recalled. -/
def shown (roomId : RoomId) : List Row := h.visible.filter fun row => row.roomId = some roomId ∧ row.recalled = false

/-- The copies that will be shown when a send commits: these, and its own. -/
def shownWith (i : ℕ) (roomId : RoomId) : List Row :=
  h.rows.rows.filter fun row => (row.writer = none ∨ row.writer = some i) ∧ row.roomId = some roomId ∧ row.recalled = false

/-- The copies with the lowest ids, one for each message. -/
def representatives (roomId : RoomId) : List Row :=
  (h.shown roomId).filter fun row => ∀ other ∈ h.shown roomId, other.msgId = row.msgId → row.id ≤ other.id

def cursorRecord (cursor : String) : Option Row := h.visible.find? (·.hubMsgId = cursor)

/-- `query_history`: the page and whether there are more; `none` where the cursor is invalid. Without a cursor it is the newest page. -/
def queryHistory (roomId : RoomId) (direction : Direction) (cursor : Option String) (limit : ℕ) : Option (List Row × Bool) :=
  match cursor with
  | none => some (page (fun a b => Direction.before.le a.id b.id) limit (h.representatives roomId))
  | some cursor => (h.cursorRecord cursor).map fun record =>
    page (fun a b => direction.le a.id b.id) limit ((h.representatives roomId).filter fun row => direction.beyond record.id row.id)

end Hub

/-- Who pages through the history of a room: forward from the cursor given, or back from the newest message. -/
structure Reader where
  roomId : RoomId
  direction : Direction
  cursor : Option String
  /-- The id at which it has begun. -/
  start : Option RecordId
  received : List Row := []
  hasMore : Bool := true

structure Reading where
  hub : Hub
  reader : Reader

inductive ReadingAction
  | hub (a : HubAction)
  /-- The next call, with a limit of its own. -/
  | page (limit : ℕ)

/-- The reader goes on from the last message that it has received. -/
def Reader.receive (reader : Reader) (rows : List Row) (hasMore : Bool) : Reader :=
  { reader with
    cursor := (rows.getLast?.map (·.hubMsgId)).or reader.cursor
    start := reader.start.or (rows.head?.map Row.id)
    received := reader.received ++ rows
    hasMore }

def reading : System Reading ReadingAction where
  step d
    | .hub a => (hub.step d.hub a).map fun h => { d with hub := h }
    | .page limit =>
      if 1 ≤ limit ∧ limit ≤ 100 then
        (d.hub.queryHistory d.reader.roomId d.reader.direction d.reader.cursor limit).map fun (rows, hasMore) =>
          { d with reader := d.reader.receive rows hasMore }
      else none

namespace Reading

variable (d : Reading)

/-- A row lies on the side of the cursor that the reader has left behind. -/
def Passed (id : RecordId) : Prop :=
  ∃ cursor ∈ d.reader.cursor, ∃ record ∈ d.hub.visible, record.hubMsgId = cursor ∧ d.reader.direction.le id record.id = true
deriving Decidable

def Due (id : RecordId) : Prop := ∃ start ∈ d.reader.start, d.reader.direction.goesThrough start id = true
deriving Decidable

def Received (msgId : String) : Prop := ∃ row ∈ d.reader.received, row.msgId = msgId
deriving Decidable

/-- A row that comes to stand for its message is behind the cursor if the message has been received, and received if it is behind the cursor and due. -/
def Lands (row : Row) : Prop := (d.Passed row.id → d.Due row.id → d.Received row.msgId) ∧ (d.Received row.msgId → d.Passed row.id)
deriving Decidable

/-- A send that commits and a recall that leaves a copy of its message put no row on the wrong side of the cursor. -/
def NothingBehind : ReadingAction → Prop
  | .hub (.commit i) => ∀ row ∈ d.hub.shownWith i d.reader.roomId, row.writer = some i →
      (∀ other ∈ d.hub.shownWith i d.reader.roomId, other.msgId = row.msgId → row.id ≤ other.id) → d.Lands row
  | .hub (.commitRecall j) => ∀ ids ∈ d.hub.recalls j, ∀ row ∈ d.hub.shown d.reader.roomId, row.id ∉ ids →
      (∃ other ∈ d.hub.shown d.reader.roomId, other.msgId = row.msgId ∧ other.id < row.id) →
      (∀ other ∈ d.hub.shown d.reader.roomId, other.msgId = row.msgId → other.id < row.id → other.id ∈ ids) → d.Lands row
  | _ => True

instance : DecidablePred d.NothingBehind := fun _ => by
  unfold NothingBehind
  split <;> infer_instance

end Reading

namespace Direction

variable {direction : Direction} {a b c : RecordId}

theorem le_refl : direction.le a a = true := by
  cases direction <;> exact decide_eq_true (Nat.le_refl a)

theorem le_trans (hab : direction.le a b = true) (hbc : direction.le b c = true) : direction.le a c = true := by
  cases direction with
  | after => exact decide_eq_true ((of_decide_eq_true hab).trans (of_decide_eq_true hbc))
  | before => exact decide_eq_true ((of_decide_eq_true hbc).trans (of_decide_eq_true hab))

theorem le_total (a b : RecordId) : (direction.le a b || direction.le b a) = true := by
  cases direction with
  | after => simpa [le] using Nat.le_total a b
  | before => simpa [le] using Nat.le_total b a

theorem le_antisymm (hab : direction.le a b = true) (hba : direction.le b a = true) : a = b := by
  cases direction with
  | after => exact Nat.le_antisymm (of_decide_eq_true hab) (of_decide_eq_true hba)
  | before => exact Nat.le_antisymm (of_decide_eq_true hba) (of_decide_eq_true hab)

theorem beyond_iff : direction.beyond a b = true ↔ ¬ direction.le b a = true := by
  cases direction with
  | after => simp only [beyond, le, decide_eq_true_eq, Nat.not_le]
  | before => simp only [beyond, le, decide_eq_true_eq, Nat.not_le]

end Direction

section Shown

variable {h h' : Hub} {roomId : RoomId} {row : Row}

theorem mem_visible : row ∈ h.visible ↔ row ∈ h.rows ∧ row.writer = none := by
  simp [Hub.visible, Keyed.mem_def]

theorem mem_shown : row ∈ h.shown roomId ↔ row ∈ h.visible ∧ row.roomId = some roomId ∧ row.recalled = false := by
  simp [Hub.shown]

theorem mem_shownWith {i : ℕ} : row ∈ h.shownWith i roomId ↔
    row ∈ h.rows ∧ (row.writer = none ∨ row.writer = some i) ∧ row.roomId = some roomId ∧ row.recalled = false := by
  simp [Hub.shownWith, Keyed.mem_def]

theorem mem_representatives : row ∈ h.representatives roomId ↔ row ∈ h.shown roomId ∧
    ∀ other ∈ h.shown roomId, other.msgId = row.msgId → row.id ≤ other.id := by
  simp [Hub.representatives]

theorem mem_visible_of_representative (hrow : row ∈ h.representatives roomId) : row ∈ h.visible :=
  (mem_shown.mp (mem_representatives.mp hrow).1).1

theorem eq_of_id {row' : Row} (hrow : row ∈ h.visible) (hrow' : row' ∈ h.visible) (hid : row.id = row'.id) : row = row' :=
  Keyed.eq_of_key (mem_visible.mp hrow).1 (mem_visible.mp hrow').1 hid

theorem eq_of_msgId {row' : Row} (hrow : row ∈ h.representatives roomId) (hrow' : row' ∈ h.representatives roomId)
    (hmsgId : row.msgId = row'.msgId) : row = row' := by
  obtain ⟨hshown, hleast⟩ := mem_representatives.mp hrow
  obtain ⟨hshown', hleast'⟩ := mem_representatives.mp hrow'
  exact eq_of_id (mem_shown.mp hshown).1 (mem_shown.mp hshown').1
    (Nat.le_antisymm (hleast row' hshown' hmsgId.symm) (hleast' row hshown hmsgId))

theorem nodup_representatives : (h.representatives roomId).Nodup :=
  (((List.Nodup.of_map _ h.rows.distinct).filter _).filter _).filter _

end Shown

/-- The reader is at a copy that all see; what stands for a received message is behind it, and what is behind it and on its way has been received. -/
structure Paged (origin : Reader) (d : Reading) : Prop where
  direction : d.reader.direction = origin.direction
  roomId : d.reader.roomId = origin.roomId
  names : (d.hub.rows.rows.map (·.hubMsgId)).Nodup
  cursor : ∀ cursor ∈ d.reader.cursor, ∃ record ∈ d.hub.visible, record.hubMsgId = cursor
  begun : d.reader.start = none → d.reader.cursor = none
  forward : d.reader.direction = .after → d.reader.cursor ≠ none ∧ d.reader.start = origin.start
  back : d.reader.direction = .before → d.reader.start = d.reader.received.head?.map Row.id
  received : ∀ row ∈ d.hub.representatives d.reader.roomId, d.Received row.msgId → d.Passed row.id
  passed : ∀ row ∈ d.hub.representatives d.reader.roomId, d.Passed row.id → d.Due row.id → d.Received row.msgId
  once : (d.reader.received.map (·.msgId)).Nodup

section Steps

variable {origin : Reader} {d d' : Reading} {h : Hub}

theorem record_unique (hnames : (h.rows.rows.map (·.hubMsgId)).Nodup) {record record' : Row} (hrecord : record ∈ h.visible)
    (hrecord' : record' ∈ h.visible) (hname : record.hubMsgId = record'.hubMsgId) : record = record' :=
  List.inj_on_of_nodup_map hnames (mem_visible.mp hrecord).1 (mem_visible.mp hrecord').1 hname

variable {id : RecordId}

/-- The cursor stays where it is as long as every copy that is seen stays, under its id and name. -/
theorem passed_iff (hpaged : Paged origin d) (hnames : (h.rows.rows.map (·.hubMsgId)).Nodup)
    (hstay : ∀ row ∈ d.hub.visible, ∃ row' ∈ h.visible, row'.hubMsgId = row.hubMsgId ∧ row'.id = row.id) :
    Reading.Passed { d with hub := h } id ↔ d.Passed id := by
  constructor
  · rintro ⟨cursor, hcursor, record, hrecord, hname, hle⟩
    obtain ⟨old, hold, hname'⟩ := hpaged.cursor cursor hcursor
    obtain ⟨record', hrecord', hsame, hid⟩ := hstay old hold
    obtain rfl := record_unique hnames hrecord hrecord' (hname.trans (hsame.trans hname').symm)
    exact ⟨cursor, hcursor, old, hold, hname', hid ▸ hle⟩
  · rintro ⟨cursor, hcursor, record, hrecord, hname, hle⟩
    obtain ⟨record', hrecord', hsame, hid⟩ := hstay record hrecord
    exact ⟨cursor, hcursor, record', hrecord', hsame.trans hname, hid ▸ hle⟩

/-- The hub changes, and every row that comes to stand for its message lands on the right side. -/
theorem Paged.hub (hpaged : Paged origin d) (hnames : (h.rows.rows.map (·.hubMsgId)).Nodup)
    (hstay : ∀ row ∈ d.hub.visible, ∃ row' ∈ h.visible, row'.hubMsgId = row.hubMsgId ∧ row'.id = row.id)
    (hlands : ∀ row ∈ h.representatives d.reader.roomId, ∃ old : Row, old.id = row.id ∧ old.msgId = row.msgId ∧
      (old ∈ d.hub.representatives d.reader.roomId ∨ d.Lands old)) : Paged origin { d with hub := h } := by
  have hpassed : ∀ id, Reading.Passed { d with hub := h } id ↔ d.Passed id := fun id => passed_iff hpaged hnames hstay
  refine ⟨hpaged.direction, hpaged.roomId, hnames, fun cursor hcursor => ?_, hpaged.begun, hpaged.forward, hpaged.back, fun row hrow hreceived => ?_,
    fun row hrow hbehind hdue => ?_, hpaged.once⟩
  · obtain ⟨record, hrecord, hname⟩ := hpaged.cursor cursor hcursor
    obtain ⟨record', hrecord', hsame, -⟩ := hstay record hrecord
    exact ⟨record', hrecord', hsame.trans hname⟩
  · rw [hpassed]
    obtain ⟨old, hid, hmsgId, hold | hold⟩ := hlands row hrow
    · exact hid ▸ hpaged.received old hold (hmsgId.symm ▸ hreceived)
    · exact hid ▸ hold.2 (hmsgId.symm ▸ hreceived)
  · rw [hpassed] at hbehind
    obtain ⟨old, hid, hmsgId, hold | hold⟩ := hlands row hrow
    · exact hmsgId ▸ hpaged.passed old hold (hid.symm ▸ hbehind) (hid.symm ▸ hdue)
    · exact hmsgId ▸ hold.1 (hid.symm ▸ hbehind) (hid.symm ▸ hdue)

theorem Paged.of_visible (hpaged : Paged origin d) (hnames : (h.rows.rows.map (·.hubMsgId)).Nodup)
    (hvisible : h.visible = d.hub.visible) : Paged origin { d with hub := h } := by
  have hshown : h.shown d.reader.roomId = d.hub.shown d.reader.roomId := by
    rw [Hub.shown, hvisible]
    rfl
  refine hpaged.hub hnames (fun row hrow => ⟨row, hvisible ▸ hrow, rfl, rfl⟩) fun row hrow => ⟨row, rfl, rfl, .inl ?_⟩
  exact mem_representatives.mpr (hshown ▸ mem_representatives.mp hrow)

/-! ### Steps of the hub -/

theorem nodup_names_modify {rows : Keyed Row.id} (hnames : (rows.rows.map (·.hubMsgId)).Nodup) {p : Row → Prop} [DecidablePred p]
    {f : Row → Row} (hid : ∀ r, (f r).id = r.id) (hname : ∀ r, (f r).hubMsgId = r.hubMsgId) :
    ((rows.modify p f hid).rows.map (·.hubMsgId)).Nodup := by
  have hsame : (rows.modify p f hid).rows.map (·.hubMsgId) = rows.rows.map (·.hubMsgId) :=
    Table.map_update fun r _ _ => hname r
  rw [hsame]
  exact hnames

variable {i : ℕ}

theorem mem_commit {s : Sending} {x : Row} : x ∈ (h.commit i s).rows ↔
    ∃ row ∈ h.rows, (if row.writer = some i then { row with writer := none } else row) = x :=
  Keyed.mem_modify (f := fun row : Row => { row with writer := none }) fun _ => rfl

variable {ids : List RecordId}

theorem mem_commitRecall {j : ℕ} {x : Row} : x ∈ (h.commitRecall j ids).rows ↔
    ∃ row ∈ h.rows, (if row.id ∈ ids then { row with recalled := true } else row) = x :=
  Keyed.mem_modify (f := fun row : Row => { row with recalled := true }) fun _ => rfl

theorem names_commit {s : Sending} (hnames : (h.rows.rows.map (·.hubMsgId)).Nodup) :
    ((h.commit i s).rows.rows.map (·.hubMsgId)).Nodup :=
  nodup_names_modify (f := fun row : Row => { row with writer := none }) hnames (fun _ => rfl) fun _ => rfl

theorem names_commitRecall {j : ℕ} (hnames : (h.rows.rows.map (·.hubMsgId)).Nodup) :
    ((h.commitRecall j ids).rows.rows.map (·.hubMsgId)).Nodup :=
  nodup_names_modify (f := fun row : Row => { row with recalled := true }) hnames (fun _ => rfl) fun _ => rfl

theorem visible_abort : (h.abort i).visible = h.visible := by
  simp only [Hub.visible, Hub.abort, Keyed.remove, List.filter_filter]
  refine List.filter_congr fun row _ => ?_
  by_cases hrow : row.writer = none
  · simp [hrow]
  · simp [hrow]

theorem visible_of_adds {rows : Keyed Row.id} {row : Row} (hadds : h.rows.Adds row rows) (hwriter : row.writer ≠ none) :
    Hub.visible { h with rows } = h.visible := by
  simp [Hub.visible, hadds.rows, hwriter]

theorem names_of_adds {rows : Keyed Row.id} {row : Row} (hnames : (h.rows.rows.map (·.hubMsgId)).Nodup)
    (hadds : h.rows.Adds row rows) (hnew : ∀ x ∈ h.rows, x.hubMsgId ≠ row.hubMsgId) : (rows.rows.map (·.hubMsgId)).Nodup := by
  rw [hadds.rows]
  exact Table.nodup_append_singleton hnames hnew

theorem Paged.commit (hpaged : Paged origin d) {s : Sending} (hlands : d.NothingBehind (.hub (.commit i))) :
    Paged origin { d with hub := d.hub.commit i s } := by
  have hold : ∀ row ∈ d.hub.visible, row ∈ (d.hub.commit i s).visible := by
    intro row hrow
    obtain ⟨hmem, hwriter⟩ := mem_visible.mp hrow
    exact mem_visible.mpr ⟨mem_commit.mpr ⟨row, hmem, if_neg fun hown => (nomatch hown.symm.trans hwriter)⟩, hwriter⟩
  have hshown : ∀ row ∈ d.hub.shownWith i d.reader.roomId, ∃ row' ∈ (d.hub.commit i s).shown d.reader.roomId,
      row'.id = row.id ∧ row'.msgId = row.msgId := by
    intro row hrow
    obtain ⟨hmem, hwriter, hroom, hrecalled⟩ := mem_shownWith.mp hrow
    refine ⟨_, mem_shown.mpr ⟨mem_visible.mpr ⟨mem_commit.mpr ⟨row, hmem, rfl⟩, ?_⟩, ?_⟩, ?_⟩
    · split
      · rfl
      · rename_i hown
        exact hwriter.resolve_right hown
    · split
      · exact ⟨hroom, hrecalled⟩
      · exact ⟨hroom, hrecalled⟩
    · split
      · exact ⟨rfl, rfl⟩
      · exact ⟨rfl, rfl⟩
  refine hpaged.hub (names_commit hpaged.names) (fun row hrow => ⟨row, hold row hrow, rfl, rfl⟩) ?_
  intro row hrow
  obtain ⟨hrow, hleast⟩ := mem_representatives.mp hrow
  have hleast : ∀ other ∈ d.hub.shownWith i d.reader.roomId, other.msgId = row.msgId → row.id ≤ other.id := by
    intro other hother hmsgId
    obtain ⟨other', hother', hid, hsame⟩ := hshown other hother
    exact hid ▸ hleast other' hother' (hsame.trans hmsgId)
  obtain ⟨hvisible, hroom, hrecalled⟩ := mem_shown.mp hrow
  obtain ⟨hmem, hwriter⟩ := mem_visible.mp hvisible
  obtain ⟨old, hstored, rfl⟩ := mem_commit.mp hmem
  by_cases hown : old.writer = some i
  · rw [if_pos hown] at hroom hrecalled hleast ⊢
    exact ⟨old, rfl, rfl, .inr (hlands old (mem_shownWith.mpr ⟨hstored, .inr hown, hroom, hrecalled⟩) hown hleast)⟩
  · rw [if_neg hown] at hroom hleast hrecalled hwriter ⊢
    refine ⟨old, rfl, rfl, .inl (mem_representatives.mpr ⟨?_, fun other hother => hleast other ?_⟩)⟩
    · exact mem_shown.mpr ⟨mem_visible.mpr ⟨hstored, hwriter⟩, hroom, hrecalled⟩
    · obtain ⟨hvisible, hother⟩ := mem_shown.mp hother
      obtain ⟨hmem, hnobody⟩ := mem_visible.mp hvisible
      exact mem_shownWith.mpr ⟨hmem, .inl hnobody, hother⟩

theorem Paged.commitRecall (hpaged : Paged origin d) {j : ℕ} (hids : d.hub.recalls j = some ids)
    (hlands : d.NothingBehind (.hub (.commitRecall j))) : Paged origin { d with hub := d.hub.commitRecall j ids } := by
  have hnew : ∀ row ∈ d.hub.visible, (if row.id ∈ ids then { row with recalled := true } else row) ∈ (d.hub.commitRecall j ids).visible := by
    intro row hrow
    obtain ⟨hmem, hwriter⟩ := mem_visible.mp hrow
    refine mem_visible.mpr ⟨mem_commitRecall.mpr ⟨row, hmem, rfl⟩, ?_⟩
    split
    · exact hwriter
    · exact hwriter
  refine hpaged.hub (names_commitRecall hpaged.names) (fun row hrow => ⟨_, hnew row hrow, ?_⟩) ?_
  · split
    · exact ⟨rfl, rfl⟩
    · exact ⟨rfl, rfl⟩
  · intro row hrow
    obtain ⟨hrow, hleast⟩ := mem_representatives.mp hrow
    obtain ⟨hvisible, hroom, hrecalled⟩ := mem_shown.mp hrow
    obtain ⟨hmem, hwriter⟩ := mem_visible.mp hvisible
    obtain ⟨old, hstored, rfl⟩ := mem_commitRecall.mp hmem
    by_cases hin : old.id ∈ ids
    · rw [if_pos hin] at hrecalled
      exact nomatch hrecalled
    · rw [if_neg hin] at hroom hrecalled hwriter hleast ⊢
      have hold : old ∈ d.hub.shown d.reader.roomId := mem_shown.mpr ⟨mem_visible.mpr ⟨hstored, hwriter⟩, hroom, hrecalled⟩
      refine ⟨old, rfl, rfl, ?_⟩
      by_cases hrep : old ∈ d.hub.representatives d.reader.roomId
      · exact .inl hrep
      · right
        -- A lower copy stood for the message, and the recall has taken all of them.
        have hlower : ∃ other ∈ d.hub.shown d.reader.roomId, other.msgId = old.msgId ∧ other.id < old.id := by
          by_contra hnone
          push Not at hnone
          exact hrep (mem_representatives.mpr ⟨hold, hnone⟩)
        refine hlands ids hids old hold hin hlower fun other hother hmsgId hlt => ?_
        by_contra hkept
        obtain ⟨hother, hroom', hrecalled'⟩ := mem_shown.mp hother
        have hnext := hnew other hother
        rw [if_neg hkept] at hnext
        exact Nat.not_le.mpr hlt (hleast other (mem_shown.mpr ⟨hnext, hroom', hrecalled'⟩) hmsgId)

theorem Paged.hubStep (hpaged : Paged origin d) {a : HubAction} (hlands : d.NothingBehind (.hub a))
    (hstep : Messages.hub.step d.hub a = some h) : Paged origin { d with hub := h } := by
  have hsame : ∀ {h : Hub}, h.rows = d.hub.rows → Paged origin { d with hub := h } := by
    intro h hrows
    refine hpaged.of_visible (hrows ▸ hpaged.names) ?_
    rw [Hub.visible, hrows]
    rfl
  have habort : ∀ {i : ℕ} {h : Hub}, h.rows = (d.hub.abort i).rows → Paged origin { d with hub := h } := by
    intro i h hrows
    refine hpaged.of_visible ?_ ?_
    · rw [hrows]
      exact hpaged.names.sublist (List.filter_sublist.map _)
    · rw [Hub.visible, hrows]
      exact visible_abort
  cases stepped hstep with
  | began hfree => exact hsame rfl
  | refused => exact hsame rfl
  | retried => exact hsame rfl
  | drew hs => exact hsame rfl
  | skipped hs hleft hrow hkey hwriter => exact hsame rfl
  | existed hs hdirect hleft hrow hkey hwriter => exact habort rfl
  | inserted hs hleft hnew hname hadds =>
    exact hpaged.of_visible (names_of_adds hpaged.names hadds hname) (visible_of_adds hadds (Option.some_ne_none _))
  | committed hs hleft => exact hpaged.commit hlands
  | aborted hs => exact habort rfl
  | recalling ids => exact hsame rfl
  | recalled hids => exact hpaged.commitRecall hids hlands

/-! ### Pages -/

/-- A page over what the reader has not passed: its rows are new to the reader, and all up to its last row is on it. -/
structure Fetched (d : Reading) (rows : List Row) (hasMore : Bool) : Prop where
  mem : ∀ row ∈ rows, row ∈ d.hub.representatives d.reader.roomId ∧ ¬ d.Passed row.id
  nodup : rows.Nodup
  ordered : ∀ last ∈ rows.getLast?, ∀ row ∈ rows, d.reader.direction.le row.id last.id = true
  upTo : ∀ last ∈ rows.getLast?, ∀ row ∈ d.hub.representatives d.reader.roomId, d.reader.direction.le row.id last.id = true →
    d.Passed row.id ∨ row ∈ rows
  complete : hasMore = false → ∀ row ∈ d.hub.representatives d.reader.roomId, d.Passed row.id ∨ row ∈ rows

theorem fetched_page {limit : ℕ} {left : List Row} (hleft : ∀ row, row ∈ left ↔
    row ∈ d.hub.representatives d.reader.roomId ∧ ¬ d.Passed row.id) (hnodup : left.Nodup) :
    Fetched d (page (fun a b => d.reader.direction.le a.id b.id) limit left).1
      (page (fun a b => d.reader.direction.le a.id b.id) limit left).2 := by
  have htrans : ∀ a b c : Row, d.reader.direction.le a.id b.id = true → d.reader.direction.le b.id c.id = true →
      d.reader.direction.le a.id c.id = true := fun _ _ _ => Direction.le_trans
  have htotal : ∀ a b : Row, (d.reader.direction.le a.id b.id || d.reader.direction.le b.id a.id) = true :=
    fun a b => Direction.le_total a.id b.id
  refine ⟨fun row hrow => (hleft row).mp (mem_of_mem_page hrow), nodup_page hnodup, fun last hlast row hrow => ?_,
    fun last hlast row hrow hle => ?_, fun hmore row hrow => ?_⟩
  · rcases le_last_of_mem_page htrans htotal hlast hrow with rfl | hle
    · exact Direction.le_refl
    · exact hle
  · by_cases hpassed : d.Passed row.id
    · exact .inl hpassed
    · right
      by_cases hback : d.reader.direction.le last.id row.id = true
      · have hmem := List.mem_of_mem_getLast? hlast
        have hlast := mem_visible_of_representative ((hleft last).mp (mem_of_mem_page hmem)).1
        obtain rfl := eq_of_id (mem_visible_of_representative hrow) hlast (Direction.le_antisymm hle hback)
        exact hmem
      · exact mem_page_of_not_le htrans htotal hlast ((hleft row).mpr ⟨hrow, hpassed⟩) hback
  · by_cases hpassed : d.Passed row.id
    · exact .inl hpassed
    · exact .inr (mem_page_of_not_more hmore ((hleft row).mpr ⟨hrow, hpassed⟩))

theorem passed_iff_le (hpaged : Paged origin d) {cursor : String} {record : Row} (hcursor : d.reader.cursor = some cursor)
    (hrecord : record ∈ d.hub.visible) (hname : record.hubMsgId = cursor) :
    d.Passed id ↔ d.reader.direction.le id record.id = true := by
  constructor
  · rintro ⟨cursor', hcursor', record', hrecord', hname', hle⟩
    cases hcursor.symm.trans hcursor'
    obtain rfl := record_unique hpaged.names hrecord hrecord' (hname.trans hname'.symm)
    exact hle
  · exact fun hle => ⟨cursor, hcursor, record, hrecord, hname, hle⟩

variable {rows : List Row} {hasMore : Bool}

theorem fetched_of_queryHistory (hpaged : Paged origin d) {limit : ℕ}
    (hquery : d.hub.queryHistory d.reader.roomId d.reader.direction d.reader.cursor limit = some (rows, hasMore)) :
    Fetched d rows hasMore := by
  unfold Hub.queryHistory at hquery
  split at hquery
  · rename_i hnone
    have hback : d.reader.direction = .before := by
      cases hdirection : d.reader.direction with
      | after => exact absurd hnone (hpaged.forward hdirection).1
      | before => rfl
    rw [← hback] at hquery
    have hpage := Prod.ext_iff.mp (Option.some.inj hquery)
    have hfetched := @fetched_page d limit (d.hub.representatives d.reader.roomId)
      (fun row => ⟨fun hrow => ⟨hrow, ?_⟩, And.left⟩) nodup_representatives
    · rw [hpage.1, hpage.2] at hfetched
      exact hfetched
    · rintro ⟨cursor, hcursor, -⟩
      exact nomatch hnone.symm.trans hcursor
  · rename_i cursor hcursor
    obtain ⟨record, hrecord, hpage⟩ := Option.map_eq_some_iff.mp hquery
    have hname := List.find?_some hrecord
    simp only [decide_eq_true_eq] at hname
    have hpassed : ∀ id, d.Passed id ↔ d.reader.direction.le id record.id = true := fun id =>
      passed_iff_le hpaged hcursor (List.mem_of_find?_eq_some hrecord) hname
    have hfetched := @fetched_page d limit _ (fun row => List.mem_filter.trans (and_congr_right fun _ =>
      Direction.beyond_iff.trans (not_congr (hpassed row.id)).symm)) (nodup_representatives.filter _)
    rw [hpage] at hfetched
    exact hfetched

/-- What the reader has passed after a page: up to its last row, or as before if it is empty. -/
theorem passed_receive (hpaged : Paged origin d) (hfetched : Fetched d rows hasMore) :
    Reading.Passed { d with reader := d.reader.receive rows hasMore } id ↔ match rows.getLast? with
      | none => d.Passed id
      | some last => d.reader.direction.le id last.id = true := by
  unfold Reading.Passed
  cases hlast : rows.getLast? with
  | none => simp only [Reader.receive, hlast, Option.map_none, Option.none_or]
  | some last =>
    have hvisible := mem_visible_of_representative (hfetched.mem last (List.mem_of_mem_getLast? hlast)).1
    simp only [Reader.receive, hlast, Option.map_some, Option.some_or]
    constructor
    · rintro ⟨cursor, hcursor, record, hrecord, hname, hle⟩
      cases hcursor
      obtain rfl := record_unique hpaged.names hrecord hvisible hname
      exact hle
    · exact fun hle => ⟨_, rfl, last, hvisible, rfl, hle⟩

theorem passed_of_passed (hpaged : Paged origin d) (hfetched : Fetched d rows hasMore)
    (hpassed : d.Passed id) : Reading.Passed { d with reader := d.reader.receive rows hasMore } id := by
  rw [passed_receive hpaged hfetched]
  split
  · exact hpassed
  · rename_i last hlast
    obtain ⟨cursor, hcursor, record, hrecord, hname, hle⟩ := hpassed
    have hbeyond : ¬ d.reader.direction.le last.id record.id = true := fun hle' =>
      (hfetched.mem last (List.mem_of_mem_getLast? hlast)).2 ⟨cursor, hcursor, record, hrecord, hname, hle'⟩
    have htotal : (d.reader.direction.le record.id last.id || d.reader.direction.le last.id record.id) = true :=
      Direction.le_total record.id last.id
    rw [Bool.or_eq_true] at htotal
    exact Direction.le_trans hle (htotal.resolve_right hbeyond)

theorem received_receive {msgId : String} :
    Reading.Received { d with reader := d.reader.receive rows hasMore } msgId ↔
      d.Received msgId ∨ ∃ row ∈ rows, row.msgId = msgId := by
  simp only [Reading.Received, Reader.receive, List.mem_append]
  constructor
  · rintro ⟨row, hrow | hrow, hmsgId⟩
    · exact .inl ⟨row, hrow, hmsgId⟩
    · exact .inr ⟨row, hrow, hmsgId⟩
  · rintro (⟨row, hrow, hmsgId⟩ | ⟨row, hrow, hmsgId⟩)
    · exact ⟨row, .inl hrow, hmsgId⟩
    · exact ⟨row, .inr hrow, hmsgId⟩

theorem Paged.page (hpaged : Paged origin d) (hfetched : Fetched d rows hasMore) :
    Paged origin { d with reader := d.reader.receive rows hasMore } := by
  have hlastOf : ∀ row ∈ rows, ∃ last, rows.getLast? = some last := fun row hrow =>
    Option.ne_none_iff_exists'.mp fun hnone => List.ne_nil_of_mem hrow (List.getLast?_eq_none_iff.mp hnone)
  refine ⟨hpaged.direction, hpaged.roomId, hpaged.names, fun cursor hcursor => ?_, fun hstart => ?_, fun hdirection => ?_, fun hdirection => ?_,
    fun row hrow hreceived => ?_, fun row hrow hpassed hdue => ?_, ?_⟩
  · cases hlast : rows.getLast? with
    | none =>
      simp only [Reader.receive, hlast, Option.map_none, Option.none_or] at hcursor
      exact hpaged.cursor cursor hcursor
    | some last =>
      simp only [Reader.receive, hlast, Option.map_some, Option.some_or] at hcursor
      cases hcursor
      exact ⟨last, mem_visible_of_representative (hfetched.mem last (List.mem_of_mem_getLast? hlast)).1, rfl⟩
  · obtain ⟨hnone, hhead⟩ := Option.or_eq_none_iff.mp hstart
    have hnil : rows = [] := List.head?_eq_none_iff.mp (Option.map_eq_none_iff.mp hhead)
    subst hnil
    exact hpaged.begun hnone
  · obtain ⟨hcursor, horigin⟩ := hpaged.forward hdirection
    have hstart : d.reader.start ≠ none := fun hnone => hcursor (hpaged.begun hnone)
    refine ⟨fun hnone => hcursor (Option.or_eq_none_iff.mp hnone).2, ?_⟩
    obtain ⟨start, hsome⟩ := Option.ne_none_iff_exists'.mp hstart
    rw [← horigin]
    simp only [Reader.receive, hsome, Option.some_or]
  · simp only [Reader.receive, hpaged.back hdirection, List.head?_append, Option.map_or]
  · rcases received_receive.mp hreceived with hold | ⟨row', hrow', hmsgId⟩
    · exact passed_of_passed hpaged hfetched (hpaged.received row hrow hold)
    · obtain rfl := eq_of_msgId (hfetched.mem row' hrow').1 hrow hmsgId
      obtain ⟨last, hlast⟩ := hlastOf row' hrow'
      rw [passed_receive hpaged hfetched, hlast]
      exact hfetched.ordered last hlast row' hrow'
  · have hdueOld : d.Passed row.id → d.Due row.id := by
      rintro ⟨cursor, hcursor, -⟩
      have hstart : d.reader.start ≠ none := fun hnone => nomatch (hpaged.begun hnone).symm.trans hcursor
      obtain ⟨start, hsome⟩ := Option.ne_none_iff_exists'.mp hstart
      obtain ⟨start', hstart', hthrough⟩ := hdue
      simp only [Reader.receive, hsome, Option.some_or] at hstart'
      exact ⟨start', hsome.trans hstart', hthrough⟩
    have hold : d.Passed row.id → Reading.Received { d with reader := d.reader.receive rows hasMore } row.msgId := fun hpassed =>
      received_receive.mpr (.inl (hpaged.passed row hrow hpassed (hdueOld hpassed)))
    rw [passed_receive hpaged hfetched] at hpassed
    split at hpassed
    · exact hold hpassed
    · rename_i last hlast
      rcases hfetched.upTo last hlast row hrow hpassed with hpassed | hmem
      · exact hold hpassed
      · exact received_receive.mpr (.inr ⟨row, hmem, rfl⟩)
  · show ((d.reader.received ++ rows).map (·.msgId)).Nodup
    rw [List.map_append]
    refine hpaged.once.append ?_ fun msgId hold hnew => ?_
    · exact hfetched.nodup.map_on fun row hrow row' hrow' hmsgId =>
        eq_of_msgId (hfetched.mem row hrow).1 (hfetched.mem row' hrow').1 hmsgId
    · obtain ⟨old, hmem, rfl⟩ := List.mem_map.mp hold
      obtain ⟨row, hrow, hmsgId⟩ := List.mem_map.mp hnew
      obtain ⟨hrep, hbeyond⟩ := hfetched.mem row hrow
      exact hbeyond (hpaged.received row hrep ⟨old, hmem, hmsgId.symm⟩)

end Steps

/-! ### Runs -/

section Runs

variable {start d d' : Reading}

theorem Paged.step {origin : Reader} {a : ReadingAction} (hpaged : Paged origin d) (hlands : d.NothingBehind a)
    (hstep : reading.step d a = some d') : Paged origin d' := by
  cases a with
  | hub a =>
    obtain ⟨h, hh, rfl⟩ := Option.map_eq_some_iff.mp hstep
    exact hpaged.hubStep hlands hh
  | page limit =>
    obtain ⟨-, hstep⟩ := Option.ite_none_right_eq_some.mp hstep
    obtain ⟨⟨rows, hasMore⟩, hquery, rfl⟩ := Option.map_eq_some_iff.mp hstep
    exact hpaged.page (fetched_of_queryHistory hpaged hquery)

/-- A reader that has received nothing: forward from a copy that all see, or back from the newest message. -/
structure Begins (d : Reading) : Prop where
  received : d.reader.received = []
  forward : d.reader.direction = .after →
    ∃ record ∈ d.hub.visible, d.reader.cursor = some record.hubMsgId ∧ d.reader.start = some record.id
  back : d.reader.direction = .before → d.reader.cursor = none ∧ d.reader.start = none

theorem paged_start (hnames : (start.hub.rows.rows.map (·.hubMsgId)).Nodup) (hbegins : Begins start) : Paged start.reader start := by
  have hnothing : ∀ msgId, ¬ start.Received msgId := by
    rintro msgId ⟨row, hrow, -⟩
    rw [hbegins.received] at hrow
    exact nomatch hrow
  refine ⟨rfl, rfl, hnames, fun cursor hcursor => ?_, fun hnone => ?_, fun hdirection => ?_, fun hdirection => ?_,
    fun row _ hreceived => absurd hreceived (hnothing _), fun row hrow hpassed hdue => ?_, ?_⟩
  · cases hdirection : start.reader.direction with
    | after =>
      obtain ⟨record, hrecord, hname, -⟩ := hbegins.forward hdirection
      exact ⟨record, hrecord, Option.some.inj (hname.symm.trans hcursor)⟩
    | before => exact nomatch (hbegins.back hdirection).1.symm.trans hcursor
  · cases hdirection : start.reader.direction with
    | after =>
      obtain ⟨record, -, -, hstart⟩ := hbegins.forward hdirection
      exact nomatch hnone.symm.trans hstart
    | before => exact (hbegins.back hdirection).1
  · obtain ⟨record, -, hname, -⟩ := hbegins.forward hdirection
    exact ⟨by rw [hname]; exact Option.some_ne_none _, rfl⟩
  · rw [(hbegins.back hdirection).2, hbegins.received]
    rfl
  · -- Nothing is both passed and due.
    obtain ⟨cursor, hcursor, record, hrecord, hname, hle⟩ := hpassed
    obtain ⟨first, hfirst, hthrough⟩ := hdue
    cases hdirection : start.reader.direction with
    | after =>
      obtain ⟨record', hrecord', hname', hstart⟩ := hbegins.forward hdirection
      cases hname'.symm.trans hcursor
      cases hstart.symm.trans hfirst
      obtain rfl := record_unique hnames hrecord hrecord' hname
      rw [hdirection] at hle hthrough
      exact absurd (of_decide_eq_true hle) (Nat.not_le.mpr (of_decide_eq_true hthrough))
    | before => exact nomatch (hbegins.back hdirection).1.symm.trans hcursor
  · rw [hbegins.received]
    exact List.nodup_nil

theorem once_of_received {rows : List Row} {msgId : String} (hnodup : (rows.map (·.msgId)).Nodup)
    (hmem : ∃ row ∈ rows, row.msgId = msgId) : (rows.map (·.msgId)).count msgId = 1 :=
  List.count_eq_one_of_mem hnodup (List.mem_map.mpr hmem)

/-- In every run in which no commit of a send and no recall puts a row that comes to stand for its message on the wrong side of the cursor: a reader that has just received its last page has received every message of the room that is not recalled once, those after its starting cursor if it reads forward and those up to the first message it received if it reads back. -/
theorem paging_misses_nothing (hnames : (start.hub.rows.rows.map (·.hubMsgId)).Nodup) (hbegins : Begins start)
    {actions : List ReadingAction} (hmeets : reading.Meets Reading.NothingBehind start actions)
    (hrun : reading.run start actions = some d) {limit : ℕ} (hstep : reading.step d (.page limit) = some d')
    (hdone : d'.reader.hasMore = false) :
    (start.reader.direction = .after → ∀ row ∈ d'.hub.representatives start.reader.roomId, ∀ id ∈ start.reader.start, id < row.id →
      (d'.reader.received.map (·.msgId)).count row.msgId = 1) ∧
    (start.reader.direction = .before → ∀ row ∈ d'.hub.representatives start.reader.roomId, ∀ first ∈ d'.reader.received.head?,
      row.id ≤ first.id → (d'.reader.received.map (·.msgId)).count row.msgId = 1) := by
  have hpaged : Paged start.reader d := reading.run_invariant_of_meets (fun _ _ _ hpaged hlands hstep => hpaged.step hlands hstep)
    (paged_start hnames hbegins) hmeets hrun
  have hpaged' : Paged start.reader d' := Paged.step (a := .page limit) hpaged trivial hstep
  obtain ⟨-, hstep⟩ := Option.ite_none_right_eq_some.mp hstep
  obtain ⟨⟨rows, hasMore⟩, hquery, rfl⟩ := Option.map_eq_some_iff.mp hstep
  have hfetched := fetched_of_queryHistory hpaged hquery
  have hroom := hpaged'.roomId
  -- What is on its way was passed, or is on the last page.
  have honce : ∀ row ∈ d.hub.representatives start.reader.roomId,
      Reading.Due { d with reader := d.reader.receive rows hasMore } row.id →
        ((d.reader.receive rows hasMore).received.map (·.msgId)).count row.msgId = 1 := by
    intro row hrow hdue
    rw [← hroom] at hrow
    refine once_of_received hpaged'.once ?_
    rcases hfetched.complete hdone row hrow with hpassed | hmem
    · exact hpaged'.passed row hrow (passed_of_passed hpaged hfetched hpassed) hdue
    · exact received_receive.mpr (.inr ⟨row, hmem, rfl⟩)
  have hdirection := hpaged'.direction
  refine ⟨fun hafter row hrow id hid hlt => honce row hrow ?_, fun hbefore row hrow first hfirst hle => honce row hrow ?_⟩
  · refine ⟨id, (hpaged'.forward (hdirection.trans hafter)).2.trans hid, ?_⟩
    rw [hdirection, hafter]
    exact decide_eq_true hlt
  · refine ⟨first.id, (hpaged'.back (hdirection.trans hbefore)).trans (by rw [hfirst]; rfl), ?_⟩
    rw [hdirection, hbefore]
    exact decide_eq_true hle

def roomMessage (msgId sender : String) : Sends.Envelope where
  msgId := msgId
  ts := 0
  sender := sender
  recipient := "rm_a"
  payload := { text := msgId }
  payloadHash := msgId
  keyId := sender

/-- A reader after the one message of a room. -/
def afterFirst : Reading where
  hub.rows.rows := [{
    hubMsgId := "h_0", msgId := "m_0", senderId := "ag_1", receiverId := "ag_3", roomId := some "rm_a"
    envelope := roomMessage "m_0" "ag_1", id := 0 }]
  hub.rows.distinct := by decide
  hub.nextId := 1
  reader := { roomId := "rm_a", direction := .after, cursor := some "h_0", start := some 0 }

/-- The first of two sends inserts first and commits last, and the reader asks in between and at the end. -/
def lateCommit : List ReadingAction :=
  [.hub (.send 1 (roomMessage "m_1" "ag_1") ["ag_3"]), .hub (.draw 1), .hub (.insert 1 "h_1"),
    .hub (.send 2 (roomMessage "m_2" "ag_2") ["ag_3"]), .hub (.draw 2), .hub (.insert 2 "h_2"), .hub (.commit 2), .page 20,
    .hub (.commit 1)]

theorem late_commit_missed : ∃ d d', reading.run afterFirst lateCommit = some d ∧ reading.step d (.page 20) = some d' ∧
    d'.reader.hasMore = false ∧ (∀ row ∈ d'.hub.rows, row.writer = none) ∧
    ∃ row ∈ d'.hub.representatives "rm_a", 0 < row.id ∧ (d'.reader.received.map (·.msgId)).count row.msgId = 0 := by
  have hrun : (reading.run afterFirst lateCommit).any (fun d => (reading.step d (.page 20)).any fun d' =>
      d'.reader.hasMore = false ∧ (∀ row ∈ d'.hub.rows.rows, row.writer = none) ∧
      ∃ row ∈ d'.hub.representatives "rm_a", 0 < row.id ∧ (d'.reader.received.map (·.msgId)).count row.msgId = 0) = true := by
    decide +kernel
  obtain ⟨d, hrun, hd⟩ := Option.any_eq_true _ _ |>.mp hrun
  obtain ⟨d', hstep, hd'⟩ := Option.any_eq_true _ _ |>.mp hd
  exact ⟨d, d', hrun, hstep, of_decide_eq_true hd'⟩

/-- Both commit in turn, and the reader asks for one message at a time. -/
def commitsInTurn : List ReadingAction :=
  [.hub (.send 1 (roomMessage "m_1" "ag_1") ["ag_3"]), .hub (.draw 1), .hub (.insert 1 "h_1"), .hub (.commit 1), .page 1,
    .hub (.send 2 (roomMessage "m_2" "ag_2") ["ag_3", "ag_4"]), .hub (.draw 2), .hub (.insert 2 "h_2"), .hub (.draw 2),
    .hub (.insert 2 "h_3"), .hub (.commit 2)]

theorem commits_in_turn_received : ∃ d d', reading.run afterFirst commitsInTurn = some d ∧ reading.step d (.page 1) = some d' ∧
    (d'.reader.received.map (·.msgId)).count "m_1" = 1 ∧ (d'.reader.received.map (·.msgId)).count "m_2" = 1 := by
  have hrun : (reading.run afterFirst commitsInTurn).any (fun d => (reading.step d (.page 1)).any fun d' =>
      d'.reader.hasMore = false ∧ (∃ row ∈ d'.hub.representatives "rm_a", 0 < row.id ∧ row.msgId = "m_1") ∧
      ∃ row ∈ d'.hub.representatives "rm_a", 0 < row.id ∧ row.msgId = "m_2") = true := by decide +kernel
  obtain ⟨d, hrun, hd⟩ := Option.any_eq_true _ _ |>.mp hrun
  obtain ⟨d', hstep, hd'⟩ := Option.any_eq_true _ _ |>.mp hd
  obtain ⟨hdone, ⟨row₁, hrow₁, hlt₁, hname₁⟩, row₂, hrow₂, hlt₂, hname₂⟩ := of_decide_eq_true hd'
  obtain ⟨hforward, -⟩ := paging_misses_nothing (by decide) ⟨rfl, fun _ => ⟨_, List.mem_singleton.mpr rfl, rfl, rfl⟩,
    fun hback => absurd hback (by decide)⟩ (by decide +kernel) hrun hstep hdone
  exact ⟨d, d', hrun, hstep, hname₁ ▸ hforward rfl row₁ hrow₁ 0 rfl hlt₁, hname₂ ▸ hforward rfl row₂ hrow₂ 0 rfl hlt₂⟩

end Runs

end BotCord.Messages
