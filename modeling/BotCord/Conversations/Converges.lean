import BotCord.Conversations.Directory
import Mathlib.Data.List.Induction

/-!
# The directory of the dashboard is the server's

What the store's cursor covers up to the latest change of a room, the store has as the server has it. A page keeps this because the answer tells what its cursor newly covers; a local patch keeps it where the server has a change of the room that the cursor does not cover yet.
-/

namespace BotCord.Conversations

open Dashboard (RoomId AccountId)

namespace Directory

structure Own (dir : Directory) (accountId : AccountId) : Prop where
  rows : ∀ r room, dir.room r = some room → room.account = accountId ∧ room.roomId = r
  unchanged : ∀ r, dir.version r = 0 → dir.room r = none

structure Later (dir dir' : Directory) : Prop where
  epoch : dir.epoch ≤ dir'.epoch
  version : ∀ r, dir.version r ≤ dir'.version r
  room : ∀ r, dir'.version r = dir.version r → dir'.room r = dir.room r

theorem Later.refl (dir : Directory) : dir.Later dir := ⟨Nat.le_refl _, fun _ => Nat.le_refl _, fun _ _ => rfl⟩

theorem later_write (dir : Directory) (accountId : AccountId) (roomId : RoomId) (room : Option Room) :
    dir.Later (dir.write accountId roomId room) := by
  refine ⟨Nat.le_refl _, fun r => ?_, fun r hr => ?_⟩
  · by_cases heq : r = roomId
    · subst heq
      simp [write]
    · simp [write, heq]
  · have hne : r ≠ roomId := by
      rintro rfl
      simp [write] at hr
    simp [write, hne]

theorem Own.write {dir : Directory} {accountId : AccountId} (h : dir.Own accountId) (roomId : RoomId)
    (room : Option Room) : (dir.write accountId roomId room).Own accountId := by
  constructor
  · intro r found hfound
    by_cases heq : r = roomId
    · subst heq
      simp only [Directory.write, Function.update_self, Option.map_eq_some_iff] at hfound
      obtain ⟨row, -, rfl⟩ := hfound
      exact ⟨rfl, rfl⟩
    · exact h.rows r found (by simpa [Directory.write, heq] using hfound)
  · intro r hr
    by_cases heq : r = roomId
    · subst heq
      simp [Directory.write] at hr
    · have hold : dir.version r = 0 := by simpa [Directory.write, heq] using hr
      simpa [Directory.write, heq] using h.unchanged r hold

end Directory

namespace Cursor

structure Below (c : Cursor) (dir : Directory) : Prop where
  epoch : c.epoch ≤ dir.epoch
  covers : c.epoch = dir.epoch → ∀ r, c.covers r ≤ dir.version r

/-- The cursor covers the latest change of the room. -/
def Latest (c : Cursor) (dir : Directory) (r : RoomId) : Prop := c.epoch = dir.epoch ∧ c.covers r = dir.version r

variable {c : Cursor} {dir dir' : Directory} {r : RoomId}

theorem Below.of_latest (h : c.Below dir) (hlater : dir.Later dir') (hlatest : c.Latest dir' r) :
    c.Latest dir r ∧ dir'.epoch = dir.epoch ∧ dir'.version r = dir.version r := by
  obtain ⟨hepoch, hcovers⟩ := hlatest
  have hle := h.epoch
  have hle' := hlater.epoch
  have hsame : c.epoch = dir.epoch := by omega
  have hbelow := h.covers hsame r
  have hversion := hlater.version r
  exact ⟨⟨hsame, by omega⟩, by omega, by omega⟩

theorem Below.later (h : c.Below dir) (hlater : dir.Later dir') : c.Below dir' := by
  have hle := h.epoch
  have hle' := hlater.epoch
  refine ⟨by omega, fun hepoch r => ?_⟩
  have hbelow := h.covers (by omega) r
  have hversion := hlater.version r
  omega

end Cursor

/-- The rows are the account's, and those that the cursor covers up to the latest change are the server's. -/
structure Holds (dir : Directory) (accountId : AccountId) (cursor : Option Cursor) (rooms : Rooms) : Prop where
  own : ∀ r room, rooms r = some room → room.account = accountId ∧ room.roomId = r
  below : ∀ c ∈ cursor, c.Below dir
  latest : ∀ c ∈ cursor, ∀ r, c.Latest dir r → rooms r = dir.room r

theorem Holds.later {dir dir' : Directory} {accountId : AccountId} {cursor : Option Cursor} {rooms : Rooms}
    (h : Holds dir accountId cursor rooms) (hlater : dir.Later dir') : Holds dir' accountId cursor rooms := by
  refine ⟨h.own, fun c hc => (h.below c hc).later hlater, fun c hc r hr => ?_⟩
  obtain ⟨hlatest, -, hversion⟩ := (h.below c hc).of_latest hlater hr
  exact (h.latest c hc r hlatest).trans (hlater.room r hversion).symm

theorem holds_empty (dir : Directory) (accountId : AccountId) : Holds dir accountId none (fun _ => none) where
  own _ _ h := by cases h
  below _ h := by cases h
  latest _ h := by cases h

namespace Answer

variable (answer : Answer)

structure Says (dir : Directory) (r : RoomId) : Prop where
  upserts : ∀ room ∈ answer.upserts, room.roomId = r → dir.room r = some room
  removed : r ∈ answer.removedIds → dir.room r = none

structure Telling (dir : Directory) (accountId : AccountId) (cursor : Option Cursor) : Prop where
  own : ∀ room ∈ answer.upserts, room.account = accountId
  below : answer.nextCursor.Below dir
  latest : ∀ r, answer.nextCursor.Latest dir r → answer.Says dir r ∧
    ((∃ room ∈ answer.upserts, room.roomId = r) ∨ r ∈ answer.removedIds ∨ (answer.reset = true ∧ dir.room r = none) ∨
      (answer.reset = false ∧ ∃ c ∈ cursor, c.Latest dir r))
  known : ∀ c ∈ cursor, ∀ r, c.Latest dir r → answer.reset = false ∧ answer.Says dir r

variable {answer} {dir dir' : Directory} {accountId : AccountId} {cursor : Option Cursor} {r : RoomId}

theorem Says.later (h : answer.Says dir r) (hroom : dir'.room r = dir.room r) : answer.Says dir' r :=
  ⟨fun room hmem hid => hroom.trans (h.upserts room hmem hid), fun hmem => hroom.trans (h.removed hmem)⟩

theorem Telling.later (h : answer.Telling dir accountId cursor) (hlater : dir.Later dir')
    (hbelow : ∀ c ∈ cursor, c.Below dir) : answer.Telling dir' accountId cursor := by
  refine ⟨h.own, h.below.later hlater, fun r hr => ?_, fun c hc r hr => ?_⟩
  · obtain ⟨hlatest, hepoch, hversion⟩ := h.below.of_latest hlater hr
    have hroom := hlater.room r hversion
    obtain ⟨hholds, htold⟩ := h.latest r hlatest
    refine ⟨hholds.later hroom, htold.imp_right fun h => h.imp_right fun h => h.imp (fun h => ?_) fun h => ?_⟩
    · exact ⟨h.1, hroom.trans h.2⟩
    · obtain ⟨hreset, c, hc, hepoch', hcovers⟩ := h
      exact ⟨hreset, c, hc, hepoch'.trans hepoch.symm, hcovers.trans hversion.symm⟩
  · obtain ⟨hlatest, -, hversion⟩ := (hbelow c hc).of_latest hlater hr
    obtain ⟨hreset, hholds⟩ := h.known c hc r hlatest
    exact ⟨hreset, hholds.later (hlater.room r hversion)⟩

theorem telling_of_answers (hown : dir.Own accountId) (hbelow : ∀ c ∈ cursor, c.Below dir)
    (h : dir.Answers cursor answer) : answer.Telling dir accountId cursor := by
  have hholds : ∀ r, answer.Says dir r := fun r =>
    ⟨fun room hmem hid => hid ▸ h.upserts room hmem, fun hmem => h.removed r hmem⟩
  refine ⟨fun room hmem => (hown.rows _ _ (h.upserts room hmem)).1, ⟨Nat.le_of_eq h.epoch, fun _ r => h.covers r⟩,
    fun r hr => ⟨hholds r, ?_⟩, fun c hc r hr => ⟨h.reset.mpr ⟨c, hc, hr.1⟩, hholds r⟩⟩
  by_cases hnew : (if answer.reset then 0 else told cursor r) < answer.nextCursor.covers r
  · obtain hmem | hmem | hnone := h.tells r hnew
    · exact .inl hmem
    · exact .inr (.inl hmem)
    · exact .inr (.inr (.inl hnone))
  · have hversion := hr.2
    cases hreset : answer.reset with
    | true =>
      rw [hreset, if_pos rfl] at hnew
      exact .inr (.inr (.inl ⟨rfl, hown.unchanged r (by omega)⟩))
    | false =>
      obtain ⟨c, hc, hepoch⟩ := h.reset.mp hreset
      have hcovers := (hbelow c hc).covers hepoch r
      have htold : told cursor r = c.covers r := by
        rw [Option.mem_def] at hc
        rw [told, hc, Option.map_some, Option.getD_some]
      simp only [hreset, Bool.false_eq_true, if_false, htold] at hnew
      exact .inr (.inr (.inr ⟨rfl, c, hc, hepoch, by omega⟩))

end Answer

namespace State

variable (s : State)

theorem removeRooms_apply (rooms : Rooms) (ids : List RoomId) (r : RoomId) :
    removeRooms rooms ids r = if r ∈ ids then none else rooms r := by
  induction ids using List.reverseRecOn with
  | nil => simp [removeRooms]
  | append_singleton rest id ih =>
    unfold removeRooms at ih ⊢
    rw [List.foldl_append, List.foldl_cons, List.foldl_nil, Function.update_apply, ih]
    by_cases hid : r = id
    · simp [hid]
    · simp [hid]

/-- A room after the rows of a page: it is as before, it was raced and stays, or it is one of the rows. -/
theorem storeUpserts_cases (versions : RoomId → ℕ) (rooms : Rooms) (upserts : List Room) (r : RoomId) :
    (s.storeUpserts versions rooms upserts r = rooms r ∧
      ∀ room ∈ upserts, room.roomId = r → s.Raced versions r ∧ s.rooms r = none) ∨
    (s.Raced versions r ∧ (∃ room ∈ upserts, room.roomId = r) ∧ s.storeUpserts versions rooms upserts r = s.rooms r) ∨
    (¬ s.Raced versions r ∧ ∃ room ∈ upserts, room.roomId = r ∧ s.storeUpserts versions rooms upserts r = some room) := by
  induction upserts using List.reverseRecOn with
  | nil => exact .inl ⟨rfl, fun _ h => by cases h⟩
  | append_singleton rest x ih =>
    have hlast : s.storeUpserts versions rooms (rest ++ [x]) =
        s.storeUpsert versions (s.storeUpserts versions rooms rest) x := List.foldl_append
    rw [hlast]
    by_cases hid : x.roomId = r
    · subst hid
      have hmem : ∃ room ∈ rest ++ [x], room.roomId = x.roomId :=
        ⟨x, List.mem_append_right _ (List.mem_singleton.mpr rfl), rfl⟩
      by_cases hraced : s.Raced versions x.roomId
      · cases hrow : s.rooms x.roomId with
        | some row =>
          rw [← hrow]
          refine .inr (.inl ⟨hraced, hmem, ?_⟩)
          simp only [storeUpsert, if_pos hraced, hrow, Function.update_self]
        | none =>
          have hsame : s.storeUpsert versions (s.storeUpserts versions rooms rest) x =
              s.storeUpserts versions rooms rest := by simp only [storeUpsert, if_pos hraced, hrow]
          rw [hsame]
          obtain ⟨hkept, -⟩ | ⟨-, -, hkept⟩ | ⟨hnot, -⟩ := ih
          · exact .inl ⟨hkept, fun _ _ _ => ⟨hraced, rfl⟩⟩
          · exact .inr (.inl ⟨hraced, hmem, hkept.trans hrow⟩)
          · exact absurd hraced hnot
      · refine .inr (.inr ⟨hraced, x, List.mem_append_right _ (List.mem_singleton.mpr rfl), rfl, ?_⟩)
        simp only [storeUpsert, if_neg hraced, Function.update_self]
    · have hsame : s.storeUpsert versions (s.storeUpserts versions rooms rest) x r =
          s.storeUpserts versions rooms rest r := by
        have hne : r ≠ x.roomId := Ne.symm hid
        cases hrow : s.rooms x.roomId with
        | none => by_cases hraced : s.Raced versions x.roomId <;> simp [storeUpsert, hraced, hrow, hne]
        | some row => by_cases hraced : s.Raced versions x.roomId <;> simp [storeUpsert, hraced, hrow, hne]
      rw [hsame]
      obtain ⟨hkept, hall⟩ | ⟨hraced, ⟨room, hmem, hroom⟩, hkept⟩ | ⟨hnot, room, hmem, hroom⟩ := ih
      · refine .inl ⟨hkept, fun room hmem hr => ?_⟩
        cases List.mem_append.mp hmem with
        | inl hold => exact hall room hold hr
        | inr hnew =>
          cases List.mem_singleton.mp hnew
          exact absurd hr hid
      · exact .inr (.inl ⟨hraced, ⟨room, List.mem_append_left _ hmem, hroom⟩, hkept⟩)
      · exact .inr (.inr ⟨hnot, room, List.mem_append_left _ hmem, hroom⟩)

theorem skipped_eq_false {versions : RoomId → ℕ} {upserts : List Room} :
    s.skipped versions upserts = false ↔ ∀ room ∈ upserts, ¬ s.Raced versions room.roomId := by
  simp [skipped]

end State

theorem Holds.page {dir : Directory} {accountId : AccountId} {s : State} {drain : Drain} {answer : Answer}
    (h : Holds dir accountId s.cursor s.rooms) (htelling : answer.Telling dir accountId s.cursor)
    (hcursor : drain.cursor = s.cursor) :
    Holds dir accountId
      (if s.skipped drain.versions answer.upserts then drain.cursor else some answer.nextCursor)
      (s.storeUpserts drain.versions
        (State.removeRooms (if answer.reset then fun _ => none else s.rooms) answer.removedIds) answer.upserts) := by
  have hbase : ∀ r, State.removeRooms (if answer.reset then fun _ => none else s.rooms) answer.removedIds r =
      if r ∈ answer.removedIds ∨ answer.reset = true then none else s.rooms r := by
    intro r
    rw [State.removeRooms_apply]
    by_cases hmem : r ∈ answer.removedIds
    · simp [hmem]
    · cases answer.reset <;> simp [hmem]
  constructor
  · intro r room hroom
    obtain ⟨hkept, -⟩ | ⟨-, -, hkept⟩ | ⟨-, row, hmem, rfl, hrow⟩ := s.storeUpserts_cases drain.versions
      (State.removeRooms (if answer.reset then fun _ => none else s.rooms) answer.removedIds) answer.upserts r
    · rw [hkept, hbase] at hroom
      split at hroom
      · cases hroom
      · exact h.own r room hroom
    · exact h.own r room (hkept.symm.trans hroom)
    · rw [hrow] at hroom
      cases hroom
      exact ⟨htelling.own _ hmem, rfl⟩
  · intro c hc
    split at hc
    · exact h.below c (hcursor ▸ hc)
    · cases hc
      exact htelling.below
  · intro c hc r hr
    obtain ⟨hkept, hall⟩ | ⟨hraced, ⟨room, hmem, hid⟩, hkept⟩ | ⟨hnot, row, hmem, rfl, hrow⟩ := s.storeUpserts_cases drain.versions
      (State.removeRooms (if answer.reset then fun _ => none else s.rooms) answer.removedIds) answer.upserts r
    · rw [hkept, hbase]
      split at hc
      · rw [hcursor] at hc
        obtain ⟨hreset, hholds⟩ := htelling.known c hc r hr
        split
        · rename_i hgone
          rw [hreset] at hgone
          exact (hholds.removed (hgone.resolve_right (by simp))).symm
        · exact h.latest c hc r hr
      · rename_i hskipped
        cases hc
        obtain ⟨hholds, htold⟩ := htelling.latest r hr
        rw [Bool.not_eq_true, State.skipped_eq_false] at hskipped
        obtain ⟨room, hmem, hid⟩ | hremoved | ⟨hreset, hnone⟩ | ⟨hreset, c, hc, hlatest⟩ := htold
        · exact absurd (hall room hmem hid).1 (hid ▸ hskipped room hmem)
        · rw [if_pos (.inl hremoved), hholds.removed hremoved]
        · rw [if_pos (.inr hreset), hnone]
        · split
          · rename_i hgone
            rw [hreset] at hgone
            exact (hholds.removed (hgone.resolve_right (by simp))).symm
          · exact h.latest c hc r hlatest
    · rw [hkept]
      split at hc
      · exact h.latest c (hcursor ▸ hc) r hr
      · rename_i hskipped
        rw [Bool.not_eq_true, State.skipped_eq_false] at hskipped
        exact absurd hraced (hid ▸ hskipped room hmem)
    · rw [hrow]
      split at hc
      · exact ((htelling.known c (hcursor ▸ hc) _ hr).2.upserts row hmem rfl).symm
      · cases hc
        exact ((htelling.latest _ hr).1.upserts row hmem rfl).symm

end BotCord.Conversations
