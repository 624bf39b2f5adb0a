import BotCord.Dashboard.Unread

/-!
# A realtime message is not hidden by an older read

Events and marks count the version of their room, and a failed mark is undone only under the version it began with. Room lists carry no version: a list that was asked for before an event can clear it, a list of another account counts as well, and a list that reports a room unread does not undo a mark that stands.
-/

namespace BotCord.Dashboard

open Dashboard

namespace UnreadState

variable {s before : UnreadState} {rooms : List ListedRoom} {roomId r : RoomId}

theorem mem_including {ids : List RoomId} : r ∈ including ids roomId ↔ r ∈ ids ∨ r = roomId := by
  unfold including
  split
  · rename_i hmem
    constructor
    · exact .inl
    · rintro (h | rfl)
      · exact h
      · exact hmem
  · simp

theorem isRoomUnread_congr {t : UnreadState} (hseen : r ∈ t.optimisticSeenRoomIds ↔ r ∈ s.optimisticSeenRoomIds)
    (hunread : r ∈ t.optimisticUnreadRoomIds ↔ r ∈ s.optimisticUnreadRoomIds) (p : Bool) :
    t.isRoomUnread r p = s.isRoomUnread r p := by
  simp only [isRoomUnread, hseen, hunread]

theorem mem_seen_restore_of_ne (h : r ≠ roomId) :
    r ∈ (s.restore before roomId).optimisticSeenRoomIds ↔ r ∈ s.optimisticSeenRoomIds := by
  by_cases hb : roomId ∈ before.optimisticSeenRoomIds <;> simp [restore, hb, h]

theorem mem_unread_restore_of_ne (h : r ≠ roomId) :
    r ∈ (s.restore before roomId).optimisticUnreadRoomIds ↔ r ∈ s.optimisticUnreadRoomIds := by
  by_cases hb : roomId ∈ before.optimisticUnreadRoomIds <;> simp [restore, hb, h]

theorem mem_seen_restore : roomId ∈ (s.restore before roomId).optimisticSeenRoomIds ↔
    roomId ∈ before.optimisticSeenRoomIds := by
  by_cases hb : roomId ∈ before.optimisticSeenRoomIds <;> simp [restore, hb]

theorem mem_unread_restore : roomId ∈ (s.restore before roomId).optimisticUnreadRoomIds ↔
    roomId ∈ before.optimisticUnreadRoomIds := by
  by_cases hb : roomId ∈ before.optimisticUnreadRoomIds <;> simp [restore, hb]

theorem mem_seen_reconcile : r ∈ (s.reconcileUnreadRooms rooms).optimisticSeenRoomIds ↔
    r ∈ s.optimisticSeenRoomIds ∧ ¬ s.ReportedRead rooms r := by
  simp [reconcileUnreadRooms]

theorem mem_unread_reconcile : r ∈ (s.reconcileUnreadRooms rooms).optimisticUnreadRoomIds ↔
    r ∈ s.optimisticUnreadRoomIds ∧ ¬ s.ReportedRead rooms r := by
  simp [reconcileUnreadRooms]

end UnreadState

variable {s t : Dashboard} {mark : MarkRequest} {roomId r : RoomId}

/-- A mark of the current generation has the version of its room exactly when nothing has touched the room since. -/
structure MarkSound (s : Dashboard) (mark : MarkRequest) : Prop where
  generation : mark.generation ≤ s.generation
  past : mark.markedAt < s.now
  version : mark.generation = s.generation → mark.version ≤ s.roomVersions mark.roomId
  touched : mark.generation = s.generation →
    (s.roomVersions mark.roomId = mark.version ↔ s.touched mark.roomId = some mark.markedAt)
  quiet : mark.generation = s.generation → s.alarm mark.roomId ≠ some mark.markedAt
  stood : mark.roomId ∈ mark.before.optimisticSeenRoomIds → mark.stood = true

structure Honest (s : Dashboard) : Prop where
  alarmed : ∀ r m, s.alarm r = some m → r ∈ s.unread.optimisticUnreadRoomIds ∧ r ∉ s.unread.optimisticSeenRoomIds
  alarm : ∀ r m, s.alarm r = some m → s.touched r = some m
  stands : ∀ r ∈ s.unread.optimisticSeenRoomIds, s.standing r = true
  marks : ∀ mark ∈ s.marks, MarkSound s mark

structure Touches (s : Dashboard) (roomId : RoomId) (t : Dashboard) : Prop where
  generation : t.generation = s.generation
  versions : t.roomVersions = Function.update s.roomVersions roomId (s.roomVersions roomId + 1)
  touched : t.touched = Function.update s.touched roomId (some s.now)
  now : t.now = s.now + 1
  alarm : ∃ x, t.alarm = Function.update s.alarm roomId x ∧ ∀ m, x = some m → m = s.now

theorem MarkSound.touches (h : MarkSound s mark) (ht : Touches s roomId t) : MarkSound t mark where
  generation := ht.generation ▸ h.generation
  past := by
    have := h.past
    rw [ht.now]
    omega
  version hgen := by
    have hle := h.version (hgen.trans ht.generation)
    rw [ht.versions, Function.update_apply]
    split
    · rename_i hroom
      rw [hroom] at hle
      omega
    · exact hle
  touched hgen := by
    have hle := h.version (hgen.trans ht.generation)
    have hpast := h.past
    rw [ht.versions, ht.touched, Function.update_apply, Function.update_apply]
    split
    · rename_i hroom
      rw [hroom] at hle
      constructor
      · intro heq
        omega
      · intro heq
        rw [Option.some.injEq] at heq
        omega
    · exact h.touched (hgen.trans ht.generation)
  quiet hgen := by
    have hpast := h.past
    obtain ⟨x, halarm, hx⟩ := ht.alarm
    rw [halarm, Function.update_apply]
    split
    · intro hm
      have := hx _ hm
      omega
    · exact h.quiet (hgen.trans ht.generation)
  stood := h.stood

theorem MarkSound.keep (h : MarkSound s mark) (hgeneration : t.generation = s.generation)
    (hversions : t.roomVersions = s.roomVersions) (htouched : t.touched = s.touched) (hnow : s.now ≤ t.now)
    (halarm : ∀ r m, t.alarm r = some m → s.alarm r = some m) : MarkSound t mark where
  generation := hgeneration ▸ h.generation
  past := Nat.lt_of_lt_of_le h.past hnow
  version := by
    rw [hgeneration, hversions]
    exact h.version
  touched := by
    rw [hgeneration, hversions, htouched]
    exact h.touched
  quiet hgen hm := h.quiet (hgen.trans hgeneration) (halarm _ _ hm)
  stood := h.stood

theorem Honest.alarm_of_unchanged (h : Honest s) (hmark : mark ∈ s.marks) (hunchanged : s.Unchanged mark) :
    s.alarm mark.roomId = none := by
  have hsound := h.marks mark hmark
  obtain ⟨⟨hgen, -⟩, hversion⟩ := hunchanged
  have htouched := (hsound.touched hgen.symm).mp hversion
  cases halarm : s.alarm mark.roomId with
  | none => rfl
  | some m =>
    rw [h.alarm _ m halarm, Option.some.injEq] at htouched
    exact absurd (halarm.trans (congrArg some htouched)) (hsound.quiet hgen.symm)

theorem touches_event (hstep : t = { s.bumpRoom roomId with
    unread := s.unread.applyRealtimeEvent roomId
    alarm := Function.update s.alarm roomId (some s.now)
    standing := Function.update s.standing roomId false
    now := s.now + 1 }) : Touches s roomId t := by
  subst hstep
  exact ⟨rfl, rfl, rfl, rfl, some s.now, rfl, fun m hm => (Option.some.inj hm).symm⟩

theorem touches_mark {unread : UnreadState} {marks : List MarkRequest}
    (hstep : t = { s.mark roomId unread with marks, now := s.now + 1 }) : Touches s roomId t := by
  subst hstep
  exact ⟨rfl, rfl, rfl, rfl, none, rfl, fun m hm => by cases hm⟩

theorem honest_event (h : Honest s) (hstep : t = { s.bumpRoom roomId with
    unread := s.unread.applyRealtimeEvent roomId
    alarm := Function.update s.alarm roomId (some s.now)
    standing := Function.update s.standing roomId false
    now := s.now + 1 }) : Honest t := by
  have htouches := touches_event hstep
  subst hstep
  refine ⟨fun r m hm => ?_, fun r m hm => ?_, fun r hr => ?_, fun mark hmark => (h.marks mark hmark).touches htouches⟩
  · simp only [Function.update_apply] at hm
    simp only [UnreadState.applyRealtimeEvent, UnreadState.mem_including, List.mem_filter]
    split at hm
    · rename_i hr
      simp [hr]
    · rename_i hr
      obtain ⟨hunread, hseen⟩ := h.alarmed r m hm
      exact ⟨.inl hunread, fun hmem => hseen hmem.1⟩
  · simp only [bumpRoom, Function.update_apply] at hm ⊢
    split at hm
    · rename_i hr
      rw [if_pos hr, hm]
    · rename_i hr
      rw [if_neg hr]
      exact h.alarm r m hm
  · simp only [UnreadState.applyRealtimeEvent, List.mem_filter, decide_eq_true_eq] at hr
    simp only [Function.update_of_ne hr.2]
    exact h.stands r hr.1

theorem honest_mark (h : Honest s) {unread : UnreadState} {marks : List MarkRequest}
    (hstep : t = { s.mark roomId unread with marks, now := s.now + 1 })
    (hseen : ∀ r ∈ unread.optimisticSeenRoomIds, r ∈ s.unread.optimisticSeenRoomIds ∨ r = roomId)
    (hunread : ∀ r ∈ s.unread.optimisticUnreadRoomIds, r ≠ roomId → r ∈ unread.optimisticUnreadRoomIds)
    (hmarks : ∀ mark ∈ marks, mark ∈ s.marks ∨ ∃ id kind, mark = s.markRequest id kind roomId) : Honest t := by
  have htouches := touches_mark hstep
  subst hstep
  refine ⟨fun r m hm => ?_, fun r m hm => ?_, fun r hr => ?_, fun mark hmark => ?_⟩
  · simp only [Dashboard.mark, Function.update_apply] at hm
    split at hm
    · cases hm
    · rename_i hne
      obtain ⟨hu, hs⟩ := h.alarmed r m hm
      exact ⟨hunread r hu hne, fun hmem => (hseen r hmem).elim hs hne⟩
  · simp only [Dashboard.mark, bumpRoom, Function.update_apply] at hm ⊢
    split at hm
    · cases hm
    · rename_i hne
      rw [if_neg hne]
      exact h.alarm r m hm
  · simp only [Dashboard.mark, Function.update_apply]
    split
    · rfl
    · rename_i hne
      exact h.stands r ((hseen r hr).resolve_right hne)
  · rcases hmarks mark hmark with hold | ⟨id, kind, rfl⟩
    · exact (h.marks mark hold).touches htouches
    · exact
        { generation := Nat.le_refl _
          past := Nat.lt_succ_self _
          version := fun _ => by
            have hself : Function.update s.roomVersions roomId (s.roomVersions roomId + 1) roomId =
                s.roomVersions roomId + 1 := Function.update_self ..
            exact Nat.le_of_eq hself.symm
          touched := fun _ => iff_of_true (Function.update_self ..) (Function.update_self ..)
          quiet := fun _ hm => by cases (Function.update_self ..).symm.trans hm
          stood := h.stands roomId }

theorem honest_keep (h : Honest s) (hseen : t.unread.optimisticSeenRoomIds = s.unread.optimisticSeenRoomIds)
    (hunread : t.unread.optimisticUnreadRoomIds = s.unread.optimisticUnreadRoomIds)
    (hmarks : ∀ mark ∈ t.marks, mark ∈ s.marks)
    (hgeneration : t.generation = s.generation) (hversions : t.roomVersions = s.roomVersions)
    (htouched : t.touched = s.touched) (hnow : s.now ≤ t.now) (halarm : t.alarm = s.alarm)
    (hstanding : t.standing = s.standing) : Honest t where
  alarmed := by
    rw [hunread, hseen, halarm]
    exact h.alarmed
  alarm := by
    rw [halarm, htouched]
    exact h.alarm
  stands := by
    rw [hseen, hstanding]
    exact h.stands
  marks mark hmark := (h.marks mark (hmarks mark hmark)).keep hgeneration hversions htouched hnow (by simp [halarm])

theorem honest_markRoomRead (h : Honest s) (id : RequestId) (roomId : RoomId) :
    Honest { s.markRoomRead id roomId with now := s.now + 1 } := by
  have hseen : ∀ r ∈ (s.unread.beginRead roomId).optimisticSeenRoomIds,
      r ∈ s.unread.optimisticSeenRoomIds ∨ r = roomId := by
    intro r hr
    simpa [UnreadState.beginRead] using hr
  have hunread : ∀ r ∈ s.unread.optimisticUnreadRoomIds, r ≠ roomId →
      r ∈ (s.unread.beginRead roomId).optimisticUnreadRoomIds := by
    intro r hr hne
    simpa [UnreadState.beginRead] using ⟨hr, hne⟩
  unfold markRoomRead
  split
  · exact honest_keep h rfl rfl (fun _ hmark => hmark) rfl rfl rfl (Nat.le_succ _) rfl rfl
  · refine honest_mark h rfl hseen hunread fun mark hmark => ?_
    rw [List.mem_append, List.mem_singleton] at hmark
    exact hmark.imp_right fun heq => ⟨id, .read, heq⟩

theorem honest_markRoomSeen (h : Honest s) (id : RequestId) (roomId : RoomId) (seenAt : Option String) :
    Honest { s.markRoomSeen id roomId seenAt with now := s.now + 1 } := by
  have hseen : ∀ r ∈ (s.unread.beginSeen roomId seenAt).optimisticSeenRoomIds,
      r ∈ s.unread.optimisticSeenRoomIds ∨ r = roomId := fun r hr => UnreadState.mem_including.mp hr
  have hunread : ∀ r ∈ s.unread.optimisticUnreadRoomIds, r ≠ roomId →
      r ∈ (s.unread.beginSeen roomId seenAt).optimisticUnreadRoomIds := by
    intro r hr hne
    simpa [UnreadState.beginSeen] using ⟨hr, hne⟩
  unfold markRoomSeen
  split
  · exact honest_keep h rfl rfl (fun _ hmark => hmark) rfl rfl rfl (Nat.le_succ _) rfl rfl
  · dsimp only
    split
    · refine honest_mark h rfl hseen hunread fun mark hmark => ?_
      rw [List.mem_append, List.mem_singleton] at hmark
      exact hmark.imp_right fun heq => ⟨id, .seen, heq⟩
    · exact honest_mark h rfl hseen hunread fun mark hmark => .inl hmark

/-- A list may end an alarm that it answers, and the mark of a room it reports read. -/
theorem honest_reconcile (h : Honest s) {list : ListRequest} {rooms : List ListedRoom}
    (hlate : ∀ r, s.unread.ReportedRead rooms r → ∀ m ∈ s.alarm r, m < list.askedAt) :
    Honest { s.reconcileUnreadRooms list rooms with now := s.now + 1 } := by
  have hends : ∀ r m, (s.reconcileUnreadRooms list rooms).alarm r = some m →
      s.alarm r = some m ∧ ¬ s.unread.ReportedRead rooms r := by
    intro r m hm
    simp only [reconcileUnreadRooms] at hm
    split at hm
    · rename_i hread
      obtain ⟨hm, hafter⟩ := Option.filter_eq_some_iff.mp hm
      have hbefore := hlate r hread m hm
      have hafter := of_decide_eq_true hafter
      omega
    · rename_i hread
      exact ⟨hm, hread⟩
  refine ⟨fun r m hm => ?_, fun r m hm => h.alarm r m (hends r m hm).1, fun r hr => ?_, fun mark hmark => ?_⟩
  · obtain ⟨halarm, hread⟩ := hends r m hm
    obtain ⟨hunread, hseen⟩ := h.alarmed r m halarm
    refine ⟨UnreadState.mem_unread_reconcile.mpr ⟨hunread, hread⟩, fun hmem => hseen ?_⟩
    exact (UnreadState.mem_seen_reconcile.mp hmem).1
  · obtain ⟨hseen, hread⟩ := UnreadState.mem_seen_reconcile.mp hr
    simp [reconcileUnreadRooms, h.stands r hseen, hread]
  · exact (h.marks mark hmark).keep rfl rfl rfl (Nat.le_succ _) fun r m hm => (hends r m hm).1

theorem honest_undo (h : Honest s) (hmark : mark ∈ s.marks) (hunchanged : s.Unchanged mark)
    (hseen : ∀ r, r ∈ t.unread.optimisticSeenRoomIds ↔
      if r = mark.roomId then r ∈ mark.before.optimisticSeenRoomIds else r ∈ s.unread.optimisticSeenRoomIds)
    (hunread : ∀ r ≠ mark.roomId, r ∈ s.unread.optimisticUnreadRoomIds → r ∈ t.unread.optimisticUnreadRoomIds)
    (hmarks : ∀ m ∈ t.marks, m ∈ s.marks) (hgeneration : t.generation = s.generation)
    (hversions : t.roomVersions = s.roomVersions) (htouched : t.touched = s.touched) (hnow : s.now ≤ t.now)
    (halarm : t.alarm = s.alarm) (hstanding : t.standing = Function.update s.standing mark.roomId mark.stood) :
    Honest t where
  alarmed r m hm := by
    rw [halarm] at hm
    have hne : r ≠ mark.roomId := by
      rintro rfl
      rw [h.alarm_of_unchanged hmark hunchanged] at hm
      cases hm
    obtain ⟨hu, hs⟩ := h.alarmed r m hm
    refine ⟨hunread r hne hu, fun hmem => hs ?_⟩
    have := (hseen r).mp hmem
    rwa [if_neg hne] at this
  alarm := by
    rw [halarm, htouched]
    exact h.alarm
  stands r hr := by
    have hr := (hseen r).mp hr
    rw [hstanding, Function.update_apply]
    split
    · rename_i heq
      rw [if_pos heq] at hr
      exact (h.marks mark hmark).stood (heq ▸ hr)
    · rename_i hne
      rw [if_neg hne] at hr
      exact h.stands r hr
  marks m hm := (h.marks m (hmarks m hm)).keep hgeneration hversions htouched hnow (by simp [halarm])

theorem mem_seen_restore_iff {u before : UnreadState} : r ∈ (u.restore before roomId).optimisticSeenRoomIds ↔
    if r = roomId then r ∈ before.optimisticSeenRoomIds else r ∈ u.optimisticSeenRoomIds := by
  split
  · rename_i heq
    subst heq
    exact UnreadState.mem_seen_restore
  · rename_i hne
    exact UnreadState.mem_seen_restore_of_ne hne

theorem mem_unread_restore_iff {u before : UnreadState} : r ∈ (u.restore before roomId).optimisticUnreadRoomIds ↔
    if r = roomId then r ∈ before.optimisticUnreadRoomIds else r ∈ u.optimisticUnreadRoomIds := by
  split
  · rename_i heq
    subst heq
    exact UnreadState.mem_unread_restore
  · rename_i hne
    exact UnreadState.mem_unread_restore_of_ne hne

theorem answer_undone (hunchanged : s.Unchanged mark) :
    ((s.answer mark false).standing = Function.update s.standing mark.roomId mark.stood) ∧
      (∀ r, r ∈ (s.answer mark false).unread.optimisticSeenRoomIds ↔
        if r = mark.roomId then r ∈ mark.before.optimisticSeenRoomIds else r ∈ s.unread.optimisticSeenRoomIds) ∧
      ∀ r, r ∈ (s.answer mark false).unread.optimisticUnreadRoomIds ↔
        if r = mark.roomId then r ∈ mark.before.optimisticUnreadRoomIds else r ∈ s.unread.optimisticUnreadRoomIds := by
  cases hkind : mark.kind with
  | read =>
    simp only [answer, hkind, if_pos hunchanged.1, true_and, if_pos hunchanged]
    exact ⟨rfl, fun r => mem_seen_restore_iff, fun r => mem_unread_restore_iff⟩
  | seen =>
    simp only [answer, hkind, true_and, if_pos hunchanged]
    exact ⟨rfl, fun r => mem_seen_restore_iff, fun r => mem_unread_restore_iff⟩

theorem answer_kept {ok : Bool} (hkept : ¬ (ok = false ∧ s.Unchanged mark)) :
    (s.answer mark ok).standing = s.standing ∧
      (s.answer mark ok).unread.optimisticSeenRoomIds = s.unread.optimisticSeenRoomIds ∧
      (s.answer mark ok).unread.optimisticUnreadRoomIds = s.unread.optimisticUnreadRoomIds := by
  cases hkind : mark.kind with
  | read =>
    simp only [answer, hkind, if_neg hkept]
    split <;> exact ⟨rfl, rfl, rfl⟩
  | seen => simp only [answer, hkind, if_neg hkept, and_self]

theorem answer_frame (ok : Bool) :
    (s.answer mark ok).marks = s.marks.filter (·.id ≠ mark.id) ∧ (s.answer mark ok).generation = s.generation ∧
      (s.answer mark ok).roomVersions = s.roomVersions ∧ (s.answer mark ok).touched = s.touched ∧
      (s.answer mark ok).alarm = s.alarm ∧ (s.answer mark ok).accountId = s.accountId := by
  unfold answer
  dsimp only
  repeat' split
  all_goals exact ⟨rfl, rfl, rfl, rfl, rfl, rfl⟩

theorem honest_answer (h : Honest s) (hmark : mark ∈ s.marks) (ok : Bool) :
    Honest { s.answer mark ok with now := s.now + 1 } := by
  obtain ⟨hmarks, hgeneration, hversions, htouched, halarm, -⟩ := @answer_frame s mark ok
  have hold : ∀ m ∈ (s.answer mark ok).marks, m ∈ s.marks := by
    rw [hmarks]
    exact fun m hm => (List.mem_filter.mp hm).1
  by_cases hfailed : ok = false ∧ s.Unchanged mark
  · obtain ⟨rfl, hunchanged⟩ := hfailed
    obtain ⟨hstanding, hseen, hunread⟩ := answer_undone hunchanged
    refine honest_undo h hmark hunchanged hseen (fun r hne hr => ?_) hold hgeneration hversions htouched
      (Nat.le_succ _) halarm hstanding
    exact (hunread r).mpr (by rwa [if_neg hne])
  · obtain ⟨hstanding, hseen, hunread⟩ := answer_kept hfailed
    exact honest_keep h hseen hunread hold hgeneration hversions htouched (Nat.le_succ _) halarm hstanding

theorem honest_reset (h : Honest s) : Honest { s.resetUnreadState with now := s.now + 1 } where
  alarmed r m hm := by cases hm
  alarm r m hm := by cases hm
  stands r hr := by cases hr
  marks mark hmark := by
    have hgen := (h.marks mark hmark).generation
    have hpast := (h.marks mark hmark).past
    refine ⟨Nat.le_succ_of_le hgen, Nat.lt_succ_of_lt hpast, ?_, ?_, ?_, (h.marks mark hmark).stood⟩
    all_goals
      intro heq
      change mark.generation = s.generation + 1 at heq
      omega

def Quiet (s : Dashboard) (roomId : RoomId) : Prop := ∀ mark ∈ s.marks, s.SameAccount mark → mark.roomId ≠ roomId
deriving Decidable

/-- A list is of the current account, it reports a room read only if it was asked for after the last event of the room, and it reports no room unread whose last mark stands, once the requests of the room have finished. -/
def Fresh (s : Dashboard) : UnreadAction → Prop
  | .rooms id rooms => ∀ list ∈ s.lists id,
      (list.generation = s.generation ∧ list.accountId = s.accountId) ∧
      (∀ room ∈ rooms, s.unread.ReportedRead rooms room.roomId → ∀ m ∈ s.alarm room.roomId, m < list.askedAt) ∧
      ∀ room ∈ rooms, room.hasUnread = true → Quiet s room.roomId → s.answeredAt room.roomId ≤ list.askedAt →
        s.standing room.roomId = false
  | _ => True

instance (a : UnreadAction) : Decidable (Fresh s a) := by
  unfold Fresh
  split <;> infer_instance

theorem honest_step {a : UnreadAction} (h : Honest s) (hfresh : Fresh s a) (hstep : dashboard.step s a = some t) :
    Honest t := by
  obtain ⟨u, hu, rfl⟩ := Option.map_eq_some_iff.mp hstep
  have hsame : Honest { s with now := s.now + 1 } :=
    honest_keep h rfl rfl (fun _ hmark => hmark) rfl rfl rfl (Nat.le_succ _) rfl rfl
  cases a with
  | event roomId type =>
    cases hu
    simp only [applyRealtimeEvent]
    split
    · exact hsame
    · split
      · exact honest_event h rfl
      · exact hsame
  | askRooms id =>
    simp only [perform] at hu
    split at hu
    · cases hu
      exact honest_keep h rfl rfl (fun _ hmark => hmark) rfl rfl rfl (Nat.le_succ _) rfl rfl
    · cases hu
  | rooms id rooms =>
    obtain ⟨list, hlist, rfl⟩ := Option.map_eq_some_iff.mp hu
    obtain ⟨-, hlate, -⟩ := hfresh list hlist
    exact honest_reconcile h fun r hread m hm => hlate _ hread.2 hread m hm
  | markRoomRead id roomId =>
    simp only [perform] at hu
    split at hu
    · cases hu
      exact honest_markRoomRead h id roomId
    · cases hu
  | markRoomSeen id roomId seenAt =>
    simp only [perform] at hu
    split at hu
    · cases hu
      exact honest_markRoomSeen h id roomId _
    · cases hu
  | answered id ok =>
    obtain ⟨mark, hmark, rfl⟩ := Option.map_eq_some_iff.mp hu
    exact honest_answer h (List.mem_of_find?_eq_some hmark) ok
  | activate accountId =>
    cases hu
    exact honest_keep h rfl rfl (fun _ hmark => hmark) rfl rfl rfl (Nat.le_succ _) rfl rfl
  | resetUnreadState =>
    cases hu
    exact honest_reset h

def ShownAlike (s t : Dashboard) (roomId : RoomId) : Prop :=
  ∀ p, t.unread.isRoomUnread roomId p = s.unread.isRoomUnread roomId p

/-- What the dashboard shows after a step: a mark and its answer leave other rooms alone, a failed mark leaves what was shown before it if nothing has touched its room since, an answer to an earlier account changes nothing, and a room reported unread is shown unread once its requests have finished. -/
def Shows (s t : Dashboard) : UnreadAction → Prop
  | .markRoomRead _ roomId | .markRoomSeen _ roomId _ => ∀ r ≠ roomId, ShownAlike s t r
  | .answered id ok => ∀ mark ∈ s.marks.find? (·.id = id),
      (∀ r ≠ mark.roomId, ShownAlike s t r) ∧ (¬ s.SameAccount mark → t.unread = s.unread) ∧
      (ok = false → s.SameAccount mark → s.touched mark.roomId = some mark.markedAt → ∀ p,
        t.unread.isRoomUnread mark.roomId p = mark.before.isRoomUnread mark.roomId p)
  | .rooms id rooms => ∀ list ∈ s.lists id, ∀ room ∈ rooms, room.hasUnread = true → Quiet s room.roomId →
      s.answeredAt room.roomId ≤ list.askedAt → t.unread.isRoomUnread room.roomId true = true
  | _ => True

theorem shownAlike_markRoomRead (id : RequestId) (hne : r ≠ roomId) : ShownAlike s (s.markRoomRead id roomId) r := by
  unfold markRoomRead
  split
  · exact fun _ => rfl
  · refine UnreadState.isRoomUnread_congr ?_ ?_
    · simp [Dashboard.mark, UnreadState.beginRead, hne]
    · simp [Dashboard.mark, UnreadState.beginRead, hne]

theorem shownAlike_beginSeen {u : UnreadState} {seenAt : Option String} (hne : r ≠ roomId) (p : Bool) :
    (u.beginSeen roomId seenAt).isRoomUnread r p = u.isRoomUnread r p := by
  refine UnreadState.isRoomUnread_congr ?_ ?_ p
  · show r ∈ UnreadState.including u.optimisticSeenRoomIds roomId ↔ _
    rw [UnreadState.mem_including, or_iff_left hne]
  · simp [UnreadState.beginSeen, hne]

theorem shownAlike_markRoomSeen (id : RequestId) {seenAt : Option String} (hne : r ≠ roomId) :
    ShownAlike s (s.markRoomSeen id roomId seenAt) r := by
  unfold markRoomSeen
  dsimp only
  split
  · exact fun _ => rfl
  · split <;> exact shownAlike_beginSeen hne

theorem shownAlike_answer {ok : Bool} (hne : r ≠ mark.roomId) : ShownAlike s (s.answer mark ok) r := by
  by_cases hfailed : ok = false ∧ s.Unchanged mark
  · obtain ⟨rfl, hunchanged⟩ := hfailed
    obtain ⟨-, hseen, hunread⟩ := answer_undone hunchanged
    refine UnreadState.isRoomUnread_congr ?_ ?_
    · rw [hseen, if_neg hne]
    · rw [hunread, if_neg hne]
  · obtain ⟨-, hseen, hunread⟩ := answer_kept hfailed
    refine UnreadState.isRoomUnread_congr ?_ ?_
    · rw [hseen]
    · rw [hunread]

theorem answer_of_other_account {ok : Bool} (hother : ¬ s.SameAccount mark) : (s.answer mark ok).unread = s.unread := by
  have hchanged : ¬ (ok = false ∧ s.Unchanged mark) := fun h => hother h.2.1
  cases hkind : mark.kind <;> simp [answer, hkind, hchanged, hother]

theorem Honest.isRoomUnread_answer (h : Honest s) (hmark : mark ∈ s.marks) (hsame : s.SameAccount mark)
    (htouched : s.touched mark.roomId = some mark.markedAt) (p : Bool) :
    (s.answer mark false).unread.isRoomUnread mark.roomId p = mark.before.isRoomUnread mark.roomId p := by
  have hversion := ((h.marks mark hmark).touched hsame.1.symm).mpr htouched
  obtain ⟨-, hseen, hunread⟩ := answer_undone ⟨hsame, hversion⟩
  refine UnreadState.isRoomUnread_congr ?_ ?_ p
  · rw [hseen, if_pos rfl]
  · rw [hunread, if_pos rfl]

theorem Honest.shows {a : UnreadAction} (h : Honest s) (hfresh : Fresh s a) (hstep : dashboard.step s a = some t) :
    Shows s t a := by
  obtain ⟨u, hu, rfl⟩ := Option.map_eq_some_iff.mp hstep
  cases a with
  | event roomId type => trivial
  | askRooms id => trivial
  | rooms id rooms =>
    intro list hlist room hroom hunread hquiet hafter
    obtain ⟨-, -, hstands⟩ := hfresh list hlist
    have hnot := hstands room hroom hunread hquiet hafter
    obtain ⟨list, -, rfl⟩ := Option.map_eq_some_iff.mp hu
    have hseen : room.roomId ∉ (s.unread.reconcileUnreadRooms rooms).optimisticSeenRoomIds := by
      intro hmem
      rw [h.stands _ (UnreadState.mem_seen_reconcile.mp hmem).1] at hnot
      cases hnot
    simp [reconcileUnreadRooms, UnreadState.isRoomUnread, hseen]
  | markRoomRead id roomId =>
    simp only [perform] at hu
    split at hu
    · cases hu
      exact fun r hne => shownAlike_markRoomRead id hne
    · cases hu
  | markRoomSeen id roomId seenAt =>
    simp only [perform] at hu
    split at hu
    · cases hu
      exact fun r hne => shownAlike_markRoomSeen id hne
    · cases hu
  | answered id ok =>
    intro mark hmark
    simp only [perform, Option.mem_def.mp hmark, Option.map_some, Option.some.injEq] at hu
    subst hu
    refine ⟨fun r hne => shownAlike_answer hne, answer_of_other_account, ?_⟩
    rintro rfl hsame htouched
    exact h.isRoomUnread_answer (List.mem_of_find?_eq_some hmark) hsame htouched
  | activate accountId => trivial
  | resetUnreadState => trivial

/-- In every run whose room lists are fresh, an event of a room is shown until the room is marked or a list asked for after the event reports it read, and every further step shows what it has to. -/
theorem event_stays_shown {actions : List UnreadAction} (hmeets : dashboard.Meets Fresh {} actions)
    (hrun : dashboard.run {} actions = some s) :
    (∀ r m, s.alarm r = some m → ∀ p, s.unread.isRoomUnread r p = true) ∧
      ∀ a t, Fresh s a → dashboard.step s a = some t → Shows s t a := by
  have hstart : Honest {} := by
    refine ⟨fun r m hm => ?_, fun r m hm => ?_, fun r hr => ?_, fun mark hmark => ?_⟩
    · cases hm
    · cases hm
    · cases hr
    · cases hmark
  have h := dashboard.run_invariant_of_meets (P := Honest) (fun s a t h hfresh hstep => honest_step h hfresh hstep)
    hstart hmeets hrun
  refine ⟨fun r m hm p => ?_, fun a t hfresh hstep => h.shows hfresh hstep⟩
  obtain ⟨hunread, hseen⟩ := h.alarmed r m hm
  rw [UnreadState.isRoomUnread, if_neg hseen, decide_eq_true hunread, Bool.or_true]

/-- A message is read, and the read fails. -/
def readFails : List UnreadAction :=
  [.event (some "rm_1") .message, .markRoomRead 1 "rm_1", .event (some "rm_2") .system]

theorem event_stays_shown_failed : ∃ s t, dashboard.run {} readFails = some s ∧
    dashboard.step s (.answered 1 false) = some t ∧ s.unread.isRoomUnread "rm_2" false = true ∧
    s.unread.isRoomUnread "rm_1" true = false ∧ Shows s t (.answered 1 false) := by
  have hmeets : dashboard.Meets Fresh {} readFails := by decide +kernel
  have hrun : (dashboard.run {} readFails).any (fun s =>
      s.alarm "rm_2" = some 2 ∧ s.unread.isRoomUnread "rm_1" true = false ∧
        (dashboard.step s (.answered 1 false)).isSome) = true := by decide +kernel
  obtain ⟨s, hrun, hs⟩ := Option.any_eq_true _ _ |>.mp hrun
  obtain ⟨halarm, hread, hstep⟩ := of_decide_eq_true hs
  obtain ⟨t, hstep⟩ := Option.isSome_iff_exists.mp hstep
  obtain ⟨hshown, hshows⟩ := event_stays_shown hmeets hrun
  exact ⟨s, t, hrun, hstep, hshown _ _ halarm false, hread, hshows _ t trivial hstep⟩

/-- The list was asked for before the message, and says that there is none. -/
def staleList : List UnreadAction :=
  [.askRooms 1, .event (some "rm_1") .message, .rooms 1 [{ roomId := "rm_1", hasUnread := false }]]

/-- Two marks of a room fail; only the second is the last of its room, and what it puts back is the first. -/
def bothFail : List UnreadAction :=
  [.event (some "rm_1") .message, .markRoomSeen 1 "rm_1" (some "2025-01-01T00:00:00Z"), .markRoomRead 2 "rm_1",
    .answered 1 false, .answered 2 false, .askRooms 1, .rooms 1 [{ roomId := "rm_1", hasUnread := true }]]

/-- A message is hidden by a list that is older, and a room that the server reports unread stays hidden when no request is left. -/
theorem message_hidden :
    (∃ s, dashboard.run {} staleList = some s ∧ s.alarm "rm_1" = some 1 ∧ s.unread.isRoomUnread "rm_1" false = false) ∧
      ∃ s, dashboard.run {} bothFail = some s ∧ s.marks = [] ∧ s.unread.isRoomUnread "rm_1" true = false := by
  have hstale : (dashboard.run {} staleList).any (fun s =>
      s.alarm "rm_1" = some 1 ∧ s.unread.isRoomUnread "rm_1" false = false) = true := by decide +kernel
  have hboth : (dashboard.run {} bothFail).any (fun s =>
      s.marks.isEmpty ∧ s.unread.isRoomUnread "rm_1" true = false) = true := by decide +kernel
  obtain ⟨s, hs, hstale⟩ := Option.any_eq_true _ _ |>.mp hstale
  obtain ⟨t, ht, hboth⟩ := Option.any_eq_true _ _ |>.mp hboth
  obtain ⟨halarm, hhidden⟩ := of_decide_eq_true hstale
  obtain ⟨hmarks, hleft⟩ := of_decide_eq_true hboth
  exact ⟨⟨s, hs, halarm, hhidden⟩, t, ht, List.isEmpty_iff.mp hmarks, hleft⟩

end BotCord.Dashboard
