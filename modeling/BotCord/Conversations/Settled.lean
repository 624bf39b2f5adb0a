import BotCord.Conversations.Drains

/-!
# What the directory converges to

Over whole runs: a sync that is asked for while another is pending goes out, a cursor comes with its rows, and after a drain that completes the rooms are the server's. A late event is where this fails.
-/

namespace BotCord.Conversations

open Dashboard (RoomId AccountId)

/-- What may become of a sync that was asked for while another was pending. -/
structure Onward (s t : State) : Prop where
  generation : s.generation ≤ t.generation
  requests : s.requests ≤ t.requests
  asked : t.generation = s.generation → s.requestedAgain = true → s.pending ≠ none →
    s.requests < t.requests ∨ (t.requestedAgain = true ∧ t.pending ≠ none)

section Onward

variable {s t u : State} {i : ℕ} {drain : Drain}

theorem Onward.of_same (hgeneration : t.generation = s.generation) (hrequests : t.requests = s.requests)
    (hagain : s.requestedAgain = true → t.requestedAgain = true) (hpending : t.pending = s.pending) : Onward s t where
  generation := Nat.le_of_eq hgeneration.symm
  requests := Nat.le_of_eq hrequests.symm
  asked _ h h' := .inr ⟨hagain h, hpending ▸ h'⟩

theorem Onward.trans (h : Onward s t) (h' : Onward t u) : Onward s u where
  generation := Nat.le_trans h.generation h'.generation
  requests := Nat.le_trans h.requests h'.requests
  asked hsame hagain hpending := by
    have hle := h.generation
    have hle' := h'.generation
    have hrequests := h.requests
    have hrequests' := h'.requests
    obtain hmore | ⟨hagain, hpending⟩ := h.asked (by omega) hagain hpending
    · exact .inl (by omega)
    · obtain hmore | hstill := h'.asked (by omega) hagain hpending
      · exact .inl (by omega)
      · exact .inr hstill

theorem onward_persist (s : State) : Onward s s.persist := by
  rw [persist_eq]
  exact .of_same rfl rfl (fun h => h) rfl

theorem onward_activate (s : State) (accountId : Option AccountId) (forget : Bool) : Onward s (s.activate accountId forget) := by
  have hforget : Onward s s.forget := by
    rw [forget_eq]
    exact .of_same rfl rfl (fun h => h) rfl
  have hswitch : ∀ t u : State, Onward s t → u.generation = t.generation + 1 → u.requests = t.requests → Onward s u := by
    intro t u ht hgeneration hrequests
    refine ht.trans ⟨by omega, Nat.le_of_eq hrequests.symm, fun hsame => ?_⟩
    omega
  unfold State.activate
  cases forget with
  | false =>
    simp only [Bool.false_eq_true, if_false]
    split
    · exact .of_same rfl rfl (fun h => h) rfl
    · exact hswitch s _ (.of_same rfl rfl (fun h => h) rfl) rfl rfl
  | true =>
    simp only [if_true]
    split
    · exact hforget
    · exact hswitch s.forget _ hforget rfl rfl

theorem onward_sync (s : State) : Onward s s.sync := by
  unfold State.sync
  split
  · exact .of_same rfl rfl (fun h => h) rfl
  · split
    · exact .of_same rfl rfl (fun _ => rfl) rfl
    · exact ⟨Nat.le_refl _, Nat.le_succ _, fun _ _ _ => .inl (Nat.lt_succ_self _)⟩

theorem onward_patch (s : State) (r : RoomId) (p : Patch) : Onward s (s.patch r p) := by
  unfold State.patch
  split
  · exact .of_same rfl rfl (fun h => h) rfl
  · refine Onward.trans ?_ (onward_persist _)
    exact .of_same rfl rfl (fun h => h) rfl

theorem onward_onEvent (s : State) (event : Event) : Onward s (s.onEvent event) := by
  unfold State.onEvent
  split
  · split
    · exact (onward_patch s _ _).trans (onward_sync _)
    · exact onward_sync s
  · exact .of_same rfl rfl (fun h => h) rfl

theorem onward_endDrain (h : s.Current drain → s.requestedAgain = false) : Onward s (s.endDrain i drain) := by
  unfold State.endDrain
  dsimp only
  split
  · rename_i hcurrent
    refine ⟨Nat.le_refl _, Nat.le_refl _, fun _ hagain _ => ?_⟩
    cases (h hcurrent).symm.trans hagain
  · exact .of_same rfl rfl (fun h => h) rfl

theorem onward_failDrain {message : String} (h : s.Current drain → s.requestedAgain = false) :
    Onward s (s.failDrain i drain message) := by
  unfold State.failDrain
  split
  · refine Onward.trans (t := { s with error := some message }) ?_ (onward_endDrain h)
    exact .of_same rfl rfl (fun h => h) rfl
  · exact onward_endDrain h

theorem onward_resume (h : s.Current drain → s.requestedAgain = true → drain.page + 1 < 100) :
    Onward s (s.resume i drain) := by
  unfold State.resume
  split
  · exact ⟨Nat.le_refl _, Nat.le_succ _, fun _ _ _ => .inl (Nat.lt_succ_self _)⟩
  · rename_i hlast
    refine onward_endDrain fun hcurrent => ?_
    rw [← Bool.not_eq_true]
    exact fun hagain => hlast ⟨h hcurrent hagain, hcurrent⟩

theorem onward_deliver {answer : Answer}
    (h : s.Current drain → answer.accountId ≠ drain.accountId → s.requestedAgain = false) :
    Onward s (s.deliver i drain answer) := by
  unfold State.deliver
  split
  · rename_i hcurrent
    split
    · have hpage : Onward s (s.applyPage drain answer) := by
        rw [applyPage_eq]
        exact .of_same rfl rfl (fun hagain => by simp [State.takePage, hagain]) rfl
      dsimp only
      split
      · rename_i hlast
        exact hpage.trans (onward_endDrain fun _ => hlast.2)
      · exact hpage.trans (.of_same rfl rfl (fun h => h) rfl)
    · rename_i hother
      exact onward_failDrain fun hcurrent => h hcurrent hother
  · rename_i hfenced
    exact onward_endDrain fun hcurrent => absurd hcurrent hfenced

theorem onward_step {w w' : World} {a : Action} (hgranted : Granted w a) (hstep : w.step a = some w') :
    Onward w.store w'.store := by
  cases a with
  | activate accountId forget =>
    cases hstep
    exact onward_activate ..
  | setView =>
    cases hstep
    exact onward_persist _
  | sync =>
    cases hstep
    exact onward_sync _
  | patch r p =>
    cases hstep
    exact onward_patch ..
  | event event =>
    cases hstep
    exact onward_onEvent ..
  | serve i answer =>
    obtain ⟨drain, -, -, rfl⟩ := step_serve hstep
    exact .of_same rfl rfl (fun h => h) rfl
  | deliver i =>
    obtain ⟨drain, answer, hi, hstage, rfl⟩ := step_deliver hstep
    exact onward_deliver fun hcurrent hother => hgranted drain hi hcurrent answer hstage hother
  | fail i message =>
    obtain ⟨drain, hi, -, rfl⟩ := step_fail hstep
    exact onward_failDrain (hgranted drain hi)
  | resume i =>
    obtain ⟨drain, hi, -, rfl⟩ := step_resume hstep
    exact onward_resume (hgranted drain hi)
  | write accountId roomId room =>
    cases hstep
    exact .of_same rfl rfl (fun h => h) rfl
  | newEpoch accountId =>
    cases hstep
    exact .of_same rfl rfl (fun h => h) rfl
  | storage works =>
    cases hstep
    exact .of_same rfl rfl (fun h => h) rfl

end Onward

/-- The server keeps to the protocol, patches are timely, and no drain that was asked to go on ends early. -/
def Fair (w : World) (a : Action) : Prop := Protocol w a ∧ Timely w a ∧ Granted w a

section Runs

variable {w w' : World} {actions : List Action}

theorem sound_run (h : Sound w) (hmeets : directory.Meets Fair w actions) (hrun : directory.run w actions = some w') :
    Sound w' :=
  directory.run_invariant_of_meets (fun _ _ _ hsound hfair hstep => hsound.step hfair.1 hfair.2.1 hstep) h hmeets hrun

theorem onward_run (hmeets : directory.Meets Fair w actions) (hrun : directory.run w actions = some w') :
    Onward w.store w'.store := by
  induction actions generalizing w with
  | nil =>
    cases hrun
    exact .of_same rfl rfl (fun h => h) rfl
  | cons a rest ih =>
    obtain ⟨next, hstep, hrest⟩ := directory.run_cons_eq_some.mp hrun
    exact (onward_step hmeets.1.2.2 hstep).trans (ih (hmeets.2 next hstep) hrest)

theorem sync_goes_out {later : List Action} {w₁ w₂ : World} (h : Sound w) (hpending : w.store.pending ≠ none)
    (hsync : directory.step w .sync = some w₁) (hmeets : directory.Meets Fair w₁ later)
    (hrun : directory.run w₁ later = some w₂) (hgeneration : w₂.store.generation = w₁.store.generation)
    (hended : w₂.store.pending = none) : w₁.store.requests < w₂.store.requests := by
  cases hsync
  obtain ⟨i, hi⟩ := Option.ne_none_iff_exists'.mp hpending
  obtain ⟨drain, -, hcurrent, -⟩ := h.store.pending i hi
  have hsync : w.store.sync = { w.store with requestedAgain := true } := by
    simp only [State.sync, hcurrent.2, if_pos hpending]
  have honward := onward_run hmeets hrun
  have hasked := honward.asked hgeneration
  simp only [hsync] at hasked ⊢
  obtain hmore | ⟨-, hstill⟩ := hasked trivial hpending
  · exact hmore
  · exact absurd hended hstill

theorem cursor_step {a : Action} (h : Sound w) (hstep : directory.step w a = some w') :
    w'.store.cursor = w.store.cursor ∨ (∃ accountId forget, a = .activate accountId forget) ∨
      ∃ (i : ℕ) (drain : Drain) (answer : Answer), a = .deliver i ∧ w.store.drains[i]? = some drain ∧
        drain.stage = .answered answer ∧ w'.store.cursor = some answer.nextCursor ∧
        ∀ room ∈ answer.upserts, ∃ row ∈ answer.upserts, row.roomId = room.roomId ∧
          w'.store.rooms room.roomId = some row := by
  have hpersist : ∀ s : State, s.persist.cursor = s.cursor := fun s => by rw [persist_eq]
  have hsync : ∀ s : State, s.sync.cursor = s.cursor := by
    intro s
    unfold State.sync
    split
    · rfl
    · split <;> rfl
  have hpatch : ∀ (s : State) r p, (s.patch r p).cursor = s.cursor := by
    intro s r p
    unfold State.patch
    split
    · rfl
    · exact hpersist _
  have hend : ∀ (s : State) i drain, (s.endDrain i drain).cursor = s.cursor := by
    intro s i drain
    unfold State.endDrain
    dsimp only
    split <;> rfl
  have hfail : ∀ (s : State) i drain message, (s.failDrain i drain message).cursor = s.cursor := by
    intro s i drain message
    unfold State.failDrain
    rw [hend]
    split <;> rfl
  cases a with
  | activate accountId forget => exact .inr (.inl ⟨accountId, forget, rfl⟩)
  | setView =>
    cases hstep
    exact .inl (hpersist _)
  | sync =>
    cases hstep
    exact .inl (hsync _)
  | patch r p =>
    cases hstep
    exact .inl (hpatch ..)
  | event event =>
    cases hstep
    refine .inl ?_
    dsimp only
    unfold State.onEvent
    split
    · rw [hsync]
      split
      · exact hpatch ..
      · rfl
    · rfl
  | serve i answer =>
    obtain ⟨drain, -, -, rfl⟩ := step_serve hstep
    exact .inl rfl
  | fail i message =>
    obtain ⟨drain, -, -, rfl⟩ := step_fail hstep
    exact .inl (hfail ..)
  | resume i =>
    obtain ⟨drain, -, -, rfl⟩ := step_resume hstep
    refine .inl ?_
    dsimp only
    unfold State.resume
    split
    · rfl
    · exact hend ..
  | write accountId roomId room =>
    cases hstep
    exact .inl rfl
  | newEpoch accountId =>
    cases hstep
    exact .inl rfl
  | storage works =>
    cases hstep
    exact .inl rfl
  | deliver i =>
    obtain ⟨drain, answer, hi, hstage, rfl⟩ := step_deliver hstep
    have hactive : drain.stage.Active := hstage ▸ trivial
    by_cases hcurrent : w.store.Current drain
    · by_cases hanswer : answer.accountId = drain.accountId
      · have hstore : (w.store.deliver i drain answer).cursor = (w.store.applyPage drain answer).cursor ∧
            (w.store.deliver i drain answer).rooms = (w.store.applyPage drain answer).rooms := by
          unfold State.deliver
          rw [if_pos hcurrent, if_pos hanswer]
          dsimp only
          split
          · refine ⟨hend .., ?_⟩
            unfold State.endDrain
            dsimp only
            split <;> rfl
          · exact ⟨rfl, rfl⟩
        have hrunning := (h.store.running i drain hi hcurrent.1.symm hactive).2.2
        rw [hstage] at hrunning
        rw [applyPage_eq] at hstore
        cases hskipped : w.store.skipped drain.versions answer.upserts with
        | true =>
          refine .inl (hstore.1.trans ?_)
          simp only [State.takePage, hskipped, if_true]
          exact hrunning.1
        | false =>
          refine .inr (.inr ⟨i, drain, answer, rfl, hi, hstage, hstore.1.trans ?_, fun room hroom => ?_⟩)
          · simp only [State.takePage, hskipped, Bool.false_eq_true, if_false]
          · have hraced := (State.skipped_eq_false _).mp hskipped room hroom
            obtain ⟨-, hall⟩ | ⟨hnot, -⟩ | ⟨-, row, hrow, hid, hkept⟩ := w.store.storeUpserts_cases drain.versions
              (State.removeRooms (if answer.reset then fun _ => none else w.store.rooms) answer.removedIds)
              answer.upserts room.roomId
            · exact absurd (hall room hroom rfl).1 hraced
            · exact absurd hnot hraced
            · exact ⟨row, hrow, hid, (congrFun hstore.2 room.roomId).trans hkept⟩
      · refine .inl ?_
        dsimp only
        unfold State.deliver
        rw [if_pos hcurrent, if_neg hanswer]
        exact hfail ..
    · refine .inl ?_
      dsimp only
      unfold State.deliver
      rw [if_neg hcurrent]
      exact hend ..

/-- A drain ends with a page after which there is nothing more, answered as the server would answer now. -/
structure Completes (w w' : World) (i : ℕ) (drain : Drain) (answer : Answer) : Prop where
  step : directory.step w (.deliver i) = some w'
  found : w.store.drains[i]? = some drain
  stage : drain.stage = .answered answer
  pending : w.store.pending = some i
  account : w.store.accountId = some answer.accountId
  answers : (w.server answer.accountId).Answers drain.cursor answer
  ended : w'.store.pending = none

theorem Completes.latest {i : ℕ} {drain : Drain} {answer : Answer} (h : Sound w) (hc : Completes w w' i drain answer) :
    w'.server = w.server ∧ w'.store.accountId = some answer.accountId ∧ w'.store.cursor = some answer.nextCursor ∧
      ∀ r, answer.nextCursor.Latest (w.server answer.accountId) r := by
  obtain ⟨drain', answer', hi, hstage, rfl⟩ := step_deliver hc.step
  cases hi.symm.trans hc.found
  cases hstage.symm.trans hc.stage
  obtain ⟨other, hother, hcurrent, -⟩ := h.store.pending i hc.pending
  cases hother.symm.trans hi
  have haccount : answer.accountId = drain.accountId := Option.some.inj (hc.account.symm.trans hcurrent.2)
  have hended := hc.ended
  unfold State.deliver at hended ⊢
  rw [if_pos hcurrent, if_pos haccount, applyPage_eq] at hended
  rw [if_pos hcurrent, if_pos haccount, applyPage_eq]
  dsimp only at hended ⊢
  split at hended
  · rename_i hlast
    obtain ⟨hmore, hagain⟩ := hlast
    have hskipped : w.store.skipped drain.versions answer.upserts = false := (Bool.or_eq_false_iff.mp hagain).2
    have hcursor : (w.store.takePage drain answer).cursor = some answer.nextCursor := by
      simp only [State.takePage, hskipped, Bool.false_eq_true, if_false]
    rw [if_pos ⟨hmore, hagain⟩]
    refine ⟨rfl, ?_, ?_, fun r => ⟨hc.answers.epoch, hc.answers.complete hmore r⟩⟩
    · unfold State.endDrain
      dsimp only
      split <;> exact hc.account
    · unfold State.endDrain
      dsimp only
      split <;> exact hcursor
  · cases hc.pending.symm.trans hended

/-- In every run in which the server keeps to the protocol, each patch is made while the server has a change of its room that the stored cursor does not cover, and no drain that was asked to go on ends by a failure or after a hundred pages: rows of an account are neither shown nor persisted for another; a cursor is stored only with every row of its page; a sync that is asked for while another is pending goes out after it; and what the stored cursor covers up to its latest change is as the server has it, which after a completed drain is the whole directory. -/
theorem directory_converges (hmeets : directory.Meets Fair {} actions) (hrun : directory.run {} actions = some w) :
    ((∀ r room, w.store.rooms r = some room → w.store.accountId = some room.account ∧ room.roomId = r) ∧
      ∀ a snapshot, w.store.storage a = some snapshot → ∀ r room, snapshot.rooms r = some room → room.account = a) ∧
    (∀ a w', directory.step w a = some w' → w'.store.cursor = w.store.cursor ∨
      (∃ accountId forget, a = .activate accountId forget) ∨
      ∃ (i : ℕ) (drain : Drain) (answer : Answer), a = .deliver i ∧ w.store.drains[i]? = some drain ∧
        drain.stage = .answered answer ∧ w'.store.cursor = some answer.nextCursor ∧
        ∀ room ∈ answer.upserts, ∃ row ∈ answer.upserts, row.roomId = room.roomId ∧
          w'.store.rooms room.roomId = some row) ∧
    (w.store.pending ≠ none → ∀ w₁ later w₂, directory.step w .sync = some w₁ → directory.Meets Fair w₁ later →
      directory.run w₁ later = some w₂ → w₂.store.generation = w₁.store.generation → w₂.store.pending = none →
      w₁.store.requests < w₂.store.requests) ∧
    (∀ a c, w.store.accountId = some a → w.store.cursor = some c → ∀ r, c.Latest (w.server a) r →
      w.store.rooms r = (w.server a).room r) ∧
    ∀ w' i drain answer, Completes w w' i drain answer → ∀ r, w'.store.rooms r = (w'.server answer.accountId).room r := by
  have h := sound_run sound_start hmeets hrun
  refine ⟨⟨fun r room hroom => ?_, fun a snapshot hsnapshot r room hroom => ((h.store.storage a snapshot hsnapshot).own r room hroom).1⟩,
    fun a w' => cursor_step h, fun hpending w₁ later w₂ hsync hmeets hrun hgeneration hended =>
      sync_goes_out h hpending hsync hmeets hrun hgeneration hended,
    fun a c ha hc => (h.store.store a ha).latest c hc, fun w' i drain answer hcompletes r => ?_⟩
  · cases haccount : w.store.accountId with
    | none =>
      rw [h.store.nobody haccount r] at hroom
      cases hroom
    | some a =>
      obtain ⟨rfl, hid⟩ := (h.store.store a haccount).own r room hroom
      exact ⟨rfl, hid⟩
  · obtain ⟨hserver, haccount, hcursor, hlatest⟩ := hcompletes.latest h
    have hnext : Sound w' := h.step (a := .deliver i) trivial trivial hcompletes.step
    rw [hserver]
    refine (hnext.store.store _ haccount).latest _ hcursor r ?_ |>.trans (by rw [hserver])
    rw [hserver]
    exact hlatest r

end Runs

def row (preview : String) : Room :=
  { account := "a", roomId := "r", lastMessageAt := some 5, lastMessagePreview := some preview }

/-- What the server answers that has changed one room a number of times. -/
def answered (version : ℕ) (reset : Bool) (upserts : List Room) : Answer where
  accountId := "a"
  reset
  upserts
  nextCursor := { epoch := 0, covers := fun r => if r = "r" then version else 0 }

theorem answers_answered {dir : Directory} {cursor : Option Cursor} {n : ℕ} {reset : Bool} {upserts : List Room}
    (hepoch : dir.epoch = 0) (hversion : ∀ r, dir.version r = if r = "r" then n else 0)
    (hupserts : ∀ room ∈ upserts, dir.room room.roomId = some room) (hreset : reset = false ↔ dir.Knows cursor)
    (htold : (∃ room ∈ upserts, room.roomId = "r") ∨ (reset = false ∧ told cursor "r" = n)) :
    dir.Answers cursor (answered n reset upserts) where
  reset := hreset
  epoch := hepoch.symm
  upserts := hupserts
  removed _ h := by cases h
  covers r := Nat.le_of_eq (hversion r).symm
  tells r h := by
    by_cases hr : r = "r"
    · subst hr
      obtain hupsert | ⟨rfl, htold⟩ := htold
      · exact .inl hupsert
      · simp only [answered, htold, Bool.false_eq_true, if_false, if_true] at h
        omega
    · simp [answered, hr] at h
  complete _ r := (hversion r).symm

/-- The message of a room is fetched, recalled and fetched again; then its event arrives, and a third sync has nothing to tell. -/
def hintedLate : List Action :=
  [.write "a" "r" (some (row "hello")), .activate (some "a") false, .sync, .serve 0 (answered 1 true [row "hello"]),
    .deliver 0, .write "a" "r" (some (row "recalled")), .sync, .serve 1 (answered 2 false [row "recalled"]), .deliver 1,
    .event { type := .message, roomId := some "r", createdAt := some 5, preview := some "hello" },
    .serve 2 (answered 2 false [])]

/-- A sync is asked for while another is pending, whose request fails. -/
def failedAgain : List Action := [.activate (some "a") false, .sync, .sync, .fail 0 "offline"]

theorem version_write (dir : Directory) (accountId : AccountId) (room : Option Room) (r : RoomId) :
    (dir.write accountId "r" room).version r = if r = "r" then dir.version "r" + 1 else dir.version r :=
  Function.update_apply ..

theorem versions_once (room : Option Room) (r : RoomId) :
    (Directory.write {} "a" "r" room).version r = if r = "r" then 1 else 0 := by
  rw [version_write]

theorem versions_twice (room room' : Option Room) (r : RoomId) :
    ((Directory.write {} "a" "r" room).write "a" "r" room').version r = if r = "r" then 2 else 0 := by
  rw [version_write, versions_once, versions_once]
  by_cases hr : r = "r"
  · simp only [if_pos hr, if_true]
  · simp only [if_neg hr]

theorem protocol_hintedLate : directory.Meets Protocol {} hintedLate := by
  unfold hintedLate
  refine ⟨trivial, fun w h => ?_⟩
  cases h
  refine ⟨trivial, fun w h => ?_⟩
  cases h
  refine ⟨trivial, fun w h => ?_⟩
  cases h
  refine ⟨fun drain h => ?_, fun w h => ?_⟩
  · cases h
    refine answers_answered rfl (versions_once _) (fun room hroom => ?_) ⟨fun h => (by cases h), fun ⟨c, hc, _⟩ => (by cases hc)⟩
      (.inl ⟨_, List.mem_singleton.mpr rfl, rfl⟩)
    cases List.mem_singleton.mp hroom
    rfl
  cases h
  refine ⟨trivial, fun w h => ?_⟩
  cases h
  refine ⟨trivial, fun w h => ?_⟩
  cases h
  refine ⟨trivial, fun w h => ?_⟩
  cases h
  refine ⟨fun drain h => ?_, fun w h => ?_⟩
  · cases h
    refine answers_answered rfl (versions_twice _ _) (fun room hroom => ?_) ⟨fun _ => ⟨_, rfl, rfl⟩, fun _ => rfl⟩
      (.inl ⟨_, List.mem_singleton.mpr rfl, rfl⟩)
    cases List.mem_singleton.mp hroom
    rfl
  cases h
  refine ⟨trivial, fun w h => ?_⟩
  cases h
  refine ⟨trivial, fun w h => ?_⟩
  cases h
  refine ⟨fun drain h => ?_, fun w h => ?_⟩
  · cases h
    exact answers_answered rfl (versions_twice _ _) (fun room hroom => (by cases hroom))
      ⟨fun _ => ⟨_, rfl, rfl⟩, fun _ => rfl⟩ (.inr ⟨rfl, rfl⟩)
  trivial

/-- The last drain completes, and the row of the room shows the message that was recalled. And a failed request takes with it a sync that was asked for. -/
theorem recalled_text_stays :
    (directory.Meets Protocol {} hintedLate ∧ ∃ w w' drain, directory.run {} hintedLate = some w ∧
      Completes w w' 2 drain (answered 2 false []) ∧ w'.store.rooms "r" ≠ (w'.server "a").room "r") ∧
    ∃ w, directory.run {} failedAgain = some w ∧ w.store.pending = none ∧ w.store.requests = 1 := by
  refine ⟨⟨protocol_hintedLate, _, _, _, rfl, ⟨rfl, rfl, rfl, rfl, rfl, ?_, rfl⟩, ?_⟩, _, rfl, rfl, rfl⟩
  · exact answers_answered rfl (versions_twice _ _) (fun room hroom => (by cases hroom))
      ⟨fun _ => ⟨_, rfl, rfl⟩, fun _ => rfl⟩ (.inr ⟨rfl, rfl⟩)
  · decide +kernel

/-- The event comes in time: the drain that it starts fetches the room again. -/
def hintedInTime : List Action :=
  [.write "a" "r" (some (row "hello")), .activate (some "a") false, .sync, .serve 0 (answered 1 true [row "hello"]),
    .deliver 0, .write "a" "r" (some (row "recalled")),
    .event { type := .message, roomId := some "r", createdAt := some 5, preview := some "hello" },
    .serve 1 (answered 2 false [row "recalled"])]

theorem fair_hintedInTime : directory.Meets Fair {} hintedInTime := by
  unfold hintedInTime
  refine ⟨⟨trivial, trivial, trivial⟩, fun w h => ?_⟩
  cases h
  refine ⟨⟨trivial, trivial, trivial⟩, fun w h => ?_⟩
  cases h
  refine ⟨⟨trivial, trivial, trivial⟩, fun w h => ?_⟩
  cases h
  refine ⟨⟨fun drain h => ?_, trivial, trivial⟩, fun w h => ?_⟩
  · cases h
    refine answers_answered rfl (versions_once _) (fun room hroom => ?_)
      ⟨fun h => (by cases h), fun ⟨c, hc, _⟩ => (by cases hc)⟩ (.inl ⟨_, List.mem_singleton.mpr rfl, rfl⟩)
    cases List.mem_singleton.mp hroom
    rfl
  cases h
  refine ⟨⟨trivial, trivial, fun drain h hcurrent answer hstage hother => ?_⟩, fun w h => ?_⟩
  · cases h
    cases hstage
    exact absurd rfl hother
  cases h
  refine ⟨⟨trivial, trivial, trivial⟩, fun w h => ?_⟩
  cases h
  refine ⟨⟨trivial, fun r p _ h _ a ha c hc hlatest => ?_, trivial⟩, fun w h => ?_⟩
  · cases h
    cases ha
    cases hc
    exact absurd hlatest.2 (by decide)
  cases h
  refine ⟨⟨fun drain h => ?_, trivial, trivial⟩, fun w h => ?_⟩
  · cases h
    refine answers_answered rfl (versions_twice _ _) (fun room hroom => ?_) ⟨fun _ => ⟨_, rfl, rfl⟩, fun _ => rfl⟩
      (.inl ⟨_, List.mem_singleton.mpr rfl, rfl⟩)
    cases List.mem_singleton.mp hroom
    rfl
  trivial

theorem directory_converges_recalled : ∃ w w' drain, directory.run {} hintedInTime = some w ∧
    Completes w w' 1 drain (answered 2 false [row "recalled"]) ∧ ∀ r, w'.store.rooms r = (w'.server "a").room r := by
  have hcompletes : ∃ w w' drain, directory.run {} hintedInTime = some w ∧
      Completes w w' 1 drain (answered 2 false [row "recalled"]) := by
    refine ⟨_, _, _, rfl, rfl, rfl, rfl, rfl, rfl, ?_, rfl⟩
    refine answers_answered rfl (versions_twice _ _) (fun room hroom => ?_) ⟨fun _ => ⟨_, rfl, rfl⟩, fun _ => rfl⟩
      (.inl ⟨_, List.mem_singleton.mpr rfl, rfl⟩)
    cases List.mem_singleton.mp hroom
    rfl
  obtain ⟨w, w', drain, hrun, hcompletes⟩ := hcompletes
  exact ⟨w, w', drain, hrun, hcompletes, (directory_converges fair_hintedInTime hrun).2.2.2.2 w' 1 drain _ hcompletes⟩

end BotCord.Conversations
