import BotCord.Conversations.Converges

/-!
# Drains, patches and switches of the account

What holds of the store and of the drains under way, whatever the order of events. A drain of the present generation is the pending one, and until its answer is here the cursor is the one that it asked with; a drain of an earlier generation changes nothing.
-/

namespace BotCord.Conversations

open Dashboard (RoomId AccountId)

def Stage.Active : Stage → Prop
  | .requested | .answered _ | .yielded => True
  | .ended => False

def Running (server : AccountId → Directory) (s : State) (drain : Drain) : Prop :=
  s.accountId = some drain.accountId ∧
    match drain.stage with
    | .requested => drain.cursor = s.cursor
    | .answered answer => drain.cursor = s.cursor ∧ (answer.accountId = drain.accountId →
        answer.Telling (server drain.accountId) drain.accountId drain.cursor)
    | .yielded | .ended => True

structure Good (server : AccountId → Directory) (s : State) : Prop where
  store : ∀ a, s.accountId = some a → Holds (server a) a s.cursor s.rooms
  nobody : s.accountId = none → ∀ r, s.rooms r = none
  storage : ∀ a snapshot, s.storage a = some snapshot → Holds (server a) a snapshot.cursor snapshot.rooms
  generation : ∀ (i : ℕ) (drain : Drain), s.drains[i]? = some drain → drain.generation ≤ s.generation
  pending : ∀ i, s.pending = some i → ∃ drain : Drain, s.drains[i]? = some drain ∧ s.Current drain ∧ drain.stage.Active
  running : ∀ (i : ℕ) (drain : Drain), s.drains[i]? = some drain → drain.generation = s.generation → drain.stage.Active →
    s.pending = some i ∧ Running server s drain

section Store

variable {server server' : AccountId → Directory} {s : State} {i : ℕ} {drain drain' : Drain}

theorem Good.current (h : Good server s) (hi : s.drains[i]? = some drain) (hactive : drain.stage.Active) :
    s.Current drain ↔ drain.generation = s.generation := by
  constructor
  · intro hcurrent
    exact hcurrent.1.symm
  · intro hgeneration
    exact ⟨hgeneration.symm, (h.running i drain hi hgeneration hactive).2.1⟩

theorem Good.later (h : Good server s) (hlater : ∀ a, (server a).Later (server' a)) : Good server' s where
  store a ha := (h.store a ha).later (hlater a)
  nobody := h.nobody
  storage a snapshot ha := (h.storage a snapshot ha).later (hlater a)
  generation := h.generation
  pending := h.pending
  running i drain hi hgeneration hactive := by
    obtain ⟨hpending, haccount, hstage⟩ := h.running i drain hi hgeneration hactive
    refine ⟨hpending, haccount, ?_⟩
    split at hstage
    · exact hstage
    · obtain ⟨hcursor, htelling⟩ := hstage
      exact ⟨hcursor, fun hanswer => (htelling hanswer).later (hlater _)
        (hcursor ▸ (h.store drain.accountId haccount).below)⟩
    · trivial
    · trivial

theorem persist_eq (s : State) : s.persist = { s with storage := s.persist.storage } := by
  unfold State.persist
  split
  · rfl
  · split <;> rfl

theorem persist_storage {a : AccountId} {snapshot : Snapshot} (h : s.persist.storage a = some snapshot) :
    s.storage a = some snapshot ∨ (s.accountId = some a ∧ snapshot = { cursor := s.cursor, rooms := s.rooms }) := by
  unfold State.persist at h
  split at h
  · exact .inl h
  · rename_i accountId haccount
    split at h
    · by_cases ha : a = accountId
      · subst ha
        cases (Function.update_self ..).symm.trans h
        exact .inr ⟨haccount, rfl⟩
      · exact .inl ((Function.update_of_ne ha ..).symm.trans h)
    · exact .inl h

theorem Good.persist (h : Good server s) : Good server s.persist := by
  have hstorage : ∀ a snapshot, s.persist.storage a = some snapshot → Holds (server a) a snapshot.cursor snapshot.rooms := by
    intro a snapshot hsnapshot
    obtain hold | ⟨haccount, rfl⟩ := persist_storage hsnapshot
    · exact h.storage a snapshot hold
    · exact h.store a haccount
  rw [persist_eq]
  exact ⟨h.store, h.nobody, hstorage, h.generation, h.pending, h.running⟩

theorem forget_eq (s : State) : s.forget = { s with storage := s.forget.storage } := by
  unfold State.forget
  split
  · rfl
  · split <;> rfl

theorem forget_storage {a : AccountId} {snapshot : Snapshot} (h : s.forget.storage a = some snapshot) :
    s.storage a = some snapshot := by
  unfold State.forget at h
  split at h
  · exact h
  · rename_i accountId _
    split at h
    · by_cases ha : a = accountId
      · subst ha
        cases (Function.update_self ..).symm.trans h
      · exact (Function.update_of_ne ha ..).symm.trans h
    · exact h

theorem Good.forget (h : Good server s) : Good server s.forget := by
  have hstorage : ∀ a snapshot, s.forget.storage a = some snapshot → Holds (server a) a snapshot.cursor snapshot.rooms :=
    fun a snapshot hsnapshot => h.storage a snapshot (forget_storage hsnapshot)
  rw [forget_eq]
  exact ⟨h.store, h.nobody, hstorage, h.generation, h.pending, h.running⟩

theorem Good.switch (h : Good server s) (accountId : Option AccountId) :
    Good server { s with
      generation := s.generation + 1
      pending := none
      requestedAgain := false
      localVersions := fun _ => 0
      accountId
      cursor := (accountId.bind s.storage).bind (·.cursor)
      rooms := ((accountId.bind s.storage).map (·.rooms)).getD fun _ => none
      ready := (accountId.bind s.storage).isSome
      syncing := false
      hasMore := false
      error := none } where
  store a ha := by
    cases ha
    cases hsnapshot : s.storage a with
    | none => simpa [hsnapshot] using holds_empty (server a) a
    | some snapshot => simpa [hsnapshot] using h.storage a snapshot hsnapshot
  nobody hnone := by
    cases hnone
    exact fun _ => rfl
  storage := h.storage
  generation i drain hi := Nat.le_succ_of_le (h.generation i drain hi)
  pending i hi := by cases hi
  running i drain hi hgeneration _ := by
    have hle := h.generation i drain hi
    simp only at hgeneration
    omega

theorem Good.activate (h : Good server s) (accountId : Option AccountId) (forget : Bool) :
    Good server (s.activate accountId forget) := by
  unfold State.activate
  cases forget with
  | false =>
    simp only [Bool.false_eq_true, if_false]
    split
    · exact h
    · exact h.switch accountId
  | true =>
    simp only [if_true]
    split
    · exact h.forget
    · exact h.forget.switch accountId

theorem getElem?_setDrain (hi : s.drains[i]? = some drain) (j : ℕ) :
    (s.setDrain i drain').drains[j]? = if i = j then some drain' else s.drains[j]? := by
  have hlength : i < s.drains.length := (List.getElem?_eq_some_iff.mp hi).1
  simp only [State.setDrain, List.getElem?_set, hlength, if_true]

theorem Good.setDrain (h : Good server s) (hi : s.drains[i]? = some drain) (hactive : drain.stage.Active)
    (hgeneration : drain'.generation = drain.generation) (haccount : drain'.accountId = drain.accountId)
    (hactive' : drain'.stage.Active) (hrunning : s.Current drain → Running server s drain') :
    Good server (s.setDrain i drain') where
  store := h.store
  nobody := h.nobody
  storage := h.storage
  generation j other hj := by
    rw [getElem?_setDrain hi] at hj
    split at hj
    · cases hj
      exact hgeneration ▸ h.generation i drain hi
    · exact h.generation j other hj
  pending j hj := by
    obtain ⟨other, hother, hcurrent, hstage⟩ := h.pending j hj
    by_cases hij : i = j
    · subst hij
      cases hi.symm.trans hother
      refine ⟨drain', ?_, ⟨hcurrent.1.trans hgeneration.symm, ?_⟩, hactive'⟩
      · rw [getElem?_setDrain hi, if_pos rfl]
      · exact hcurrent.2.trans (congrArg some haccount.symm)
    · exact ⟨other, by rw [getElem?_setDrain hi, if_neg hij, hother], hcurrent, hstage⟩
  running j other hj hother hstage := by
    rw [getElem?_setDrain hi] at hj
    split at hj
    · rename_i hij
      cases hj
      subst hij
      have hsame : drain.generation = s.generation := hgeneration.symm.trans hother
      exact ⟨(h.running i drain hi hsame hactive).1, hrunning ((h.current hi hactive).mpr hsame)⟩
    · exact h.running j other hj hother hstage

theorem Good.endDrain (h : Good server s) (hi : s.drains[i]? = some drain) (hactive : drain.stage.Active) :
    Good server (s.endDrain i drain) := by
  have hset : ∀ j, (s.setDrain i { drain with stage := .ended }).drains[j]? =
      if i = j then some { drain with stage := .ended } else s.drains[j]? := getElem?_setDrain hi
  have hgeneration : ∀ (j : ℕ) (other : Drain), (s.setDrain i { drain with stage := .ended }).drains[j]? = some other →
      other.generation ≤ s.generation := by
    intro j other hj
    rw [hset] at hj
    split at hj
    · cases hj
      exact h.generation i drain hi
    · exact h.generation j other hj
  unfold State.endDrain
  dsimp only
  split
  · rename_i hcurrent
    have hsame : drain.generation = s.generation := hcurrent.1.symm
    have hpending := (h.running i drain hi hsame hactive).1
    refine ⟨h.store, h.nobody, h.storage, hgeneration, fun j hj => ?_, fun j other hj hother hstage => ?_⟩
    · cases hj
    · rw [hset] at hj
      split at hj
      · cases hj
        exact hstage.elim
      · rename_i hij
        have hj := (h.running j other hj hother hstage).1
        exact absurd (Option.some.inj (hpending.symm.trans hj)) hij
  · rename_i hfenced
    refine ⟨h.store, h.nobody, h.storage, hgeneration, fun j hj => ?_, fun j other hj hother hstage => ?_⟩
    · obtain ⟨other, hother, hcurrent, hstage⟩ := h.pending j hj
      have hij : i ≠ j := by
        rintro rfl
        cases hi.symm.trans hother
        exact hfenced hcurrent
      exact ⟨other, by rw [hset, if_neg hij, hother], hcurrent, hstage⟩
    · rw [hset] at hj
      split at hj
      · cases hj
        exact hstage.elim
      · exact h.running j other hj hother hstage

theorem Good.failDrain (h : Good server s) (hi : s.drains[i]? = some drain) (hactive : drain.stage.Active)
    (message : String) : Good server (s.failDrain i drain message) := by
  unfold State.failDrain
  split
  · have herror : Good server { s with error := some message } :=
      ⟨h.store, h.nobody, h.storage, h.generation, h.pending, h.running⟩
    exact herror.endDrain hi hactive
  · exact h.endDrain hi hactive

theorem Good.resume (h : Good server s) (hi : s.drains[i]? = some drain) (hactive : drain.stage.Active) :
    Good server (s.resume i drain) := by
  unfold State.resume
  split
  · have hset : Good server (s.setDrain i { drain with
        page := drain.page + 1, versions := s.localVersions, cursor := s.cursor, stage := .requested }) :=
      h.setDrain hi hactive rfl rfl trivial fun hcurrent => ⟨hcurrent.2, rfl⟩
    exact ⟨hset.store, hset.nobody, hset.storage, hset.generation, hset.pending, hset.running⟩
  · exact h.endDrain hi hactive

theorem Good.sync (h : Good server s) : Good server s.sync := by
  unfold State.sync
  split
  · exact h
  · rename_i accountId haccount
    split
    · exact ⟨h.store, h.nobody, h.storage, h.generation, h.pending, h.running⟩
    · rename_i hnone
      rw [not_not] at hnone
      have hnew : ∀ (new : Drain) (j : ℕ) (other : Drain), (s.drains ++ [new])[j]? = some other →
          s.drains[j]? = some other ∨ (j = s.drains.length ∧ other = new) := by
        intro new j other hj
        rw [List.getElem?_append] at hj
        split at hj
        · exact .inl hj
        · rename_i hlength
          rw [List.getElem?_singleton] at hj
          obtain ⟨hzero, heq⟩ := Option.ite_none_right_eq_some.mp hj
          exact .inr ⟨by omega, (Option.some.inj heq).symm⟩
      refine ⟨h.store, h.nobody, h.storage, fun j other hj => ?_, fun j hj => ?_, fun j other hj hother hstage => ?_⟩
      · obtain hold | ⟨-, rfl⟩ := hnew _ j other hj
        · exact h.generation j other hold
        · exact Nat.le_refl _
      · cases hj
        exact ⟨_, List.getElem?_concat_length, ⟨rfl, haccount⟩, trivial⟩
      · obtain hold | ⟨rfl, rfl⟩ := hnew _ j other hj
        · have hpending := (h.running j other hold hother hstage).1
          cases hnone.symm.trans hpending
        · exact ⟨rfl, haccount, rfl⟩

/-- The server has a change of the room that the cursor does not cover. -/
def Announced (server : AccountId → Directory) (s : State) (r : RoomId) : Prop :=
  ∀ a, s.accountId = some a → ∀ c ∈ s.cursor, ¬ c.Latest (server a) r

theorem patchable_eq_some {r : RoomId} {p : Patch} {existing : Room} (h : s.patchable r p = some existing) :
    s.rooms r = some existing := (Option.filter_eq_some_iff.mp h).1

theorem Good.patch (h : Good server s) {r : RoomId} {p : Patch}
    (hannounced : (s.patchable r p).isSome → Announced server s r) : Good server (s.patch r p) := by
  unfold State.patch
  split
  · exact h
  · rename_i existing hexisting
    have hrow := patchable_eq_some hexisting
    have hannounced := hannounced (by rw [hexisting, Option.isSome_some])
    refine Good.persist ⟨fun a ha => ⟨fun r' room hroom => ?_, (h.store a ha).below, fun c hc r' hr' => ?_⟩,
      fun hnone => ?_, h.storage, h.generation, h.pending, h.running⟩
    · by_cases heq : r' = r
      · subst heq
        cases (Function.update_self ..).symm.trans hroom
        exact (h.store a ha).own r' existing hrow
      · exact (h.store a ha).own r' room ((Function.update_of_ne heq ..).symm.trans hroom)
    · have hne : r' ≠ r := by
        rintro rfl
        exact hannounced a ha c hc hr'
      exact (Function.update_of_ne hne ..).trans ((h.store a ha).latest c hc r' hr')
    · rw [h.nobody hnone r] at hrow
      cases hrow

theorem Good.onEvent (h : Good server s) {event : Event}
    (hannounced : ∀ r p, State.Hints event.type → s.eventPatch event = some (r, p) → (s.patchable r p).isSome → Announced server s r) :
    Good server (s.onEvent event) := by
  unfold State.onEvent
  split
  · rename_i hhints
    refine Good.sync ?_
    split
    · rename_i r p hpatch
      exact h.patch (hannounced r p hhints hpatch)
    · exact h
  · exact h

theorem persist_setDrain (s : State) (i : ℕ) (drain : Drain) : (s.setDrain i drain).persist = s.persist.setDrain i drain := by
  cases haccount : s.accountId with
  | none => simp only [State.persist, State.setDrain, haccount]
  | some accountId =>
    by_cases hstored : s.ready = true ∧ s.storageWorks = true
    · simp only [State.persist, State.setDrain, haccount, if_pos hstored]
    · simp only [State.persist, State.setDrain, haccount, if_neg hstored]

theorem applyPage_setDrain (answer : Answer) :
    (s.setDrain i drain').applyPage drain answer = (s.applyPage drain answer).setDrain i drain' :=
  persist_setDrain (s.takePage drain answer) i drain'

theorem applyPage_eq (s : State) (drain : Drain) (answer : Answer) :
    s.applyPage drain answer = { s.takePage drain answer with storage := (s.applyPage drain answer).storage } :=
  persist_eq (s.takePage drain answer)

theorem endDrain_setDrain (s : State) (i : ℕ) (drain : Drain) (stage : Stage) :
    (s.setDrain i { drain with stage }).endDrain i { drain with stage } = s.endDrain i drain := by
  have hset : (s.setDrain i { drain with stage }).setDrain i { drain with stage := .ended } =
      s.setDrain i { drain with stage := .ended } := by simp only [State.setDrain, List.set_set]
  unfold State.endDrain
  dsimp only
  rw [hset]
  rfl

theorem Good.applyPage (h : Good server s) {answer : Answer} (hi : s.drains[i]? = some drain')
    (hpending : s.pending = some i) (hyielded : drain'.stage = .yielded) (haccount : s.accountId = some drain.accountId)
    (hcursor : drain.cursor = s.cursor)
    (htelling : answer.Telling (server drain.accountId) drain.accountId drain.cursor) :
    Good server (s.applyPage drain answer) := by
  refine Good.persist ⟨fun a ha => ?_, fun hnone => ?_, h.storage, h.generation, h.pending,
    fun j other hj hother hstage => ?_⟩
  · cases haccount.symm.trans ha
    exact (h.store _ haccount).page (hcursor ▸ htelling) hcursor
  · cases haccount.symm.trans hnone
  · obtain ⟨hj', hrunning⟩ := h.running j other hj hother hstage
    cases hpending.symm.trans hj'
    cases hi.symm.trans hj
    refine ⟨hpending, hrunning.1, ?_⟩
    rw [hyielded]
    trivial

theorem Good.deliver (h : Good server s) {answer : Answer} (hi : s.drains[i]? = some drain)
    (hstage : drain.stage = .answered answer) : Good server (s.deliver i drain answer) := by
  have hactive : drain.stage.Active := hstage ▸ trivial
  unfold State.deliver
  split
  · rename_i hcurrent
    split
    · rename_i hanswer
      obtain ⟨hpending, haccount, hrunning⟩ := h.running i drain hi hcurrent.1.symm hactive
      rw [hstage] at hrunning
      have hyield : Good server (s.setDrain i { drain with stage := .yielded }) :=
        h.setDrain hi hactive rfl rfl trivial fun _ => ⟨haccount, trivial⟩
      have hi' : (s.setDrain i { drain with stage := .yielded }).drains[i]? = some { drain with stage := .yielded } := by
        rw [getElem?_setDrain hi, if_pos rfl]
      have hpage : Good server ((s.setDrain i { drain with stage := .yielded }).applyPage drain answer) :=
        hyield.applyPage hi' hpending rfl haccount hrunning.1 (hrunning.2 hanswer)
      rw [applyPage_setDrain] at hpage
      dsimp only
      split
      · have hlast : ((s.applyPage drain answer).setDrain i { drain with stage := .yielded }).drains[i]? =
            some { drain with stage := .yielded } := by
          rw [← applyPage_setDrain, applyPage_eq]
          exact hi'
        have hend := hpage.endDrain hlast trivial
        rw [endDrain_setDrain] at hend
        exact hend
      · exact hpage
    · exact h.failDrain hi hactive _
  · exact h.endDrain hi hactive

end Store

/-- The server answers by the protocol. -/
def Protocol (w : World) : Action → Prop
  | .serve i answer => ∀ drain : Drain, w.store.drains[i]? = some drain →
      (w.server answer.accountId).Answers drain.cursor answer
  | _ => True

/-- A patch that is made, here or by an event, is of a room of which the server has a change that the cursor does not cover. -/
def Timely (w : World) : Action → Prop
  | .patch r p => (w.store.patchable r p).isSome → Announced w.server w.store r
  | .event event => ∀ r p, State.Hints event.type → w.store.eventPatch event = some (r, p) →
      (w.store.patchable r p).isSome → Announced w.server w.store r
  | _ => True

/-- No drain that was asked to go on ends because a request fails or a hundred pages are made. -/
def Granted (w : World) : Action → Prop
  | .fail i _ => ∀ drain : Drain, w.store.drains[i]? = some drain → w.store.Current drain → w.store.requestedAgain = false
  | .deliver i => ∀ drain : Drain, w.store.drains[i]? = some drain → w.store.Current drain →
      ∀ answer, drain.stage = .answered answer → answer.accountId ≠ drain.accountId → w.store.requestedAgain = false
  | .resume i => ∀ drain : Drain, w.store.drains[i]? = some drain → w.store.Current drain →
      w.store.requestedAgain = true → drain.page + 1 < 100
  | _ => True

structure Sound (w : World) : Prop where
  server : ∀ a, (w.server a).Own a
  store : Good w.server w.store

section Steps

variable {w w' : World}

theorem good_start (server : AccountId → Directory) : Good server {} where
  store _ h := by cases h
  nobody _ _ := rfl
  storage _ _ h := by cases h
  generation _ _ h := by cases h
  pending _ h := by cases h
  running _ _ h := by cases h

theorem sound_start : Sound {} where
  server _ := { rows := fun _ _ h => (by cases h), unchanged := fun _ _ => rfl }
  store := good_start _

theorem Sound.change (h : Sound w) (accountId : AccountId) {f : Directory → Directory}
    (hown : (f (w.server accountId)).Own accountId) (hlater : (w.server accountId).Later (f (w.server accountId))) :
    Sound (w.change accountId f) := by
  have hserver : ∀ a, (w.change accountId f).server a = if a = accountId then f (w.server accountId) else w.server a :=
    fun a => Function.update_apply ..
  refine ⟨fun a => ?_, h.store.later fun a => ?_⟩
  · rw [hserver]
    split
    · rename_i ha
      exact ha ▸ hown
    · exact h.server a
  · rw [hserver]
    split
    · rename_i ha
      exact ha ▸ hlater
    · exact .refl _

theorem step_serve {i : ℕ} {answer : Answer} (h : w.step (.serve i answer) = some w') :
    ∃ drain : Drain, w.store.drains[i]? = some drain ∧ drain.stage = .requested ∧
      w' = { w with store := w.store.setDrain i { drain with stage := .answered answer } } := by
  simp only [World.step] at h
  split at h
  · rename_i drain hi
    split at h <;> cases h
    rename_i hstage
    exact ⟨drain, hi, hstage, rfl⟩
  · cases h

theorem step_deliver {i : ℕ} (h : w.step (.deliver i) = some w') :
    ∃ (drain : Drain) (answer : Answer), w.store.drains[i]? = some drain ∧ drain.stage = .answered answer ∧
      w' = { w with store := w.store.deliver i drain answer } := by
  simp only [World.step] at h
  split at h
  · rename_i drain hi
    split at h <;> cases h
    rename_i answer hstage
    exact ⟨drain, answer, hi, hstage, rfl⟩
  · cases h

theorem step_fail {i : ℕ} {message : String} (h : w.step (.fail i message) = some w') :
    ∃ drain : Drain, w.store.drains[i]? = some drain ∧ drain.stage.Active ∧
      w' = { w with store := w.store.failDrain i drain message } := by
  simp only [World.step] at h
  split at h
  · rename_i drain hi
    split at h <;> cases h
    all_goals
      rename_i hstage
      exact ⟨drain, hi, hstage ▸ trivial, rfl⟩
  · cases h

theorem step_resume {i : ℕ} (h : w.step (.resume i) = some w') :
    ∃ drain : Drain, w.store.drains[i]? = some drain ∧ drain.stage = .yielded ∧
      w' = { w with store := w.store.resume i drain } := by
  simp only [World.step] at h
  split at h
  · rename_i drain hi
    split at h <;> cases h
    rename_i hstage
    exact ⟨drain, hi, hstage, rfl⟩
  · cases h

theorem Sound.step (h : Sound w) {a : Action} (hprotocol : Protocol w a) (htimely : Timely w a)
    (hstep : w.step a = some w') : Sound w' := by
  cases a with
  | activate accountId forget =>
    cases hstep
    exact ⟨h.server, h.store.activate accountId forget⟩
  | setView =>
    cases hstep
    exact ⟨h.server, h.store.persist⟩
  | sync =>
    cases hstep
    exact ⟨h.server, h.store.sync⟩
  | patch r p =>
    cases hstep
    exact ⟨h.server, h.store.patch htimely⟩
  | event event =>
    cases hstep
    exact ⟨h.server, h.store.onEvent htimely⟩
  | serve i answer =>
    obtain ⟨drain, hi, hstage, rfl⟩ := step_serve hstep
    have hactive : drain.stage.Active := hstage ▸ trivial
    refine ⟨h.server, h.store.setDrain hi hactive rfl rfl trivial fun hcurrent => ?_⟩
    obtain ⟨-, haccount, hrunning⟩ := h.store.running i drain hi hcurrent.1.symm hactive
    rw [hstage] at hrunning
    refine ⟨haccount, hrunning, fun hanswer => ?_⟩
    have hbelow := (h.store.store drain.accountId haccount).below
    rw [← hrunning] at hbelow
    exact Answer.telling_of_answers (h.server drain.accountId) hbelow (hanswer ▸ hprotocol drain hi)
  | deliver i =>
    obtain ⟨drain, answer, hi, hstage, rfl⟩ := step_deliver hstep
    exact ⟨h.server, h.store.deliver hi hstage⟩
  | fail i message =>
    obtain ⟨drain, hi, hactive, rfl⟩ := step_fail hstep
    exact ⟨h.server, h.store.failDrain hi hactive message⟩
  | resume i =>
    obtain ⟨drain, hi, hstage, rfl⟩ := step_resume hstep
    exact ⟨h.server, h.store.resume hi (hstage ▸ trivial)⟩
  | write accountId roomId room =>
    cases hstep
    exact h.change accountId ((h.server accountId).write roomId room) (Directory.later_write _ accountId roomId room)
  | newEpoch accountId =>
    cases hstep
    refine h.change accountId ⟨(h.server accountId).rows, (h.server accountId).unchanged⟩
      ⟨Nat.le_succ _, fun _ => Nat.le_refl _, fun _ _ => rfl⟩
  | storage works =>
    cases hstep
    exact ⟨h.server, h.store.store, h.store.nobody, h.store.storage, h.store.generation, h.store.pending, h.store.running⟩

end Steps

end BotCord.Conversations
