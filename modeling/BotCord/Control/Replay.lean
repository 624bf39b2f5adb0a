import BotCord.Control.Channel

/-!
# Frames that are delivered again

The replay window keeps a frame out once it is five minutes old, and until then the list of the latest ids does. The list is of a fixed length, so a frame outlives its place in it while enough other frames are accepted in the meantime; and a frame without a timestamp never leaves the window.
-/

namespace BotCord.Control

open Protocol

namespace ControlChannel

variable {options : Options} {c next : ControlChannel}

@[simp] theorem sendAck_accepted (ack : ControlAck) : (c.sendAck ack).accepted = c.accepted := by
  unfold sendAck
  split <;> rfl

@[simp] theorem sendAck_handled (ack : ControlAck) : (c.sendAck ack).handled = c.handled := by
  unfold sendAck
  split <;> rfl

@[simp] theorem sendAck_seenFrameIds (ack : ControlAck) : (c.sendAck ack).seenFrameIds = c.seenFrameIds := by
  unfold sendAck
  split <;> rfl

@[simp] theorem remember_seenFrameIds (frame : ControlFrame) :
    (c.remember frame).seenFrameIds = (c.seenFrameIds ++ [frame.id]).rtake REPLAY_DEDUPE_CAP := rfl

@[simp] theorem remember_accepted (frame : ControlFrame) : (c.remember frame).accepted = c.accepted ++ [frame] := rfl

@[simp] theorem remember_handled (frame : ControlFrame) : (c.remember frame).handled = c.handled := rfl

@[simp] theorem dispatch_accepted (now : ℤ) (frame : ControlFrame) : (c.dispatch now frame).accepted = c.accepted := by
  unfold dispatch
  split
  · simp [stop]
  · rfl

@[simp] theorem dispatch_seenFrameIds (now : ℤ) (frame : ControlFrame) :
    (c.dispatch now frame).seenFrameIds = c.seenFrameIds := by
  unfold dispatch
  split
  · simp [stop]
  · rfl

theorem dispatch_handled (now : ℤ) (frame : ControlFrame) :
    (c.dispatch now frame).handled = if frame.type = REVOKE then c.handled else c.handled ++ [(frame, now)] := by
  unfold dispatch
  split
  · simp [stop]
  · rfl

/-- What a delivery does: it answers, or it lets a frame in that is neither out of the window nor wrongly signed and whose id is not in the list. -/
inductive Delivered (options : Options) (c : ControlChannel) (now : ℤ) : Incoming → ControlChannel → Prop
  | answered {incoming next} (hseen : next.seenFrameIds = c.seenFrameIds) (haccepted : next.accepted = c.accepted)
      (hhandled : next.handled = c.handled) : Delivered options c now incoming next
  | entered {frame} (hwindow : staleTs now frame = none) (hsigned : options.signatureError frame = none)
      (hnew : frame.id ∉ c.seenFrameIds) : Delivered options c now (.frame frame) ((c.remember frame).dispatch now frame)

theorem onMessage_cases (now : ℤ) (incoming : Incoming) : Delivered options c now incoming (c.onMessage options now incoming) := by
  cases incoming with
  | notJson | ack | malformed => exact .answered rfl rfl rfl
  | frame frame =>
    simp only [onMessage]
    split
    · exact .answered (sendAck_seenFrameIds _) (sendAck_accepted _) (sendAck_handled _)
    · rename_i hwindow
      split
      · exact .answered (sendAck_seenFrameIds _) (sendAck_accepted _) (sendAck_handled _)
      · rename_i hsigned
        unfold admitId
        split
        · exact .answered (sendAck_seenFrameIds _) (sendAck_accepted _) (sendAck_handled _)
        · rename_i hnew
          exact .entered hwindow hsigned hnew

/-- Taking the last ones of a list after each new one is taking the last ones of the whole. -/
theorem rtake_rtake_concat {α : Type} (n : ℕ) (xs : List α) (x : α) :
    (xs.rtake n ++ [x]).rtake n = (xs ++ [x]).rtake n := by
  cases n with
  | zero => simp
  | succ n =>
    rw [List.rtake_concat_succ, List.rtake_concat_succ, List.rtake_eq_reverse_take_reverse,
      List.rtake_eq_reverse_take_reverse, List.rtake_eq_reverse_take_reverse, List.reverse_reverse, List.take_take,
      Nat.min_eq_left (Nat.le_succ n)]

theorem mem_rdrop_or_mem_rtake {α : Type} {n : ℕ} {xs : List α} {x : α} (h : x ∈ xs) : x ∈ xs.rdrop n ∨ x ∈ xs.rtake n := by
  rw [← List.take_append_drop (xs.length - n) xs] at h
  exact List.mem_append.mp h

theorem map_rtake {α β : Type} (f : α → β) (n : ℕ) (xs : List α) : (xs.rtake n).map f = (xs.map f).rtake n := by
  rw [List.rtake, List.rtake, List.map_drop, List.length_map]

/-- The id comes first in what is signed. -/
theorem id_of_signingInput {frame frame' : SignedFrame}
    (h : options.controlSigningInput frame = options.controlSigningInput frame') : frame.id = frame'.id := by
  have htext : ∀ f : SignedFrame, ∃ rest, options.controlSigningInput f =
      (units "\x7b" ++ quote (units "id") ++ [colon]) ++ (quote f.id ++ rest) := by
    intro f
    have hsorted : sortByKey [(units "id", Value.string f.id), (units "type", .string f.type), (units "params", f.params),
        (units "ts", .number f.ts)] = [(units "id", Value.string f.id), (units "params", f.params), (units "ts", .number f.ts),
        (units "type", .string f.type)] := rfl
    rw [Options.controlSigningInput, jcsCanonicalize_object, Option.getD_some, hsorted]
    rw [List.filterMap_cons_some (by rfl)]
    generalize List.filterMap (canonicalPart options.numberText) _ = parts
    cases parts with
    | nil => exact ⟨units "\x7d", by simp⟩
    | cons part rest => exact ⟨comma :: [comma].intercalate (part :: rest) ++ units "\x7d", by simp⟩
  obtain ⟨rest, hframe⟩ := htext frame
  obtain ⟨rest', hframe'⟩ := htext frame'
  rw [hframe, hframe'] at h
  exact (quote_inj (List.append_cancel_left h)).1

/-- The list holds the ids of the last accepted frames; nothing signed was handled twice, and every frame that was handled was in its time. -/
structure Guarded (options : Options) (c : ControlChannel) : Prop where
  seen : c.seenFrameIds = (c.accepted.map (·.id)).rtake REPLAY_DEDUPE_CAP
  once : (c.handled.map (options.controlSigningInput ·.1.signed)).Nodup
  accepted : ∀ entry ∈ c.handled, entry.1 ∈ c.accepted
  fresh : ∀ entry ∈ c.handled, |(entry.2 : ℚ) - toRat entry.1.signed.ts| ≤ REPLAY_WINDOW_MS

end ControlChannel

open ControlChannel

/-- A frame that gets past the window and the signature check to be handled carries a timestamp, unless it is of the time zero after all; and the same was not signed in one of those that were accepted before the latest 256. -/
def Timely (options : Options) (c : ControlChannel) : ControlAction → Prop
  | .deliver now (.frame frame) =>
    staleTs now frame = none → options.signatureError frame = none → frame.type ≠ REVOKE →
      (frame.ts = none → |(now : ℚ) - toRat .zero| ≤ REPLAY_WINDOW_MS) ∧
        ∀ earlier ∈ c.accepted.rdrop REPLAY_DEDUPE_CAP,
          options.controlSigningInput earlier.signed ≠ options.controlSigningInput frame.signed
  | _ => True

namespace ControlChannel

variable {options : Options} {c next : ControlChannel}

theorem skew_le_of_staleTs {now : ℤ} {frame : ControlFrame} {ts : Double} (hwindow : staleTs now frame = none)
    (hts : frame.ts = some ts) : |(now : ℚ) - toRat ts| ≤ REPLAY_WINDOW_MS := by
  by_contra hskew
  rw [staleTs, hts, Option.filter_some, skewMs, if_pos (decide_eq_true (not_le.mp hskew))] at hwindow
  cases hwindow

theorem guarded_dispatch (h : c.Guarded options) {now : ℤ} {frame : ControlFrame} (hwindow : staleTs now frame = none)
    (hsigned : options.signatureError frame = none) (hnew : frame.id ∉ c.seenFrameIds)
    (htimely : Timely options c (.deliver now (.frame frame))) : ((c.remember frame).dispatch now frame).Guarded options where
  seen := by
    rw [dispatch_seenFrameIds, dispatch_accepted, remember_seenFrameIds, remember_accepted, h.seen, List.map_append]
    exact rtake_rtake_concat _ _ _
  once := by
    rw [dispatch_handled, remember_handled]
    split
    · exact h.once
    · rename_i htype
      rw [List.map_append, List.nodup_append]
      refine ⟨h.once, List.nodup_singleton _, fun x hx y hy hxy => ?_⟩
      obtain ⟨entry, hentry, rfl⟩ := List.mem_map.mp hx
      rw [List.mem_singleton.mp hy] at hxy
      rcases mem_rdrop_or_mem_rtake (n := REPLAY_DEDUPE_CAP) (h.accepted entry hentry) with hold | hlate
      · exact (htimely hwindow hsigned htype).2 entry.1 hold hxy
      · -- the frame is one of the latest, so its id is in the list
        refine hnew ?_
        rw [h.seen, ← map_rtake]
        exact List.mem_map.mpr ⟨entry.1, hlate, id_of_signingInput hxy⟩
  accepted entry hentry := by
    rw [dispatch_accepted, remember_accepted]
    rw [dispatch_handled, remember_handled] at hentry
    split at hentry
    · exact List.mem_append_left _ (h.accepted entry hentry)
    · rcases List.mem_append.mp hentry with hentry | hentry
      · exact List.mem_append_left _ (h.accepted entry hentry)
      · rw [List.mem_singleton.mp hentry]
        exact List.mem_append_right _ (List.mem_singleton_self frame)
  fresh entry hentry := by
    rw [dispatch_handled, remember_handled] at hentry
    split at hentry
    · exact h.fresh entry hentry
    · rename_i htype
      rcases List.mem_append.mp hentry with hentry | hentry
      · exact h.fresh entry hentry
      · rw [List.mem_singleton.mp hentry]
        cases hts : frame.ts with
        | none =>
          have hzero := (htimely hwindow hsigned htype).1 hts
          rwa [ControlFrame.signed, hts]
        | some ts =>
          have hskew := skew_le_of_staleTs hwindow hts
          rwa [ControlFrame.signed, hts]

theorem Guarded.congr (h : c.Guarded options) (hseen : next.seenFrameIds = c.seenFrameIds) (haccepted : next.accepted = c.accepted)
    (hhandled : next.handled = c.handled) : next.Guarded options := by
  refine ⟨?_, ?_, ?_, ?_⟩
  · rw [hseen, haccepted, h.seen]
  · rw [hhandled]
    exact h.once
  · rw [hhandled, haccepted]
    exact h.accepted
  · rw [hhandled]
    exact h.fresh

theorem guarded_step {action : ControlAction} (h : c.Guarded options) (htimely : Timely options c action)
    (hnext : (controlSystem options).step c action = some next) : next.Guarded options := by
  cases action with
  | connect | disconnect =>
    obtain rfl := Option.some.inj hnext
    exact h.congr rfl rfl rfl
  | deliver now incoming =>
    obtain ⟨-, rfl⟩ := Option.ite_some_none_eq_some.mp hnext
    have hclock : { c with clock := now }.Guarded options := h.congr rfl rfl rfl
    generalize hnext : { c with clock := now }.onMessage options now incoming = next
    cases hnext ▸ @onMessage_cases options { c with clock := now } now incoming with
    | answered hseen haccepted hhandled => exact hclock.congr hseen haccepted hhandled
    | entered hwindow hsigned hnew => exact guarded_dispatch hclock hwindow hsigned hnew htimely

end ControlChannel

/-- Over every run whose steps all meet the condition, the handler sees what was signed at most once, and only within five minutes of its timestamp. -/
theorem handled_once {options : Options} {c : ControlChannel} {actions : List ControlAction}
    (hmeets : (controlSystem options).Meets (Timely options) {} actions)
    (hrun : (controlSystem options).run {} actions = some c) :
    (c.handled.map (options.controlSigningInput ·.1.signed)).Nodup ∧
      ∀ entry ∈ c.handled, |(entry.2 : ℚ) - toRat entry.1.signed.ts| ≤ REPLAY_WINDOW_MS := by
  have hguarded : c.Guarded options := by
    refine (controlSystem options).run_invariant_of_meets (P := Guarded options) ?_ ?_ hmeets hrun
    · intro before action after hbefore htimely hstep
      exact guarded_step hbefore htimely hstep
    · exact ⟨by simp [List.rtake], List.nodup_nil, by simp, by simp⟩
  exact ⟨hguarded.once, hguarded.fresh⟩

/-- One key, under which the signature of a text is the text. -/
def plainOptions : Options where
  hubPublicKeys := ["hub"]
  numberText _ := units "0"
  verifyEd25519 _ input sig := input == sig

def plainFrame (n : ℕ) : ControlFrame where
  id := [Fin.ofNat _ n]
  type := units "ping"
  ts := some .zero
  sig := some (plainOptions.controlSigningInput { id := [Fin.ofNat _ n], type := units "ping", params := .object [], ts := .zero })

def deliverFrame (n : ℕ) : ControlAction := .deliver 0 (.frame (plainFrame n))

theorem controlSigningInput_ne_nil (options : Options) (frame : SignedFrame) : options.controlSigningInput frame ≠ [] := by
  intro hempty
  have hlength := congrArg List.length hempty
  simp [Options.controlSigningInput, jcsCanonicalize, units] at hlength

theorem staleTs_plainFrame (n : ℕ) : staleTs 0 (plainFrame n) = none := by
  change (some Double.zero).filter (fun ts => REPLAY_WINDOW_MS < skewMs 0 ts) = none
  decide +kernel

theorem signatureError_plainFrame (n : ℕ) : plainOptions.signatureError (plainFrame n) = none := by
  have hsig : (plainFrame n).sig.filter (· ≠ []) = some (plainOptions.controlSigningInput (plainFrame n).signed) := by
    rw [Option.filter_eq_some_iff]
    exact ⟨rfl, decide_eq_true (controlSigningInput_ne_nil _ _)⟩
  have hkeys : plainOptions.hubPublicKeys ≠ [] := List.cons_ne_nil _ _
  rw [Options.signatureError, if_neg hkeys, hsig]
  exact if_pos (by simp [plainOptions])

theorem step_deliverFrame {c : ControlChannel} (n : ℕ) (hclock : c.clock ≤ 0) (hnew : (plainFrame n).id ∉ c.seenFrameIds) :
    (controlSystem plainOptions).step c (deliverFrame n) = some { c with
      clock := 0
      seenFrameIds := (c.seenFrameIds ++ [(plainFrame n).id]).rtake REPLAY_DEDUPE_CAP
      accepted := c.accepted ++ [plainFrame n]
      handled := c.handled ++ [(plainFrame n, 0)] } := by
  have htype : (plainFrame n).type ≠ REVOKE := by
    change units "ping" ≠ units "revoke"
    decide
  change (if c.clock ≤ 0 then _ else _) = _
  rw [if_pos hclock, onMessage, staleTs_plainFrame, signatureError_plainFrame, admitId, if_neg hnew, dispatch, if_neg htype]
  rfl

theorem plainFrame_id_notMem {k : ℕ} (hk : k < 2 ^ 16) : (plainFrame k).id ∉ (List.range k).map fun n => (plainFrame n).id := by
  intro hmem
  obtain ⟨n, hn, heq⟩ := List.mem_map.mp hmem
  have hlt : n < k := List.mem_range.mp hn
  have hval : n % 2 ^ 16 = k % 2 ^ 16 := congrArg Fin.val (List.singleton_inj.mp heq)
  omega

theorem run_deliverFrames {k : ℕ} (hk : k ≤ 2 ^ 16) :
    (controlSystem plainOptions).run {} ((List.range k).map deliverFrame) = some {
      seenFrameIds := ((List.range k).map fun n => (plainFrame n).id).rtake REPLAY_DEDUPE_CAP
      accepted := (List.range k).map plainFrame
      handled := (List.range k).map fun n => (plainFrame n, 0) } := by
  induction k with
  | zero => simp [List.rtake]
  | succ k ih =>
    have hnew := plainFrame_id_notMem hk
    rw [List.range_succ, List.map_append, System.run_append, ih (Nat.le_of_succ_le hk), Option.bind_some,
      List.map_singleton, System.run_cons, step_deliverFrame k le_rfl fun hmem => hnew (List.mem_of_mem_drop hmem)]
    simp only [Option.bind_some, System.run_nil, List.map_append, List.map_singleton, rtake_rtake_concat]

theorem run_deliverFrames_again {k : ℕ} (hk : k ≤ 2 ^ 16)
    (hforgotten : (plainFrame 0).id ∉ ((List.range k).map fun n => (plainFrame n).id).rtake REPLAY_DEDUPE_CAP) :
    ∃ c, (controlSystem plainOptions).run {} ((List.range k).map deliverFrame ++ [deliverFrame 0]) = some c ∧
      c.handled = ((List.range k).map fun n => (plainFrame n, 0)) ++ [(plainFrame 0, 0)] := by
  rw [System.run_append, run_deliverFrames hk, Option.bind_some, System.run_cons, step_deliverFrame 0 le_rfl hforgotten,
    Option.bind_some, System.run_nil]
  exact ⟨_, rfl, rfl⟩

theorem handled_once_twice :
    ∃ c, (controlSystem plainOptions).run {} [deliverFrame 0, deliverFrame 0] = some c ∧
      (c.handled.map (plainOptions.controlSigningInput ·.1.signed)).Nodup := by
  have hsome : ((controlSystem plainOptions).run {} [deliverFrame 0, deliverFrame 0]).isSome := by decide +kernel
  obtain ⟨c, hrun⟩ := Option.isSome_iff_exists.mp hsome
  have hmeets : (controlSystem plainOptions).Meets (Timely plainOptions) {} [deliverFrame 0, deliverFrame 0] := by
    have htimely (c : ControlChannel) (h : c.accepted.rdrop REPLAY_DEDUPE_CAP = []) :
        Timely plainOptions c (deliverFrame 0) := by
      intro _ _ _
      refine ⟨fun hnone => absurd hnone (Option.some_ne_none _), fun earlier hearlier => ?_⟩
      rw [h] at hearlier
      cases hearlier
    refine ⟨htimely {} (by simp [List.rdrop]), fun next hnext => ⟨htimely next ?_, fun _ _ => trivial⟩⟩
    -- one frame is fewer than the list holds
    have hlength : next.accepted.length = 1 := by
      have hcomputed : ((controlSystem plainOptions).step {} (deliverFrame 0)).map (·.accepted.length) = some 1 := by
        decide +kernel
      rw [hnext] at hcomputed
      exact Option.some.inj hcomputed
    have hcap : REPLAY_DEDUPE_CAP = 256 := by with_unfolding_all rfl
    rw [List.rdrop, hlength, hcap]
    rfl
  exact ⟨c, hrun, (handled_once hmeets hrun).1⟩

/-- With 256 other frames in between, all within a millisecond, the handler sees the first frame a second time. -/
theorem not_handled_once :
    ¬ ∀ (options : Options) (actions : List ControlAction) (c : ControlChannel), options.hubPublicKeys ≠ [] →
      (controlSystem options).run {} actions = some c → (c.handled.map (options.controlSigningInput ·.1.signed)).Nodup ∧
        ∀ entry ∈ c.handled, |(entry.2 : ℚ) - toRat entry.1.signed.ts| ≤ REPLAY_WINDOW_MS := by
  intro hclaim
  -- the 256 others have taken the place of the first id
  have hforgotten : (plainFrame 0).id ∉ ((List.range 257).map fun n => (plainFrame n).id).rtake REPLAY_DEDUPE_CAP := by
    have hcap : REPLAY_DEDUPE_CAP = 256 := by with_unfolding_all rfl
    rw [hcap]
    decide +kernel
  obtain ⟨c, hrun, hhandled⟩ := run_deliverFrames_again (by omega) hforgotten
  have hnodup := (hclaim plainOptions _ c (List.cons_ne_nil _ _) hrun).1
  rw [hhandled, List.map_append, List.nodup_append] at hnodup
  refine hnodup.2.2 (plainOptions.controlSigningInput (plainFrame 0).signed) ?_ _ (List.mem_singleton_self _) rfl
  exact List.mem_map.mpr ⟨(plainFrame 0, 0), List.mem_map.mpr ⟨0, List.mem_range.mpr (by omega), rfl⟩, rfl⟩

namespace ControlChannel

variable {options : Options} {c next : ControlChannel}

/-- What was handled was signed and inside the window, and what was accepted was none of the 256 frames before it. -/
structure Spaced (options : Options) (c : ControlChannel) : Prop where
  seen : c.seenFrameIds = (c.accepted.map (·.id)).rtake REPLAY_DEDUPE_CAP
  signed : ∀ entry ∈ c.handled, options.signatureError entry.1 = none ∧ staleTs entry.2 entry.1 = none
  apart : ∀ front frame, front ++ [frame] <+: c.accepted → frame.id ∉ (front.map (·.id)).rtake REPLAY_DEDUPE_CAP

theorem spaced_step {action : ControlAction} (h : c.Spaced options)
    (hnext : (controlSystem options).step c action = some next) : next.Spaced options := by
  cases action with
  | connect | disconnect =>
    obtain rfl := Option.some.inj hnext
    exact ⟨h.seen, h.signed, h.apart⟩
  | deliver now incoming =>
    obtain ⟨-, rfl⟩ := Option.ite_some_none_eq_some.mp hnext
    generalize hnext : { c with clock := now }.onMessage options now incoming = next
    cases hnext ▸ @onMessage_cases options { c with clock := now } now incoming with
    | answered hseen haccepted hhandled =>
      exact ⟨by rw [hseen, haccepted, h.seen], hhandled ▸ h.signed, haccepted ▸ h.apart⟩
    | @entered frame hwindow hsigned hnew =>
      refine ⟨?_, fun entry hentry => ?_, fun front earlier hprefix => ?_⟩
      · rw [dispatch_seenFrameIds, dispatch_accepted, remember_seenFrameIds, remember_accepted, h.seen, List.map_append]
        exact rtake_rtake_concat _ _ _
      · rw [dispatch_handled, remember_handled] at hentry
        split at hentry
        · exact h.signed entry hentry
        · rcases List.mem_append.mp hentry with hentry | hentry
          · exact h.signed entry hentry
          · rw [List.mem_singleton.mp hentry]
            exact ⟨hsigned, hwindow⟩
      · rw [dispatch_accepted, remember_accepted] at hprefix
        rcases List.prefix_concat_iff.mp hprefix with heq | hprefix
        · obtain ⟨rfl, hframe⟩ := List.append_inj' heq rfl
          obtain rfl := List.singleton_inj.mp hframe
          exact h.seen ▸ hnew
        · exact h.apart front earlier hprefix

end ControlChannel

/-- In every run, the handler sees only signed frames, those with a timestamp within five minutes of it; and a frame is accepted only if none of the 256 accepted before it has its id. -/
theorem replays_apart {options : Options} {c : ControlChannel} {actions : List ControlAction}
    (hrun : (controlSystem options).run {} actions = some c) :
    (∀ entry ∈ c.handled, options.signatureError entry.1 = none ∧
        ∀ ts, entry.1.ts = some ts → |(entry.2 : ℚ) - toRat ts| ≤ REPLAY_WINDOW_MS) ∧
      ∀ front frame, front ++ [frame] <+: c.accepted → frame.id ∉ (front.map (·.id)).rtake REPLAY_DEDUPE_CAP := by
  have h : c.Spaced options := (controlSystem options).run_invariant (P := Spaced options) (fun _ _ _ h => spaced_step h)
    ⟨by simp [List.rtake], by simp, by simp⟩ hrun
  exact ⟨fun entry hentry => (h.signed entry hentry).imp_right fun hwindow _ => skew_le_of_staleTs hwindow, h.apart⟩

theorem replays_apart_twice : ∃ c, (controlSystem plainOptions).run {} [deliverFrame 0, deliverFrame 0] = some c ∧
    ∀ entry ∈ c.handled, plainOptions.signatureError entry.1 = none := by
  have hsome : ((controlSystem plainOptions).run {} [deliverFrame 0, deliverFrame 0]).isSome := by decide +kernel
  obtain ⟨c, hrun⟩ := Option.isSome_iff_exists.mp hsome
  exact ⟨c, hrun, fun entry hentry => ((replays_apart hrun).1 entry hentry).1⟩

end BotCord.Control
