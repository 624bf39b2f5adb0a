import BotCord.Attention.Gates

/-!
# When the gates give the same answer

Every gate should decide by one rule: not while the room is snoozed, and else as the mode says. The Hub lets a muted agent wake, the daemon forgets the snooze for allowed senders and applies the policy to owner chats, and what counts as activity knows neither the rules for a sender nor a mention in the text.
-/

namespace BotCord.Attention

open Policy (AgentId AttentionMode DaemonAttentionPolicy isDirectRoomId isDirectConversation maybeForceDirectConversation)

def EffectiveAttention.Admits (lib : Library) (eff : EffectiveAttention) (mentioned : Prop) (text : String)
    (senderId : SenderId) : Prop :=
  match eff.mode with
  | .always => True
  | .mentionOnly => mentioned
  | .keyword => hasKeyword lib eff.keywords text = true
  | .allowedSenders => senderId ∈ eff.allowedSenderIds
  | .muted => False

def EffectiveAttention.Snoozed (eff : EffectiveAttention) (now : ℕ) : Prop := ∃ till ∈ eff.mutedUntil, now < till

def EffectiveAttention.SnoozedMs (eff : EffectiveAttention) (now : ℕ) : Prop :=
  ∃ till ∈ eff.mutedUntil, now / 1000 < till / 1000

variable {lib : Library} {eff : EffectiveAttention} {mentioned : Bool} {text : String} {senderId : SenderId} {now : ℕ}

theorem EffectiveAttention.SnoozedMs.snoozed (h : eff.SnoozedMs now) : eff.Snoozed now := by
  obtain ⟨till, htill, hlt⟩ := h
  exact ⟨till, htill, by omega⟩

theorem any_lt_iff {till : Option ℕ} : till.any (now < ·) = true ↔ ∃ t ∈ till, now < t := by
  cases till <;> simp

theorem shouldWake_iff : (shouldWake lib eff mentioned text senderId now).1 = true ↔
    ¬ eff.Snoozed now ∧ (eff.mode = .muted ∨ eff.Admits lib (mentioned = true) text senderId) := by
  unfold shouldWake
  split
  · rename_i hsnoozed
    exact iff_of_false (by simp) fun h => h.1 (any_lt_iff.mp hsnoozed)
  · rename_i hawake
    have hawake : ¬ eff.Snoozed now := fun h => hawake (any_lt_iff.mpr h)
    rw [and_iff_right hawake, EffectiveAttention.Admits]
    cases eff.mode <;> simp only [reduceCtorEq, false_or, true_or, or_true]
    all_goals split <;> simp [*]

theorem empty_contains {words : String} : "".contains words = true ↔ words = "" := by
  rw [String.contains_string_iff, String.toList_empty, List.infix_nil, String.toList_eq_nil_iff]

theorem hasKeyword_eq_false (keywords : List String) (h : lib.lower text = "") :
    hasKeyword lib keywords text = false := by
  simp only [hasKeyword, List.any_eq_false, h, Bool.and_eq_true, not_and, decide_eq_true_eq, empty_contains]
  exact fun kw _ hkw hempty => hkw ((lib.lower_eq_empty kw).mp hempty)

theorem strip_eq_self {space : Char → Bool} {s : String} (h : ∀ ch ∈ s.toList, space ch = false) : strip space s = s := by
  have hkeep : ∀ chars : List Char, (∀ ch ∈ chars, space ch = false) → chars.dropWhile space = chars := by
    intro chars hchars
    cases chars with
    | nil => rfl
    | cons ch rest => rw [List.dropWhile_cons_of_neg (by simp [hchars ch])]
  rw [strip, hkeep _ h, hkeep _ fun ch hch => h ch (List.mem_reverse.mp hch), List.reverse_reverse, String.ofList_toList]

section Policy

variable {agent : Agent} {override : Option AgentRoomPolicyOverride} {rules : Rules} {roomId : RoomId} {msg : Message}
  {messageType : MessageType} {sent : ℕ} {displayName : Option String}

theorem effective_of_direct (h : isDirectRoomId roomId = true) :
    effectiveAttentionFrom lib agent roomId override now = { mode := .always, source := .dmForced } := if_pos h

theorem isDirectConversation_iff (hroom : roomId.startsWith "rm_" = true) :
    isDirectConversation roomId = isDirectRoomId roomId := by
  have hother : ∀ c rest, c ≠ 'r' → roomId.startsWith (String.ofList (c :: rest)) = false := by
    intro c rest hc
    rw [Bool.eq_false_iff]
    intro hstarts
    obtain ⟨front, hfront⟩ := String.startsWith_string_iff.mp hroom
    obtain ⟨back, hback⟩ := String.startsWith_string_iff.mp hstarts
    rw [← hfront, String.toList_ofList] at hback
    exact hc (List.cons.inj hback).1
  have htelegram := hother 't' "elegram:user:".toList (by decide)
  have hwechat := hother 'w' "echat:user:".toList (by decide)
  have hfeishu := hother 'f' "eishu:user:".toList (by decide)
  simp only [isDirectConversation]
  rw [show "telegram:user:" = String.ofList ('t' :: "elegram:user:".toList) from rfl, htelegram,
    show "wechat:user:" = String.ofList ('w' :: "echat:user:".toList) from rfl, hwechat,
    show "feishu:user:" = String.ofList ('f' :: "eishu:user:".toList) from rfl, hfeishu]
  simp

theorem force_wirePolicy (hroom : roomId.startsWith "rm_" = true) :
    maybeForceDirectConversation (some roomId) (wirePolicy (effectiveAttentionFrom lib agent roomId override sent)) =
      wirePolicy (effectiveAttentionFrom lib agent roomId override sent) := by
  unfold maybeForceDirectConversation
  split
  · rename_i hforced
    simp only [Bool.and_eq_true, Option.any_eq_true] at hforced
    obtain ⟨⟨room, hmem, hdirect⟩, hmode⟩ := hforced
    obtain ⟨hmem, -⟩ := Option.filter_eq_some_iff.mp hmem
    cases hmem
    rw [isDirectConversation_iff hroom] at hdirect
    rw [effective_of_direct hdirect] at hmode
    simp [wirePolicy] at hmode
  · rfl

theorem attentionGate_iff (hroom : roomId.startsWith "rm_" = true) {agentId : AgentId} :
    attentionGate lib (wirePolicy (effectiveAttentionFrom lib agent roomId override sent)) agentId displayName roomId msg
        (now / 1000) = true ↔
      let eff := effectiveAttentionFrom lib agent roomId override sent
      (eff.mode = .allowedSenders ∨ ¬ eff.SnoozedMs now) ∧
        eff.Admits lib ((msg.mentioned || localMention lib msg.text agentId displayName) = true) msg.text msg.senderId := by
  unfold attentionGate
  rw [force_wirePolicy hroom]
  generalize effectiveAttentionFrom lib agent roomId override sent = eff
  have hsnoozed : (wirePolicy eff).mutedUntil.any (now / 1000 < ·) = true ↔ eff.SnoozedMs now := by
    rw [any_lt_iff, EffectiveAttention.SnoozedMs]
    cases h : eff.mutedUntil <;> simp [wirePolicy, h]
  have hmode : (wirePolicy eff).mode = eff.mode := rfl
  have hkeywords : (wirePolicy eff).keywords = eff.keywords := rfl
  have hallowed : (wirePolicy eff).allowedSenderIds.getD [] = eff.allowedSenderIds := rfl
  simp only [protocolShouldWake, EffectiveAttention.Admits, hmode, hkeywords, hallowed]
  by_cases hs : eff.SnoozedMs now
  · rw [hsnoozed.mpr hs]
    cases eff.mode <;> simp [hs]
  · rw [Bool.eq_false_iff.mpr fun h => hs (hsnoozed.mp h)]
    cases eff.mode <;> simp only [reduceCtorEq, if_false, if_true, decide_eq_true_eq, Bool.false_eq_true, hs,
      not_false_eq_true, or_true, true_and, and_false]
    · split
      · rename_i hempty
        rw [hasKeyword_eq_false _ hempty]
      · rfl

end Policy

/-- What is there when a message comes: the daemon has a policy that was sent before, and perhaps another name of the agent. -/
structure Setting where
  lib : Library
  agent : Agent
  override : Option AgentRoomPolicyOverride
  rules : Rules
  roomId : RoomId
  msg : Message
  messageType : MessageType
  displayName : Option String
  sent : ℕ
  now : ℕ
  ofHub : roomId.startsWith "rm_" = true
  ofAgent : agent.agentId ≠ "" ∧ ∀ ch ∈ agent.agentId.toList, pythonSpace ch = false ∧ javascriptSpace ch = false
  sent_le : sent ≤ now

namespace Setting

variable (c : Setting)

def policy : EffectiveAttention := effectiveAttentionFrom c.lib c.agent c.roomId c.override c.now

/-- The rule for the sender: one of the room or, where the room has no override, one for all rooms. -/
def rule : Option AgentSenderReplyRule :=
  (c.rules c.msg.senderId c.roomId).or (if c.override.isNone then c.rules c.msg.senderId "" else none)

/-- The text has the id of the agent, in parentheses or after an `@`. -/
def NamesId : Prop :=
  (c.lib.lower c.msg.text).contains ("(" ++ c.lib.lower c.agent.agentId ++ ")") = true ∨
    (c.lib.lower c.msg.text).contains ("@" ++ c.lib.lower c.agent.agentId) = true

/-- The text has a name after an `@`. -/
def Names (name : String) : Prop := name ≠ "" ∧ (c.lib.lower c.msg.text).contains ("@" ++ c.lib.lower name) = true

/-- The name that the Hub has for the agent. -/
def hubName : String := strip pythonSpace (c.agent.displayName.getD "")

def daemonName : String := strip javascriptSpace (c.displayName.getD "")

def Mentions (name : String) : Prop := c.msg.mentioned = true ∨ c.NamesId ∨ c.Names name

/-- The end of a snooze that the milliseconds cut off. -/
def LastMs : Prop := c.policy.Snoozed c.now ∧ ¬ c.policy.SnoozedMs c.now

/-- Without rules the inbox and the daemon answer alike, and a cloud agent that the inbox wakes counts as woken. -/
def SameAnswer : Prop :=
  (decideInbox c.lib c.agent c.override (fun _ _ => none) c.roomId c.msg c.now).1 =
      attentionGate c.lib (wirePolicy (effectiveAttentionFrom c.lib c.agent c.roomId c.override c.sent)) c.agent.agentId
        c.displayName c.roomId c.msg (c.now / 1000) ∧
    ((decideInbox c.lib c.agent c.override c.rules c.roomId c.msg c.now).1 = true →
      wouldWakeRuntime c.lib c.agent c.override c.roomId c.msg c.messageType c.now = true)

/-- In an owner chat the Hub wakes for everything. In a group room the two differ for a muted agent, for allowed senders in a snooze, in its last millisecond and in the name of the agent. -/
def GateAligned : Prop :=
  if isDirectRoomId c.roomId then True
  else if isOwnerChat c.roomId then
    match c.policy.mode with
    | .muted => False
    | .allowedSenders => c.msg.senderId ∈ c.policy.allowedSenderIds
    | .always => ¬ c.policy.SnoozedMs c.now
    | .keyword => ¬ c.policy.SnoozedMs c.now ∧ hasKeyword c.lib c.policy.keywords c.msg.text = true
    | .mentionOnly => ¬ c.policy.SnoozedMs c.now ∧ c.Mentions c.daemonName
  else
    match c.policy.mode with
    | .muted => c.policy.Snoozed c.now
    | .allowedSenders => c.policy.Snoozed c.now → c.msg.senderId ∉ c.policy.allowedSenderIds
    | .always => ¬ c.LastMs
    | .keyword => c.LastMs → ¬ hasKeyword c.lib c.policy.keywords c.msg.text = true
    | .mentionOnly =>
      (c.LastMs → ¬ c.Mentions c.daemonName) ∧
        (¬ c.policy.Snoozed c.now → c.msg.mentioned = true ∨ c.NamesId ∨ (c.Names c.hubName ↔ c.Names c.daemonName))

/-- The type may wake, and the room's own mode is met without a look for names in the text. -/
def RoomAdmits : Prop :=
  c.messageType ∉ nonWakingMessageTypes ∧ ¬ c.policy.Snoozed c.now ∧
    match c.policy.mode with
    | .muted => False
    | .always => True
    | .mentionOnly => c.msg.mentioned = true
    | .keyword => hasKeyword c.lib c.policy.keywords c.msg.text = true
    | .allowedSenders => c.msg.senderId ∈ c.policy.allowedSenderIds ∧ c.msg.senderId ≠ ""

/-- In an owner chat, and for a sender with a rule, what may wake has to meet the room's own mode as well. Elsewhere only the type, a name in the text, a muted agent and an empty id make a difference. -/
def ActivityAligned : Prop :=
  if isDirectRoomId c.roomId then c.messageType ∉ nonWakingMessageTypes
  else if isOwnerChat c.roomId then c.RoomAdmits
  else
    match c.rule with
    | none =>
      c.policy.Snoozed c.now ∨
        match c.policy.mode with
        | .muted => False
        | .always => c.messageType ∉ nonWakingMessageTypes
        | .mentionOnly =>
          if c.msg.mentioned then c.messageType ∉ nonWakingMessageTypes else ¬ c.NamesId ∧ ¬ c.Names c.hubName
        | .keyword =>
          hasKeyword c.lib c.policy.keywords c.msg.text = true → c.messageType ∉ nonWakingMessageTypes
        | .allowedSenders =>
          c.msg.senderId ∈ c.policy.allowedSenderIds → c.messageType ∉ nonWakingMessageTypes ∧ c.msg.senderId ≠ ""
    | some rule =>
      (∃ till ∈ rule.mutedUntil, c.now < till) ∨
        match rule.attentionMode with
        | .muted | .always => c.RoomAdmits
        | .mentionOnly => c.Mentions c.hubName → c.RoomAdmits
        | .keyword =>
          hasKeyword c.lib (rule.keywords.elim c.policy.keywords (decodeKeywords c.lib)) c.msg.text = true → c.RoomAdmits
        | .allowedSenders => c.msg.senderId ∈ c.policy.allowedSenderIds → c.RoomAdmits

theorem roomId_ne : c.roomId ≠ "" := by
  intro hempty
  obtain ⟨rest, hrest⟩ := String.startsWith_string_iff.mp c.ofHub
  rw [hempty] at hrest
  cases hrest

theorem scanMention_iff : (c.msg.mentioned || scanMention c.lib c.msg.text c.agent.agentId c.agent.displayName) = true ↔
    c.Mentions c.hubName := by
  have hid := strip_eq_self fun ch hch => (c.ofAgent.2 ch hch).1
  have hname : c.lib.lower c.hubName ≠ "" ↔ c.hubName ≠ "" := not_congr (c.lib.lower_eq_empty _)
  rw [Bool.or_eq_true, Mentions, NamesId, Names, ← hname]
  refine or_congr_right ?_
  dsimp only [scanMention]
  rw [hid]
  by_cases hempty : c.lib.lower c.msg.text = ""
  · simp [hempty]
  · rw [if_neg hempty, Bool.if_true_left]
    simp only [Bool.or_eq_true, Bool.and_eq_true, decide_eq_true_eq]
    rfl

theorem localMention_iff : (c.msg.mentioned || localMention c.lib c.msg.text c.agent.agentId c.displayName) = true ↔
    c.Mentions c.daemonName := by
  have hid := strip_eq_self fun ch hch => (c.ofAgent.2 ch hch).2
  have hne : c.lib.lower c.agent.agentId ≠ "" := mt (c.lib.lower_eq_empty _).mp c.ofAgent.1
  rw [Bool.or_eq_true, Mentions, NamesId, Names]
  refine or_congr_right ?_
  dsimp only [localMention]
  rw [hid]
  by_cases hempty : c.msg.text = ""
  · simp [hempty, (c.lib.lower_eq_empty "").mpr rfl]
  · rw [if_neg hempty, Bool.if_true_left, ← daemonName]
    by_cases hname : c.daemonName = ""
    · simp [hne, hname]
    · simp [hne, hname, mt (c.lib.lower_eq_empty _).mp hname, or_assoc]

theorem attentionFor_rule (hdirect : isDirectRoomId c.roomId = false) :
    attentionFor c.lib c.rules c.roomId c.msg.senderId c.policy = c.rule.elim c.policy (ruleAttention c.lib · c.policy) := by
  have hsource : c.policy.source = if c.override.isNone then .global else .override := by
    rw [policy, effectiveAttentionFrom, if_neg (by simp [hdirect])]
    cases c.override <;> rfl
  have hforced : c.policy.source ≠ .dmForced := by
    rw [hsource]
    split <;> decide
  have hroom : (c.rules c.msg.senderId c.roomId).filter (fun _ => c.roomId ≠ "") = c.rules c.msg.senderId c.roomId := by
    cases c.rules c.msg.senderId c.roomId <;> simp [c.roomId_ne]
  rw [attentionFor, if_neg hforced, hroom, rule, hsource]
  cases c.rules c.msg.senderId c.roomId with
  | some rule => rfl
  | none =>
    cases c.override with
    | some row => rfl
    | none => cases c.rules c.msg.senderId "" <;> rfl

end Setting

variable {c : Setting}

theorem decideInbox_iff (rules : Rules) :
    (decideInbox c.lib c.agent c.override rules c.roomId c.msg c.now).1 = true ↔
      let eff := attentionFor c.lib rules c.roomId c.msg.senderId c.policy
      isOwnerChat c.roomId = true ∨ isDirectRoomId c.roomId = true ∨
        ¬ eff.Snoozed c.now ∧ (eff.mode = .muted ∨ eff.Admits c.lib (c.Mentions c.hubName) c.msg.text c.msg.senderId) := by
  have hne : decide (c.roomId = "") = false := decide_eq_false c.roomId_ne
  simp only [decideInbox, hne, Bool.or_false, Bool.or_eq_true]
  by_cases hspecial : isOwnerChat c.roomId = true ∨ isDirectRoomId c.roomId = true
  · rw [if_pos hspecial]
    exact iff_of_true rfl (hspecial.imp_right .inl)
  · rw [if_neg hspecial]
    rw [← or_assoc, or_iff_right hspecial, shouldWake_iff, propext c.scanMention_iff]
    rfl

theorem wouldWakeRuntime_iff :
    wouldWakeRuntime c.lib c.agent c.override c.roomId c.msg c.messageType c.now = true ↔ c.RoomAdmits := by
  have hpolicy : effectiveAttentionFrom c.lib c.agent c.roomId c.override c.now = c.policy := rfl
  unfold wouldWakeRuntime Setting.RoomAdmits
  rw [hpolicy]
  generalize c.policy = eff
  by_cases htype : c.messageType ∈ nonWakingMessageTypes
  · rw [if_pos htype]
    exact iff_of_false (by simp) fun h => h.1 htype
  · rw [if_neg htype, and_iff_right htype]
    by_cases hs : eff.Snoozed c.now
    · rw [if_pos (any_lt_iff.mpr hs)]
      exact iff_of_false (by simp) fun h => h.1 hs
    · rw [if_neg fun h => hs (any_lt_iff.mp h), and_iff_right hs]
      cases hmode : eff.mode with
      | always => simp
      | mentionOnly => simp
      | muted => simp
      | allowedSenders => by_cases hid : c.msg.senderId = "" <;> simp [hid]
      | keyword =>
        have hlost : (c.msg.text = "" ∨ eff.keywords = []) → hasKeyword c.lib eff.keywords c.msg.text = false := by
          rintro (htext | hkeywords)
          · exact hasKeyword_eq_false _ ((c.lib.lower_eq_empty _).mpr htext)
          · rw [hkeywords]
            rfl
        by_cases hnone : c.msg.text = "" ∨ eff.keywords = []
        · simp [hlost hnone]
        · simp [hnone]

theorem attentionGate_sent_iff :
    attentionGate c.lib (wirePolicy (effectiveAttentionFrom c.lib c.agent c.roomId c.override c.sent)) c.agent.agentId
        c.displayName c.roomId c.msg (c.now / 1000) = true ↔
      (c.policy.mode = .allowedSenders ∨ ¬ c.policy.SnoozedMs c.now) ∧
        c.policy.Admits c.lib (c.Mentions c.daemonName) c.msg.text c.msg.senderId := by
  rw [attentionGate_iff c.ofHub, propext c.localMention_iff]
  have hle := c.sent_le
  have hpolicy : c.policy = effectiveAttentionFrom c.lib c.agent c.roomId c.override c.now := rfl
  rw [hpolicy]
  by_cases hdirect : isDirectRoomId c.roomId = true
  · rw [effective_of_direct hdirect, effective_of_direct hdirect]
  · simp only [effectiveAttentionFrom, if_neg hdirect]
    cases c.override with
    | none => rfl
    | some row =>
      have hsnoozed : (∃ till ∈ row.mutedUntil.filter (c.sent < ·), c.now / 1000 < till / 1000) ↔
          ∃ till ∈ row.mutedUntil.filter (c.now < ·), c.now / 1000 < till / 1000 := by
        simp only [Option.mem_def, Option.filter_eq_some_iff, decide_eq_true_eq, and_assoc]
        refine exists_congr fun till => and_congr_right fun _ => ?_
        omega
      simp only [EffectiveAttention.SnoozedMs, EffectiveAttention.Admits, hsnoozed]

theorem attentionFor_none (roomId : RoomId) (base : EffectiveAttention) :
    attentionFor lib (fun _ _ => none) roomId senderId base = base := by
  unfold attentionFor
  simp only [Option.filter_none, ite_self]

theorem gateAligned_iff :
    (decideInbox c.lib c.agent c.override (fun _ _ => none) c.roomId c.msg c.now).1 =
        attentionGate c.lib (wirePolicy (effectiveAttentionFrom c.lib c.agent c.roomId c.override c.sent)) c.agent.agentId
          c.displayName c.roomId c.msg (c.now / 1000) ↔ c.GateAligned := by
  rw [Bool.eq_iff_iff, decideInbox_iff, attentionGate_sent_iff, attentionFor_none]
  dsimp only
  unfold Setting.GateAligned
  by_cases hdirect : isDirectRoomId c.roomId = true
  · have hpolicy : c.policy = { mode := .always, source := .dmForced } := effective_of_direct hdirect
    rw [if_pos hdirect, hpolicy]
    simp [hdirect, EffectiveAttention.Admits, EffectiveAttention.SnoozedMs]
  · rw [if_neg hdirect]
    unfold EffectiveAttention.Admits
    by_cases howner : isOwnerChat c.roomId = true
    · rw [if_pos howner]
      cases c.policy.mode <;> simp [howner]
    · rw [if_neg howner, or_iff_right howner, or_iff_right hdirect]
      have himp : c.policy.SnoozedMs c.now → c.policy.Snoozed c.now := EffectiveAttention.SnoozedMs.snoozed
      unfold Setting.LastMs
      cases hmode : c.policy.mode with
      | muted => simp
      | always => simp only [reduceCtorEq, false_or, and_true, or_true]; grind
      | allowedSenders => simp only [reduceCtorEq, false_or, true_or, true_and]; grind
      | keyword => simp only [reduceCtorEq, false_or]; grind
      | mentionOnly =>
        simp only [reduceCtorEq, false_or, Setting.Mentions]
        grind

theorem activityAligned_iff :
    ((decideInbox c.lib c.agent c.override c.rules c.roomId c.msg c.now).1 = true →
      wouldWakeRuntime c.lib c.agent c.override c.roomId c.msg c.messageType c.now = true) ↔ c.ActivityAligned := by
  rw [decideInbox_iff, wouldWakeRuntime_iff]
  dsimp only
  unfold Setting.ActivityAligned
  by_cases hdirect : isDirectRoomId c.roomId = true
  · have hpolicy : c.policy = { mode := .always, source := .dmForced } := effective_of_direct hdirect
    rw [if_pos hdirect]
    simp [hdirect, Setting.RoomAdmits, hpolicy, EffectiveAttention.Snoozed]
  · rw [if_neg hdirect, c.attentionFor_rule (Bool.eq_false_iff.mpr hdirect)]
    by_cases howner : isOwnerChat c.roomId = true
    · rw [if_pos howner]
      simp [howner]
    · rw [if_neg howner, or_iff_right howner, or_iff_right hdirect]
      cases c.rule with
      | none =>
        simp only [Option.elim_none, EffectiveAttention.Admits, Setting.RoomAdmits, Setting.Mentions]
        rw [and_imp]
        refine (imp_congr_right fun hawake => ?_).trans or_iff_not_imp_left.symm
        cases c.policy.mode with
        | muted => simp
        | always => simp [hawake]
        | mentionOnly => cases hflag : c.msg.mentioned <;> simp [hawake]
        | keyword | allowedSenders =>
          simp only [reduceCtorEq, false_or, hawake]
          grind
      | some rule =>
        simp only [Option.elim_some, ruleAttention, EffectiveAttention.Admits, EffectiveAttention.Snoozed]
        rw [and_imp]
        refine (imp_congr_right fun _ => ?_).trans or_iff_not_imp_left.symm
        cases rule.attentionMode <;> simp

/-- The gates give the same answer exactly where the policies are such that their differences do not show. -/
theorem sameAnswer_iff_aligned (c : Setting) : c.SameAnswer ↔ c.GateAligned ∧ c.ActivityAligned :=
  and_congr gateAligned_iff activityAligned_iff

/-- Case is folded in the Latin alphabet, and no JSON is read but one list. -/
def latin : Library where
  lower s := String.ofList (s.toList.map Char.toLower)
  loads raw := if raw = "[\"hu_2\"]" then some (.list [some "hu_2"]) else none
  lower_eq_empty s := by
    rw [← String.toList_eq_nil_iff, String.toList_ofList, List.map_eq_nil_iff, String.toList_eq_nil_iff]

/-- A group room that is snoozed for an hour, where only one sender may wake the agent, and a message of that sender. -/
def snoozed : Setting where
  lib := latin
  agent := { agentId := "ag_1", displayName := some "Ada" }
  override := some { attentionMode := some .allowedSenders, allowedSenderIds := some "[\"hu_2\"]", mutedUntil := some 3600000000 }
  rules := fun _ _ => none
  roomId := "rm_1"
  msg := { senderId := "hu_2", text := "hello" }
  messageType := .message
  displayName := some "Ada"
  sent := 0
  now := 1000000
  ofHub := by decide +kernel
  ofAgent := ⟨by decide, by simp [pythonSpace, javascriptSpace]⟩
  sent_le := by decide

theorem snoozed_wakes_daemon : ¬ ∀ c : Setting, c.SameAnswer := by
  intro hsame
  have hgate := (hsame snoozed).1
  revert hgate
  decide +kernel

end BotCord.Attention
