import BotCord.Messages.Hub

/-!
# One id, one message

A copy that is there already is taken for a retry, whatever it says. Where no send inserts a copy while the table has one with its message id of another sender or body, all copies with one id are copies of one message, and a send that is answered has a copy for every receiver.
-/

namespace BotCord.Messages

open Sends (Envelope)

structure CopyOf (envelope : Envelope) (row : Row) : Prop where
  msgId : row.msgId = envelope.msgId
  senderId : row.senderId = envelope.sender
  roomId : row.roomId = roomOf envelope
  body : body row.envelope = body envelope

/-- When a send inserts, every copy in the table with its message id is of its sender and its body. -/
def Unused (h : Hub) : HubAction → Prop
  | .insert i _ => ∀ s ∈ h.sends i, ∀ row ∈ h.rows, row.msgId = s.envelope.msgId →
      row.senderId = s.envelope.sender ∧ body row.envelope = body s.envelope
  | _ => True

instance (h : Hub) : DecidablePred (Unused h) := fun _ => by
  unfold Unused
  split <;> infer_instance

theorem roomOf_eq {a b : Envelope} (hsender : a.sender = b.sender) (hbody : body a = body b) : roomOf a = roomOf b := by
  have hrecipient : a.recipient = b.recipient := congrArg Body.recipient hbody
  have htype : a.type = b.type := congrArg Body.type hbody
  unfold roomOf isRoom Sends.dmRoom
  rw [hsender, hrecipient, htype]

/-- What the table and the sends have to do with each other. -/
structure OneMessage (h : Hub) : Prop where
  left : ∀ i s, h.sends i = some s → ∀ receiver ∈ s.left, receiver ∈ s.receivers
  direct : ∀ i s, h.sends i = some s → isRoom s.envelope = false → ∀ receiver ∈ s.receivers, receiver = s.envelope.recipient
  agree : ∀ row ∈ h.rows, ∀ row' ∈ h.rows, row.msgId = row'.msgId → CopyOf row.envelope row'
  covered : ∀ i s, h.sends i = some s → ∀ receiver ∈ s.receivers, receiver ∈ s.left ∨
    ∃ row ∈ h.rows, row.receiverId = receiver ∧ CopyOf s.envelope row ∧ (row.writer = none ∨ row.writer = some i)
  answered : ∀ a ∈ h.answers, ∀ receiver ∈ a.receivers,
    ∃ row ∈ h.rows, row.receiverId = receiver ∧ CopyOf a.envelope row ∧ row.writer = none

section Steps

variable {h h' : Hub} {i : ℕ} {s : Sending}

theorem OneMessage.goto (hinv : OneMessage h) {s' : Sending} (hleft : ∀ receiver ∈ s'.left, receiver ∈ s'.receivers)
    (hdirect : isRoom s'.envelope = false → ∀ receiver ∈ s'.receivers, receiver = s'.envelope.recipient)
    (hcovered : ∀ receiver ∈ s'.receivers, receiver ∈ s'.left ∨
      ∃ row ∈ h.rows, row.receiverId = receiver ∧ CopyOf s'.envelope row ∧ (row.writer = none ∨ row.writer = some i)) :
    OneMessage (h.goto i s') := by
  have hsends : ∀ j t, (h.goto i s').sends j = some t → (j = i ∧ t = s') ∨ h.sends j = some t := by
    intro j t ht
    by_cases hj : j = i
    · subst hj
      cases (Function.update_self ..).symm.trans ht
      exact .inl ⟨rfl, rfl⟩
    · exact .inr ((Function.update_of_ne hj ..).symm.trans ht)
  refine ⟨fun j t ht => ?_, fun j t ht => ?_, hinv.agree, fun j t ht => ?_, hinv.answered⟩
  · rcases hsends j t ht with ⟨rfl, rfl⟩ | ht
    · exact hleft
    · exact hinv.left j t ht
  · rcases hsends j t ht with ⟨rfl, rfl⟩ | ht
    · exact hdirect
    · exact hinv.direct j t ht
  · rcases hsends j t ht with ⟨rfl, rfl⟩ | ht
    · exact hcovered
    · exact hinv.covered j t ht

theorem OneMessage.next (hinv : OneMessage h) (hs : h.sends i = some s) {r : String} {left : List String} (hleft : s.left = r :: left)
    (hcovered : ∃ row ∈ h.rows, row.receiverId = r ∧ CopyOf s.envelope row ∧ (row.writer = none ∨ row.writer = some i)) :
    OneMessage (h.goto i { s with left, drawn := none }) := by
  refine hinv.goto (fun receiver hmem => hinv.left i s hs receiver (hleft ▸ List.mem_cons_of_mem r hmem)) (hinv.direct i s hs)
    fun receiver hreceiver => ?_
  rcases hinv.covered i s hs receiver hreceiver with hmem | hmem
  · rw [hleft] at hmem
    rcases List.mem_cons.mp hmem with rfl | hmem
    · exact .inr hcovered
    · exact .inl hmem
  · exact .inr hmem

theorem OneMessage.endSend (hinv : OneMessage h) : OneMessage (h.endSend i) := by
  have hsends : ∀ j t, (h.endSend i).sends j = some t → h.sends j = some t := by
    intro j t ht
    by_cases hj : j = i
    · subst hj
      cases (Function.update_self ..).symm.trans ht
    · exact (Function.update_of_ne hj ..).symm.trans ht
  exact ⟨fun j t ht => hinv.left j t (hsends j t ht), fun j t ht => hinv.direct j t (hsends j t ht), hinv.agree,
    fun j t ht => hinv.covered j t (hsends j t ht), hinv.answered⟩

theorem OneMessage.answer (hinv : OneMessage h) {envelope : Envelope} {receivers : List String}
    (hanswer : ∀ receiver ∈ receivers, ∃ row ∈ h.rows, row.receiverId = receiver ∧ CopyOf envelope row ∧ row.writer = none) :
    OneMessage (h.answer envelope receivers) := by
  refine ⟨hinv.left, hinv.direct, hinv.agree, hinv.covered, fun a ha => ?_⟩
  rcases List.mem_append.mp ha with ha | ha
  · exact hinv.answered a ha
  · cases List.mem_singleton.mp ha
    exact hanswer

/-- The rows are rewritten, and each says what it said; a row of another send stays that or is seen by all. -/
theorem OneMessage.rewrite (hinv : OneMessage h) {rows : Keyed Row.id}
    (hold : ∀ x ∈ rows, ∃ row ∈ h.rows, x.msgId = row.msgId ∧ x.envelope = row.envelope ∧
      ∀ envelope, CopyOf envelope row → CopyOf envelope x)
    (hnew : ∀ row ∈ h.rows, (row.writer = none ∨ ∃ j s, h.sends j = some s ∧ row.writer = some j) → ∃ x ∈ rows,
      x.receiverId = row.receiverId ∧ (x.writer = row.writer ∨ x.writer = none) ∧
      ∀ envelope, CopyOf envelope row → CopyOf envelope x) : OneMessage { h with rows } := by
  refine ⟨hinv.left, hinv.direct, fun x hx x' hx' hmsgId => ?_, fun j t ht receiver hreceiver => ?_,
    fun a ha receiver hreceiver => ?_⟩
  · obtain ⟨row, hrow, hid, henvelope, -⟩ := hold x hx
    obtain ⟨row', hrow', hid', -, hcopy⟩ := hold x' hx'
    rw [henvelope]
    exact hcopy _ (hinv.agree row hrow row' hrow' (hid.symm.trans (hmsgId.trans hid')))
  · refine (hinv.covered j t ht receiver hreceiver).imp_right ?_
    rintro ⟨row, hrow, hkey, hcopy, hwriter⟩
    obtain ⟨x, hx, hkey', hwriter', hcopies⟩ := hnew row hrow (hwriter.imp_right fun hw => ⟨j, t, ht, hw⟩)
    refine ⟨x, hx, hkey'.trans hkey, hcopies _ hcopy, ?_⟩
    rcases hwriter' with hsame | hnone
    · exact hwriter.imp hsame.trans hsame.trans
    · exact .inl hnone
  · obtain ⟨row, hrow, hkey, hcopy, hwriter⟩ := hinv.answered a ha receiver hreceiver
    obtain ⟨x, hx, hkey', hwriter', hcopies⟩ := hnew row hrow (.inl hwriter)
    exact ⟨x, hx, hkey'.trans hkey, hcopies _ hcopy, hwriter'.elim (·.trans hwriter) id⟩

theorem OneMessage.modify (hinv : OneMessage h) {p : Row → Prop} [DecidablePred p] {f : Row → Row} (hid : ∀ r, (f r).id = r.id)
    (hf : ∀ r, (f r).toMessageRecord = r.toMessageRecord) (hwriter : ∀ r, (f r).writer = r.writer ∨ (f r).writer = none) :
    OneMessage { h with rows := h.rows.modify p f hid } := by
  have hsays : ∀ r, (if p r then f r else r).toMessageRecord = r.toMessageRecord ∧
      ((if p r then f r else r).writer = r.writer ∨ (if p r then f r else r).writer = none) := by
    intro r
    split
    · exact ⟨hf r, hwriter r⟩
    · exact ⟨rfl, .inl rfl⟩
  have hcopy : ∀ {x r : Row}, x.toMessageRecord = r.toMessageRecord → ∀ envelope, CopyOf envelope r → CopyOf envelope x := by
    intro x r hsame envelope hcopy
    exact ⟨(congrArg _ hsame).trans hcopy.msgId, (congrArg _ hsame).trans hcopy.senderId, (congrArg _ hsame).trans hcopy.roomId,
      (congrArg (body ·.envelope) hsame).trans hcopy.body⟩
  refine hinv.rewrite (fun x hx => ?_) fun row hrow _ => ?_
  · obtain ⟨row, hrow, rfl⟩ := (Keyed.mem_modify hid).mp hx
    obtain ⟨hsame, -⟩ := hsays row
    exact ⟨row, hrow, congrArg _ hsame, congrArg _ hsame, hcopy hsame⟩
  · obtain ⟨hsame, hwriter⟩ := hsays row
    exact ⟨_, Keyed.mem_modify_of_mem hid hrow, congrArg _ hsame, hwriter, hcopy hsame⟩

theorem copyOf_existing (hinv : OneMessage h) (hunused : ∀ row ∈ h.rows, row.msgId = s.envelope.msgId →
    row.senderId = s.envelope.sender ∧ body row.envelope = body s.envelope) {row : Row} (hrow : row ∈ h.rows)
    (hmsgId : row.msgId = s.envelope.msgId) : CopyOf s.envelope row := by
  obtain ⟨hsender, hbody⟩ := hunused row hrow hmsgId
  have hcopy := hinv.agree row hrow row hrow rfl
  exact ⟨hmsgId, hsender, hcopy.roomId.trans (roomOf_eq (hcopy.senderId.symm.trans hsender) hbody), hbody⟩

theorem OneMessage.abort (hinv : OneMessage h) : OneMessage (h.abort i) := by
  refine hinv.endSend.rewrite (fun x hx => ⟨x, (Keyed.mem_remove.mp hx).1, rfl, rfl, fun _ hcopy => hcopy⟩) ?_
  intro row hrow hwriter
  refine ⟨row, Keyed.mem_remove.mpr ⟨hrow, fun hown => ?_⟩, rfl, .inl rfl, fun _ hcopy => hcopy⟩
  rcases hwriter with hnone | ⟨j, s, hs, hj⟩
  · exact nomatch hown.symm.trans hnone
  · cases hown.symm.trans hj
    exact nomatch (Function.update_self ..).symm.trans hs

theorem OneMessage.insert (hinv : OneMessage h) (hunused : ∀ row ∈ h.rows, row.msgId = s.envelope.msgId →
    row.senderId = s.envelope.sender ∧ body row.envelope = body s.envelope) {rows : Keyed Row.id} {hubMsgId r : String}
    {id : RecordId} (hadds : h.rows.Adds (s.row i hubMsgId r id) rows) : OneMessage { h with rows } := by
  have hold : ∀ {x}, x ∈ h.rows → x ∈ rows := fun hx => hadds.mem_iff.mpr (.inl hx)
  have hrow : CopyOf s.envelope (s.row i hubMsgId r id) := ⟨rfl, rfl, rfl, rfl⟩
  refine ⟨hinv.left, hinv.direct, fun x hx x' hx' hmsgId => ?_, fun j t ht receiver hreceiver => ?_,
    fun a ha receiver hreceiver => ?_⟩
  · rcases hadds.mem_iff.mp hx with hx | rfl <;> rcases hadds.mem_iff.mp hx' with hx' | rfl
    · exact hinv.agree x hx x' hx' hmsgId
    · have hcopy := copyOf_existing hinv hunused hx hmsgId
      have hown := hinv.agree x hx x hx rfl
      exact ⟨hmsgId.symm.trans hown.msgId, hcopy.senderId.symm.trans hown.senderId, hcopy.roomId.symm.trans hown.roomId,
        hcopy.body.symm⟩
    · exact copyOf_existing hinv hunused hx' hmsgId.symm
    · exact hrow
  · refine (hinv.covered j t ht receiver hreceiver).imp_right ?_
    rintro ⟨row, hrow, hcopy⟩
    exact ⟨row, hold hrow, hcopy⟩
  · obtain ⟨row, hrow, hcopy⟩ := hinv.answered a ha receiver hreceiver
    exact ⟨row, hold hrow, hcopy⟩

/-- Every receiver of a send that has gone through them all has a copy that all see after the commit. -/
theorem OneMessage.commit (hinv : OneMessage h) (hs : h.sends i = some s) (hleft : s.left = []) : OneMessage (h.commit i s) := by
  have hshown := hinv.modify (p := (·.writer = some i)) (f := fun row => { row with writer := none }) (fun _ => rfl) (fun _ => rfl)
    fun _ => .inr rfl
  refine (hshown.endSend (i := i)).answer fun receiver hreceiver => ?_
  obtain ⟨row, hrow, hkey, hcopy, hwriter⟩ := (hinv.covered i s hs receiver hreceiver).resolve_left fun hmem => by simp [hleft] at hmem
  refine ⟨_, Keyed.mem_modify_of_mem (p := (·.writer = some i)) (f := fun row => { row with writer := none }) (fun _ => rfl) hrow, ?_⟩
  split
  · exact ⟨hkey, ⟨hcopy.msgId, hcopy.senderId, hcopy.roomId, hcopy.body⟩, rfl⟩
  · rename_i hown
    exact ⟨hkey, hcopy, hwriter.resolve_right hown⟩

theorem OneMessage.step {a : HubAction} (hinv : OneMessage h) (hunused : Unused h a) (hstep : hub.step h a = some h') :
    OneMessage h' := by
  cases stepped hstep with
  | @began i envelope members hfree =>
    refine hinv.goto (fun receiver hmem => hmem) (fun hdirect receiver hmem => ?_) fun receiver hreceiver => .inl hreceiver
    simp only [receiversOf] at hmem hdirect
    simpa [hdirect] using hmem
  | refused => exact hinv
  | retried => exact hinv.answer fun receiver hreceiver => nomatch hreceiver
  | @drew i envelope receivers left hs =>
    have hleft := hinv.left i _ hs
    have hdirect := hinv.direct i _ hs
    have hcovered := hinv.covered i _ hs
    have hnext : OneMessage (h.goto i { envelope, receivers, left, drawn := some h.nextId }) := hinv.goto hleft hdirect hcovered
    exact ⟨hnext.left, hnext.direct, hnext.agree, hnext.covered, hnext.answered⟩
  | @skipped i hubMsgId s r left row hs hleft hrow hkey hwriter =>
    exact hinv.next hs hleft ⟨row, hrow, hkey.2, copyOf_existing hinv (hunused s hs) hrow hkey.1, .inl hwriter⟩
  | @existed i hubMsgId s r left row hs hdirect hleft hrow hkey hwriter =>
    refine hinv.abort.answer fun receiver hreceiver => ?_
    have hr := hinv.direct i s hs hdirect r (hinv.left i s hs r (hleft ▸ List.mem_cons_self))
    have hreceiver := hinv.direct i s hs hdirect receiver hreceiver
    refine ⟨row, Keyed.mem_remove.mpr ⟨hrow, fun hown => (nomatch hown.symm.trans hwriter)⟩, ?_, ?_, hwriter⟩
    · rw [hkey.2, hr, hreceiver]
    · exact copyOf_existing hinv (hunused s hs) hrow hkey.1
  | @inserted i hubMsgId s r left id rows hs hleft hnew hname hadds =>
    have hinserted := hinv.insert (hunused s hs) hadds
    have hcopy : CopyOf s.envelope (s.row i hubMsgId r id) := ⟨rfl, rfl, rfl, rfl⟩
    exact hinserted.next hs hleft ⟨_, hadds.mem_iff.mpr (.inr rfl), rfl, hcopy, .inr rfl⟩
  | @committed i s hs hleft => exact hinv.commit hs hleft
  | @aborted i s hs => exact hinv.abort
  | recalling ids => exact ⟨hinv.left, hinv.direct, hinv.agree, hinv.covered, hinv.answered⟩
  | @recalled j ids hids =>
    have hnext := hinv.modify (p := (·.id ∈ ids)) (f := fun row => { row with recalled := true }) (fun _ => rfl) (fun _ => rfl)
      fun _ => .inl rfl
    exact ⟨hnext.left, hnext.direct, hnext.agree, hnext.covered, hnext.answered⟩

end Steps

section Runs

variable {d : Hub}

theorem oneMessage_empty : OneMessage {} :=
  ⟨fun _ _ hs => (nomatch hs), fun _ _ hs => (nomatch hs), fun _ hrow => absurd hrow Keyed.not_mem_empty,
    fun _ _ hs => (nomatch hs), fun _ ha => absurd ha List.not_mem_nil⟩

/-- In every run from an empty hub in which no send inserts while a copy with its message id and of another sender or body is in the table: stored copies with one message id are of one sender, in one room and of one body, and every receiver of a send that was answered has a stored copy of it. -/
theorem one_message_for_each_id {actions : List HubAction} (hmeets : hub.Meets Unused {} actions)
    (hrun : hub.run {} actions = some d) :
    (∀ row ∈ d.visible, ∀ row' ∈ d.visible, row.msgId = row'.msgId →
      row.senderId = row'.senderId ∧ row.roomId = row'.roomId ∧ body row.envelope = body row'.envelope) ∧
    ∀ answer ∈ d.answers, ∀ receiver ∈ answer.receivers, ∃ row ∈ d.visible, row.msgId = answer.envelope.msgId ∧
      row.receiverId = receiver ∧ row.senderId = answer.envelope.sender ∧ row.roomId = roomOf answer.envelope ∧
      body row.envelope = body answer.envelope := by
  have hinv : OneMessage d := hub.run_invariant_of_meets (fun _ _ _ hinv hunused hstep => hinv.step hunused hstep)
    oneMessage_empty hmeets hrun
  refine ⟨fun row hrow row' hrow' hmsgId => ?_, fun answer hanswer receiver hreceiver => ?_⟩
  · have hmem := (List.mem_filter.mp hrow).1
    have hown := hinv.agree row hmem row hmem rfl
    have hother := hinv.agree row hmem row' (List.mem_filter.mp hrow').1 hmsgId
    exact ⟨hown.senderId.trans hother.senderId.symm, hown.roomId.trans hother.roomId.symm, hother.body.symm⟩
  · obtain ⟨row, hrow, hkey, hcopy, hwriter⟩ := hinv.answered answer hanswer receiver hreceiver
    exact ⟨row, List.mem_filter.mpr ⟨hrow, decide_eq_true hwriter⟩, hcopy.msgId, hkey, hcopy.senderId, hcopy.roomId, hcopy.body⟩

/-- Two agents in one room with a third; agent 1 sends a message and agent 2 another one under the same id. -/
def sameId (sender text : String) : Envelope where
  msgId := "m_a"
  ts := 0
  sender := sender
  recipient := "rm_a"
  payload := { text := text }
  payloadHash := text
  keyId := sender

def usedTwice : List HubAction :=
  [.send 1 (sameId "ag_1" "yes") ["ag_1", "ag_3"], .draw 1, .insert 1 "h_1", .commit 1,
    .send 2 (sameId "ag_2" "no") ["ag_2", "ag_3"], .draw 2, .insert 2 "h_2", .commit 2]

/-- The second message was answered and is stored nowhere. -/
theorem second_message_lost : ∃ d, hub.run {} usedTwice = some d ∧
    { envelope := sameId "ag_2" "no", receivers := ["ag_3"] } ∈ d.answers ∧
    ¬ ∃ row ∈ d.visible, row.senderId = "ag_2" := by
  have hrun : (hub.run {} usedTwice).any (fun d => { envelope := sameId "ag_2" "no", receivers := ["ag_3"] } ∈ d.answers ∧
      ¬ ∃ row ∈ d.visible, row.senderId = "ag_2") = true := by decide +kernel
  obtain ⟨d, hrun, hd⟩ := Option.any_eq_true _ _ |>.mp hrun
  exact ⟨d, hrun, of_decide_eq_true hd⟩

/-- The first message is sent again after agent 4 has come into the room. -/
def sentAgain : List HubAction :=
  [.send 1 (sameId "ag_1" "yes") ["ag_1", "ag_3"], .draw 1, .insert 1 "h_1", .commit 1,
    .send 2 (sameId "ag_1" "yes") ["ag_1", "ag_3", "ag_4"], .draw 2, .insert 2 "h_2", .draw 2, .insert 2 "h_3", .commit 2]

theorem one_message_sent_again : ∃ d, hub.run {} sentAgain = some d ∧
    ∀ receiver ∈ ["ag_3", "ag_4"], ∃ row ∈ d.visible, row.receiverId = receiver ∧ body row.envelope = body (sameId "ag_1" "yes") := by
  have hrun : (hub.run {} sentAgain).any (fun d =>
      { envelope := sameId "ag_1" "yes", receivers := ["ag_3", "ag_4"] } ∈ d.answers) = true := by decide +kernel
  obtain ⟨d, hrun, hd⟩ := Option.any_eq_true _ _ |>.mp hrun
  obtain ⟨-, hstored⟩ := one_message_for_each_id (by decide +kernel) hrun
  refine ⟨d, hrun, fun receiver hreceiver => ?_⟩
  obtain ⟨row, hrow, -, hkey, -, -, hbody⟩ := hstored _ (of_decide_eq_true hd) receiver hreceiver
  exact ⟨row, hrow, hkey, hbody⟩

end Runs

end BotCord.Messages
