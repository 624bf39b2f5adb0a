import BotCord.Foundation.Exchange
import BotCord.RoomSends.Hub
import BotCord.Sends.Specs

/-!
# One message for a key

A send that is tried again under its key should make one message, and a try that stored nothing should leave nothing behind that makes a later one fail. The key, the message and the response are committed together, so the first holds of every run. But the anti-spam state is written before the last checks and the commit, and is not taken back: what fails after that leaves its hash and its time.
-/

namespace BotCord.RoomSends

open Sends (AgentId RoomId Time ContentHash Payload HttpError SendError AntiSpam checkSlowMode checkDuplicateContent
  recordSlowModeSend second)

def Event.id : Event → ℕ
  | .stored i _ _ | .notified i _ | .answered i _ _ => i

def Event.notifies? : Event → Option ℕ
  | .notified i _ => some i
  | _ => none

def Event.stores? : Event → Option ℕ
  | .stored i _ _ => some i
  | _ => none

section Statements

variable {σ₁ σ₂ : Type} (env : Env σ₁ σ₂) (d : Hub σ₁ σ₂)

/-- Of the sends under one key one stores, which alone notifies, once; all that succeed have one response; and no key is taken without a response. -/
structure Hub.OneMessage : Prop where
  stored : ∀ i request response i' request' response', .stored i request response ∈ d.log →
    .stored i' request' response' ∈ d.log → request.key ≠ none → request.key = request'.key →
      i = i' ∧ request = request' ∧ response.msgId = response'.msgId
  notified : ∀ i request, .notified i request ∈ d.log → ∃ response, .stored i request response ∈ d.log
  notifiedOnce : (d.log.filterMap Event.notifies?).Nodup
  answered : ∀ i request response i' request' response', .answered i request (.ok response) ∈ d.log →
    .answered i' request' (.ok response') ∈ d.log → request.key ≠ none → request.key = request'.key →
      request.body = request'.body ∧ response = response'
  records : ∀ record ∈ d.records, ∃ i request response, .stored i request response ∈ d.log ∧ record.msgId = response.msgId
  complete : ∀ row ∈ d.requests, row.responseJson ≠ none

/-- What wrote a mark has stored its message, is about to, or was a send of another route. -/
def Hub.Alive (writer : Option ℕ) : Prop :=
  ∀ i ∈ writer, (∃ e ∈ d.log, e.stores? = some i) ∨ ∃ t ∈ d.calls, t.id = i ∧ t.stage.pending = true
deriving Decidable

/-- Whatever the anti-spam state refuses now, it refuses for a send that has stored its message or is about to, under the slot of the one that is refused. -/
def Hub.Traceless : Prop :=
  ∀ (s : Send) (payload : Payload) (e : SendError), (s.checkSpam env payload d.now (d.memory s.worker)).1 = .error e →
    (∃ m ∈ d.times, m.worker = s.worker ∧ m.slot = s.slot ∧ d.Alive m.writer) ∨
      e = .duplicateContent ∧ ∃ m ∈ d.hashes, m.worker = s.worker ∧ m.slot = s.slot ∧ m.value = env.contentHash payload ∧
        d.Alive m.writer

end Statements

/-- The condition on a step: nothing fails between the anti-spam checks and the commit. -/
def Hub.Careful {σ₁ σ₂ : Type} (d : Hub σ₁ σ₂) : Action → Prop
  | .check i _ => ∀ t ∈ d.calls.get? i, (normalizeMentions t.send.request.roomId t.send.request.body.mentions).isOk = true
  | .fanOut i answers => ∀ t ∈ d.calls.get? i, t.send.request.body.replyTo ≠ none → answers.replyTarget ≠ none
  | .abort i => ∀ t ∈ d.calls.get? i, t.stage.pending = false
  | _ => True

instance {σ₁ σ₂ : Type} (d : Hub σ₁ σ₂) : DecidablePred d.Careful := fun _ => by
  unfold Hub.Careful
  split <;> infer_instance

/-! ### Keys and answers -/

/-- What is committed, and what was told about it. -/
structure Kept (requests : Keyed DashboardSendRequest.requestId) (records : List MessageRecord) (log : List Event) : Prop where
  row : ∀ row ∈ requests, ∃ i request response, .stored i request response ∈ log ∧ request.key = some row.requestId ∧
    request.body = row.fingerprint ∧ row.responseJson = some response
  stored : ∀ i request response, .stored i request response ∈ log → ∀ key ∈ request.key,
    requests.get? key = some ⟨key, request.body, some response⟩
  once : ∀ i request response i' request' response', .stored i request response ∈ log →
    .stored i' request' response' ∈ log → (i = i' ∨ request.key ≠ none ∧ request.key = request'.key) →
      i = i' ∧ request = request' ∧ response = response'
  notified : ∀ i request, .notified i request ∈ log → ∃ response, .stored i request response ∈ log
  notifiedOnce : (log.filterMap Event.notifies?).Nodup
  answered : ∀ i request response, .answered i request (.ok response) ∈ log → ∃ i' request',
    .stored i' request' response ∈ log ∧ request'.key = request.key ∧ request'.body = request.body
  records : ∀ record ∈ records, ∃ i request response, .stored i request response ∈ log ∧ record.msgId = response.msgId

def Unlogged (log : List Event) (i : ℕ) : Prop :=
  (∀ request response, .stored i request response ∉ log) ∧ ∀ request, .notified i request ∉ log

def Task.Held (requests : Keyed DashboardSendRequest.requestId) (log : List Event) (t : Task) : Prop :=
  match t.stage with
  | .reserve => Unlogged log t.id
  | .checks | .fanOut _ => Unlogged log t.id ∧ ∀ key ∈ t.send.request.key, requests.get? key = none
  | .commit m => Unlogged log t.id ∧ (∀ key ∈ t.send.request.key, requests.get? key = none) ∧
      ∀ record ∈ m.records, record.msgId = m.response.msgId
  | .notify m => .stored t.id t.send.request m.response ∈ log ∧ ∀ request, .notified t.id request ∉ log

structure Inv {σ₁ σ₂ : Type} (d : Hub σ₁ σ₂) : Prop where
  kept : Kept d.requests d.records d.log
  held : ∀ t ∈ d.calls, t.Held d.requests d.log
  sole : ∀ t ∈ d.calls, ∀ t' ∈ d.calls, t.stage.holds = true → t'.stage.holds = true → t.send.request.key ≠ none →
    t.send.request.key = t'.send.request.key → t = t'
  fresh : ∀ t ∈ d.calls, t.id < d.drawn
  logged : ∀ e ∈ d.log, e.id < d.drawn

variable {σ₁ σ₂ : Type} {env : Env σ₁ σ₂} {d d' : Hub σ₁ σ₂} {requests requests' : Keyed DashboardSendRequest.requestId}
  {records records' : List MessageRecord} {log log' events : List Event} {i : ℕ} {a : Action} {t : Task} {s : Send}
  {stage : Stage} {request : Request} {response : Response} {key : Key}

theorem Unlogged.append (h : Unlogged log i) (hevents : ∀ e ∈ events, e.id ≠ i) : Unlogged (events ++ log) i := by
  constructor
  · intro request response hmem
    rcases List.mem_append.mp hmem with hmem | hmem
    · exact hevents _ hmem rfl
    · exact h.1 request response hmem
  · intro request hmem
    rcases List.mem_append.mp hmem with hmem | hmem
    · exact hevents _ hmem rfl
    · exact h.2 request hmem

theorem Task.Held.append (h : t.Held requests log) (hevents : ∀ e ∈ events, e.id ≠ t.id)
    (hrows : t.stage.holds = true → ∀ key ∈ t.send.request.key, requests.get? key = none → requests'.get? key = none) :
    t.Held requests' (events ++ log) := by
  obtain ⟨j, s, stage⟩ := t
  cases stage with
  | reserve => exact Unlogged.append h hevents
  | checks | fanOut => exact ⟨h.1.append hevents, fun key hkey => hrows rfl key hkey (h.2 key hkey)⟩
  | commit => exact ⟨h.1.append hevents, fun key hkey => hrows rfl key hkey (h.2.1 key hkey), h.2.2⟩
  | notify m =>
    refine ⟨List.mem_append_right _ h.1, fun request hmem => ?_⟩
    rcases List.mem_append.mp hmem with hmem | hmem
    · exact hevents _ hmem rfl
    · exact h.2 request hmem

theorem Kept.answer (h : Kept requests records log) {answer : Except HttpError Response}
    (hok : ∀ response, answer = .ok response → ∃ i' request', .stored i' request' response ∈ log ∧
      request'.key = request.key ∧ request'.body = request.body) : Kept requests records (.answered i request answer :: log) := by
  have hstored : ∀ {j request' response}, Event.stored j request' response ∈ Event.answered i request answer :: log ↔
      Event.stored j request' response ∈ log := by simp
  have hnotified : ∀ {j request'}, Event.notified j request' ∈ Event.answered i request answer :: log ↔
      Event.notified j request' ∈ log := by simp
  constructor
  · simp only [hstored]
    exact h.row
  · simp only [hstored]
    exact h.stored
  · simp only [hstored]
    exact h.once
  · simp only [hstored, hnotified]
    exact h.notified
  · rw [List.filterMap_cons_none rfl]
    exact h.notifiedOnce
  · simp only [hstored]
    intro j request' response hmem
    rcases List.mem_cons.mp hmem with heq | hmem
    · cases heq
      exact hok response rfl
    · exact h.answered j request' response hmem
  · simp only [hstored]
    exact h.records

theorem Kept.notify (h : Kept requests records log) (hstored : .stored i request response ∈ log)
    (hnot : ∀ request, .notified i request ∉ log) : Kept requests records (.notified i request :: log) := by
  have hmem : ∀ {j request' response}, Event.stored j request' response ∈ Event.notified i request :: log ↔
      Event.stored j request' response ∈ log := by simp
  have hanswered : ∀ {j request' answer}, Event.answered j request' answer ∈ Event.notified i request :: log ↔
      Event.answered j request' answer ∈ log := by simp
  constructor
  · simp only [hmem]
    exact h.row
  · simp only [hmem]
    exact h.stored
  · simp only [hmem]
    exact h.once
  · simp only [hmem]
    intro j request' hnotified
    rcases List.mem_cons.mp hnotified with heq | hnotified
    · cases heq
      exact ⟨response, hstored⟩
    · exact h.notified j request' hnotified
  · rw [List.filterMap_cons_some (f := Event.notifies?) rfl, List.nodup_cons]
    refine ⟨fun hi => ?_, h.notifiedOnce⟩
    obtain ⟨e, he, hnotifies⟩ := List.mem_filterMap.mp hi
    cases e with
    | notified j request' =>
      obtain rfl : j = i := Option.some.inj hnotifies
      exact hnot request' he
    | stored => cases hnotifies
    | answered => cases hnotifies
  · simp only [hmem, hanswered]
    exact h.answered
  · simp only [hmem]
    exact h.records

theorem Kept.store (h : Kept requests records log) (hfree : ∀ request response, .stored i request response ∉ log)
    (hnone : ∀ key ∈ request.key, requests.get? key = none) {added : List MessageRecord}
    (hadded : ∀ record ∈ added, record.msgId = response.msgId)
    (hrows : ∀ row, row ∈ requests' ↔ row ∈ requests ∨ ∃ key ∈ request.key, row = ⟨key, request.body, some response⟩) :
    Kept requests' (records ++ added) (.stored i request response :: log) := by
  have hcases : ∀ {j request' response'}, Event.stored j request' response' ∈ Event.stored i request response :: log ↔
      (j = i ∧ request' = request ∧ response' = response) ∨ Event.stored j request' response' ∈ log := by
    intro j request' response'
    rw [List.mem_cons, Event.stored.injEq]
  have hnotified : ∀ {j request'}, Event.notified j request' ∈ Event.stored i request response :: log ↔
      Event.notified j request' ∈ log := by simp
  have hanswered : ∀ {j request' answer}, Event.answered j request' answer ∈ Event.stored i request response :: log ↔
      Event.answered j request' answer ∈ log := by simp
  have hother : ∀ j request' response', .stored j request' response' ∈ log → ¬ (j = i ∨ request'.key ≠ none ∧
      request'.key = request.key) := by
    rintro j request' response' hmem (rfl | ⟨hsome, hkey⟩)
    · exact hfree request' response' hmem
    · obtain ⟨key, hkey'⟩ := Option.ne_none_iff_exists'.mp hsome
      have hrow := h.stored j request' response' hmem key hkey'
      rw [hnone key (hkey ▸ hkey')] at hrow
      cases hrow
  constructor
  · intro row hrow
    rcases (hrows row).mp hrow with hrow | ⟨key, hkey, rfl⟩
    · obtain ⟨j, request', response', hmem, hrest⟩ := h.row row hrow
      exact ⟨j, request', response', hcases.mpr (.inr hmem), hrest⟩
    · exact ⟨i, request, response, hcases.mpr (.inl ⟨rfl, rfl, rfl⟩), hkey, rfl, rfl⟩
  · intro j request' response' hmem key hkey
    rcases hcases.mp hmem with ⟨rfl, rfl, rfl⟩ | hmem
    · exact Keyed.get?_eq_some_iff.mpr ⟨(hrows _).mpr (.inr ⟨key, hkey, rfl⟩), rfl⟩
    · have hrow := Keyed.get?_eq_some_iff.mp (h.stored j request' response' hmem key hkey)
      exact Keyed.get?_eq_some_iff.mpr ⟨(hrows _).mpr (.inl hrow.1), rfl⟩
  · intro j request₁ response₁ j' request₂ response₂ hmem hmem' hsame
    rcases hcases.mp hmem with ⟨rfl, rfl, rfl⟩ | hold
    · rcases hcases.mp hmem' with ⟨rfl, rfl, rfl⟩ | hold'
      · exact ⟨rfl, rfl, rfl⟩
      · refine absurd ?_ (hother j' request₂ response₂ hold')
        rcases hsame with heq | ⟨hsome, hkey⟩
        · exact .inl heq.symm
        · exact .inr ⟨hkey ▸ hsome, hkey.symm⟩
    · rcases hcases.mp hmem' with ⟨rfl, rfl, rfl⟩ | hold'
      · exact absurd hsame (hother j request₁ response₁ hold)
      · exact h.once j request₁ response₁ j' request₂ response₂ hold hold' hsame
  · intro j request' hmem
    obtain ⟨response', hstored⟩ := h.notified j request' (hnotified.mp hmem)
    exact ⟨response', hcases.mpr (.inr hstored)⟩
  · rw [List.filterMap_cons_none rfl]
    exact h.notifiedOnce
  · intro j request' response' hmem
    obtain ⟨j', request'', hstored, hrest⟩ := h.answered j request' response' (hanswered.mp hmem)
    exact ⟨j', request'', hcases.mpr (.inr hstored), hrest⟩
  · intro record hrecord
    rcases List.mem_append.mp hrecord with hrecord | hrecord
    · obtain ⟨j, request', response', hmem, hid⟩ := h.records record hrecord
      exact ⟨j, request', response', hcases.mpr (.inr hmem), hid⟩
    · exact ⟨i, request, response, hcases.mpr (.inl ⟨rfl, rfl, rfl⟩), hadded record hrecord⟩

theorem Kept.oneMessage (h : Kept d.requests d.records d.log) : d.OneMessage := by
  constructor
  · intro j request response j' request' response' hmem hmem' hsome hkey
    obtain ⟨hid, hrequest, hresponse⟩ := h.once j request response j' request' response' hmem hmem' (.inr ⟨hsome, hkey⟩)
    exact ⟨hid, hrequest, congrArg Response.msgId hresponse⟩
  · exact h.notified
  · exact h.notifiedOnce
  · intro j request response j' request' response' hmem hmem' hsome hkey
    obtain ⟨k, request₁, hstored, hkey₁, hbody₁⟩ := h.answered j request response hmem
    obtain ⟨k', request₂, hstored', hkey₂, hbody₂⟩ := h.answered j' request' response' hmem'
    obtain ⟨-, hrequest, hresponse⟩ := h.once k request₁ response k' request₂ response' hstored hstored'
      (.inr ⟨hkey₁ ▸ hsome, hkey₁.trans (hkey.trans hkey₂.symm)⟩)
    exact ⟨hbody₁.symm.trans (hrequest ▸ hbody₂), hresponse⟩
  · exact h.records
  · intro row hrow hnone
    obtain ⟨j, request, response, -, -, -, hsome⟩ := h.row row hrow
    rw [hsome] at hnone
    cases hnone

/-! ### Steps -/

section Calls

variable (h : Inv d) (ht : d.calls.get? i = some t)
include h ht

theorem Inv.others (hevents : ∀ e ∈ events, e.id = i)
    (hrows : ∀ t' ∈ d.calls, t' ≠ t → t'.stage.holds = true → ∀ key ∈ t'.send.request.key,
      d.requests.get? key = none → requests'.get? key = none) {t' : Task} (ht' : t' ∈ d.calls) (hne : some t' ≠ some t) :
    t'.Held requests' (events ++ d.log) := by
  obtain ⟨hmem, hid⟩ := Keyed.get?_eq_some_iff.mp ht
  have hne : t' ≠ t := fun heq => hne (congrArg some heq)
  refine (h.held t' ht').append (fun e he heq => hne ?_) (hrows t' ht' hne)
  exact Keyed.eq_of_key ht' hmem (heq.symm.trans ((hevents e he).trans hid.symm))

theorem Inv.goto (events : List Event) (d' : Hub σ₁ σ₂) (hcalls : d'.calls = d.calls) (hlog : d'.log = events ++ d.log)
    (hevents : ∀ e ∈ events, e.id = i) (hdrawn : d.drawn ≤ d'.drawn) (hkept : Kept d'.requests d'.records d'.log)
    (hrows : ∀ t' ∈ d.calls, t' ≠ t → t'.stage.holds = true → ∀ key ∈ t'.send.request.key,
      d.requests.get? key = none → d'.requests.get? key = none)
    (hheld : (t.goto stage).Held d'.requests d'.log)
    (hsole : stage.holds = true → ∀ t' ∈ d.calls, t'.stage.holds = true → t.send.request.key ≠ none →
      t.send.request.key = t'.send.request.key → t' = t) : Inv (d'.goto i stage) := by
  obtain ⟨hmem, hid⟩ := Keyed.get?_eq_some_iff.mp ht
  have hexchange : d.calls.Exchange (d'.goto i stage).calls (some t) (some (t.goto stage)) := by
    simp only [Hub.goto, hcalls]
    exact Keyed.exchange_modify (Task.id_goto stage) ht
  refine ⟨hkept, fun t' ht' => ?_, fun t₁ ht₁ t₂ ht₂ hholds₁ hholds₂ hsome hkey => ?_, fun t' ht' => ?_, fun e he => ?_⟩
  · rcases hexchange.cases t' ht' with ⟨ht', hne⟩ | heq
    · have hother := h.others ht hevents hrows ht' hne
      rw [← hlog] at hother
      exact hother
    · cases heq
      exact hheld
  · rcases hexchange.cases t₁ ht₁ with ⟨ht₁, hne₁⟩ | heq₁
    · rcases hexchange.cases t₂ ht₂ with ⟨ht₂, hne₂⟩ | heq₂
      · exact h.sole t₁ ht₁ t₂ ht₂ hholds₁ hholds₂ hsome hkey
      · cases heq₂
        exact absurd (congrArg some (hsole hholds₂ t₁ ht₁ hholds₁ (hkey ▸ hsome) hkey.symm)) hne₁
    · cases heq₁
      rcases hexchange.cases t₂ ht₂ with ⟨ht₂, hne₂⟩ | heq₂
      · exact absurd (congrArg some (hsole hholds₁ t₂ ht₂ hholds₂ hsome hkey)) hne₂
      · exact Option.some.inj heq₂
  · refine lt_of_lt_of_le ?_ hdrawn
    rcases hexchange.cases t' ht' with ⟨ht', -⟩ | heq
    · exact h.fresh t' ht'
    · cases heq
      exact h.fresh t hmem
  · have he : e ∈ d'.log := he
    refine lt_of_lt_of_le ?_ hdrawn
    rw [hlog] at he
    rcases List.mem_append.mp he with he | he
    · rw [hevents e he, ← hid]
      exact h.fresh t hmem
    · exact h.logged e he

theorem Inv.finish (events : List Event) (d' : Hub σ₁ σ₂) (hcalls : d'.calls = d.calls) (hlog : d'.log = events ++ d.log)
    (hevents : ∀ e ∈ events, e.id = i) (hdrawn : d'.drawn = d.drawn) (hrequests : d'.requests = d.requests)
    (hkept : Kept d'.requests d'.records d'.log) : Inv (d'.finish i) := by
  obtain ⟨hmem, hid⟩ := Keyed.get?_eq_some_iff.mp ht
  have hexchange : d.calls.Exchange (d'.finish i).calls (some t) none := by
    simp only [Hub.finish, hcalls]
    exact Keyed.exchange_remove ht
  have hold : ∀ t' ∈ (d'.finish i).calls, t' ∈ d.calls ∧ some t' ≠ some t := by
    intro t' ht'
    rcases hexchange.cases t' ht' with hcase | heq
    · exact hcase
    · cases heq
  refine ⟨hkept, fun t' ht' => ?_, fun t₁ ht₁ t₂ ht₂ => h.sole t₁ (hold t₁ ht₁).1 t₂ (hold t₂ ht₂).1, fun t' ht' => ?_,
    fun e he => ?_⟩
  · have hother : t'.Held d'.requests (events ++ d.log) := h.others ht hevents
      (fun _ _ _ _ key _ hnone => by rw [hrequests]; exact hnone) (hold t' ht').1 (hold t' ht').2
    rw [← hlog] at hother
    exact hother
  · exact lt_of_lt_of_eq (h.fresh t' (hold t' ht').1) hdrawn.symm
  · have he : e ∈ d'.log := he
    refine lt_of_lt_of_eq ?_ hdrawn.symm
    rw [hlog] at he
    rcases List.mem_append.mp he with he | he
    · rw [hevents e he, ← hid]
      exact h.fresh t hmem
    · exact h.logged e he

end Calls

theorem Inv.answer (h : Inv d) (ht : d.calls.get? i = some t) (d' : Hub σ₁ σ₂) (hcalls : d'.calls = d.calls)
    (hlog : d'.log = d.log) (hdrawn : d'.drawn = d.drawn) (hrequests : d'.requests = d.requests)
    (hrecords : d'.records = d.records) {answer : Except HttpError Response}
    (hok : ∀ response, answer = .ok response → ∃ i' request', .stored i' request' response ∈ d.log ∧
      request'.key = request.key ∧ request'.body = request.body) : Inv (d'.answer i request answer) := by
  refine h.finish ht [.answered i request answer] _ hcalls (congrArg _ hlog) (fun e he => ?_) hdrawn hrequests ?_
  · rw [List.mem_singleton.mp he]
    rfl
  · show Kept d'.requests d'.records (.answered i request answer :: d'.log)
    rw [hrequests, hrecords, hlog]
    exact h.kept.answer hok

inductive Checked (env : Env σ₁ σ₂) (d : Hub σ₁ σ₂) (i : ℕ) (s : Send) : Hub σ₁ σ₂ → Prop
  | invalid (e : HttpError) : Checked env d i s (d.answer i s.request (.error e))
  | refused {payload : Payload} {e : SendError} {m : AntiSpam σ₁ σ₂}
      (hspam : s.checkSpam env payload d.now (d.memory s.worker) = (.error e, m)) :
      Checked env d i s ((d.remember s.worker m).answer i s.request (.error e.http))
  | recorded {payload : Payload} {m : AntiSpam σ₁ σ₂} {e : HttpError}
      (hspam : s.checkSpam env payload d.now (d.memory s.worker) = (.ok (), m))
      (hmentions : normalizeMentions s.request.roomId s.request.body.mentions = .error e) :
      Checked env d i s (((d.remember s.worker m).record env i s payload).answer i s.request (.error e))
  | passed {payload : Payload} {m : AntiSpam σ₁ σ₂} (c : Content)
      (hspam : s.checkSpam env payload d.now (d.memory s.worker) = (.ok (), m)) :
      Checked env d i s (((d.remember s.worker m).record env i s payload).goto i (.fanOut c))

theorem checked (title : Option String) : Checked env d i s (d.check env i s title) := by
  unfold Hub.check
  dsimp only
  split
  · exact .invalid _
  · split
    · exact .invalid _
    · split
      · rename_i hspam
        exact .refused hspam
      · rename_i hspam
        split
        · rename_i hmentions
          exact .recorded hspam hmentions
        · exact .passed _ hspam

inductive Stepped (env : Env σ₁ σ₂) (d : Hub σ₁ σ₂) : Action → Hub σ₁ σ₂ → Prop
  | tick (nanoseconds : ℕ) : Stepped env d (.tick nanoseconds) { d with now := d.now + nanoseconds }
  | send {s : Send} {calls : Keyed Task.id} (hadds : d.calls.Adds ⟨d.drawn, s, .reserve⟩ calls) :
      Stepped env d (.send s) { d with calls, drawn := d.drawn + 1 }
  | otherContent {worker : WorkerId} {slot : RoomId × AgentId} {payload : Payload} {checked : Except SendError Unit}
      {m : AntiSpam σ₁ σ₂}
      (hcheck : checkDuplicateContent env.toEnv slot.1 slot.2 payload d.now (d.memory worker) = (checked, m)) :
      Stepped env d (.otherContent worker slot payload) { d.remember worker m with
        hashes := if checked.isOk then d.hashes ++ [{ worker, slot, value := env.contentHash payload, time := d.now }] else d.hashes }
  | otherSend (worker : WorkerId) (slot : RoomId × AgentId) : Stepped env d (.otherSend worker slot)
      { d.remember worker (recordSlowModeSend env.toEnv slot.1 slot.2 d.now (d.memory worker)) with
        times := d.times ++ [{ worker, slot, value := d.now, time := d.now }] }
  | reserved {i : ℕ} {t : Task} (ht : d.calls.get? i = some t) (hstage : t.stage = .reserve)
      (hfree : ∀ key ∈ t.send.request.key, ¬ d.Reserved key ∧ d.requests.get? key = none) :
      Stepped env d (.reserve i) (d.goto i .checks)
  | replayed {i : ℕ} {t : Task} {key : Key} {row : DashboardSendRequest} (ht : d.calls.get? i = some t)
      (hstage : t.stage = .reserve) (hkey : t.send.request.key = some key) (hrow : d.requests.get? key = some row) :
      Stepped env d (.reserve i) (d.answer i t.send.request (Hub.replay t.send.request row))
  | checked {i : ℕ} {t : Task} {title : Option String} (ht : d.calls.get? i = some t) (hstage : t.stage = .checks)
      {d' : Hub σ₁ σ₂} (hchecked : Checked env d i t.send d') : Stepped env d (.check i title) d'
  | unfounded {i : ℕ} {t : Task} {c : Content} {answers : Answers} (ht : d.calls.get? i = some t)
      (hstage : t.stage = .fanOut c) (hreply : t.send.request.body.replyTo ≠ none ∧ answers.replyTarget = none) :
      Stepped env d (.fanOut i answers) (d.answer i t.send.request (.error ⟨400, "reply_target_not_found"⟩))
  | fannedOut {i : ℕ} {t : Task} {c : Content} {answers : Answers} (ht : d.calls.get? i = some t)
      (hstage : t.stage = .fanOut c) (drawn : ℕ) (hdrawn : d.drawn ≤ drawn) :
      Stepped env d (.fanOut i answers) ({ d with drawn }.goto i (.commit (t.send.message c answers d.drawn)))
  | committed {i : ℕ} {t : Task} {m : Message} {requests : Keyed DashboardSendRequest.requestId}
      (ht : d.calls.get? i = some t) (hstage : t.stage = .commit m)
      (hrows : ∀ row, row ∈ requests ↔ row ∈ d.requests ∨
        ∃ key ∈ t.send.request.key, row = ⟨key, t.send.request.body, some m.response⟩) :
      Stepped env d (.commit i) ({ d with
        requests, records := d.records ++ m.records, log := .stored i t.send.request m.response :: d.log }.goto i (.notify m))
  | notified {i : ℕ} {t : Task} {m : Message} (ht : d.calls.get? i = some t) (hstage : t.stage = .notify m) :
      Stepped env d (.notify i) (d.notify i t.send.request m)
  | aborted {i : ℕ} {t : Task} (ht : d.calls.get? i = some t) : Stepped env d (.abort i) (d.finish i)

theorem stepped (hstep : (hub env).step d a = some d') : Stepped env d a d' := by
  cases a with
  | tick nanoseconds =>
    cases hstep
    exact .tick nanoseconds
  | send s =>
    obtain ⟨calls, hinsert, rfl⟩ := Option.map_eq_some_iff.mp hstep
    exact .send (Keyed.insert?_eq_some hinsert)
  | otherContent worker slot payload =>
    cases hstep
    exact .otherContent rfl
  | otherSend worker slot =>
    cases hstep
    exact .otherSend worker slot
  | reserve i =>
    obtain ⟨t, ht, hstep⟩ := Option.bind_eq_some_iff.mp hstep
    split at hstep
    · rename_i hstage
      unfold Hub.reserve at hstep
      split at hstep
      · rename_i hnone
        cases hstep
        exact .reserved ht hstage fun key hkey => by cases hnone.symm.trans hkey
      · rename_i key hkey
        split at hstep
        · cases hstep
        · rename_i hfree
          split at hstep
          · rename_i hnone
            cases hstep
            refine .reserved ht hstage fun key' hkey' => ?_
            cases hkey.symm.trans hkey'
            exact ⟨hfree, hnone⟩
          · rename_i row hrow
            cases hstep
            exact .replayed ht hstage hkey hrow
    · cases hstep
  | check i title =>
    obtain ⟨t, ht, hstep⟩ := Option.bind_eq_some_iff.mp hstep
    split at hstep
    · rename_i hstage
      cases hstep
      exact .checked ht hstage (checked title)
    · cases hstep
  | fanOut i answers =>
    obtain ⟨t, ht, hstep⟩ := Option.bind_eq_some_iff.mp hstep
    split at hstep
    · rename_i hstage
      cases hstep
      unfold Hub.fanOut
      split
      · rename_i hreply
        exact .unfounded ht hstage hreply
      · exact .fannedOut ht hstage _ (by omega)
    · cases hstep
  | commit i =>
    obtain ⟨t, ht, hstep⟩ := Option.bind_eq_some_iff.mp hstep
    split at hstep
    · rename_i hstage
      unfold Hub.commit at hstep
      dsimp only at hstep
      split at hstep
      · rename_i hnone
        cases hstep
        exact .committed ht hstage fun row => by simp [hnone]
      · rename_i key hkey
        obtain ⟨requests, hinsert, rfl⟩ := Option.map_eq_some_iff.mp hstep
        refine .committed ht hstage fun row => ?_
        rw [(Keyed.insert?_eq_some hinsert).mem_iff]
        simp [hkey]
    · cases hstep
  | notify i =>
    obtain ⟨t, ht, hstep⟩ := Option.bind_eq_some_iff.mp hstep
    split at hstep
    · rename_i hstage
      cases hstep
      exact .notified ht hstage
    · cases hstep
  | abort i =>
    obtain ⟨t, ht, rfl⟩ := Option.map_eq_some_iff.mp hstep
    exact .aborted ht

theorem not_reserved (hfree : ¬ d.Reserved key) {t' : Task} (ht' : t' ∈ d.calls) (hholds : t'.stage.holds = true) :
    t'.send.request.key ≠ some key :=
  fun hkey => hfree ⟨t', ht', hholds, hkey⟩

theorem replay_ok {row : DashboardSendRequest} (h : Hub.replay request row = .ok response) :
    row.fingerprint = request.body ∧ row.responseJson = some response := by
  unfold Hub.replay at h
  split at h
  · cases h
  · rename_i hsame
    push Not at hsame
    split at h
    · cases h
    · rename_i hsome
      cases h
      exact ⟨hsame, hsome⟩

theorem message_records (c : Content) (answers : Answers) (drawn : ℕ) :
    ∀ record ∈ (s.message c answers drawn).records, record.msgId = (s.message c answers drawn).response.msgId := by
  intro record hrecord
  obtain ⟨⟨receiverId, n⟩, -, rfl⟩ := List.mem_map.mp hrecord
  rfl

theorem Inv.same (h : Inv d) (d' : Hub σ₁ σ₂) (hcalls : d'.calls = d.calls) (hrequests : d'.requests = d.requests)
    (hrecords : d'.records = d.records) (hlog : d'.log = d.log) (hdrawn : d'.drawn = d.drawn) : Inv d' := by
  constructor
  · rw [hrequests, hrecords, hlog]
    exact h.kept
  · rw [hcalls, hrequests, hlog]
    exact h.held
  · rw [hcalls]
    exact h.sole
  · rw [hcalls, hdrawn]
    exact h.fresh
  · rw [hlog, hdrawn]
    exact h.logged

theorem Inv.keeps (h : Inv d) (ht : d.calls.get? i = some t) (hholds : t.stage.holds = true) :
    stage.holds = true → ∀ t' ∈ d.calls, t'.stage.holds = true → t.send.request.key ≠ none →
      t.send.request.key = t'.send.request.key → t' = t :=
  fun _ t' ht' hholds' hsome hkey =>
    (h.sole t (Keyed.get?_eq_some_iff.mp ht).1 t' ht' hholds hholds' hsome hkey).symm

theorem Inv.get?_store (h : Inv d) (ht : d.calls.get? i = some t) (hholds : t.stage.holds = true)
    (hrows : ∀ row, row ∈ requests ↔ row ∈ d.requests ∨ ∃ key ∈ t.send.request.key, row = ⟨key, t.send.request.body, some response⟩)
    {t' : Task} (ht' : t' ∈ d.calls) (hne : t' ≠ t) (hholds' : t'.stage.holds = true) (hkey : key ∈ t'.send.request.key)
    (hnone : d.requests.get? key = none) : requests.get? key = none := by
  rw [Keyed.get?_eq_none_iff] at hnone ⊢
  intro row hrow
  rcases (hrows row).mp hrow with hrow | ⟨key', hkey', rfl⟩
  · exact hnone row hrow
  · rintro rfl
    have hsome : t'.send.request.key ≠ none := by
      rw [show t'.send.request.key = some key' from hkey]
      exact Option.some_ne_none key'
    exact hne (h.sole t' ht' t (Keyed.get?_eq_some_iff.mp ht).1 hholds' hholds hsome (hkey.trans hkey'.symm))

theorem step_inv (h : Inv d) (hstep : (hub env).step d a = some d') : Inv d' := by
  cases stepped hstep with
  | tick | otherSend | otherContent => exact h.same _ rfl rfl rfl rfl rfl
  | @send s calls hadds =>
    refine ⟨h.kept, fun t ht => ?_, fun t₁ ht₁ t₂ ht₂ hholds₁ hholds₂ => ?_, fun t ht => ?_, fun e he => ?_⟩
    · rcases hadds.mem_iff.mp ht with ht | rfl
      · exact h.held t ht
      · exact ⟨fun request response hmem => lt_irrefl _ (h.logged _ hmem), fun request hmem => lt_irrefl _ (h.logged _ hmem)⟩
    · rcases hadds.mem_iff.mp ht₁ with ht₁ | rfl
      · rcases hadds.mem_iff.mp ht₂ with ht₂ | rfl
        · exact h.sole t₁ ht₁ t₂ ht₂ hholds₁ hholds₂
        · cases hholds₂
      · cases hholds₁
    · rcases hadds.mem_iff.mp ht with ht | rfl
      · exact (h.fresh t ht).trans (Nat.lt_succ_self _)
      · exact Nat.lt_succ_self _
    · exact (h.logged e he).trans (Nat.lt_succ_self _)
  | @reserved i t ht hstage hfree =>
    have hheld := h.held t (Keyed.get?_eq_some_iff.mp ht).1
    simp only [Task.Held, hstage] at hheld
    refine h.goto ht [] d rfl rfl (fun _ he => by cases he) le_rfl h.kept (fun _ _ _ _ _ _ hnone => hnone)
      ⟨hheld, fun key hkey => (hfree key hkey).2⟩ fun _ t' ht' hholds hsome hkey => ?_
    obtain ⟨key, hsome⟩ := Option.ne_none_iff_exists'.mp hsome
    exact absurd (hkey.symm.trans hsome) (not_reserved (hfree key hsome).1 ht' hholds)
  | @replayed i t key row ht hstage hkey hrow =>
    refine h.answer ht d rfl rfl rfl rfl rfl fun response hok => ?_
    obtain ⟨hbody, hsome⟩ := replay_ok hok
    obtain ⟨hmem, hid⟩ := Keyed.get?_eq_some_iff.mp hrow
    obtain ⟨i', request', response', hstored, hkey', hbody', hsome'⟩ := h.kept.row row hmem
    obtain rfl := Option.some.inj (hsome.symm.trans hsome')
    exact ⟨i', request', hstored, hkey'.trans ((congrArg some hid).trans hkey.symm), hbody'.trans hbody⟩
  | @checked i t title ht hstage d' hchecked =>
    have hheld := h.held t (Keyed.get?_eq_some_iff.mp ht).1
    simp only [Task.Held, hstage] at hheld
    have hholds : t.stage.holds = true := by rw [hstage]; rfl
    cases hchecked with
    | invalid => exact h.answer ht d rfl rfl rfl rfl rfl fun _ hok => by cases hok
    | @refused payload e m hspam =>
      refine h.answer ht (d.remember t.send.worker m) rfl rfl rfl rfl rfl fun _ hok => ?_
      cases hok
    | @recorded payload m e hspam hmentions =>
      refine h.answer ht ((d.remember t.send.worker m).record env i t.send payload) rfl rfl rfl rfl rfl fun _ hok => ?_
      cases hok
    | passed =>
      exact h.goto ht [] _ rfl rfl (fun _ he => by cases he) le_rfl h.kept
        (fun _ _ _ _ _ _ hnone => hnone) hheld (h.keeps ht hholds)
  | @unfounded i t c answers ht hstage hreply => exact h.answer ht d rfl rfl rfl rfl rfl fun _ hok => by cases hok
  | @fannedOut i t c answers ht hstage drawn hdrawn =>
    have hheld := h.held t (Keyed.get?_eq_some_iff.mp ht).1
    simp only [Task.Held, hstage] at hheld
    have hholds : t.stage.holds = true := by rw [hstage]; rfl
    exact h.goto ht [] { d with drawn } rfl rfl (fun _ he => by cases he) hdrawn h.kept
      (fun _ _ _ _ _ _ hnone => hnone) ⟨hheld.1, hheld.2, message_records c answers d.drawn⟩ (h.keeps ht hholds)
  | @committed i t m requests ht hstage hrows =>
    obtain ⟨hmem, hid⟩ := Keyed.get?_eq_some_iff.mp ht
    have hheld := h.held t hmem
    simp only [Task.Held, hstage] at hheld
    obtain ⟨hunlogged, hnone, hrecords⟩ := hheld
    have hholds : t.stage.holds = true := by rw [hstage]; rfl
    refine h.goto ht [.stored i t.send.request m.response] _ rfl rfl (fun e he => ?_) le_rfl
      (h.kept.store (hid ▸ hunlogged.1) hnone hrecords hrows) (fun t' ht' hne hholds' key hkey hfree => ?_) ⟨?_, ?_⟩
      fun hfalse => by cases hfalse
    · rw [List.mem_singleton.mp he]
      rfl
    · exact h.get?_store ht hholds hrows ht' hne hholds' hkey hfree
    · rw [Task.id_goto, hid]
      exact List.mem_cons_self
    · intro request hnotified
      rcases List.mem_cons.mp hnotified with heq | hnotified
      · cases heq
      · exact hunlogged.2 request hnotified
  | @notified i t m ht hstage =>
    obtain ⟨hmem, hid⟩ := Keyed.get?_eq_some_iff.mp ht
    have hheld := h.held t hmem
    simp only [Task.Held, hstage, hid] at hheld
    obtain ⟨hstored, hnot⟩ := hheld
    refine h.finish ht [.answered i t.send.request (.ok m.response), .notified i t.send.request] _ rfl rfl
      (fun e he => ?_) rfl rfl ?_
    · rcases List.mem_cons.mp he with rfl | he
      · rfl
      · rw [List.mem_singleton.mp he]
        rfl
    · refine (h.kept.notify hstored hnot).answer fun response hok => ?_
      cases hok
      exact ⟨i, t.send.request, List.mem_cons_of_mem _ hstored, rfl, rfl⟩
  | aborted ht => exact h.finish ht [] d rfl rfl (fun _ he => by cases he) rfl rfl h.kept

/-! ### The anti-spam state -/

def Mark.write {α : Type} (m : Mark α) : Cache.Write (RoomId × AgentId) α Time := ⟨m.slot, m.value, m.time⟩

def writes {α : Type} (marks : List (Mark α)) (worker : WorkerId) : List (Cache.Write (RoomId × AgentId) α Time) :=
  (marks.filter (·.worker = worker)).map Mark.write

theorem writes_append {α : Type} (marks : List (Mark α)) (m : Mark α) (worker : WorkerId) :
    writes (marks ++ [m]) worker = writes marks worker ++ if m.worker = worker then [m.write] else [] := by
  rw [writes, List.filter_append, List.map_append]
  by_cases hworker : m.worker = worker
  · simp [writes, hworker]
  · simp [writes, hworker]

structure Reflected (env : Env σ₁ σ₂) (d : Hub σ₁ σ₂) : Prop where
  hashes : ∀ worker, env.lastMsgHash.Reflects (300 * second) (writes d.hashes worker) (d.memory worker).lastMsgHash d.now
  times : ∀ worker, env.slowModeLastSend.Reflects (3600 * second) (writes d.times worker) (d.memory worker).slowModeLastSend d.now

/-- What the checks leave when they pass. -/
structure Recorded (env : Env σ₁ σ₂) (slot : RoomId × AgentId) (payload : Payload) (now : Time) (m m' : AntiSpam σ₁ σ₂) : Prop where
  hash : ∃ cache, env.lastMsgHash.Same m.lastMsgHash cache now ∧
    m'.lastMsgHash = env.lastMsgHash.set slot (env.contentHash payload) now cache
  time : ∃ cache, env.slowModeLastSend.Same m.slowModeLastSend cache now ∧
    m'.slowModeLastSend = env.slowModeLastSend.set slot now now cache

theorem checkSlowMode_lookup {room : Sends.Room} {member : Sends.RoomMember} {now : Time} {m m' : AntiSpam σ₁ σ₂} {e : SendError}
    (h : checkSlowMode env.toEnv room member now m = (.error e, m')) :
    ∃ last, env.slowModeLastSend.lookup m.slowModeLastSend (room.roomId, member.agentId) now = some last := by
  unfold checkSlowMode at h
  dsimp only at h
  split at h
  · cases h
  · split at h
    · cases h
    · rename_i last hlast
      exact ⟨last, hlast⟩

theorem Reflected.put (h : Reflected env d) {worker : WorkerId} {m : AntiSpam σ₁ σ₂} {hashes : List (Mark ContentHash)}
    {times : List (Mark Time)}
    (hhash : env.lastMsgHash.Reflects (300 * second) (writes hashes worker) m.lastMsgHash d.now)
    (htime : env.slowModeLastSend.Reflects (3600 * second) (writes times worker) m.slowModeLastSend d.now)
    (hhashes : ∀ other ≠ worker, writes hashes other = writes d.hashes other)
    (htimes : ∀ other ≠ worker, writes times other = writes d.times other) :
    Reflected env { d.remember worker m with hashes, times } := by
  constructor
  · intro other
    show env.lastMsgHash.Reflects _ (writes hashes other) (Function.update d.memory worker m other).lastMsgHash d.now
    rcases eq_or_ne other worker with rfl | hne
    · rw [Function.update_self]
      exact hhash
    · rw [Function.update_of_ne hne, hhashes other hne]
      exact h.hashes other
  · intro other
    show env.slowModeLastSend.Reflects _ (writes times other) (Function.update d.memory worker m other).slowModeLastSend d.now
    rcases eq_or_ne other worker with rfl | hne
    · rw [Function.update_self]
      exact htime
    · rw [Function.update_of_ne hne, htimes other hne]
      exact h.times other

theorem writes_append_self {α : Type} (marks : List (Mark α)) {m : Mark α} {worker : WorkerId} (hworker : m.worker = worker) :
    writes (marks ++ [m]) worker = writes marks worker ++ [m.write] := by
  rw [writes_append, if_pos hworker]

theorem writes_append_other {α : Type} (marks : List (Mark α)) {m : Mark α} {worker other : WorkerId}
    (hworker : m.worker = worker) (hne : other ≠ worker) : writes (marks ++ [m]) other = writes marks other := by
  rw [writes_append, if_neg fun heq => hne (heq.symm.trans hworker), List.append_nil]

section Caches

variable (henv : env.toEnv.Lawful)
include henv

theorem checkDuplicateContent_spec (slot : RoomId × AgentId) (payload : Payload) (now : Time) (m : AntiSpam σ₁ σ₂) :
    let result := checkDuplicateContent env.toEnv slot.1 slot.2 payload now m
    result.2.slowModeLastSend = m.slowModeLastSend ∧
      (result.1 = .error .duplicateContent ∧ env.lastMsgHash.lookup m.lastMsgHash slot now = some (env.contentHash payload) ∧
          env.lastMsgHash.Same m.lastMsgHash result.2.lastMsgHash now ∨
        result.1 = .ok () ∧ ∃ cache, env.lastMsgHash.Same m.lastMsgHash cache now ∧
          result.2.lastMsgHash = env.lastMsgHash.set slot (env.contentHash payload) now cache) := by
  intro result
  have hget := henv.lastMsgHash.same_get m.lastMsgHash slot now
  by_cases hdup : (env.lastMsgHash.get slot now m.lastMsgHash).1 = some (env.contentHash payload)
  · have hresult : result = (.error .duplicateContent, { m with lastMsgHash := (env.lastMsgHash.get slot now m.lastMsgHash).2 }) :=
      if_pos hdup
    rw [hresult]
    exact ⟨rfl, .inl ⟨rfl, hdup, hget⟩⟩
  · have hresult : result = (.ok (), { m with
        lastMsgHash := env.lastMsgHash.set slot (env.contentHash payload) now (env.lastMsgHash.get slot now m.lastMsgHash).2 }) :=
      if_neg hdup
    rw [hresult]
    exact ⟨rfl, .inr ⟨rfl, _, hget, rfl⟩⟩

/-- The checks of a send write both caches, or refuse it for what they find and leave both answering as they did. -/
theorem checkSpam_spec (s : Send) (payload : Payload) (now : Time) (m : AntiSpam σ₁ σ₂) :
    let result := s.checkSpam env payload now m
    (∃ e, result.1 = .error e ∧ env.lastMsgHash.Same m.lastMsgHash result.2.lastMsgHash now ∧
      env.slowModeLastSend.Same m.slowModeLastSend result.2.slowModeLastSend now ∧
      ((∃ last, env.slowModeLastSend.lookup m.slowModeLastSend s.slot now = some last) ∨
        e = .duplicateContent ∧ env.lastMsgHash.lookup m.lastMsgHash s.slot now = some (env.contentHash payload))) ∨
      result.1 = .ok () ∧ Recorded env s.slot payload now m result.2 := by
  obtain ⟨hsame, hhash⟩ := Sends.checkSlowMode_same henv s.room s.effectiveMember now m
  simp only [Send.checkSpam]
  rcases hslow : checkSlowMode env.toEnv s.room s.effectiveMember now m with ⟨e | ⟨⟩, m₁⟩
  · rw [hslow] at hsame
    exact .inl ⟨e, rfl, hsame.lastMsgHash, hsame.slowModeLastSend, .inl (checkSlowMode_lookup hslow)⟩
  · rw [hslow] at hsame hhash
    obtain ⟨htime, hcases⟩ := checkDuplicateContent_spec henv s.slot payload now m₁
    have hsame := hsame.slowModeLastSend
    rw [← htime] at hsame
    rw [hhash] at hcases
    rcases hcontent : checkDuplicateContent env.toEnv s.request.roomId s.request.senderId payload now m₁ with ⟨e | ⟨⟩, m₂⟩
    · have heq : checkDuplicateContent env.toEnv s.slot.1 s.slot.2 payload now m₁ = (.error e, m₂) := hcontent
      rw [heq] at hsame hcases
      simp only [hcontent]
      rcases hcases with ⟨hdup, hlookup, hkept⟩ | ⟨hok, -⟩
      · exact .inl ⟨e, rfl, hkept, hsame, .inr ⟨Except.error.inj hdup, hlookup⟩⟩
      · cases hok
    · have heq : checkDuplicateContent env.toEnv s.slot.1 s.slot.2 payload now m₁ = (.ok (), m₂) := hcontent
      rw [heq] at hsame hcases
      simp only [hcontent]
      rcases hcases with ⟨hdup, -⟩ | ⟨-, hset⟩
      · cases hdup
      · exact .inr ⟨trivial, hset, _, hsame, rfl⟩

theorem Reflected.record (h : Reflected env d) {payload : Payload} {m : AntiSpam σ₁ σ₂}
    (hspam : s.checkSpam env payload d.now (d.memory s.worker) = (.ok (), m)) :
    Reflected env ((d.remember s.worker m).record env i s payload) := by
  have hspec := checkSpam_spec henv s payload d.now (d.memory s.worker)
  simp only [hspam] at hspec
  rcases hspec with ⟨e, he, -⟩ | ⟨-, ⟨hashed, hsame, hset⟩, timed, htimed, hput⟩
  · cases he
  · refine h.put (m := m) ?_ ?_ (fun other hne => writes_append_other _ rfl hne) fun other hne => writes_append_other _ rfl hne
    · have hwrites := @writes_append_self _ d.hashes (s.mark i (env.contentHash payload) d.now) s.worker rfl
      refine (congrArg (env.lastMsgHash.Reflects _ · _ _) hwrites).mpr ?_
      rw [hset]
      exact ((h.hashes s.worker).congr hsame).set henv.lastMsgHash _ _
    · have hwrites := @writes_append_self _ d.times (s.mark i d.now d.now) s.worker rfl
      refine (congrArg (env.slowModeLastSend.Reflects _ · _ _) hwrites).mpr ?_
      rw [hput]
      exact ((h.times s.worker).congr htimed).set henv.slowModeLastSend _ _

theorem reflected_step (h : Reflected env d) (hstep : (hub env).step d a = some d') : Reflected env d' := by
  cases stepped hstep with
  | tick nanoseconds =>
    have hlater : d.now ≤ d.now + nanoseconds := le_add_of_nonneg_right (Int.natCast_nonneg nanoseconds)
    exact ⟨fun worker => (h.hashes worker).later hlater, fun worker => (h.times worker).later hlater⟩
  | @otherContent worker slot payload checked m hcheck =>
    have hspec := checkDuplicateContent_spec henv slot payload d.now (d.memory worker)
    simp only [hcheck] at hspec
    obtain ⟨htime, ⟨hdup, -, hsame⟩ | ⟨hok, cache, hsame, hset⟩⟩ := hspec
    · rw [hdup]
      refine h.put (m := m) ((h.hashes worker).congr hsame) ?_ (fun _ _ => rfl) fun _ _ => rfl
      rw [htime]
      exact h.times worker
    · rw [hok]
      refine h.put (m := m) ?_ ?_ (fun other hne => writes_append_other _ rfl hne) fun _ _ => rfl
      · rw [hset]
        refine (congrArg (env.lastMsgHash.Reflects _ · _ _) (writes_append_self _ rfl)).mpr ?_
        exact ((h.hashes worker).congr hsame).set henv.lastMsgHash _ _
      · rw [htime]
        exact h.times worker
  | otherSend worker slot =>
    refine h.put (m := recordSlowModeSend env.toEnv slot.1 slot.2 d.now (d.memory worker)) (h.hashes worker) ?_
      (fun _ _ => rfl) fun other hne => writes_append_other _ rfl hne
    rw [writes_append_self _ rfl]
    exact (h.times worker).set henv.slowModeLastSend _ _
  | @checked i t title ht hstage d' hchecked =>
    cases hchecked with
    | invalid => exact ⟨h.hashes, h.times⟩
    | @refused payload e m hspam =>
      have hspec := checkSpam_spec henv t.send payload d.now (d.memory t.send.worker)
      simp only [hspam] at hspec
      rcases hspec with ⟨e, -, hhash, htime, -⟩ | ⟨hok, -⟩
      · have hput := h.put ((h.hashes t.send.worker).congr hhash) ((h.times t.send.worker).congr htime) (fun _ _ => rfl)
          fun _ _ => rfl
        exact ⟨hput.hashes, hput.times⟩
      · cases hok
    | @recorded payload m e hspam hmentions =>
      have hrecord := h.record henv (i := i) hspam
      exact ⟨hrecord.hashes, hrecord.times⟩
    | @passed payload m c hspam =>
      have hrecord := h.record henv (i := i) hspam
      exact ⟨hrecord.hashes, hrecord.times⟩
  | send | reserved | replayed | unfounded | fannedOut | committed | notified | aborted => exact ⟨h.hashes, h.times⟩

end Caches

/-! ### What a failed send leaves -/

section Alive

variable {writer : Option ℕ}

/-- A step takes no event back, and a send that was about to store goes on, or has stored. -/
theorem Hub.Alive.step (h : d.Alive writer) (hlog : ∀ e ∈ d.log, e ∈ d'.log)
    (hcalls : ∀ t ∈ d.calls, t.stage.pending = true →
      (∃ e ∈ d'.log, e.stores? = some t.id) ∨ ∃ t' ∈ d'.calls, t'.id = t.id ∧ t'.stage.pending = true) : d'.Alive writer := by
  intro i hi
  rcases h i hi with ⟨e, he, hstores⟩ | ⟨t, ht, rfl, hpending⟩
  · exact .inl ⟨e, hlog e he, hstores⟩
  · exact hcalls t ht hpending

theorem Hub.Alive.goto (h : d.Alive writer) (ht : d.calls.get? i = some t) (d' : Hub σ₁ σ₂) (hcalls : d'.calls = d.calls)
    (hlog : ∀ e ∈ d.log, e ∈ d'.log)
    (hstage : t.stage.pending = true → (∃ e ∈ d'.log, e.stores? = some i) ∨ stage.pending = true) :
    (d'.goto i stage).Alive writer := by
  obtain ⟨hmem, hid⟩ := Keyed.get?_eq_some_iff.mp ht
  refine h.step hlog fun t' ht' hpending => ?_
  have hnew : (if t'.id = i then t'.goto stage else t') ∈ (d'.goto i stage).calls := by
    simp only [Hub.goto, hcalls]
    exact Keyed.mem_modify_of_mem (Task.id_goto stage) ht'
  by_cases hsame : t'.id = i
  · obtain rfl := Keyed.eq_of_key ht' hmem (hsame.trans hid.symm)
    rw [if_pos hsame] at hnew
    rcases hstage hpending with hstored | hstage
    · rw [hid]
      exact .inl hstored
    · exact .inr ⟨_, hnew, rfl, hstage⟩
  · rw [if_neg hsame] at hnew
    exact .inr ⟨t', hnew, rfl, hpending⟩

theorem Hub.Alive.finish (h : d.Alive writer) (ht : d.calls.get? i = some t) (d' : Hub σ₁ σ₂) (hcalls : d'.calls = d.calls)
    (hlog : ∀ e ∈ d.log, e ∈ d'.log) (hstage : t.stage.pending = false) : (d'.finish i).Alive writer := by
  obtain ⟨hmem, hid⟩ := Keyed.get?_eq_some_iff.mp ht
  refine h.step hlog fun t' ht' hpending => .inr ⟨t', ?_, rfl, hpending⟩
  simp only [Hub.finish, hcalls]
  refine Keyed.mem_remove.mpr ⟨ht', fun hsame => ?_⟩
  obtain rfl := Keyed.eq_of_key ht' hmem (hsame.trans hid.symm)
  rw [hstage] at hpending
  cases hpending

theorem Hub.Alive.careful (h : d.Alive writer) (hcareful : d.Careful a) (hstep : (hub env).step d a = some d') : d'.Alive writer := by
  cases stepped hstep with
  | tick | otherContent | otherSend => exact h
  | send hadds => exact h.step (fun _ he => he) fun t ht hpending => .inr ⟨t, hadds.mem_iff.mpr (.inl ht), rfl, hpending⟩
  | reserved ht hstage => exact h.goto ht d rfl (fun _ he => he) fun hpending => by rw [hstage] at hpending; cases hpending
  | replayed ht hstage => exact h.finish ht _ rfl (fun _ he => List.mem_cons_of_mem _ he) (by rw [hstage]; rfl)
  | @checked i t title ht hstage d' hchecked =>
    have hnot : t.stage.pending = false := by rw [hstage]; rfl
    cases hchecked with
    | invalid | refused | recorded => exact h.finish ht _ rfl (fun _ he => List.mem_cons_of_mem _ he) hnot
    | passed => exact h.goto ht _ rfl (fun _ he => he) fun _ => .inr rfl
  | unfounded ht hstage hreply => exact absurd hreply.2 (hcareful _ ht hreply.1)
  | @fannedOut i t c answers ht hstage drawn => exact h.goto ht { d with drawn } rfl (fun _ he => he) fun _ => .inr rfl
  | committed ht hstage =>
    refine h.goto ht _ rfl (fun _ he => List.mem_cons_of_mem _ he) fun _ => .inl ⟨_, List.mem_cons_self, rfl⟩
  | notified ht hstage =>
    exact h.finish ht _ rfl (fun _ he => List.mem_cons_of_mem _ (List.mem_cons_of_mem _ he)) (by rw [hstage]; rfl)
  | aborted ht => exact h.finish ht d rfl (fun _ he => he) (hcareful _ ht)

end Alive

/-- Every mark was left by a send that has stored its message or is about to. -/
structure Marked (d : Hub σ₁ σ₂) : Prop where
  hashes : ∀ m ∈ d.hashes, d.Alive m.writer
  times : ∀ m ∈ d.times, d.Alive m.writer

theorem alive_passed (ht : d.calls.get? i = some t) (d' : Hub σ₁ σ₂) (hcalls : d'.calls = d.calls) (c : Content) :
    (d'.goto i (.fanOut c)).Alive (some i) := by
  obtain ⟨hmem, hid⟩ := Keyed.get?_eq_some_iff.mp ht
  intro j hj
  cases hj
  have hnew : (if t.id = i then t.goto (.fanOut c) else t) ∈ (d'.goto i (.fanOut c)).calls := by
    simp only [Hub.goto, hcalls]
    exact Keyed.mem_modify_of_mem (Task.id_goto _) hmem
  rw [if_pos hid] at hnew
  exact .inr ⟨_, hnew, hid, rfl⟩

theorem marked_step (h : Marked d) (hcareful : d.Careful a) (hstep : (hub env).step d a = some d') : Marked d' := by
  have hkept : ∀ {writer}, d.Alive writer → d'.Alive writer := fun halive => halive.careful hcareful hstep
  cases stepped hstep with
  | @otherContent worker slot payload checked m hcheck =>
    refine ⟨fun mark hmark => ?_, fun mark hmark => hkept (h.times mark hmark)⟩
    cases hok : checked.isOk with
    | true =>
      simp only [hok, if_true, List.mem_append, List.mem_singleton] at hmark
      rcases hmark with hmark | rfl
      · exact hkept (h.hashes mark hmark)
      · exact fun _ hnone => by cases hnone
    | false =>
      simp only [hok, if_false, Bool.false_eq_true] at hmark
      exact hkept (h.hashes mark hmark)
  | otherSend worker slot =>
    refine ⟨fun mark hmark => hkept (h.hashes mark hmark), fun mark hmark => ?_⟩
    rcases List.mem_append.mp hmark with hmark | hmark
    · exact hkept (h.times mark hmark)
    · rw [List.mem_singleton.mp hmark]
      exact fun _ hnone => by cases hnone
  | @checked i t title ht hstage d' hchecked =>
    cases hchecked with
    | invalid | refused =>
      exact ⟨fun mark hmark => hkept (h.hashes mark hmark), fun mark hmark => hkept (h.times mark hmark)⟩
    | recorded hspam hmentions =>
      have hok := hcareful t ht
      rw [hmentions] at hok
      cases hok
    | @passed payload m c hspam =>
      have halive := alive_passed ht ((d.remember t.send.worker m).record env i t.send payload) rfl c
      constructor
      · intro mark hmark
        rcases List.mem_append.mp hmark with hmark | hmark
        · exact hkept (h.hashes mark hmark)
        · rw [List.mem_singleton.mp hmark]
          exact halive
      · intro mark hmark
        rcases List.mem_append.mp hmark with hmark | hmark
        · exact hkept (h.times mark hmark)
        · rw [List.mem_singleton.mp hmark]
          exact halive
  | tick | send | reserved | replayed | unfounded | fannedOut | committed | notified | aborted =>
    exact ⟨fun mark hmark => hkept (h.hashes mark hmark), fun mark hmark => hkept (h.times mark hmark)⟩

theorem Reflected.traceless (henv : env.toEnv.Lawful) (h : Reflected env d) (hmarked : Marked d) : d.Traceless env := by
  intro s payload e hrefused
  rcases checkSpam_spec henv s payload d.now (d.memory s.worker) with ⟨e', he', -, -, hfound⟩ | ⟨hok, -⟩
  · obtain rfl : e' = e := Except.error.inj (he'.symm.trans hrefused)
    rcases hfound with ⟨last, hlast⟩ | ⟨hdup, hhash⟩
    · obtain ⟨w, hw, hkey, -⟩ := (h.times s.worker).mem_of_lookup hlast
      obtain ⟨m, hm, rfl⟩ := List.mem_map.mp hw
      obtain ⟨hm, hworker⟩ := List.mem_filter.mp hm
      exact .inl ⟨m, hm, of_decide_eq_true hworker, hkey, hmarked.times m hm⟩
    · obtain ⟨w, hw, hkey, hvalue⟩ := (h.hashes s.worker).mem_of_lookup hhash
      obtain ⟨m, hm, rfl⟩ := List.mem_map.mp hw
      obtain ⟨hm, hworker⟩ := List.mem_filter.mp hm
      exact .inr ⟨hdup, m, hm, of_decide_eq_true hworker, hkey, hvalue, hmarked.hashes m hm⟩
  · rw [hok] at hrefused
    cases hrefused

/-- Nobody has sent anything yet. -/
def opened (env : Env σ₁ σ₂) : Hub σ₁ σ₂ := { memory := fun _ => AntiSpam.start env.toEnv }

theorem inv_opened : Inv (opened env) :=
  ⟨⟨fun _ hrow => (by cases hrow), fun _ _ _ hmem => (by cases hmem), fun _ _ _ _ _ _ hmem => (by cases hmem),
    fun _ _ hmem => (by cases hmem), List.nodup_nil, fun _ _ _ hmem => (by cases hmem), fun _ hmem => (by cases hmem)⟩,
    fun _ ht => (by cases ht), fun _ ht => (by cases ht), fun _ ht => (by cases ht), fun _ he => (by cases he)⟩

/-- In every run a key makes one message. In a run in which no send fails between its anti-spam checks and its commit, nobody is refused for a send that stored nothing. -/
theorem one_message (henv : env.toEnv.Lawful) {actions : List Action} (hrun : (hub env).run (opened env) actions = some d) :
    d.OneMessage ∧ ((hub env).Meets Hub.Careful (opened env) actions → d.Traceless env) := by
  have hinv : Inv d := (hub env).run_invariant (fun _ _ _ => step_inv) inv_opened hrun
  have hstart : Reflected env (opened env) :=
    ⟨fun _ => henv.lastMsgHash.reflects_empty 0, fun _ => henv.slowModeLastSend.reflects_empty 0⟩
  have hreflected : Reflected env d := (hub env).run_invariant (fun _ _ _ => reflected_step henv) hstart hrun
  refine ⟨hinv.kept.oneMessage, fun hmeets => hreflected.traceless henv ?_⟩
  have hnone : Marked (opened env) := ⟨fun _ hm => (by cases hm), fun _ hm => (by cases hm)⟩
  exact (hub env).run_invariant_of_meets (fun _ _ _ => marked_step) hnone hmeets hrun

/-- Caches without a bound, and a payload as its own hash. -/
def plain : Env (RoomId × AgentId → Option (Time × Time)) (RoomId × AgentId → Option (ContentHash × Time)) where
  PAIR_RATE_LIMIT_PER_MINUTE := 10
  slowModeLastSend := .unbounded _ _ (3600 * second)
  lastMsgHash := .unbounded _ _ (300 * second)
  contentHash := Payload.text
  verifyPayloadHash _ _ := true
  verifyEnvelopeSig _ _ := true
  normalizeFileUrl := some
  dumps text _ := text

theorem plain_lawful : plain.toEnv.Lawful := ⟨Cache.unbounded_lawful .., Cache.unbounded_lawful ..⟩

def hello : Send where
  worker := 0
  request := { userId := "u_1", senderId := "hu_1", roomId := "rm_1", clientRequestId := some "k", body := { text := "hi" } }

def lobby : Answers where
  members := [{ agentId := "hu_1", isAgent := false }, { agentId := "ag_x", isAgent := true }]

/-- The first send goes through, and the second is answered with its response. -/
theorem one_message_replayed : ∃ d, (hub plain).run (opened plain)
      [.send hello, .reserve 0, .check 0 none, .fanOut 0 lobby, .commit 0, .notify 0, .send hello, .reserve 4] = some d ∧
    d.records.length = 2 ∧ (d.log.filter fun e => e.id = 4).length = 1 ∧ d.OneMessage ∧ d.Traceless plain := by
  have hrun : ((hub plain).run (opened plain)
      [.send hello, .reserve 0, .check 0 none, .fanOut 0 lobby, .commit 0, .notify 0, .send hello, .reserve 4]).any
        (fun d => d.records.length = 2 ∧ (d.log.filter fun e => e.id = 4).length = 1) = true := by
    decide +kernel
  obtain ⟨d, hrun, hanswered⟩ := (Option.any_eq_true _ _).mp hrun
  obtain ⟨hrecords, hlog⟩ := of_decide_eq_true hanswered
  obtain ⟨hone, htraceless⟩ := one_message plain_lawful hrun
  exact ⟨d, hrun, hrecords, hlog, hone, htraceless (by decide +kernel)⟩

/-- A send that is cut off before its commit stores nothing, and when it is tried again it is refused as a duplicate. -/
theorem refused_for_nothing :
    (∃ d, (hub plain).run (opened plain) [.send hello, .reserve 0, .check 0 none, .fanOut 0 lobby, .abort 0,
        .send hello, .reserve 4, .check 4 none] = some d ∧
      d.records = [] ∧ d.log = [.answered 4 hello.request (.error ⟨429, "duplicate_content"⟩)]) ∧
    ¬ ∀ actions d, (hub plain).run (opened plain) actions = some d → d.Traceless plain := by
  constructor
  · have hrun : ((hub plain).run (opened plain) [.send hello, .reserve 0, .check 0 none, .fanOut 0 lobby, .abort 0,
        .send hello, .reserve 4, .check 4 none]).any (fun d => d.records = [] ∧
          d.log = [.answered 4 hello.request (.error ⟨429, "duplicate_content"⟩)]) = true := by
      decide +kernel
    obtain ⟨d, hrun, hrefused⟩ := (Option.any_eq_true _ _).mp hrun
    exact ⟨d, hrun, of_decide_eq_true hrefused⟩
  · intro hsound
    have hrun : ((hub plain).run (opened plain) [.send hello, .reserve 0, .check 0 none, .fanOut 0 lobby, .abort 0]).any
        (fun d => (hello.checkSpam plain { text := "hi" } d.now (d.memory 0)).1 = .error .duplicateContent ∧
          (∀ m ∈ d.times, ¬ d.Alive m.writer) ∧ ∀ m ∈ d.hashes, ¬ d.Alive m.writer) = true := by
      decide +kernel
    obtain ⟨d, hrun, hleft⟩ := (Option.any_eq_true _ _).mp hrun
    obtain ⟨hrefused, htimes, hhashes⟩ := of_decide_eq_true hleft
    rcases hsound _ d hrun hello _ _ hrefused with ⟨m, hm, -, -, halive⟩ | ⟨-, m, hm, -, -, -, halive⟩
    · exact htimes m hm halive
    · exact hhashes m hm halive

end BotCord.RoomSends
