import BotCord.RoomCache.Cached

/-!
# A part of the room without gaps

The cached list should have every message once, in order, be without gaps, and keep what is sent until the server returns it. It does as long as the clocks agree, a confirmation comes before a response has brought the message and next to what is cached, the pages of loads and polls join the cached messages, and a poll takes away no temporary row but those of messages it brings.
-/

namespace BotCord.RoomCache

namespace RoomState

variable (d : RoomState)

/-- What is asked of the cached list. -/
structure GapFree : Prop where
  distinct : (d.rows.map (·.hubMsgId)).Nodup
  chronological : d.rows.Pairwise fun a b => a.time ≤ b.time
  sent : ∀ n send, d.sends n = some send → send.Unreturned d.returned → ∃ row ∈ d.rows, send.IsRow n row
  contiguous : Contiguous d.ids (· ∈ persistedIds d.rows)

end RoomState

/-- The page of a request that is answered. -/
def Request.page : Request → Option (List Message)
  | .asked _ => none
  | .answered page => some page

def Poll.page : Poll → Option (List Message)
  | .joined => none
  | .request r => r.page

namespace RoomState

variable (d : RoomState)

def accepted (n : ℕ) : Option Message := (d.sends n).bind (·.accepted)

/-- The row of a send whose message a page brings, or that has been brought before. -/
def Brought (page : List Message) : MessageId → Prop
  | .tmp n => ∃ m ∈ d.accepted n, m.hubMsgId ∈ page.map (·.hubMsgId) ∨ m.hubMsgId ∈ persistedIds d.rows
  | .persisted _ => True

/-- A confirmation gives a row an id that no other has, next to what is cached. -/
def Confirms (n : ℕ) : Prop :=
  ∀ row ∈ d.rows, row.hubMsgId = .tmp n → ∀ m ∈ d.accepted n,
    m.hubMsgId ∉ d.rows.map (·.hubMsgId) ∧ Joins d.server d.rows [m]

/-- The rows that a poll takes away are those of messages that were brought, and the rows that stay are no later than the new ones. -/
def Polls (page : List Message) : Prop :=
  (∀ row ∈ d.rows, Gone d.rows page row → d.Brought page row.hubMsgId) ∧
    ∀ m ∈ page, m.hubMsgId ∉ d.rows.map (·.hubMsgId) → ∀ row ∈ d.rows, ¬ Gone d.rows page row → row.time ≤ m.time

/-- A row that is put back has the ids and the time that the row has now. -/
def Restores (id : MessageId) (previous : Message) : Prop :=
  ∀ row ∈ d.rows, row.IsNamed id → row.identity = previous.identity
deriving Decidable

/-- The condition on a step. -/
def Orderly : RoomAction → Prop
  | .arrive m | .accept _ m => ∀ x ∈ d.server, x.time ≤ m.time
  | .insertMessage _ m => ∀ row ∈ d.rows, row.time ≤ m.time
  | .patchMessageIdentity n _ => d.Confirms n
  | .loadResponds => ∀ page ∈ d.load.bind Request.page, Joins d.server d.rows page
  | .pollResponds => ∀ page ∈ d.poll.bind Poll.page, Joins d.server d.rows page ∧ d.Polls page
  | .recallFails i => ∀ recalled ∈ d.recalls i, ∀ previous ∈ recalled.2, d.Restores recalled.1 previous
  | _ => True

instance (server rows page : List Message) : Decidable (Joins server rows page) :=
  inferInstanceAs (Decidable (page = [] ∨ persistedIds rows = [] ∨ ∃ x ∈ persistedIds rows, ∃ y ∈ page.map (·.hubMsgId),
    x = y ∨ [x, y] <:+: server.map (·.hubMsgId) ∨ [y, x] <:+: server.map (·.hubMsgId)))

instance (page : List Message) : ∀ id, Decidable (d.Brought page id)
  | .tmp n => inferInstanceAs (Decidable (∃ m ∈ d.accepted n, _))
  | .persisted _ => isTrue trivial

instance (n : ℕ) : Decidable (d.Confirms n) :=
  inferInstanceAs (Decidable (∀ row ∈ d.rows, row.hubMsgId = .tmp n → ∀ m ∈ d.accepted n, _))

instance (page : List Message) : Decidable (d.Polls page) := inferInstanceAs (Decidable (_ ∧ _))

instance decidableOrderly : ∀ d, DecidablePred (Orderly d) := fun _ _ => by
  unfold Orderly
  split <;> infer_instance

end RoomState

/-- The cached rows are as they should be, what was answered are pages of the server, and older messages are asked for before one that is cached. -/
structure Inv (d : RoomState) : Prop where
  cached : Cached d.server d.rows d.sends d.returned
  load : ∀ page ∈ d.load.bind Request.page, Page d.server page
  poll : ∀ page ∈ d.poll.bind Poll.page, Page d.server page
  asked : ∀ cursor, d.more = some (.asked cursor) →
    ∃ id, cursor = .before id ∧ (id.isTmp = true ∨ id ∈ persistedIds d.rows)
  more : ∀ page ∈ d.more.bind Request.page, Page d.server page ∧
    ∃ id ∈ persistedIds d.rows, page.reverse.map (·.hubMsgId) ++ [id] <:+: d.ids

variable {d t : RoomState} {a : RoomAction} {server page : List Message}

structure Quiet (d t : RoomState) : Prop where
  server : t.server = d.server
  messages : t.messages = d.messages
  sends : t.sends = d.sends
  returned : t.returned = d.returned
  load : ∀ page ∈ t.load.bind Request.page, page ∈ d.load.bind Request.page
  poll : ∀ page ∈ t.poll.bind Poll.page, page ∈ d.poll.bind Poll.page
  more : ∀ request, t.more = some request →
    d.more = some request ∨ ∃ row ∈ d.rows, request = .asked (.before row.hubMsgId)

theorem Inv.quiet (h : Inv d) (hquiet : Quiet d t) : Inv t := by
  obtain ⟨hserver, hmessages, hsends, hreturned, hload, hpoll, hmore⟩ := hquiet
  have hrows : t.rows = d.rows := by rw [RoomState.rows, hmessages, RoomState.rows]
  refine ⟨?_, fun page hpage => ?_, fun page hpage => ?_, fun cursor hcursor => ?_, fun page hpage => ?_⟩
  · rw [hserver, hrows, hsends, hreturned]
    exact h.cached
  · exact hserver ▸ h.load page (hload page hpage)
  · exact hserver ▸ h.poll page (hpoll page hpage)
  · rw [hrows]
    rcases hmore _ hcursor with hmore | ⟨row, hrow, heq⟩
    · exact h.asked cursor hmore
    · refine ⟨row.hubMsgId, Request.asked.inj heq, ?_⟩
      cases htmp : row.hubMsgId.isTmp with
      | true => exact .inl rfl
      | false => exact .inr (mem_persistedIds.mpr ⟨htmp, row, hrow, rfl⟩)
  · obtain ⟨request, hrequest, hanswered⟩ := Option.bind_eq_some_iff.mp hpage
    rw [hrows, RoomState.ids, hserver]
    rcases hmore _ hrequest with hmore | ⟨row, -, rfl⟩
    · exact h.more page (Option.bind_eq_some_iff.mpr ⟨request, hmore, hanswered⟩)
    · cases hanswered

theorem Inv.change (h : Inv d) (hcached : Cached t.server t.rows t.sends t.returned)
    (hserver : d.server.map (·.identity) <+: t.server.map (·.identity))
    (hids : persistedIds d.rows ⊆ persistedIds t.rows)
    (hrequests : t.load = d.load ∧ t.poll = d.poll ∧ t.more = d.more) : Inv t := by
  obtain ⟨hload, hpoll, hmore⟩ := hrequests
  refine ⟨hcached, fun page hpage => ?_, fun page hpage => ?_, fun cursor hcursor => ?_, fun page hpage => ?_⟩
  · exact (h.load page (hload ▸ hpage)).mono hserver
  · exact (h.poll page (hpoll ▸ hpage)).mono hserver
  · obtain ⟨id, hid, hcached⟩ := h.asked cursor (hmore ▸ hcursor)
    exact ⟨id, hid, hcached.imp_right fun hmem => hids hmem⟩
  · obtain ⟨hpage, id, hid, hblock⟩ := h.more page (hmore ▸ hpage)
    refine ⟨hpage.mono hserver, id, hids hid, hblock.trans ?_⟩
    rw [RoomState.ids, RoomState.ids, hubMsgIds_eq, hubMsgIds_eq]
    exact (hserver.map Prod.fst).isInfix

theorem Inv.congr (h : Inv d) (heq : t.rows.map (·.identity) = d.rows.map (·.identity))
    (hcached : Cached d.server d.rows t.sends d.returned) (hserver : t.server = d.server)
    (hreturned : t.returned = d.returned) (hrequests : t.load = d.load ∧ t.poll = d.poll ∧ t.more = d.more) : Inv t := by
  refine h.change ?_ (hserver ▸ List.prefix_rfl) (persistedIds_congr heq ▸ List.Subset.refl _) hrequests
  rw [hserver, hreturned]
  exact hcached.congr heq

theorem quiet_loadRoomMessages (d : RoomState) (force : Bool) : Quiet d (d.loadRoomMessages force) := by
  unfold RoomState.loadRoomMessages
  split
  · split <;> exact ⟨rfl, rfl, rfl, rfl, fun _ h => h, fun _ h => h, fun _ h => .inl h⟩
  · exact ⟨rfl, rfl, rfl, rfl, fun _ h => (by cases h), fun _ h => h, fun _ h => .inl h⟩

theorem quiet_joinLoad (d : RoomState) (force : Bool) : Quiet d (d.joinLoad force) :=
  { quiet_loadRoomMessages d force with poll := fun _ h => by cases h }

theorem quiet_pollNewMessages (d : RoomState) (expected : Option MessageId) (snapshotChanged : Bool) :
    Quiet d (d.pollNewMessages expected snapshotChanged) := by
  have hsame : Quiet d d := ⟨rfl, rfl, rfl, rfl, fun _ h => h, fun _ h => h, fun _ h => .inl h⟩
  unfold RoomState.pollNewMessages
  split
  · exact hsame
  · split
    · exact quiet_joinLoad d _
    · split
      · exact quiet_joinLoad d _
      · exact hsame
    · split
      · exact quiet_joinLoad d _
      · split
        · exact quiet_joinLoad d _
        · exact { hsame with poll := fun _ h => by cases h }

theorem quiet_loadMoreMessages (d : RoomState) : Quiet d d.loadMoreMessages := by
  have hsame : Quiet d d := ⟨rfl, rfl, rfl, rfl, fun _ h => h, fun _ h => h, fun _ h => .inl h⟩
  unfold RoomState.loadMoreMessages
  split
  · exact hsame
  · split
    · exact hsame
    · exact hsame
    · rename_i oldest rest hrows
      refine { hsame with more := fun request h => .inr ⟨oldest, ?_, (Option.some.inj h).symm⟩ }
      rw [RoomState.rows, hrows]
      exact List.mem_cons_self

theorem quiet_endLoad (d : RoomState) : Quiet d d.endLoad := by
  have hpoll : ∀ page ∈ (d.poll.filter (· ≠ Poll.joined)).bind Poll.page, page ∈ d.poll.bind Poll.page := by
    intro page hpage
    cases hd : d.poll with
    | none => simp [hd] at hpage
    | some poll =>
      rw [hd, Option.filter_some] at hpage
      split at hpage
      · exact hpage
      · cases hpage
  unfold RoomState.endLoad
  dsimp only
  split
  · exact ⟨rfl, rfl, rfl, rfl, fun _ h => (by cases h), hpoll, fun _ h => .inl h⟩
  · exact ⟨rfl, rfl, rfl, rfl, fun _ h => (by cases h), hpoll, fun _ h => .inl h⟩

theorem patchNamed_identity {id : MessageId} {f : Message → Message} {rows : List Message}
    (hf : ∀ row ∈ rows, row.IsNamed id → (f row).identity = row.identity) :
    (patchNamed id f rows).map (·.identity) = rows.map (·.identity) := by
  rw [patchNamed, List.map_map]
  refine List.map_congr_left fun row hrow => ?_
  simp only [Function.comp_apply]
  split
  · rename_i hnamed
    exact hf row hrow hnamed
  · rfl

theorem getD_map_patchNamed (messages : Option (List Message)) (id : MessageId) (f : Message → Message) :
    (messages.map (patchNamed id f)).getD [] = patchNamed id f (messages.getD []) := by
  cases messages <;> rfl

theorem markMessageFailed_identity (messages : Option (List Message)) (id : MessageId) :
    ((markMessageFailed messages id).getD []).map (·.identity) = (messages.getD []).map (·.identity) := by
  rw [markMessageFailed, getD_map_patchNamed]
  exact patchNamed_identity fun _ _ _ => rfl

theorem markMessageRecalled_identity (messages : Option (List Message)) (id : MessageId) (patch : Recall) :
    ((markMessageRecalled messages id patch).getD []).map (·.identity) = (messages.getD []).map (·.identity) := by
  rw [markMessageRecalled, getD_map_patchNamed]
  exact patchNamed_identity fun _ _ _ => rfl

theorem joins_of_before {rows : List Message} {id : MessageId} (hid : id ∈ persistedIds rows)
    (hblock : page.reverse.map (·.hubMsgId) ++ [id] <:+: server.map (·.hubMsgId)) : Joins server rows page := by
  cases page with
  | nil => exact .inl rfl
  | cons first rest =>
    refine .inr (.inr ⟨id, hid, first.hubMsgId, List.mem_cons_self, .inr (.inr ?_)⟩)
    refine List.IsInfix.trans ⟨rest.reverse.map (·.hubMsgId), [], ?_⟩ hblock
    simp

theorem Inv.bring (h : Inv d) {current : Option (List Message)} {gone : Message → Prop} (hpage : Page d.server page)
    (hmerges : Merges gone d.rows page (current.getD [])) (hjoins : Joins d.server d.rows page)
    (hgone : ∀ row ∈ d.rows, gone row → ∃ n send m, row.hubMsgId = .tmp n ∧ d.sends n = some send ∧
      send.accepted = some m ∧ (m.hubMsgId ∈ page.map (·.hubMsgId) ∨ m.hubMsgId ∈ persistedIds d.rows)) :
    Inv (d.bring page current) := by
  refine h.change (h.cached.bring hpage hmerges hjoins hgone) List.prefix_rfl (fun id hid => ?_) ⟨rfl, rfl, rfl⟩
  refine (mem_persistedIds_of_merges h.cached.filed hpage hmerges fun row hrow hlost => ?_).mpr (.inl hid)
  obtain ⟨n, -, -, hn, -⟩ := hgone row hrow hlost
  rw [hn]
  rfl

theorem Inv.merge (h : Inv d) (hpage : Page d.server page) (hjoins : Joins d.server d.rows page) :
    Inv (d.bring page (some (mergeLoadedRoomMessages d.messages page))) :=
  h.bring hpage (merges_mergeLoaded h.cached.filed hpage h.cached.nodup h.cached.temporary_or_ofServer) hjoins
    fun _ _ hlost => hlost.elim

theorem Inv.append (h : Inv d) (hpage : Page d.server page) (hjoins : Joins d.server d.rows page)
    (hpolls : d.Polls page) : Inv (d.bring page (appendPolled d.messages page)) := by
  refine h.bring hpage (merges_appendPolled h.cached.filed hpage h.cached.nodup h.cached.sorted
    h.cached.temporary_or_ofServer hpolls.2) hjoins fun row hrow hlost => ?_
  have hbrought := hpolls.1 row hrow hlost
  cases hid : row.hubMsgId with
  | tmp n =>
    rw [hid] at hbrought
    obtain ⟨m, hm, hback⟩ := hbrought
    obtain ⟨send, hsend, haccepted⟩ := Option.bind_eq_some_iff.mp hm
    exact ⟨n, send, m, rfl, hsend, haccepted, hback⟩
  | persisted id =>
    have htmp := hlost.1
    rw [hid] at htmp
    cases htmp

theorem Inv.store (h : Inv d) {m : Message} (hm : d.Stores m) (hlast : ∀ x ∈ d.server, x.time ≤ m.time) :
    Inv { d with server := d.server ++ [m] } := by
  have hhuman : d.server.map (·.identity) <+: (d.server ++ [m]).map (·.identity) := (List.prefix_append _ _).map _
  exact h.change (h.cached.mono (h.cached.filed.append hm hlast) hhuman) hhuman (List.Subset.refl _) ⟨rfl, rfl, rfl⟩

theorem Inv.confirm (h : Inv d) {n : ℕ} {send send' : Send} {m : Message} {msgId : Option MessageId}
    (hsend : d.sends n = some send) (hm : send.accepted = some m) (hunconfirmed : send.confirmed = false)
    (hmsgId : msgId = none ∨ msgId = m.msgId) (haccepted : send'.accepted = send.accepted)
    (hconfirmed : send'.confirmed = true) (hconfirms : d.Confirms n) :
    Inv { d.setSend n send' with messages := patchMessageIdentity d.messages (.tmp n) m.hubMsgId msgId } := by
  have hrows : (patchMessageIdentity d.messages (.tmp n) m.hubMsgId msgId).getD [] =
      d.rows.map fun row => if row.hubMsgId = .tmp n then m.confirmed msgId row else row := by
    rw [patchMessageIdentity, getD_map_patchNamed]
    refine List.map_congr_left fun row hrow => ?_
    have hnamed := h.cached.isNamed_tmp_iff ⟨send, hsend, hunconfirmed⟩ hrow
    simp only [hnamed]
    rfl
  refine h.change ?_ List.prefix_rfl ?_ ⟨rfl, rfl, rfl⟩
  · show Cached d.server (Option.getD _ []) _ d.returned
    rw [hrows]
    by_cases hpresent : ∃ row ∈ d.rows, row.hubMsgId = .tmp n
    · obtain ⟨row, hrow, hhub⟩ := hpresent
      obtain ⟨hnew, hjoins⟩ := hconfirms row hrow hhub m (Option.bind_eq_some_iff.mpr ⟨send, hsend, hm⟩)
      exact h.cached.confirm_present hsend hunconfirmed hm hmsgId hrow hhub hnew hjoins haccepted hconfirmed
    · simp only [not_exists, not_and] at hpresent
      have hsame : d.rows.map (fun row => if row.hubMsgId = .tmp n then m.confirmed msgId row else row) = d.rows :=
        (List.map_congr_left fun row hrow => if_neg (hpresent row hrow)).trans (List.map_id _)
      rw [hsame]
      exact h.cached.confirm_absent hsend hpresent haccepted hconfirmed
  · show persistedIds d.rows ⊆ persistedIds (Option.getD _ [])
    rw [hrows]
    exact persistedIds_subset_confirmed

theorem Inv.insert (h : Inv d) {n : ℕ} {m : Message} (hnew : d.sends n = none) (hhub : m.hubMsgId = .tmp n)
    (hmsg : m.msgId = some (.tmp n)) (hlast : ∀ row ∈ d.rows, row.time ≤ m.time) :
    Inv { d.setSend n {} with messages := insertMessage d.messages m } := by
  have hrows : (insertMessage d.messages m).getD [] = d.rows ++ [m] := by
    rw [insertMessage]
    rw [if_neg, RoomState.rows, Option.getD_some]
    rw [List.any_eq_true]
    rintro ⟨row, hrow, heq⟩
    obtain ⟨-, send, hsend, -⟩ := h.cached.sending hrow ((of_decide_eq_true heq).trans hhub)
    rw [hnew] at hsend
    cases hsend
  refine h.change ?_ List.prefix_rfl ?_ ⟨rfl, rfl, rfl⟩
  · show Cached d.server (Option.getD _ []) _ d.returned
    rw [hrows]
    exact h.cached.insert hnew hhub hmsg hlast
  · show persistedIds d.rows ⊆ persistedIds (Option.getD _ [])
    rw [hrows, persistedIds_insert hhub]
    exact List.Subset.refl _

theorem Inv.answer (h : Inv d) {cursor : Cursor} (hpage : getRoomMessages d.server cursor = some page) :
    Inv { d with load := some (.answered page) } ∧ Inv { d with poll := some (.request (.answered page)) } := by
  have hofServer := page_of_getRoomMessages hpage
  refine ⟨{ h with load := fun page' h' => ?_ }, { h with poll := fun page' h' => ?_ }⟩ <;>
  · cases h'
    exact hofServer

theorem Inv.answerMore (h : Inv d) {cursor : Cursor} (hasked : d.more = some (.asked cursor))
    (hpage : getRoomMessages d.server cursor = some page) : Inv { d with more := some (.answered page) } := by
  obtain ⟨id, rfl, hid⟩ := h.asked cursor hasked
  refine { h with asked := fun cursor' h' => (by cases h'), more := fun page' h' => ?_ }
  cases h'
  refine ⟨page_of_getRoomMessages hpage, id, hid.resolve_left fun htmp => ?_, before_getRoomMessages hpage⟩
  -- the server has no message under a temporary id
  obtain ⟨⟨m, hm, rfl⟩, -⟩ := Option.ite_none_right_eq_some.mp hpage
  rw [(h.cached.filed.stored m hm).1] at htmp
  cases htmp

theorem inv_step (h : Inv d) (horderly : d.Orderly a) (hstep : roomMessages.step d a = some t) : Inv t := by
  cases a with
  | arrive m =>
    obtain ⟨hm, hstep⟩ := Option.ite_none_right_eq_some.mp hstep
    cases hstep
    exact h.store hm horderly
  | recallAtServer hubMsgId patch =>
    cases hstep
    have hsame : (d.server.map fun m => if m.hubMsgId = hubMsgId then m.recallWith patch else m).map (·.identity) =
        d.server.map (·.identity) := by
      rw [List.map_map]
      refine List.map_congr_left fun m _ => ?_
      simp only [Function.comp_apply]
      split <;> rfl
    have hhuman : d.server.map (·.identity) <+: _ := ⟨[], (List.append_nil _).trans hsame.symm⟩
    exact h.change (h.cached.mono (h.cached.filed.congr hsame) hhuman) hhuman (List.Subset.refl _) ⟨rfl, rfl, rfl⟩
  | loadRoomMessages force =>
    cases hstep
    exact h.quiet (quiet_loadRoomMessages d force)
  | answerLoad =>
    simp only [roomMessages] at hstep
    split at hstep
    · obtain ⟨page, hpage, rfl⟩ := Option.map_eq_some_iff.mp hstep
      exact (h.answer hpage).1
    · cases hstep
  | loadResponds =>
    simp only [roomMessages] at hstep
    split at hstep
    · rename_i page hload
      cases hstep
      have hanswered : page ∈ d.load.bind Request.page := by rw [hload]; rfl
      exact (h.merge (h.load page hanswered) (horderly page hanswered)).quiet (quiet_endLoad _)
    · cases hstep
  | loadFails =>
    obtain ⟨-, hstep⟩ := Option.ite_none_right_eq_some.mp hstep
    cases hstep
    exact h.quiet (quiet_endLoad d)
  | pollNewMessages expected snapshotChanged =>
    cases hstep
    exact h.quiet (quiet_pollNewMessages d expected snapshotChanged)
  | answerPoll =>
    simp only [roomMessages] at hstep
    split at hstep
    · obtain ⟨page, hpage, rfl⟩ := Option.map_eq_some_iff.mp hstep
      exact (h.answer hpage).2
    · cases hstep
  | pollResponds =>
    simp only [roomMessages] at hstep
    split at hstep
    · rename_i page hpoll
      cases hstep
      have hanswered : page ∈ d.poll.bind Poll.page := by rw [hpoll]; rfl
      obtain ⟨hjoins, hpolls⟩ := horderly page hanswered
      exact (h.append (h.poll page hanswered) hjoins hpolls).quiet
        ⟨rfl, rfl, rfl, rfl, fun _ h => h, fun _ h => (by cases h), fun _ h => .inl h⟩
    · cases hstep
  | pollFails =>
    simp only [roomMessages] at hstep
    split at hstep
    · cases hstep
      exact h.quiet ⟨rfl, rfl, rfl, rfl, fun _ h => h, fun _ h => (by cases h), fun _ h => .inl h⟩
    · cases hstep
  | loadMoreMessages =>
    cases hstep
    exact h.quiet (quiet_loadMoreMessages d)
  | answerMore =>
    simp only [roomMessages] at hstep
    split at hstep
    · rename_i cursor hasked
      obtain ⟨page, hpage, rfl⟩ := Option.map_eq_some_iff.mp hstep
      exact h.answerMore hasked hpage
    · cases hstep
  | moreResponds =>
    simp only [roomMessages] at hstep
    split at hstep
    · rename_i page hmore
      cases hstep
      have hanswered : page ∈ d.more.bind Request.page := by rw [hmore]; rfl
      obtain ⟨hpage, id, hid, hblock⟩ := h.more page hanswered
      exact (h.merge hpage (joins_of_before hid hblock)).quiet
        ⟨rfl, rfl, rfl, rfl, fun _ h => h, fun _ h => h, fun _ h => (by cases h)⟩
    · cases hstep
  | moreFails =>
    obtain ⟨-, hstep⟩ := Option.ite_none_right_eq_some.mp hstep
    cases hstep
    exact h.quiet ⟨rfl, rfl, rfl, rfl, fun _ h => h, fun _ h => h, fun _ h => (by cases h)⟩
  | insertMessage n m =>
    obtain ⟨⟨hnew, hhub, hmsg⟩, hstep⟩ := Option.ite_none_right_eq_some.mp hstep
    cases hstep
    exact h.insert hnew hhub hmsg horderly
  | accept n m =>
    simp only [roomMessages] at hstep
    split at hstep
    · rename_i send hsend
      obtain ⟨⟨hnone, hm⟩, hstep⟩ := Option.ite_none_right_eq_some.mp hstep
      cases hstep
      have hstored := h.store hm horderly
      refine hstored.congr rfl (hstored.cached.setSend hsend rfl (fun x hx => ?_) fun x hx => ?_) rfl rfl ⟨rfl, rfl, rfl⟩
      · rw [hnone] at hx
        cases hx
      · cases hx
        exact ⟨m, List.mem_append_right _ (List.mem_singleton_self m), rfl⟩
    · cases hstep
  | patchMessageIdentity n canonical =>
    simp only [roomMessages] at hstep
    split at hstep
    · rename_i m hsend
      cases hstep
      refine h.confirm hsend rfl rfl ?_ rfl rfl horderly
      split
      · exact .inr rfl
      · exact .inl rfl
    · cases hstep
  | markMessageFailed n =>
    simp only [roomMessages] at hstep
    split at hstep
    · cases hstep
      exact h.congr (markMessageFailed_identity ..) h.cached rfl rfl ⟨rfl, rfl, rfl⟩
    · cases hstep
  | recallMessage i msgId patch =>
    obtain ⟨-, hstep⟩ := Option.ite_none_right_eq_some.mp hstep
    cases hstep
    exact h.congr (markMessageRecalled_identity ..) h.cached rfl rfl ⟨rfl, rfl, rfl⟩
  | recallSucceeds i patch =>
    simp only [roomMessages] at hstep
    split at hstep
    · cases hstep
      exact h.congr (markMessageRecalled_identity ..) h.cached rfl rfl ⟨rfl, rfl, rfl⟩
    · cases hstep
  | recallFails i =>
    simp only [roomMessages] at hstep
    split at hstep
    · rename_i msgId previous hrecall
      cases hstep
      exact h.congr (patchNamed_identity fun row hrow hnamed => (horderly _ hrecall _ rfl row hrow hnamed).symm)
        h.cached rfl rfl ⟨rfl, rfl, rfl⟩
    · cases hstep
      exact h.congr rfl h.cached rfl rfl ⟨rfl, rfl, rfl⟩
    · cases hstep

theorem inv_opened (h : Filed server) : Inv { server } where
  cached :=
    { filed := h
      kinds := fun _ hrow => absurd hrow List.not_mem_nil
      nodup := List.nodup_nil
      sorted := List.Pairwise.nil
      sent := fun _ _ hsend => by cases hsend
      accepted := fun _ _ _ hsend => by cases hsend
      contiguous := contiguous_of_forall_not fun _ => List.not_mem_nil }
  load _ h := by cases h
  poll _ h := by cases h
  asked _ h := by cases h
  more _ h := by cases h

/-- In a run whose steps all meet the condition the cached list has every message once, in order and without gaps, and every send that the server has not returned. -/
theorem gapFree_of_orderly (h : Filed server) {actions : List RoomAction}
    (hmeets : roomMessages.Meets RoomState.Orderly { server } actions)
    (hrun : roomMessages.run { server } actions = some t) : t.GapFree := by
  have hinv := roomMessages.run_invariant_of_meets (fun _ _ _ h horderly hstep => inv_step h horderly hstep)
    (inv_opened h) hmeets hrun
  exact ⟨hinv.cached.nodup, hinv.cached.sorted, hinv.cached.sent, hinv.cached.contiguous⟩

def stored (id : String) (time : Instant) (text : String) : Message where
  hubMsgId := .persisted ("h_" ++ id)
  msgId := some (.persisted id)
  senderId := "hu_1"
  isMine := some true
  text := text
  createdAt := some time
  state := "done"

def shown (n : ℕ) (time : Instant) (text : String) : Message where
  hubMsgId := .tmp n
  msgId := some (.tmp n)
  senderId := "hu_1"
  isMine := some true
  text := text
  createdAt := some time

def loads : List RoomAction := [.loadRoomMessages false, .answerLoad, .loadResponds]

def polls : List RoomAction := [.pollNewMessages none false, .answerPoll, .pollResponds]

theorem filed_singleton {m : Message} (htmp : m.hubMsgId.isTmp = false) (hmsg : ∃ id, m.msgId = some (.persisted id)) :
    Filed [m] :=
  ⟨List.nodup_singleton _, List.nodup_singleton _, fun _ hx => List.mem_singleton.mp hx ▸ ⟨htmp, hmsg⟩,
    List.pairwise_singleton ..⟩

/-- A message is sent, stored, confirmed and polled, and one with the same text is sent after it. -/
theorem orderly_sends : ∃ t, roomMessages.run { server := [stored "m_0" 0 "hello"] } (loads ++
    [.insertMessage 1 (shown 1 1 "ok"), .accept 1 (stored "m_1" 1 "ok"), .patchMessageIdentity 1 true] ++ polls ++
    [.insertMessage 2 (shown 2 2 "ok")]) = some t ∧ t.rows.length = 3 ∧ t.GapFree := by
  have hrun : (roomMessages.run { server := [stored "m_0" 0 "hello"] } (loads ++
      [.insertMessage 1 (shown 1 1 "ok"), .accept 1 (stored "m_1" 1 "ok"), .patchMessageIdentity 1 true] ++ polls ++
      [.insertMessage 2 (shown 2 2 "ok")])).any (fun t => t.rows.length = 3) = true := by
    decide +kernel
  obtain ⟨t, hrun, hlength⟩ := (Option.any_eq_true _ _).mp hrun
  refine ⟨t, hrun, of_decide_eq_true hlength, gapFree_of_orderly ?_ ?_ hrun⟩
  · exact filed_singleton rfl ⟨"m_0", rfl⟩
  · decide +kernel

/-- Two messages with one text are shown, and the server has the first: the poll that brings it takes both rows away. -/
theorem poll_removes_unsent : ¬ ∀ (server : List Message) (actions : List RoomAction) (t : RoomState), Filed server →
    roomMessages.run { server } actions = some t → t.GapFree := by
  intro hgapFree
  have hrun : (roomMessages.run { server := [stored "m_0" 0 "hello"] } (loads ++
      [.insertMessage 1 (shown 1 1 "ok"), .insertMessage 2 (shown 2 2 "ok"), .accept 1 (stored "m_1" 1 "ok")] ++
        polls)).any (fun t => t.sends 2 = some {} ∧ ∀ row ∈ t.rows, row.hubMsgId ≠ .tmp 2) = true := by
    decide +kernel
  obtain ⟨t, hrun, hlost⟩ := (Option.any_eq_true _ _).mp hrun
  obtain ⟨hsend, hlost⟩ := of_decide_eq_true hlost
  have hkept := hgapFree _ _ t (filed_singleton rfl ⟨"m_0", rfl⟩) hrun
  obtain ⟨row, hrow, hid | ⟨m, hm, -⟩⟩ := hkept.sent 2 {} hsend fun m hm => by cases hm
  · exact hlost row hrow hid
  · cases hm

end BotCord.RoomCache
