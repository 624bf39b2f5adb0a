import BotCord.Foundation.Contiguous
import BotCord.RoomCache.Merged

/-!
# What holds of the cached rows

Every row is either a send that is not confirmed, under its temporary id, or a message of the server. The rows of the server are a contiguous part of its list, all rows stand in the order of their times, and every send that no response has brought has its row. This depends on the ids and times of the rows only; it is shown here to be kept by every change to the server, the sends or the rows.
-/

namespace BotCord.RoomCache

def Sending (sends : ℕ → Option Send) (n : ℕ) : Prop := ∃ send, sends n = some send ∧ send.confirmed = false

def Confirmed (sends : ℕ → Option Send) (n : ℕ) : Prop := ∃ send, sends n = some send ∧ send.confirmed = true

def Optimistic (sends : ℕ → Option Send) (row : Message) : Prop :=
  ∃ n, row.hubMsgId = .tmp n ∧ row.msgId = some (.tmp n) ∧ Sending sends n

/-- The row of a message of the server; one that was confirmed without its canonical id still has the temporary one. -/
def Persisted (server : List Message) (sends : ℕ → Option Send) (row : Message) : Prop :=
  ∃ m ∈ server, m.hubMsgId = row.hubMsgId ∧
    (row.msgId = m.msgId ∨ ∃ n, row.msgId = some (.tmp n) ∧ Confirmed sends n)

def persistedIds (rows : List Message) : List MessageId := (rows.map (·.hubMsgId)).filter (!·.isTmp)

def Send.Unreturned (send : Send) (returned : List MessageId) : Prop :=
  ∀ m, send.accepted = some m → m.hubMsgId ∉ returned

/-- A row under the temporary id of a send, or under the id that the server gave to it. -/
def Send.IsRow (send : Send) (n : ℕ) (row : Message) : Prop :=
  row.hubMsgId = .tmp n ∨ ∃ m, send.accepted = some m ∧ m.hubMsgId = row.hubMsgId

structure Cached (server rows : List Message) (sends : ℕ → Option Send) (returned : List MessageId) : Prop where
  filed : Filed server
  kinds : ∀ row ∈ rows, Optimistic sends row ∨ Persisted server sends row
  nodup : (rows.map (·.hubMsgId)).Nodup
  sorted : rows.Pairwise fun a b => a.time ≤ b.time
  sent : ∀ n send, sends n = some send → send.Unreturned returned → ∃ row ∈ rows, send.IsRow n row
  accepted : ∀ n send m, sends n = some send → send.accepted = some m → ∃ x ∈ server, x.identity = m.identity
  contiguous : Contiguous (server.map (·.hubMsgId)) (· ∈ persistedIds rows)

/-- A page that has a cached message, or one next to a cached message. -/
def Joins (server rows page : List Message) : Prop :=
  page = [] ∨ persistedIds rows = [] ∨
    ∃ x ∈ persistedIds rows, ∃ y ∈ page.map (·.hubMsgId),
      x = y ∨ [x, y] <:+: server.map (·.hubMsgId) ∨ [y, x] <:+: server.map (·.hubMsgId)

variable {server later rows rows' page result : List Message} {sends sends' : ℕ → Option Send}
  {returned : List MessageId} {m row x : Message} {id : MessageId} {n : ℕ} {send send' : Send} {gone : Message → Prop}

theorem mem_persistedIds : id ∈ persistedIds rows ↔ id.isTmp = false ∧ ∃ row ∈ rows, row.hubMsgId = id := by
  simp only [persistedIds, List.mem_filter, List.mem_map, Bool.not_eq_true', and_comm]

theorem persistedIds_congr (heq : rows'.map (·.identity) = rows.map (·.identity)) :
    persistedIds rows' = persistedIds rows := by
  rw [persistedIds, hubMsgIds_eq, heq, ← hubMsgIds_eq, persistedIds]

theorem persistedIds_insert (hhub : m.hubMsgId = .tmp n) : persistedIds (rows ++ [m]) = persistedIds rows := by
  simp [persistedIds, hhub, MessageId.isTmp]

theorem exists_later (hlater : server.map (·.identity) <+: later.map (·.identity)) (hx : x ∈ server) :
    ∃ y ∈ later, y.identity = x.identity :=
  List.mem_map.mp (hlater.subset (List.mem_map_of_mem hx))

theorem Persisted.mono (h : Persisted server sends row)
    (hlater : server.map (·.identity) <+: later.map (·.identity)) : Persisted later sends row := by
  obtain ⟨m, hm, hhub, hmsg⟩ := h
  obtain ⟨y, hy, hidentity⟩ := exists_later hlater hm
  refine ⟨y, hy, (congrArg (·.1) hidentity).trans hhub, hmsg.imp_left fun heq => ?_⟩
  exact heq.trans (congrArg (·.2.1) hidentity).symm

namespace Cached

theorem stored (h : Cached server rows sends returned) (hrow : row ∈ rows) (hid : row.hubMsgId.isTmp = false) :
    Persisted server sends row := by
  refine (h.kinds row hrow).resolve_left ?_
  rintro ⟨n, hn, -⟩
  rw [hn] at hid
  cases hid

theorem sending (h : Cached server rows sends returned) (hrow : row ∈ rows) (hhub : row.hubMsgId = .tmp n) :
    row.msgId = some (.tmp n) ∧ Sending sends n := by
  rcases h.kinds row hrow with ⟨k, hk, hmsg, hsending⟩ | ⟨m, hm, hmhub, -⟩
  · rw [hhub, MessageId.tmp.injEq] at hk
    subst hk
    exact ⟨hmsg, hsending⟩
  · have hstored := (h.filed.stored m hm).1
    rw [hmhub, hhub] at hstored
    cases hstored

theorem accepted_persisted (h : Cached server rows sends returned) (hsend : sends n = some send)
    (hm : send.accepted = some m) : m.hubMsgId.isTmp = false := by
  obtain ⟨x, hx, hidentity⟩ := h.accepted n send m hsend hm
  have hhub : x.hubMsgId = m.hubMsgId := congrArg (·.1) hidentity
  exact hhub ▸ (h.filed.stored x hx).1

theorem eq_of_isRow (h : Cached server rows sends returned) (hsend : sends n = some send) {k : ℕ}
    (hhub : row.hubMsgId = .tmp k) (hisRow : send.IsRow n row) : n = k := by
  rcases hisRow with hn | ⟨m, hm, hmhub⟩
  · exact MessageId.tmp.inj (hn.symm.trans hhub)
  · have hpersisted := h.accepted_persisted hsend hm
    rw [hmhub, hhub] at hpersisted
    cases hpersisted

theorem temporary_or_ofServer (h : Cached server rows sends returned) :
    ∀ row ∈ rows, Temporary row ∨ OfServer server row := by
  intro row hrow
  rcases h.kinds row hrow with ⟨n, hhub, hmsg, -⟩ | ⟨m, hm, hhub, hmsg⟩
  · exact .inl ⟨n, hhub, hmsg⟩
  · exact .inr ⟨m, hm, hhub, hmsg.imp_right fun ⟨n, hn, _⟩ => ⟨n, hn⟩⟩

theorem mem_server (h : Cached server rows sends returned) (hid : id ∈ persistedIds rows) :
    id ∈ server.map (·.hubMsgId) := by
  obtain ⟨htmp, row, hrow, rfl⟩ := mem_persistedIds.mp hid
  obtain ⟨m, hm, hhub, -⟩ := h.stored hrow htmp
  exact hhub ▸ List.mem_map_of_mem hm

theorem mono (h : Cached server rows sends returned) (hfiled : Filed later)
    (hlater : server.map (·.identity) <+: later.map (·.identity)) : Cached later rows sends returned where
  filed := hfiled
  kinds row hrow := (h.kinds row hrow).imp_right fun hkind => hkind.mono hlater
  nodup := h.nodup
  sorted := h.sorted
  sent := h.sent
  accepted n send m hsend hm := by
    obtain ⟨x, hx, hidentity⟩ := h.accepted n send m hsend hm
    obtain ⟨y, hy, heq⟩ := exists_later hlater hx
    exact ⟨y, hy, heq.trans hidentity⟩
  contiguous := by
    obtain ⟨rest, hrest⟩ := hlater.map Prod.fst
    rw [hubMsgIds_eq later, ← hrest, ← hubMsgIds_eq]
    exact h.contiguous.append (fun id hid => h.mem_server hid) rest

theorem congr (h : Cached server rows sends returned) (heq : rows'.map (·.identity) = rows.map (·.identity)) :
    Cached server rows' sends returned := by
  have hids : rows'.map (·.hubMsgId) = rows.map (·.hubMsgId) := by rw [hubMsgIds_eq, heq, ← hubMsgIds_eq]
  refine ⟨h.filed, fun row hrow => ?_, hids ▸ h.nodup, ?_, fun n send hsend hun => ?_, h.accepted, ?_⟩
  · obtain ⟨row', hrow', hidentity⟩ := eq_of_mem_identity heq hrow
    have hhub : row'.hubMsgId = row.hubMsgId := congrArg (·.1) hidentity
    have hmsg : row'.msgId = row.msgId := congrArg (·.2.1) hidentity
    have hkind := h.kinds row' hrow'
    rwa [Optimistic, Persisted, hhub, hmsg] at hkind
  · exact pairwise_time_iff.mpr (heq ▸ pairwise_time_iff.mp h.sorted)
  · obtain ⟨row, hrow, hisRow⟩ := h.sent n send hsend hun
    obtain ⟨row', hrow', hidentity⟩ := eq_of_mem_identity heq.symm hrow
    have hhub : row'.hubMsgId = row.hubMsgId := congrArg (·.1) hidentity
    exact ⟨row', hrow', by rwa [Send.IsRow, hhub]⟩
  · rw [persistedIds_congr heq]
    exact h.contiguous

theorem setSend (h : Cached server rows sends returned) (hsend : sends n = some send)
    (hconfirmed : send'.confirmed = send.confirmed) (hkeeps : ∀ m, send.accepted = some m → send'.accepted = some m)
    (hserver : ∀ m, send'.accepted = some m → ∃ x ∈ server, x.identity = m.identity) :
    Cached server rows (Function.update sends n (some send')) returned := by
  have hiff : ∀ k b, (∃ s, Function.update sends n (some send') k = some s ∧ s.confirmed = b) ↔
      ∃ s, sends k = some s ∧ s.confirmed = b := fun k b => by
    rcases eq_or_ne k n with rfl | hne
    · simp [hsend, hconfirmed]
    · rw [Function.update_of_ne hne]
  refine ⟨h.filed, fun row hrow => ?_, h.nodup, h.sorted, fun k s hs hun => ?_, fun k s m hs hm => ?_, h.contiguous⟩
  · simpa only [Optimistic, Persisted, Sending, Confirmed, hiff] using h.kinds row hrow
  · rcases eq_or_ne k n with rfl | hne
    · rw [Function.update_self, Option.some_inj] at hs
      subst hs
      obtain ⟨row, hrow, hisRow⟩ := h.sent k send hsend fun m hm => hun m (hkeeps m hm)
      exact ⟨row, hrow, hisRow.imp_right fun ⟨m, hm, heq⟩ => ⟨m, hkeeps m hm, heq⟩⟩
    · exact h.sent k s (by rwa [Function.update_of_ne hne] at hs) hun
  · rcases eq_or_ne k n with rfl | hne
    · rw [Function.update_self, Option.some_inj] at hs
      subst hs
      exact hserver m hm
    · exact h.accepted k s m (by rwa [Function.update_of_ne hne] at hs) hm

theorem insert (h : Cached server rows sends returned) (hnew : sends n = none) (hhub : m.hubMsgId = .tmp n)
    (hmsg : m.msgId = some (.tmp n)) (hlast : ∀ row ∈ rows, row.time ≤ m.time) :
    Cached server (rows ++ [m]) (Function.update sends n (some {})) returned := by
  have hkeeps : ∀ k b, (∃ s, sends k = some s ∧ s.confirmed = b) →
      ∃ s, Function.update sends n (some {}) k = some s ∧ s.confirmed = b := fun k b ⟨s, hs, hb⟩ =>
    ⟨s, by rwa [Function.update_of_ne fun heq => by rw [heq, hnew] at hs; cases hs], hb⟩
  refine ⟨h.filed, fun row hrow => ?_, ?_, ?_, fun k s hs hun => ?_, fun k s x hs hx => ?_,
    by rw [persistedIds_insert hhub]; exact h.contiguous⟩
  · rcases List.mem_append.mp hrow with hrow | hrow
    · refine (h.kinds row hrow).imp ?_ ?_
      · rintro ⟨k, hk, hk', hsending⟩
        exact ⟨k, hk, hk', hkeeps k false hsending⟩
      · rintro ⟨x, hx, hxhub, hxmsg⟩
        exact ⟨x, hx, hxhub, hxmsg.imp_right fun ⟨k, hk, hconfirmed⟩ => ⟨k, hk, hkeeps k true hconfirmed⟩⟩
    · obtain rfl := List.mem_singleton.mp hrow
      exact .inl ⟨n, hhub, hmsg, {}, Function.update_self .., rfl⟩
  · rw [List.map_append, List.nodup_append']
    refine ⟨h.nodup, List.nodup_singleton _, fun id hid hid' => ?_⟩
    obtain ⟨row, hrow, rfl⟩ := List.mem_map.mp hid
    rw [List.map_singleton, List.mem_singleton, hhub] at hid'
    obtain ⟨-, s, hs, -⟩ := h.sending hrow hid'
    rw [hnew] at hs
    cases hs
  · refine List.pairwise_append.mpr ⟨h.sorted, List.pairwise_singleton .., fun row hrow y hy => ?_⟩
    obtain rfl := List.mem_singleton.mp hy
    exact hlast row hrow
  · rcases eq_or_ne k n with rfl | hne
    · exact ⟨m, List.mem_append_right _ (List.mem_singleton_self m), .inl hhub⟩
    · rw [Function.update_of_ne hne] at hs
      obtain ⟨row, hrow, hisRow⟩ := h.sent k s hs hun
      exact ⟨row, List.mem_append_left _ hrow, hisRow⟩
  · rcases eq_or_ne k n with rfl | hne
    · rw [Function.update_self, Option.some_inj] at hs
      subst hs
      cases hx
    · exact h.accepted k s x (by rwa [Function.update_of_ne hne] at hs) hx

theorem isNamed_tmp_iff (h : Cached server rows sends returned) (hsending : Sending sends n) (hrow : row ∈ rows) :
    row.IsNamed (.tmp n) ↔ row.hubMsgId = .tmp n := by
  refine ⟨fun hnamed => hnamed.elim id fun hmsg => ?_, .inl⟩
  obtain ⟨send, hsend, hunconfirmed⟩ := hsending
  rcases h.kinds row hrow with ⟨k, hhub, hmsg', -⟩ | ⟨x, hx, -, hmsg' | ⟨k, hk, s, hs, hconfirmed⟩⟩
  · rw [hhub]
    exact Option.some.inj (hmsg'.symm.trans hmsg)
  · obtain ⟨-, id, hid⟩ := h.filed.stored x hx
    rw [hmsg, hid] at hmsg'
    cases hmsg'
  · rw [hmsg, Option.some_inj, MessageId.tmp.injEq] at hk
    subst hk
    rw [hsend, Option.some_inj] at hs
    rw [hs, hconfirmed] at hunconfirmed
    cases hunconfirmed

theorem confirm_absent (h : Cached server rows sends returned) (hsend : sends n = some send)
    (habsent : ∀ row ∈ rows, row.hubMsgId ≠ .tmp n) (haccepted : send'.accepted = send.accepted)
    (hconfirmed : send'.confirmed = true) :
    Cached server rows (Function.update sends n (some send')) returned := by
  refine ⟨h.filed, fun row hrow => ?_, h.nodup, h.sorted, fun k s hs hun => ?_, fun k s m hs hm => ?_, h.contiguous⟩
  · refine (h.kinds row hrow).imp ?_ ?_
    · rintro ⟨k, hhub, hmsg, s, hs, hsending⟩
      have hne : k ≠ n := fun heq => habsent row hrow (heq ▸ hhub)
      exact ⟨k, hhub, hmsg, s, by rwa [Function.update_of_ne hne], hsending⟩
    · rintro ⟨m, hm, hhub, hmsg⟩
      refine ⟨m, hm, hhub, hmsg.imp_right fun ⟨k, hk, s, hs, hs'⟩ => ?_⟩
      rcases eq_or_ne k n with rfl | hne
      · exact ⟨k, hk, send', Function.update_self .., hconfirmed⟩
      · exact ⟨k, hk, s, by rwa [Function.update_of_ne hne], hs'⟩
  · rcases eq_or_ne k n with rfl | hne
    · rw [Function.update_self, Option.some_inj] at hs
      subst hs
      obtain ⟨row, hrow, hisRow⟩ := h.sent k send hsend fun m hm => hun m (haccepted.trans hm)
      exact ⟨row, hrow, .inr (haccepted ▸ hisRow.resolve_left (habsent row hrow))⟩
    · exact h.sent k s (by rwa [Function.update_of_ne hne] at hs) hun
  · rcases eq_or_ne k n with rfl | hne
    · rw [Function.update_self, Option.some_inj] at hs
      subst hs
      exact h.accepted k send m hsend (haccepted.symm.trans hm)
    · exact h.accepted k s m (by rwa [Function.update_of_ne hne] at hs) hm

end Cached

def Message.confirmed (m : Message) (msgId : Option MessageId) (row : Message) : Message :=
  { row with hubMsgId := m.hubMsgId, msgId := msgId.or row.msgId }

theorem confirmedIds (rows : List Message) (n : ℕ) (m : Message) (msgId : Option MessageId) :
    (rows.map fun row => if row.hubMsgId = .tmp n then m.confirmed msgId row else row).map (·.hubMsgId) =
      (rows.map (·.hubMsgId)).map fun id => if id = .tmp n then m.hubMsgId else id := by
  rw [List.map_map, List.map_map]
  refine List.map_congr_left fun row _ => ?_
  simp only [Function.comp_apply]
  split <;> rfl

theorem persistedIds_subset_confirmed {msgId : Option MessageId} : persistedIds rows ⊆
    persistedIds (rows.map fun row => if row.hubMsgId = .tmp n then m.confirmed msgId row else row) := by
  intro id hid
  rw [mem_persistedIds] at hid ⊢
  obtain ⟨htmp, row, hrow, rfl⟩ := hid
  refine ⟨htmp, _, List.mem_map_of_mem hrow, ?_⟩
  rw [if_neg fun hhub => by rw [hhub] at htmp; cases htmp]

theorem mem_persistedIds_confirmed {msgId : Option MessageId} (hrow : row ∈ rows) (hhub : row.hubMsgId = .tmp n)
    (hm : m.hubMsgId.isTmp = false) :
    id ∈ persistedIds (rows.map fun row => if row.hubMsgId = .tmp n then m.confirmed msgId row else row) ↔
      id ∈ persistedIds rows ∨ id ∈ [m].map (·.hubMsgId) := by
  refine ⟨fun hid => ?_, fun hid => ?_⟩
  · obtain ⟨htmp, r', hr', rfl⟩ := mem_persistedIds.mp hid
    obtain ⟨r, hr, rfl⟩ := List.mem_map.mp hr'
    split
    · exact .inr (List.mem_singleton_self _)
    · rename_i hother
      rw [if_neg hother] at htmp
      exact .inl (mem_persistedIds.mpr ⟨htmp, r, hr, rfl⟩)
  · rcases hid with hid | hid
    · exact persistedIds_subset_confirmed hid
    · rw [List.map_singleton, List.mem_singleton] at hid
      subst hid
      refine mem_persistedIds.mpr ⟨hm, _, List.mem_map_of_mem hrow, ?_⟩
      rw [if_pos hhub]
      rfl

theorem mem_persistedIds_of_merges (hfiled : Filed server) (hpage : Page server page)
    (hmerges : Merges gone rows page result) (hgone : ∀ row ∈ rows, gone row → row.hubMsgId.isTmp = true) :
    id ∈ persistedIds result ↔ id ∈ persistedIds rows ∨ id ∈ page.map (·.hubMsgId) := by
  rw [mem_persistedIds, mem_persistedIds, List.mem_map]
  constructor
  · rintro ⟨htmp, row, hrow, rfl⟩
    exact (hmerges.mem row hrow).imp (fun hcached => ⟨htmp, row, hcached, rfl⟩)
      fun ⟨m, hm, hidentity⟩ => ⟨m, hm, congrArg (·.1) hidentity⟩
  · rintro (⟨htmp, row, hrow, rfl⟩ | ⟨m, hm, rfl⟩)
    · refine ⟨htmp, hmerges.kept row hrow fun hlost => ?_⟩
      rw [hgone row hrow hlost] at htmp
      cases htmp
    · exact ⟨hpage.stored hfiled hm, hmerges.loaded m hm⟩

namespace Cached

/-- The messages of a page that joins the cached ones are a contiguous part together with them. -/
theorem contiguous_joins (h : Cached server rows sends returned)
    (hpage : page.reverse.map (·.hubMsgId) <:+: server.map (·.hubMsgId)) (hjoins : Joins server rows page) :
    Contiguous (server.map (·.hubMsgId)) fun id => id ∈ persistedIds rows ∨ id ∈ page.map (·.hubMsgId) := by
  have hblock : Contiguous (server.map (·.hubMsgId)) (· ∈ page.map (·.hubMsgId)) :=
    (contiguous_of_block h.filed.hubMsgIds hpage).congr fun id => by rw [List.map_reverse, List.mem_reverse]
  rcases hjoins with rfl | hrows | ⟨x, hx, y, hy, hnear⟩
  · exact h.contiguous.congr fun id => or_iff_left List.not_mem_nil
  · exact hblock.congr fun id => or_iff_right (hrows ▸ List.not_mem_nil)
  · refine h.contiguous.union h.filed.hubMsgIds hblock (fun id hid => h.mem_server hid) (fun id hid => ?_)
      ⟨x, y, hx, hy, hnear⟩
    rw [← List.mem_reverse, ← List.map_reverse] at hid
    exact hpage.subset hid

theorem confirm_present (h : Cached server rows sends returned) (hsend : sends n = some send)
    (hunconfirmed : send.confirmed = false) (hm : send.accepted = some m) {msgId : Option MessageId}
    (hmsgId : msgId = none ∨ msgId = m.msgId) (hrow : row ∈ rows) (hhub : row.hubMsgId = .tmp n)
    (hnew : m.hubMsgId ∉ rows.map (·.hubMsgId)) (hjoins : Joins server rows [m])
    (haccepted : send'.accepted = send.accepted) (hconfirmed : send'.confirmed = true) :
    Cached server (rows.map fun row => if row.hubMsgId = .tmp n then m.confirmed msgId row else row)
      (Function.update sends n (some send')) returned := by
  obtain ⟨x, hx, hidentity⟩ := h.accepted n send m hsend hm
  have hxhub : x.hubMsgId = m.hubMsgId := congrArg (·.1) hidentity
  have hxmsg : x.msgId = m.msgId := congrArg (·.2.1) hidentity
  have hother : ∀ k, k ≠ n → Function.update sends n (some send') k = sends k := fun k hne =>
    Function.update_of_ne hne _ _
  refine ⟨h.filed, fun r' hmem => ?_, ?_, ?_, fun k s hs hun => ?_, fun k s y hs hy => ?_, ?_⟩
  · obtain ⟨r, hr, rfl⟩ := List.mem_map.mp hmem
    split
    · rename_i hr'
      refine .inr ⟨x, hx, hxhub, ?_⟩
      rcases hmsgId with rfl | rfl
      · exact .inr ⟨n, (h.sending hr hr').1, send', Function.update_self .., hconfirmed⟩
      · obtain ⟨-, id, hid⟩ := h.filed.stored x hx
        refine .inl ?_
        rw [Message.confirmed, ← hxmsg, hid]
        rfl
    · rename_i hr'
      refine (h.kinds r hr).imp ?_ ?_
      · rintro ⟨k, hk, hmsg, hsending⟩
        exact ⟨k, hk, hmsg, by rwa [Sending, hother k fun heq => hr' (heq ▸ hk)]⟩
      · rintro ⟨y, hy, hyhub, hymsg⟩
        refine ⟨y, hy, hyhub, hymsg.imp_right fun ⟨k, hk, s, hs, hs'⟩ => ⟨k, hk, s, ?_, hs'⟩⟩
        rwa [hother k]
        rintro rfl
        rw [hsend, Option.some_inj] at hs
        rw [hs, hs'] at hunconfirmed
        cases hunconfirmed
  · rw [confirmedIds]
    refine h.nodup.map_on fun a ha b hb heq => ?_
    split at heq <;> split at heq <;> rename_i ha' hb'
    · exact ha'.trans hb'.symm
    · exact absurd (heq ▸ hb) hnew
    · exact absurd (heq ▸ ha) hnew
    · exact heq
  · refine List.pairwise_map.mpr (h.sorted.imp fun {a b} hab => ?_)
    have htime : ∀ r : Message, (if r.hubMsgId = .tmp n then m.confirmed msgId r else r).time = r.time := fun r => by
      split <;> rfl
    rwa [htime, htime]
  · rcases eq_or_ne k n with rfl | hne
    · rw [Function.update_self, Option.some_inj] at hs
      subst hs
      refine ⟨_, List.mem_map_of_mem hrow, .inr ⟨m, haccepted.trans hm, ?_⟩⟩
      rw [if_pos hhub]
      rfl
    · rw [hother k hne] at hs
      obtain ⟨r, hr, hisRow⟩ := h.sent k s hs hun
      refine ⟨_, List.mem_map_of_mem hr, ?_⟩
      rwa [if_neg fun hr' => hne (h.eq_of_isRow hs hr' hisRow)]
  · rcases eq_or_ne k n with rfl | hne
    · rw [Function.update_self, Option.some_inj] at hs
      subst hs
      exact h.accepted k send y hsend (haccepted.symm.trans hy)
    · exact h.accepted k s y (by rwa [hother k hne] at hs) hy
  · refine (h.contiguous_joins ?_ hjoins).congr fun id =>
      mem_persistedIds_confirmed hrow hhub (h.accepted_persisted hsend hm)
    obtain ⟨front, back, hsplit⟩ := List.append_of_mem hx
    refine ⟨front.map (·.hubMsgId), back.map (·.hubMsgId), ?_⟩
    simp [hsplit, hxhub]

theorem bring (h : Cached server rows sends returned) (hpage : Page server page) (hmerges : Merges gone rows page result)
    (hjoins : Joins server rows page) (hgone : ∀ row ∈ rows, gone row → ∃ n send m, row.hubMsgId = .tmp n ∧
      sends n = some send ∧ send.accepted = some m ∧ (m.hubMsgId ∈ page.map (·.hubMsgId) ∨ m.hubMsgId ∈ persistedIds rows)) :
    Cached server result sends (returned ++ page.map (·.hubMsgId)) := by
  have hpersisted : ∀ id, id ∈ persistedIds result ↔ id ∈ persistedIds rows ∨ id ∈ page.map (·.hubMsgId) := by
    refine fun id => mem_persistedIds_of_merges h.filed hpage hmerges fun row hrow hlost => ?_
    obtain ⟨n, -, -, hn, -⟩ := hgone row hrow hlost
    rw [hn]
    rfl
  refine ⟨h.filed, fun row hrow => ?_, hmerges.nodup, hmerges.sorted, fun n send hsend hun => ?_, h.accepted,
    (h.contiguous_joins hpage.ids hjoins).congr hpersisted⟩
  · rcases hmerges.mem row hrow with hcached | ⟨m, hm, hidentity⟩
    · exact h.kinds row hcached
    · obtain ⟨x, hx, hxm⟩ := hpage.mem hm
      have heq := hxm.trans hidentity
      exact .inr ⟨x, hx, congrArg (·.1) heq, .inl (congrArg (·.2.1) heq).symm⟩
  · obtain ⟨row, hrow, hisRow⟩ := h.sent n send hsend fun m hm hmem => hun m hm (List.mem_append_left _ hmem)
    by_cases hlost : gone row
    · obtain ⟨k, s, m, hk, hs, hm, hback⟩ := hgone row hrow hlost
      obtain rfl := h.eq_of_isRow hsend hk hisRow
      rw [hsend, Option.some_inj] at hs
      subst hs
      rcases hback with hback | hback
      · exact absurd (List.mem_append_right _ hback) (hun m hm)
      · obtain ⟨-, row', hrow', heq⟩ := mem_persistedIds.mp ((hpersisted _).mpr (.inl hback))
        exact ⟨row', hrow', .inr ⟨m, hm, heq.symm⟩⟩
    · obtain ⟨row', hrow', heq⟩ := hmerges.kept row hrow hlost
      exact ⟨row', hrow', by rwa [Send.IsRow, heq]⟩

end Cached

end BotCord.RoomCache
