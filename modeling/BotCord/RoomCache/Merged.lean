import BotCord.RoomCache.Store

/-!
# What a response makes of the cached rows

A page holds messages of the server as they were at some moment: their ids and times stay. Rows that come from the server under either of their ids are told by their hub ids alone, so a merge replaces the rows of the page and keeps the others, in the order of their times, and a poll adds the rows of the page behind the others, less the temporary ones that a new message is taken for.
-/

namespace BotCord.RoomCache

def Message.identity (m : Message) : MessageId × Option MessageId × Option Instant := (m.hubMsgId, m.msgId, m.createdAt)

theorem hubMsgIds_eq (rows : List Message) : rows.map (·.hubMsgId) = (rows.map (·.identity)).map Prod.fst := by
  rw [List.map_map]
  rfl

theorem eq_of_mem_identity {rows rows' : List Message} {row : Message}
    (heq : rows'.map (·.identity) = rows.map (·.identity)) (hrow : row ∈ rows') :
    ∃ row' ∈ rows, row'.identity = row.identity := by
  have hmem : row.identity ∈ rows.map (·.identity) := heq ▸ List.mem_map_of_mem hrow
  exact List.mem_map.mp hmem

theorem pairwise_time_iff {rows : List Message} :
    rows.Pairwise (fun a b => a.time ≤ b.time) ↔
      (rows.map (·.identity)).Pairwise fun a b => a.2.2.getD 0 ≤ b.2.2.getD 0 := by
  rw [List.pairwise_map]
  rfl

/-- The messages of the server: ids of their own, none of them temporary, in the order of their times. -/
structure Filed (server : List Message) : Prop where
  hubMsgIds : (server.map (·.hubMsgId)).Nodup
  msgIds : (server.map (·.msgId)).Nodup
  stored : ∀ m ∈ server, m.hubMsgId.isTmp = false ∧ ∃ id, m.msgId = some (.persisted id)
  chronological : server.Pairwise fun a b => a.time ≤ b.time

/-- A row of a message of the server, under its id there or still under a temporary one. -/
def OfServer (server : List Message) (row : Message) : Prop :=
  ∃ m ∈ server, m.hubMsgId = row.hubMsgId ∧ (row.msgId = m.msgId ∨ ∃ n, row.msgId = some (.tmp n))

/-- A row of a message that has no other id than a temporary one. -/
def Temporary (row : Message) : Prop := ∃ n, row.hubMsgId = .tmp n ∧ row.msgId = some (.tmp n)

/-- Messages of the server, newest first, as they were at some moment. -/
def Page (server page : List Message) : Prop := page.reverse.map (·.identity) <:+: server.map (·.identity)

variable {server current page loaded : List Message} {m row x : Message} {id : MessageId}

namespace Filed

theorem eq_of_msgId (h : Filed server) (hm : m ∈ server) (hx : x ∈ server) (heq : m.msgId = x.msgId) : m = x :=
  List.inj_on_of_nodup_map h.msgIds hm hx heq

theorem congr {later : List Message} (h : Filed server) (heq : later.map (·.identity) = server.map (·.identity)) :
    Filed later := by
  have hmsgIds : ∀ rows : List Message, rows.map (·.msgId) = (rows.map (·.identity)).map (·.2.1) := fun rows => by
    rw [List.map_map]
    rfl
  refine ⟨?_, ?_, fun m hm => ?_, ?_⟩
  · rw [hubMsgIds_eq, heq, ← hubMsgIds_eq]
    exact h.hubMsgIds
  · rw [hmsgIds, heq, ← hmsgIds]
    exact h.msgIds
  · obtain ⟨x, hx, hidentity⟩ := eq_of_mem_identity heq hm
    have hhub : x.hubMsgId = m.hubMsgId := congrArg (·.1) hidentity
    have hmsg : x.msgId = m.msgId := congrArg (·.2.1) hidentity
    exact hhub ▸ hmsg ▸ h.stored x hx
  · exact pairwise_time_iff.mpr (heq ▸ pairwise_time_iff.mp h.chronological)

theorem append {d : RoomState} (h : Filed d.server) (hm : d.Stores m) (hlast : ∀ x ∈ d.server, x.time ≤ m.time) :
    Filed (d.server ++ [m]) := by
  obtain ⟨htmp, hmsg, hnew⟩ := hm
  refine ⟨?_, ?_, fun x hx => ?_, ?_⟩
  · rw [List.map_append, List.nodup_append']
    refine ⟨h.hubMsgIds, List.nodup_singleton _, fun id hid hid' => ?_⟩
    obtain ⟨x, hx, rfl⟩ := List.mem_map.mp hid
    exact (hnew x hx).1 (List.mem_singleton.mp hid')
  · rw [List.map_append, List.nodup_append']
    refine ⟨h.msgIds, List.nodup_singleton _, fun id hid hid' => ?_⟩
    obtain ⟨x, hx, rfl⟩ := List.mem_map.mp hid
    exact (hnew x hx).2 (List.mem_singleton.mp hid')
  · rcases List.mem_append.mp hx with hx | hx
    · exact h.stored x hx
    · exact List.mem_singleton.mp hx ▸ ⟨htmp, hmsg⟩
  · refine List.pairwise_append.mpr ⟨h.chronological, List.pairwise_singleton .., fun x hx y hy => ?_⟩
    exact List.mem_singleton.mp hy ▸ hlast x hx

end Filed

theorem Page.mem (h : Page server page) (hm : m ∈ page) : ∃ x ∈ server, x.identity = m.identity := by
  have hmem : m.identity ∈ server.map (·.identity) :=
    h.subset (List.mem_map_of_mem (List.mem_reverse.mpr hm))
  obtain ⟨x, hx, heq⟩ := List.mem_map.mp hmem
  exact ⟨x, hx, heq⟩

theorem Page.stored (hfiled : Filed server) (h : Page server page) (hm : m ∈ page) : m.hubMsgId.isTmp = false := by
  obtain ⟨x, hx, hidentity⟩ := h.mem hm
  have hhub : x.hubMsgId = m.hubMsgId := congrArg (·.1) hidentity
  exact hhub ▸ (hfiled.stored x hx).1

theorem Page.ids (h : Page server page) : page.reverse.map (·.hubMsgId) <:+: server.map (·.hubMsgId) := by
  rw [hubMsgIds_eq, hubMsgIds_eq]
  exact List.IsInfix.map Prod.fst h

theorem Page.nodup (hfiled : Filed server) (h : Page server page) : (page.map (·.hubMsgId)).Nodup := by
  have hnodup := hfiled.hubMsgIds.sublist h.ids.sublist
  rwa [List.map_reverse, List.nodup_reverse] at hnodup

theorem Page.chronological (hfiled : Filed server) (h : Page server page) :
    page.reverse.Pairwise fun a b => a.time ≤ b.time :=
  pairwise_time_iff.mpr ((pairwise_time_iff.mp hfiled.chronological).sublist h.sublist)

theorem Page.mono {later : List Message} (h : Page server page)
    (hlater : server.map (·.identity) <+: later.map (·.identity)) : Page later page :=
  h.trans hlater.isInfix

theorem page_newestFirst {part : List Message} (h : part <:+: server) : Page server (newestFirst part) := by
  have hsuffix : (newestFirst part).reverse <:+ part := by
    rw [newestFirst, List.reverse_take, List.reverse_reverse]
    exact List.drop_suffix _ _
  exact (hsuffix.isInfix.trans h).map _

theorem takeWhile_before (hm : m ∈ server) :
    ∃ rest, (server.takeWhile (·.hubMsgId ≠ m.hubMsgId)).map (·.hubMsgId) ++ ([m.hubMsgId] ++ rest) =
      server.map (·.hubMsgId) := by
  induction server with
  | nil => cases hm
  | cons first rest ih =>
    by_cases hfirst : first.hubMsgId = m.hubMsgId
    · exact ⟨rest.map (·.hubMsgId), by simp [hfirst]⟩
    · have hrest : m ∈ rest := (List.mem_cons.mp hm).resolve_left fun heq => hfirst (heq ▸ rfl)
      obtain ⟨tail, htail⟩ := ih hrest
      exact ⟨tail, by simp [hfirst, ← htail]⟩

theorem page_of_getRoomMessages {cursor : Cursor} (h : getRoomMessages server cursor = some page) : Page server page := by
  cases cursor with
  | newest =>
    cases h
    exact page_newestFirst List.infix_rfl
  | before id =>
    obtain ⟨-, h⟩ := Option.ite_none_right_eq_some.mp h
    cases h
    exact page_newestFirst (List.takeWhile_prefix _).isInfix
  | after id =>
    obtain ⟨-, h⟩ := Option.ite_none_right_eq_some.mp h
    cases h
    exact page_newestFirst ((List.drop_suffix _ _).trans (List.dropWhile_suffix _)).isInfix

theorem before_getRoomMessages (h : getRoomMessages server (.before id) = some page) :
    page.reverse.map (·.hubMsgId) ++ [id] <:+: server.map (·.hubMsgId) := by
  obtain ⟨⟨m, hm, rfl⟩, h⟩ := Option.ite_none_right_eq_some.mp h
  obtain ⟨rest, hsplit⟩ := takeWhile_before hm
  obtain ⟨pre, hpre⟩ : (newestFirst (server.takeWhile (·.hubMsgId ≠ m.hubMsgId))).reverse <:+
      server.takeWhile (·.hubMsgId ≠ m.hubMsgId) := by
    rw [newestFirst, List.reverse_take, List.reverse_reverse]
    exact List.drop_suffix _ _
  rw [Option.some.inj h] at hpre
  rw [← hpre] at hsplit
  refine ⟨pre.map (·.hubMsgId), rest, ?_⟩
  rw [← hsplit, List.map_append]
  simp only [List.append_assoc]

theorem preserve_identity (existing incoming : Message) :
    (preserveStableAttachmentPayload existing incoming).identity = incoming.identity := by
  unfold preserveStableAttachmentPayload
  split
  · split <;> rfl
  · rfl

theorem mergedRows_identity (current loaded : List Message) :
    (mergedRows current loaded).map (·.identity) = loaded.map (·.identity) := by
  rw [mergedRows, List.map_map]
  refine List.map_congr_left fun incoming _ => ?_
  simp only [Function.comp_apply]
  cases existingOf current incoming with
  | none => rfl
  | some existing => exact preserve_identity existing incoming

theorem mergedRows_hubMsgIds (current loaded : List Message) :
    (mergedRows current loaded).map (·.hubMsgId) = loaded.map (·.hubMsgId) := by
  rw [hubMsgIds_eq, mergedRows_identity, ← hubMsgIds_eq]

theorem hubMsgId_eq_of_stableId (hfiled : Filed server) (hrow : Temporary row ∨ OfServer server row)
    (hm : ∃ x ∈ server, x.identity = m.identity) (h : row.stableId = m.stableId) : row.hubMsgId = m.hubMsgId := by
  obtain ⟨x, hx, hidentity⟩ := hm
  obtain ⟨-, id, hid⟩ := hfiled.stored x hx
  have hmsgId : m.msgId = some (.persisted id) := (congrArg (·.2.1) hidentity).symm.trans hid
  have hhub : x.hubMsgId = m.hubMsgId := congrArg (·.1) hidentity
  have hstable : row.stableId = .persisted id := h.trans (by rw [Message.stableId, hmsgId]; rfl)
  rcases hrow with ⟨n, -, hrow⟩ | ⟨y, hy, hyhub, hrow | ⟨n, hrow⟩⟩
  · rw [Message.stableId, hrow] at hstable
    cases hstable
  · obtain ⟨-, id', hid'⟩ := hfiled.stored y hy
    rw [Message.stableId, hrow, hid'] at hstable
    cases hstable
    obtain rfl := hfiled.eq_of_msgId hy hx (hid'.trans hid.symm)
    exact hyhub.symm.trans hhub
  · rw [Message.stableId, hrow] at hstable
    cases hstable

theorem mem_unloadedRows (hfiled : Filed server) (hrows : ∀ row ∈ current, Temporary row ∨ OfServer server row)
    (hloaded : ∀ m ∈ loaded, ∃ x ∈ server, x.identity = m.identity) :
    row ∈ unloadedRows current (mergedRows current loaded) ↔
      row ∈ current ∧ row.hubMsgId ∉ loaded.map (·.hubMsgId) := by
  simp only [unloadedRows, List.mem_filter, decide_eq_true_eq, mergedRows_hubMsgIds]
  refine and_congr_right fun hrow => and_iff_right_of_imp fun hnew hstable => hnew ?_
  obtain ⟨m, hm, hsame⟩ := List.mem_map.mp hstable
  have hidentity : m.identity ∈ loaded.map (·.identity) :=
    mergedRows_identity current _ ▸ List.mem_map_of_mem hm
  obtain ⟨l, hl, hlm⟩ := List.mem_map.mp hidentity
  obtain ⟨x, hx, hxl⟩ := hloaded l hl
  have hhub := hubMsgId_eq_of_stableId hfiled (hrows row hrow) ⟨x, hx, hxl.trans hlm⟩ hsame.symm
  rw [hhub]
  exact List.mem_map.mpr ⟨l, hl, congrArg (·.1) hlm⟩

theorem sorted_sortRoomMessages (rows : List Message) :
    (sortRoomMessagesChronologically rows).Pairwise fun a b => a.time ≤ b.time := by
  refine (List.pairwise_mergeSort (fun a b c hab hbc => ?_) (fun a b => ?_) rows).imp of_decide_eq_true
  · exact decide_eq_true ((of_decide_eq_true hab).trans (of_decide_eq_true hbc))
  · simp only [Bool.or_eq_true, decide_eq_true_eq]
    exact le_total a.time b.time

/-- What a response makes of the cached rows: the rows of the page, and the cached rows of other messages but those that are gone. -/
structure Merges (gone : Message → Prop) (current page result : List Message) : Prop where
  nodup : (result.map (·.hubMsgId)).Nodup
  sorted : result.Pairwise fun a b => a.time ≤ b.time
  mem : ∀ row ∈ result, row ∈ current ∨ ∃ m ∈ page, m.identity = row.identity
  loaded : ∀ m ∈ page, ∃ row ∈ result, row.hubMsgId = m.hubMsgId
  kept : ∀ row ∈ current, ¬ gone row → ∃ row' ∈ result, row'.hubMsgId = row.hubMsgId

theorem merges_mergeLoaded (hfiled : Filed server) (hpage : Page server page) {messages : Option (List Message)}
    (hnodup : ((messages.getD []).map (·.hubMsgId)).Nodup)
    (hrows : ∀ row ∈ messages.getD [], Temporary row ∨ OfServer server row) :
    Merges (fun _ => False) (messages.getD []) page (mergeLoadedRoomMessages messages page) := by
  have hempty : Merges (fun _ => False) [] page page.reverse := by
    refine ⟨?_, hpage.chronological hfiled, fun row hrow => .inr ⟨row, List.mem_reverse.mp hrow, rfl⟩,
      fun m hm => ⟨m, List.mem_reverse.mpr hm, rfl⟩, fun _ h => absurd h List.not_mem_nil⟩
    rw [List.map_reverse, List.nodup_reverse]
    exact hpage.nodup hfiled
  unfold mergeLoadedRoomMessages
  split
  · exact hempty
  · exact hempty
  · rename_i current hcons
    simp only [Option.getD_some] at hnodup hrows ⊢
    have hloaded : ∀ m ∈ page.reverse, ∃ x ∈ server, x.identity = m.identity := fun m hm =>
      hpage.mem (List.mem_reverse.mp hm)
    have hunloaded := fun row => (mem_unloadedRows hfiled hrows hloaded : row ∈ _ ↔ _)
    have hperm := List.mergeSort_perm
      (mergedRows current page.reverse ++ unloadedRows current (mergedRows current page.reverse))
      fun a b => decide (a.time ≤ b.time)
    refine ⟨?_, sorted_sortRoomMessages _, fun row hrow => ?_, fun m hm => ?_, fun row hrow _ => ?_⟩
    · rw [sortRoomMessagesChronologically, (hperm.map _).nodup_iff, List.map_append, mergedRows_hubMsgIds,
        List.nodup_append']
      refine ⟨?_, hnodup.sublist (List.filter_sublist.map _), fun id hid hid' => ?_⟩
      · rw [List.map_reverse, List.nodup_reverse]
        exact hpage.nodup hfiled
      · obtain ⟨row, hrow, rfl⟩ := List.mem_map.mp hid'
        exact ((hunloaded row).mp hrow).2 hid
    · rcases List.mem_append.mp (hperm.mem_iff.mp hrow) with hmerged | hkept
      · have hidentity : row.identity ∈ page.reverse.map (·.identity) :=
          mergedRows_identity current _ ▸ List.mem_map_of_mem hmerged
        obtain ⟨m, hm, heq⟩ := List.mem_map.mp hidentity
        exact .inr ⟨m, List.mem_reverse.mp hm, heq⟩
      · exact .inl ((hunloaded row).mp hkept).1
    · have hid : m.hubMsgId ∈ (mergedRows current page.reverse).map (·.hubMsgId) := by
        rw [mergedRows_hubMsgIds]
        exact List.mem_map_of_mem (List.mem_reverse.mpr hm)
      obtain ⟨row, hrow, heq⟩ := List.mem_map.mp hid
      exact ⟨row, hperm.mem_iff.mpr (List.mem_append_left _ hrow), heq⟩
    · by_cases hid : row.hubMsgId ∈ page.reverse.map (·.hubMsgId)
      · rw [← mergedRows_hubMsgIds current] at hid
        obtain ⟨row', hrow', heq⟩ := List.mem_map.mp hid
        exact ⟨row', hperm.mem_iff.mpr (List.mem_append_left _ hrow'), heq⟩
      · exact ⟨row, hperm.mem_iff.mpr (List.mem_append_right _ ((hunloaded row).mpr ⟨hrow, hid⟩)), rfl⟩

/-- A temporary row that a message of the page is taken for which is not cached yet. -/
def Gone (current page : List Message) (row : Message) : Prop :=
  row.hubMsgId.isTmp = true ∧ ∃ m ∈ page, m.hubMsgId ∉ current.map (·.hubMsgId) ∧ Matches m row
deriving Decidable

theorem mem_deduped (hfiled : Filed server) (hpage : Page server page)
    (hrows : ∀ row ∈ current, Temporary row ∨ OfServer server row) :
    m ∈ deduped current page ↔ m ∈ page ∧ m.hubMsgId ∉ current.map (·.hubMsgId) := by
  simp only [deduped, List.mem_filter, List.mem_reverse, decide_eq_true_eq]
  refine and_congr_right fun hm => and_iff_right_of_imp fun hnew hstable => hnew ?_
  obtain ⟨row, hrow, hsame⟩ := List.mem_map.mp hstable
  exact hubMsgId_eq_of_stableId hfiled (hrows row hrow) (hpage.mem hm) hsame ▸ List.mem_map_of_mem hrow

theorem merges_appendPolled (hfiled : Filed server) (hpage : Page server page) {messages : Option (List Message)}
    (hnodup : ((messages.getD []).map (·.hubMsgId)).Nodup)
    (hsorted : (messages.getD []).Pairwise fun a b => a.time ≤ b.time)
    (hrows : ∀ row ∈ messages.getD [], Temporary row ∨ OfServer server row)
    (hbehind : ∀ m ∈ page, m.hubMsgId ∉ (messages.getD []).map (·.hubMsgId) →
      ∀ row ∈ messages.getD [], ¬ Gone (messages.getD []) page row → row.time ≤ m.time) :
    Merges (Gone (messages.getD []) page) (messages.getD []) page ((appendPolled messages page).getD []) := by
  generalize hcurrent : messages.getD [] = current at *
  have hnew := fun m => mem_deduped (m := m) hfiled hpage hrows
  have hkept : ∀ row, row ∈ withoutMatchedOptimistic current (deduped current page) ↔
      row ∈ current ∧ ¬ Gone current page row := fun row => by
    simp only [withoutMatchedOptimistic, List.mem_filter, decide_eq_true_eq, Gone, hnew, and_assoc]
  simp only [appendPolled, hcurrent]
  split
  · rename_i hnone
    rw [hcurrent]
    refine ⟨hnodup, hsorted, fun row hrow => .inl hrow, fun m hm => ?_, fun row hrow _ => ⟨row, hrow, rfl⟩⟩
    by_contra hmissing
    refine List.not_mem_nil (hnone ▸ (hnew m).mpr ⟨hm, fun hcached => hmissing ?_⟩)
    exact List.mem_map.mp hcached
  · simp only [Option.getD_some]
    have hchronological : (deduped current page).Pairwise fun a b => a.time ≤ b.time :=
      (hpage.chronological hfiled).sublist List.filter_sublist
    refine ⟨?_, ?_, fun row hrow => ?_, fun m hm => ?_, fun row hrow hstays => ?_⟩
    · rw [List.map_append, List.nodup_append']
      refine ⟨hnodup.sublist (List.filter_sublist.map _), ?_, fun id hid hid' => ?_⟩
      · refine List.Nodup.sublist (List.filter_sublist.map _) ?_
        rw [List.map_reverse, List.nodup_reverse]
        exact hpage.nodup hfiled
      · obtain ⟨row, hrow, rfl⟩ := List.mem_map.mp hid
        obtain ⟨m, hm, heq⟩ := List.mem_map.mp hid'
        exact ((hnew m).mp hm).2 (heq ▸ List.mem_map_of_mem ((hkept row).mp hrow).1)
    · refine List.pairwise_append.mpr ⟨hsorted.sublist List.filter_sublist, hchronological, fun row hrow m hm => ?_⟩
      obtain ⟨hmem, hstays⟩ := (hkept row).mp hrow
      obtain ⟨hm, hnotCached⟩ := (hnew m).mp hm
      exact hbehind m hm hnotCached row hmem hstays
    · rcases List.mem_append.mp hrow with hrow | hrow
      · exact .inl ((hkept row).mp hrow).1
      · exact .inr ⟨row, ((hnew row).mp hrow).1, rfl⟩
    · by_cases hcached : m.hubMsgId ∈ current.map (·.hubMsgId)
      · obtain ⟨row, hrow, heq⟩ := List.mem_map.mp hcached
        refine ⟨row, List.mem_append_left _ ((hkept row).mpr ⟨hrow, fun hgone => ?_⟩), heq⟩
        have hstored := hpage.stored hfiled hm
        rw [← heq, hgone.1] at hstored
        cases hstored
      · exact ⟨m, List.mem_append_right _ ((hnew m).mpr ⟨hm, hcached⟩), rfl⟩
    · exact ⟨row, List.mem_append_left _ ((hkept row).mpr ⟨hrow, hstays⟩), rfl⟩

end BotCord.RoomCache
