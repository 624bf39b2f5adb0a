import BotCord.Foundation.Text
import BotCord.Gateway.Merge
import Mathlib.Data.List.TakeWhile

/-!
# Whose text a merged turn carries

The prompt of a merged turn is composed from its batch, or from its text, which is put together from all the entries. The policy looks at the batch only.
-/

namespace BotCord.Gateway

variable {f : Fragment}

theorem mem_joinWith_of_mem {separator : String} {parts : List (List Fragment)} {part : List Fragment}
    (hpart : part ∈ parts) (hf : f ∈ part) : f ∈ joinWith separator parts := by
  induction parts with
  | nil => exact absurd hpart List.not_mem_nil
  | cons head rest ih =>
    cases rest with
    | nil =>
      rw [List.mem_singleton.mp hpart] at hf
      simpa [joinWith] using hf
    | cons next rest =>
      rw [joinWith, List.intercalate_cons_cons, List.mem_append, List.mem_append]
      rcases List.mem_cons.mp hpart with rfl | hrest
      · exact .inl (.inl hf)
      · exact .inr (ih hrest)

theorem joinWith_source {separator : String} {parts : List (List Fragment)}
    (h : f ∈ joinWith separator parts) : f.source = none ∨ ∃ part ∈ parts, f ∈ part := by
  rcases Text.mem_intercalate h with rfl | hpart
  · exact .inl rfl
  · exact .inr hpart

/-- A part of the composer's own words, or of the text of one of the messages. -/
def FromIds (ids : List String) (f : Fragment) : Prop := f.source = none ∨ ∃ id ∈ ids, f.source = some id

theorem FromIds.mono {ids ids' : List String} (h : FromIds ids f) (hsub : ids ⊆ ids') : FromIds ids' f := by
  rcases h with hnone | ⟨id, hid, hsource⟩
  · exact .inl hnone
  · exact .inr ⟨id, hsub hid, hsource⟩

namespace Composer

variable (c : Composer)

variable {f : Fragment} {entry : InboxMessage}

theorem quoteLine_source (h : f ∈ c.quoteLine entry) : FromIds [entry.hubMsgId] f := by
  unfold quoteLine at h
  split at h
  · rcases List.mem_cons.mp h with rfl | h
    · exact .inr ⟨_, List.mem_singleton_self _, rfl⟩
    · exact .inl (by rw [List.mem_singleton.mp h]; rfl)
  · exact absurd h List.not_mem_nil

theorem ownerEntry_source (h : f ∈ c.ownerEntry entry) :
    FromIds [entry.hubMsgId] f := by
  simp only [ownerEntry, List.mem_cons, List.not_mem_nil, or_false] at h
  rcases h with rfl | rfl | rfl | rfl
  · exact .inl rfl
  · exact .inr ⟨_, List.mem_singleton_self _, rfl⟩
  · exact .inl rfl
  · exact .inr ⟨_, List.mem_singleton_self _, rfl⟩

theorem batchEntry_source (h : f ∈ c.batchEntry entry) :
    FromIds [entry.hubMsgId] f := by
  simp only [batchEntry, List.mem_append, List.mem_cons, List.not_mem_nil, or_false] at h
  rcases h with (rfl | h) | rfl | rfl
  · exact .inl rfl
  · exact c.quoteLine_source h
  · exact .inr ⟨_, List.mem_singleton_self _, rfl⟩
  · exact .inl rfl

variable {msg : GatewayInboundMessage} {ctx : UserTurnContext}

theorem automaticNote_source
    (h : f ∈ c.automaticNote msg ctx) : f.source = none := by
  unfold automaticNote at h
  split at h
  · rw [List.mem_singleton.mp h]
    rfl
  · exact absurd h List.not_mem_nil

theorem joinWith_batch_source {separator : String} {batch : List InboxMessage} {part : InboxMessage → List Fragment}
    (hpart : ∀ entry, ∀ f ∈ part entry, FromIds [entry.hubMsgId] f)
    (h : f ∈ joinWith separator (batch.map part)) : FromIds (batch.map InboxMessage.hubMsgId) f := by
  rcases joinWith_source h with hnone | ⟨fragments, hfragments, hf⟩
  · exact .inl hnone
  · obtain ⟨entry, hentry, rfl⟩ := List.mem_map.mp hfragments
    refine (hpart entry f hf).mono fun id hid => ?_
    rw [List.mem_singleton.mp hid]
    exact List.mem_map_of_mem hentry

theorem compose_batch_source {text : List Fragment}
    {batch : List InboxMessage} (hbatch : readBatch msg.raw = some batch) (htext : render text ≠ "")
    (h : f ∈ c.composeBotCordUserTurn msg ctx text) : FromIds (batch.map InboxMessage.hubMsgId) f := by
  rw [composeBotCordUserTurn, if_neg htext, hbatch] at h
  split at h
  · rcases List.mem_append.mp h with h | h
    · exact joinWith_batch_source (fun _ _ => c.ownerEntry_source) h
    · exact .inl (c.automaticNote_source h)
  · simp only [composeBatchedTurn, List.mem_append, List.mem_cons, List.not_mem_nil, or_false] at h
    rcases h with (rfl | h) | rfl
    · exact .inl rfl
    · exact joinWith_batch_source (fun _ _ => c.batchEntry_source) h
    · exact .inl rfl

theorem text_subset_compose {text : List Fragment}
    (hbatch : readBatch msg.raw = none) : text ⊆ c.composeBotCordUserTurn msg ctx text := by
  intro f hf
  rw [composeBotCordUserTurn, hbatch]
  split
  · exact hf
  · split <;> simp [hf]

end Composer

/-- A message of the channel: its own or its group's, which ends with it, and a text that is not blank. -/
structure Delivered (e : BufferedSerialEntry) (raw : Raw) : Prop where
  hasRaw : e.msg.raw = some raw
  ends : ∀ batch, raw.batch = some batch → batch.getLast?.map InboxMessage.hubMsgId = some raw.hubMsgId
  hasText : trim e.msg.text ≠ ""

def itemIds (e : BufferedSerialEntry) : List String := (entryItems e).map InboxMessage.hubMsgId

theorem representative_mem (sanitize : String → String) (msgs : List InboxMessage) (latest : InboxMessage) :
    representative sanitize msgs latest = latest ∨ representative sanitize msgs latest ∈ msgs := by
  unfold representative
  split
  · exact .inl rfl
  · cases hfind : msgs.reverse.find? fun m => trim (bodyText m) ≠ "" with
    | none => exact .inl rfl
    | some m => exact .inr (List.mem_reverse.mp (List.mem_of_find?_eq_some hfind))

section Delivered

variable {e : BufferedSerialEntry} {raw : Raw} (h : Delivered e raw) (c : Composer)
include h

theorem Delivered.last_id : (itemIds e).getLast? = some raw.hubMsgId := by
  rw [itemIds, entryItems_eq h.hasRaw]
  cases hbatch : raw.batch with
  | none => simp
  | some batch => rw [Option.getD_some, List.getLast?_map, h.ends batch hbatch]

theorem Delivered.raw_mem : raw.hubMsgId ∈ itemIds e := List.mem_of_getLast? h.last_id

theorem Delivered.items_ne_nil : entryItems e ≠ [] := fun hnil => by
  have hmem := h.raw_mem
  rw [itemIds, hnil] at hmem
  exact absurd hmem List.not_mem_nil

theorem Delivered.textSource_mem : ∃ id ∈ itemIds e, textSource c e = some id := by
  rw [textSource, h.hasRaw]
  cases hbatch : raw.batch with
  | none =>
    refine ⟨raw.hubMsgId, h.raw_mem, ?_⟩
    simp [hbatch]
  | some batch =>
    simp only [Option.map_some, hbatch, Option.some.injEq, exists_eq_right']
    have hitems : entryItems e = batch := by rw [entryItems_eq h.hasRaw, hbatch, Option.getD_some]
    rcases representative_mem c.sanitizeUntrustedContent batch raw.toInboxMessage with heq | hmem
    · rw [heq]
      exact h.raw_mem
    · rw [itemIds, hitems]
      exact List.mem_map_of_mem hmem

end Delivered

theorem render_ne_empty {fragments : List Fragment} (hf : f ∈ fragments) (htext : f.text ≠ "") :
    render fragments ≠ "" := fun hrender => by
  have hlist := congrArg String.toList hrender
  rw [render, String.toList_join, String.toList_empty, List.flatMap_eq_nil_iff] at hlist
  exact htext (String.toList_eq_nil_iff.mp (hlist f.text (List.mem_map_of_mem hf)))

theorem entryFragment_mem_mergedText (c : Composer) {entries : List BufferedSerialEntry} {e : BufferedSerialEntry}
    (he : e ∈ entries) (htext : trim e.msg.text ≠ "") : entryFragment c e ∈ mergedText c entries := by
  refine mem_joinWith_of_mem (List.mem_map_of_mem (List.mem_filter.mpr ⟨List.mem_map_of_mem he, ?_⟩))
    (List.mem_singleton_self _)
  exact decide_eq_true htext

/-- Every text in the prompt is from a message that the policy looks at. -/
def MergedTurn.Seen (turn : MergedTurn) : Prop :=
  ∀ f ∈ turn.text, ∀ id, f.source = some id → some id ∈ (inboundEntries turn.msg).map (·.map InboxMessage.hubMsgId)

@[simp] theorem composedTurn_msg (c : Composer) (msg : GatewayInboundMessage) (e : BufferedSerialEntry)
    (text : List Fragment) : (composedTurn c msg e text).msg = msg := rfl

theorem composedTurn_subset {c : Composer} {msg : GatewayInboundMessage} {e : BufferedSerialEntry} {text : List Fragment}
    (hbatch : readBatch msg.raw = none) : text ⊆ (composedTurn c msg e text).text :=
  c.text_subset_compose hbatch

theorem inboundEntries_of_batch {msg : GatewayInboundMessage} {raw : Raw} {batch : List InboxMessage}
    (hraw : msg.raw = some raw) (hbatch : raw.batch = some batch) (hne : batch ≠ []) :
    inboundEntries msg = batch.map some := by
  cases batch with
  | nil => exact absurd rfl hne
  | cons first rest => simp [inboundEntries, hraw, hbatch]

theorem ids_map_some (items : List InboxMessage) :
    (items.map some).map (Option.map InboxMessage.hubMsgId) = (items.map InboxMessage.hubMsgId).map some := by
  rw [List.map_map, List.map_map]
  rfl

theorem FromIds.seen {ids : List String} (h : FromIds ids f) {id : String} (hid : f.source = some id) :
    id ∈ ids := by
  rcases h with hnone | ⟨id', hid', hsource⟩
  · cases hnone.symm.trans hid
  · cases hsource.symm.trans hid
    exact hid'

section Merged

variable {c : Composer} {first second : BufferedSerialEntry} {rest : List BufferedSerialEntry}

theorem merged_turn {turn : MergedTurn} (h : mergeSerialBuffer c (first :: second :: rest) = some turn) :
    ∃ latest, turn = composedTurn c (mergedMessage c (first :: second :: rest) latest) latest
      (mergedText c (first :: second :: rest)) := by
  rw [mergeSerialBuffer, Option.some.injEq] at h
  · exact ⟨(second :: rest).getLastD first, h.symm⟩
  · exact List.cons_ne_nil _ _

theorem merged_raw (entries : List BufferedSerialEntry) (latest : BufferedSerialEntry) :
    ∃ raw, (mergedMessage c entries latest).raw = some raw ∧ raw.batch = some (mergedItems entries) :=
  ⟨_, rfl, rfl⟩

theorem merged_readBatch (entries : List BufferedSerialEntry) (latest : BufferedSerialEntry) :
    readBatch (mergedMessage c entries latest).raw =
      if 2 ≤ (mergedItems entries).length then some (mergedItems entries) else none := by
  obtain ⟨raw, hraw, hbatch⟩ := merged_raw (c := c) entries latest
  rw [readBatch, hraw, Option.bind_some, hbatch]
  simp [Option.filter]

theorem two_le_length_items (hfirst : entryItems first ≠ []) (hsecond : entryItems second ≠ []) :
    2 ≤ ((first :: second :: rest).flatMap entryItems).length := by
  have h1 := List.length_pos_of_ne_nil hfirst
  have h2 := List.length_pos_of_ne_nil hsecond
  simp only [List.flatMap_cons, List.length_append]
  omega

theorem merged_inboundEntries (entries : List BufferedSerialEntry) (latest : BufferedSerialEntry)
    (hne : entries.flatMap entryItems ≠ []) :
    (inboundEntries (mergedMessage c entries latest)).map (·.map InboxMessage.hubMsgId) =
      ((mergedItems entries).map InboxMessage.hubMsgId).map some := by
  obtain ⟨raw, hraw, hbatch⟩ := merged_raw (c := c) entries latest
  rw [inboundEntries_of_batch hraw hbatch (capChars_ne_nil hne), ids_map_some]

theorem seen_of_fit (entries : List BufferedSerialEntry) (latest : BufferedSerialEntry)
    (htext : render (mergedText c entries) ≠ "") (hlength : 2 ≤ (mergedItems entries).length) :
    (composedTurn c (mergedMessage c entries latest) latest (mergedText c entries)).Seen := by
  intro f hf id hid
  have hbatch := merged_readBatch (c := c) entries latest
  have hne : entries.flatMap entryItems ≠ [] := fun hnil => by
    rw [mergedItems, hnil] at hlength
    exact absurd hlength (by decide)
  rw [if_pos hlength] at hbatch
  rw [composedTurn_msg, merged_inboundEntries entries latest hne]
  exact List.mem_map_of_mem ((c.compose_batch_source hbatch htext hf).seen hid)

theorem cut_suffix (hrest : (second :: rest).flatMap entryItems ≠ [])
    (hlength : ¬ 2 ≤ (mergedItems (first :: second :: rest)).length) :
    mergedItems (first :: second :: rest) <:+ (second :: rest).flatMap entryItems := by
  have hpos := List.length_pos_of_ne_nil hrest
  refine List.suffix_of_suffix_length_le (capChars_suffix _) ?_ (by omega)
  rw [List.flatMap_cons]
  exact List.suffix_append _ _

/-- A batch cut down to one message has lost the message whose text is the first entry's. -/
theorem not_seen_of_cut (latest : BufferedSerialEntry) {raw : Raw} (hfirst : Delivered first raw)
    (hrest : (second :: rest).flatMap entryItems ≠ []) (hids : ((first :: second :: rest).flatMap itemIds).Nodup)
    (hlength : ¬ 2 ≤ (mergedItems (first :: second :: rest)).length) :
    ¬ (composedTurn c (mergedMessage c (first :: second :: rest) latest) latest
      (mergedText c (first :: second :: rest))).Seen := by
  intro hseen
  have hbatch := merged_readBatch (c := c) (first :: second :: rest) latest
  rw [if_neg hlength] at hbatch
  have hmem := entryFragment_mem_mergedText c (show first ∈ first :: second :: rest from List.mem_cons_self)
    hfirst.hasText
  obtain ⟨id, hid, hsource⟩ := hfirst.textSource_mem c
  have hprompt := composedTurn_subset (c := c) (e := latest) hbatch hmem
  have hkept := hseen (entryFragment c first) hprompt id hsource
  have hne : (first :: second :: rest).flatMap entryItems ≠ [] := by
    rw [List.flatMap_cons]
    exact List.append_ne_nil_of_right_ne_nil _ hrest
  rw [composedTurn_msg, merged_inboundEntries _ _ hne] at hkept
  obtain ⟨id', hid', heq⟩ := List.mem_map.mp hkept
  obtain ⟨item, hitem, hitemId⟩ := List.mem_map.mp (Option.some.inj heq ▸ hid')
  obtain ⟨e, he, hitem⟩ := List.mem_flatMap.mp ((cut_suffix hrest hlength).subset hitem)
  have hlater : id ∈ (second :: rest).flatMap itemIds :=
    List.mem_flatMap.mpr ⟨e, he, List.mem_map.mpr ⟨item, hitem, hitemId⟩⟩
  rw [List.flatMap_cons] at hids
  exact (List.nodup_append.mp hids).2.2 id hid id hlater rfl

end Merged

/-- A merged turn carries the text of the messages that the policy looks at, exactly if the last two of them fit. -/
theorem mergeSerialBuffer_seen_iff (c : Composer) (first second : BufferedSerialEntry) (rest : List BufferedSerialEntry)
    (hdelivered : ∀ e ∈ first :: second :: rest, ∃ raw, Delivered e raw)
    (hids : ((first :: second :: rest).flatMap itemIds).Nodup) {turn : MergedTurn}
    (hturn : mergeSerialBuffer c (first :: second :: rest) = some turn) :
    turn.Seen ↔ LastTwoFit ((first :: second :: rest).flatMap entryItems) := by
  obtain ⟨raw, hfirst⟩ := hdelivered first List.mem_cons_self
  obtain ⟨raw', hsecond⟩ := hdelivered second (List.mem_cons_of_mem _ List.mem_cons_self)
  have htext : render (mergedText c (first :: second :: rest)) ≠ "" :=
    render_ne_empty (entryFragment_mem_mergedText _ List.mem_cons_self hfirst.hasText) hfirst.hasText
  have hrest : (second :: rest).flatMap entryItems ≠ [] := by
    rw [List.flatMap_cons]
    exact List.append_ne_nil_of_left_ne_nil hsecond.items_ne_nil _
  rw [← two_le_length_capChars (two_le_length_items hfirst.items_ne_nil hsecond.items_ne_nil)]
  obtain ⟨latest, rfl⟩ := merged_turn hturn
  refine ⟨fun hseen => ?_, fun hlength => seen_of_fit _ latest htext hlength⟩
  by_contra hlength
  exact not_seen_of_cut latest hfirst hrest hids hlength hseen

/-- A composer without words of its own. -/
def bareComposer : Composer where
  sanitizeUntrustedContent := id
  sanitizeSenderName := id
  preview := id
  header _ := ""
  footer _ _ := ""
  batchHeader _ _ := ""
  batchFooter _ _ _ := ""
  entryTag _ := ""
  entryEnd _ := ""
  replyDeliveryHint _ _ := ""

def roomItem (id text profile basis : String) : InboxMessage :=
  { hubMsgId := id, text := some text, roomId := some "rm_1"
    hubDecision := some { wake := some true, profile := some profile, basis := some basis } }

def roomEntry (turnId : TurnId) (item : InboxMessage) : BufferedSerialEntry where
  route := { runtime := "claude-code" }
  channel := { id := "ag_me", type := "botcord" }
  turnId := turnId
  msg := {
    id := item.hubMsgId, channel := "ag_me", accountId := "ag_me"
    conversation := { id := "rm_1", kind := .group }
    sender := { id := "hu_1", kind := .user }
    text := item.text.getD ""
    raw := some { item with batch := none } }

def guestEntry : BufferedSerialEntry := roomEntry 1 (roomItem "h_1" "hi" "consult" "room")

def ownerEntry (text : String) : BufferedSerialEntry := roomEntry 2 (roomItem "h_2" text "full" "owner")

theorem delivered_roomEntry (turnId : TurnId) (item : InboxMessage) (h : trim (item.text.getD "") ≠ "") :
    ∃ raw, Delivered (roomEntry turnId item) raw :=
  ⟨_, rfl, by simp, h⟩

theorem mergeSerialBuffer_seen_iff_short :
    (composedTurn bareComposer (mergedMessage bareComposer [guestEntry, ownerEntry "hello"] (ownerEntry "hello"))
      (ownerEntry "hello") (mergedText bareComposer [guestEntry, ownerEntry "hello"])).Seen ↔
      LastTwoFit ([guestEntry, ownerEntry "hello"].flatMap entryItems) :=
  mergeSerialBuffer_seen_iff bareComposer guestEntry (ownerEntry "hello") []
    (List.forall_mem_cons.mpr ⟨delivered_roomEntry _ _ (by decide),
      List.forall_mem_cons.mpr ⟨delivered_roomEntry _ _ (by decide), by simp⟩⟩) (by decide) rfl

def longText : String := String.ofList (List.replicate MAX_BATCH_BUFFER_CHARS 'x')

theorem length_longText : length longText = MAX_BATCH_BUFFER_CHARS := by
  rw [length, longText, String.toList_ofList, List.map_replicate, List.sum_replicate_nat, if_pos (by decide), mul_one]

theorem trim_ne_empty {text : String} {c : Char} (hc : c ∈ text.toList) (hblack : isWhite c = false) : trim text ≠ "" := by
  intro htrim
  have hnil := congrArg String.toList htrim
  rw [trim, String.toList_ofList, String.toList_empty, List.reverse_eq_nil_iff, List.dropWhile_eq_nil_iff] at hnil
  have hkept : c ∈ text.toList.dropWhile isWhite := by
    rw [← List.takeWhile_append_dropWhile (p := isWhite) (l := text.toList), List.mem_append] at hc
    refine hc.resolve_left fun htake => ?_
    rw [List.mem_takeWhile_imp htake] at hblack
    contradiction
  rw [hnil c (List.mem_reverse.mpr hkept)] at hblack
  contradiction

theorem entryItems_roomEntry (turnId : TurnId) (item : InboxMessage) : entryItems (roomEntry turnId item) = [item] := rfl

theorem mergedItems_long :
    mergedItems [guestEntry, ownerEntry longText] = [roomItem "h_2" longText "full" "owner"] := by
  have hover : MAX_BATCH_BUFFER_CHARS <
      totalChars [roomItem "h_1" "hi" "consult" "room", roomItem "h_2" longText "full" "owner"] := by
    have hguest : itemChars (roomItem "h_1" "hi" "consult" "room") = 2 := by decide
    have howner : itemChars (roomItem "h_2" longText "full" "owner") = MAX_BATCH_BUFFER_CHARS := by
      rw [itemChars, roomItem, Option.map_some, Option.getD_some, length_longText]
    rw [totalChars_cons, totalChars_cons, hguest, howner]
    omega
  rw [mergedItems, guestEntry, ownerEntry, List.flatMap_cons, List.flatMap_cons, entryItems_roomEntry,
    entryItems_roomEntry, List.flatMap_nil, List.singleton_append, List.append_nil, capChars, if_pos hover, capChars]

/-- A guest's message before a long one of the owner: its text is in a prompt that runs with full permissions. -/
theorem unseen_text :
    ¬ ∀ (c : Composer) (entries : List BufferedSerialEntry) (turn : MergedTurn),
      (∀ e ∈ entries, ∃ raw, Delivered e raw) → (entries.flatMap itemIds).Nodup →
      mergeSerialBuffer c entries = some turn → turn.Seen := by
  intro h
  obtain ⟨raw, hguest⟩ := delivered_roomEntry 1 (roomItem "h_1" "hi" "consult" "room") (by decide)
  have hx : 'x' ∈ longText.toList := by
    rw [longText, String.toList_ofList, List.mem_replicate]
    exact ⟨by decide, rfl⟩
  have howner := delivered_roomEntry 2 (roomItem "h_2" longText "full" "owner") (trim_ne_empty hx (by decide))
  have hids : ([guestEntry, ownerEntry longText].flatMap itemIds).Nodup := by
    rw [guestEntry, ownerEntry, List.flatMap_cons, List.flatMap_cons, itemIds, itemIds, entryItems_roomEntry,
      entryItems_roomEntry]
    change ["h_1", "h_2"].Nodup
    decide
  have hcut : ¬ 2 ≤ (mergedItems [guestEntry, ownerEntry longText]).length := by
    rw [mergedItems_long]
    decide
  have hrest : [ownerEntry longText].flatMap entryItems ≠ [] := by
    rw [ownerEntry, List.flatMap_cons, entryItems_roomEntry]
    exact List.cons_ne_nil _ _
  refine not_seen_of_cut (c := bareComposer) (ownerEntry longText) hguest hrest hids hcut ?_
  refine h bareComposer [guestEntry, ownerEntry longText] _ ?_ hids rfl
  rintro e he
  rcases List.mem_cons.mp he with rfl | he
  · exact ⟨raw, hguest⟩
  · rw [List.mem_singleton.mp he]
    exact howner

end BotCord.Gateway
