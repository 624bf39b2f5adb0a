import BotCord.Invites.Service

/-!
# An invite link admits only whom it may

An accepting call holds its link and then its space until it commits, and every other call that changes a membership holds the space. So what it found of the link and of the membership is still so when it commits, and the history of a space, whatever the order, is one in which a link admits only a user who is unknown to the space or invited.
-/

namespace BotCord.Invites

open Spaces (UserId SpaceId LinkId MembershipId Instant Space InviteLink MembershipStatus LinkStatus linkStatus)
open Members

/-! ### Histories -/

namespace Entry

def userId : Entry → UserId
  | .joined _ userId _ | .invited _ userId | .accepted userId | .removed _ userId => userId

/-- The status of the membership after the entry. -/
def status : Entry → MembershipStatus
  | .joined _ _ _ | .accepted _ => .active
  | .invited _ _ => .invited
  | .removed _ _ => .removed

def JoinsBy (id : LinkId) : Entry → Prop
  | .joined linkId _ _ => linkId = id
  | .invited _ _ | .accepted _ | .removed _ _ => False

instance (id : LinkId) : DecidablePred (JoinsBy id)
  | .joined linkId _ _ => inferInstanceAs (Decidable (linkId = id))
  | .invited _ _ | .accepted _ | .removed _ _ => isFalse fun h => h

end Entry

abbrev Statuses := UserId → Option MembershipStatus

def standing (start : Statuses) (history : List Entry) : Statuses :=
  history.foldl (fun statuses e => Function.update statuses e.userId (some e.status)) start

/-- How many memberships a link activated. -/
def uses (id : LinkId) (history : List Entry) : ℕ := history.countP (Entry.JoinsBy id ·)

def Admissible (status : Option MembershipStatus) : Prop := status = none ∨ status = some .invited
deriving Decidable

/-- Whenever a link admitted a user, the user was unknown or invited. -/
def Lawful (start : Statuses) (history : List Entry) : Prop :=
  ∀ front linkId userId startedAt back, history = front ++ .joined linkId userId startedAt :: back →
    Admissible (standing start front userId)

section Histories

variable {start : Statuses} {history : List Entry} {e : Entry} {id : LinkId}

theorem standing_append (front back : List Entry) :
    standing start (front ++ back) = standing (standing start front) back := List.foldl_append

theorem standing_snoc : standing start (history ++ [e]) =
    Function.update (standing start history) e.userId (some e.status) := by
  rw [standing_append]
  rfl

theorem uses_snoc_of_not (h : ¬ e.JoinsBy id) : uses id (history ++ [e]) = uses id history := by
  simp [uses, List.countP_append, h]

theorem uses_snoc_of_joins (h : e.JoinsBy id) : uses id (history ++ [e]) = uses id history + 1 := by
  simp [uses, List.countP_append, h]

theorem uses_eq_zero (h : ∀ e ∈ history, ¬ e.JoinsBy id) : uses id history = 0 := by
  rw [uses, List.countP_eq_zero]
  simpa using h

theorem Lawful.snoc (h : Lawful start history)
    (he : ∀ linkId userId startedAt, e = .joined linkId userId startedAt → Admissible (standing start history userId)) :
    Lawful start (history ++ [e]) := by
  intro front linkId userId startedAt back heq
  rcases List.eq_nil_or_concat back with rfl | ⟨rest, x, rfl⟩
  · obtain ⟨rfl, hlast⟩ := List.append_inj' heq rfl
    exact he _ _ _ (List.singleton_inj.mp hlast)
  · rw [List.concat_eq_append, ← List.cons_append, ← List.append_assoc] at heq
    exact h front linkId userId startedAt rest (List.append_inj' heq rfl).1

/-- A stretch of history after which a user who was neither unknown nor invited is, has an invitation of that user. -/
theorem exists_invited {userId : UserId} (hbefore : ¬ Admissible (start userId))
    (hafter : Admissible (standing start history userId)) : ∃ actorId, .invited actorId userId ∈ history := by
  induction history generalizing start with
  | nil => exact absurd hafter hbefore
  | cons e rest ih =>
    by_cases hadmissible : Admissible (Function.update start e.userId (some e.status) userId)
    · have huser : e.userId = userId := by
        by_contra hne
        rw [Function.update_of_ne (Ne.symm hne)] at hadmissible
        exact hbefore hadmissible
      subst huser
      rw [Function.update_self] at hadmissible
      cases e with
      | invited actorId userId => exact ⟨actorId, List.mem_cons_self⟩
      | joined linkId userId startedAt => simp [Admissible, Entry.status] at hadmissible
      | accepted userId => simp [Admissible, Entry.status] at hadmissible
      | removed actorId userId => simp [Admissible, Entry.status] at hadmissible
    · obtain ⟨actorId, hmem⟩ := ih hadmissible hafter
      exact ⟨actorId, List.mem_cons_of_mem e hmem⟩

end Histories

section Invariant

variable (start : Store)

def Statuses.of (s : Store) (spaceId : SpaceId) : Statuses := fun userId => (s.memberships spaceId userId).map (·.status)

structure Inv (s : Store) : Prop where
  counted : ∀ l ∈ s.links, l.useCount = uses l.id (s.history l.spaceId)
  bounded : ∀ l ∈ s.links, ∀ maxUses ∈ l.maxUses, l.useCount ≤ maxUses
  joined : ∀ k linkId userId startedAt, .joined linkId userId startedAt ∈ s.history k →
    ∃ l ∈ s.links, l.id = linkId ∧ l.spaceId = k ∧ ∀ expiresAt ∈ l.expiresAt, startedAt < expiresAt
  standing : ∀ k, Statuses.of s k = standing (Statuses.of start k) (s.history k)
  lawful : ∀ k, Lawful (Statuses.of start k) (s.history k)

/-- What a commit does: a revoked link stays revoked and admits nobody, and only a manager invites. -/
structure Effect (s t : Store) : Prop where
  revoked : ∀ l ∈ s.links, l.revokedAt ≠ none → ∃ l' ∈ t.links, l'.id = l.id ∧ l'.spaceId = l.spaceId ∧
    l'.revokedAt ≠ none ∧ uses l.id (t.history l.spaceId) = uses l.id (s.history l.spaceId)
  invited : ∀ k, ∃ entries, t.history k = s.history k ++ entries ∧
    ∀ actorId targetId, .invited actorId targetId ∈ entries → Manager s k actorId

def rely : Rely Store Row where
  β
    | .link _ => Option InviteLink
    | .space _ => Option Space × (UserId → Option Membership) × List Entry
  row
    | .link id => fun s => s.links.get? id
    | .space k => fun s => (s.spaces k, s.memberships k, s.history k)
  inv := Inv start
  since s t := s.now ≤ t.now
  commits := Effect
  refl _ := Int.le_refl _
  trans _ _ _ h h' := Int.le_trans h h'

variable {start} {held : Row → Prop} {s t u : Store} {k : SpaceId} {userId : UserId}

variable {id : LinkId}

theorem Later.link (h : (rely start).Later held s t) (hheld : held (.link id)) :
    t.links.get? id = s.links.get? id := h.rows (.link id) hheld

theorem Later.memberships (h : (rely start).Later held s t) (hheld : held (.space k)) :
    t.memberships k = s.memberships k :=
  congrArg (fun row : Option Space × (UserId → Option Membership) × List Entry => row.2.1) (h.rows (.space k) hheld)

/-! ### Writes -/

variable {m : Membership} {e : Entry}

theorem history_putMembership (k' : SpaceId) :
    (s.putMembership k userId m e).history k' = if k' = k then s.history k ++ [e] else s.history k' :=
  Function.update_apply ..

theorem uses_putMembership_of_not (hjoins : ¬ e.JoinsBy id) (k' : SpaceId) :
    uses id ((s.putMembership k userId m e).history k') = uses id (s.history k') := by
  rw [history_putMembership]
  split
  · rename_i hk
    rw [hk, uses_snoc_of_not hjoins]
  · rfl

theorem statuses_putMembership (k' : SpaceId) :
    Statuses.of (s.putMembership k userId m e) k' =
      if k' = k then Function.update (Statuses.of s k) userId (some m.status) else Statuses.of s k' := by
  funext u
  by_cases hk : k' = k
  · subst hk
    rw [if_pos rfl]
    by_cases hu : u = userId
    · simp [Statuses.of, Store.putMembership, hu]
    · simp [Statuses.of, Store.putMembership, hu]
  · simp [Statuses.of, Store.putMembership, hk]

theorem standing_putMembership (huser : e.userId = userId) (hstatus : e.status = m.status)
    (h : ∀ k, Statuses.of s k = standing (Statuses.of start k) (s.history k)) (k' : SpaceId) :
    Statuses.of (s.putMembership k userId m e) k' =
      standing (Statuses.of start k') ((s.putMembership k userId m e).history k') := by
  rw [statuses_putMembership, history_putMembership]
  split
  · rename_i hk
    rw [hk, standing_snoc, h, huser, hstatus]
  · exact h k'

theorem lawful_putMembership (h : Inv start s)
    (hjoined : ∀ linkId u at_, e = .joined linkId u at_ → Admissible (Statuses.of s k u)) (k' : SpaceId) :
    Lawful (Statuses.of start k') ((s.putMembership k userId m e).history k') := by
  rw [history_putMembership]
  split
  · rename_i hk
    subst hk
    refine (h.lawful k').snoc fun linkId u at_ he => ?_
    rw [← h.standing]
    exact hjoined linkId u at_ he
  · exact h.lawful k'

theorem Inv.putMembership (h : Inv start s) (huser : e.userId = userId)
    (hstatus : e.status = m.status) (hjoins : ∀ id, ¬ e.JoinsBy id) : Inv start (s.putMembership k userId m e) where
  counted l hl := (h.counted l hl).trans (uses_putMembership_of_not (hjoins l.id) l.spaceId).symm
  bounded := h.bounded
  joined k' linkId u at_ hmem := by
    rw [history_putMembership] at hmem
    split at hmem
    · rename_i hk
      rcases List.mem_append.mp hmem with hold | hnew
      · exact hk ▸ h.joined k linkId u at_ hold
      · rw [List.mem_singleton] at hnew
        exact absurd rfl (hnew ▸ hjoins linkId)
    · exact h.joined k' linkId u at_ hmem
  standing := standing_putMembership huser hstatus h.standing
  lawful := lawful_putMembership h fun linkId u at_ he => absurd rfl (he ▸ hjoins linkId)

theorem Effect.putMembership (hjoins : ∀ id, ¬ e.JoinsBy id)
    (hmanager : ∀ actorId targetId, e = .invited actorId targetId → Manager s k actorId) :
    Effect s (s.putMembership k userId m e) where
  revoked l hl hrevoked := ⟨l, hl, rfl, rfl, hrevoked, uses_putMembership_of_not (hjoins l.id) l.spaceId⟩
  invited k' := by
    rw [history_putMembership]
    split
    · rename_i hk
      subst hk
      exact ⟨[e], rfl, fun actorId targetId hmem => hmanager actorId targetId (List.mem_singleton.mp hmem).symm⟩
    · exact ⟨[], (List.append_nil _).symm, fun _ _ hmem => by cases hmem⟩

theorem row_putMembership {r : Row} (hr : r ≠ .space k) :
    (rely start).row r (s.putMembership k userId m e) = (rely start).row r s := by
  cases r with
  | link id => rfl
  | space k' =>
    have hk : k' ≠ k := fun hk => hr (hk ▸ rfl)
    simp [rely, Store.putMembership, hk]

theorem commits_putMembership (h : Inv start s) (hheld : held (.space k))
    (huser : e.userId = userId) (hstatus : e.status = m.status) (hjoins : ∀ id, ¬ e.JoinsBy id)
    (hmanager : ∀ actorId targetId, e = .invited actorId targetId → Manager s k actorId) :
    (rely start).Commits held s (s.putMembership k userId m e) where
  inv := h.putMembership huser hstatus hjoins
  since := Int.le_refl _
  frame _ hr := row_putMembership fun hk => hr (hk ▸ hheld)
  commits := .putMembership hjoins hmanager

/-! ### Redeeming a link -/

variable {link : InviteLink}

theorem linkStatus_active {now : Instant} (h : linkStatus link now = .active) :
    link.revokedAt = none ∧ (∀ expiresAt ∈ link.expiresAt, now < expiresAt) ∧
      ∀ maxUses ∈ link.maxUses, link.useCount < maxUses := by
  unfold linkStatus at h
  split at h
  · cases h
  · rename_i hrevoked
    split at h
    · cases h
    · rename_i hexpired
      split at h
      · cases h
      · rename_i hexhausted
        simp only [Option.any_eq_true, not_exists, not_and, decide_eq_true_eq] at hexpired hexhausted
        exact ⟨not_not.mp hrevoked, fun e he => Int.not_le.mp (hexpired e he), fun m hm => Nat.not_le.mp (hexhausted m hm)⟩

theorem mem_links_redeem {link l : InviteLink} (hlink : s.links.get? link.id = some link) :
    l ∈ (redeem link userId s).links ↔
      (l ∈ s.links ∧ l.id ≠ link.id) ∨ l = { link with useCount := link.useCount + 1 } := by
  obtain ⟨hmem, -⟩ := Keyed.get?_eq_some_iff.mp hlink
  refine (Keyed.mem_modify (t := s.links) (p := fun l => l.id = link.id)
    (f := fun l => { l with useCount := link.useCount + 1 }) fun _ => rfl).trans ?_
  constructor
  · rintro ⟨r, hr, rfl⟩
    split
    · rename_i hid
      rw [Keyed.eq_of_key hr hmem hid]
      exact .inr rfl
    · rename_i hid
      exact .inl ⟨hr, hid⟩
  · rintro (⟨hl, hid⟩ | rfl)
    · exact ⟨l, hl, if_neg hid⟩
    · exact ⟨link, hmem, if_pos rfl⟩

theorem uses_joined_of_ne {linkId id : LinkId} {startedAt : Instant} (hid : id ≠ linkId) (k' : SpaceId) :
    uses id ((s.putMembership k userId m (.joined linkId userId startedAt)).history k') = uses id (s.history k') := by
  refine uses_putMembership_of_not ?_ k'
  intro (heq : linkId = id)
  exact hid heq.symm

variable {now startedAt : Instant}

/-- The store after a link admitted a user: what the redemption adds to the write of the membership. -/
theorem Inv.redeem (h : Inv start s)
    (hlink : s.links.get? link.id = some link) (hactive : linkStatus link now = .active) (hstarted : startedAt ≤ now)
    (hstatus : m.status = .active) (hadmissible : Admissible (Statuses.of s link.spaceId userId)) :
    Inv start (redeem link userId (s.putMembership link.spaceId userId m (.joined link.id userId startedAt))) := by
  obtain ⟨hmem, -⟩ := Keyed.get?_eq_some_iff.mp hlink
  obtain ⟨-, hexpires, hmax⟩ := linkStatus_active hactive
  have hlinks : ∀ l, l ∈ (Invites.redeem link userId
      (s.putMembership link.spaceId userId m (.joined link.id userId startedAt))).links ↔
        (l ∈ s.links ∧ l.id ≠ link.id) ∨ l = { link with useCount := link.useCount + 1 } :=
    fun l => mem_links_redeem (s := s.putMembership link.spaceId userId m (.joined link.id userId startedAt)) hlink
  refine ⟨fun l hl => ?_, fun l hl => ?_, fun k linkId u at_ hentry => ?_, fun k => ?_, fun k => ?_⟩
  · rcases (hlinks l).mp hl with ⟨hold, hid⟩ | rfl
    · exact (h.counted l hold).trans (uses_joined_of_ne (m := m) hid l.spaceId).symm
    · have hjoins : Entry.JoinsBy link.id (.joined link.id userId startedAt) := show link.id = link.id from rfl
      show link.useCount + 1 =
        uses link.id ((s.putMembership link.spaceId userId m (.joined link.id userId startedAt)).history link.spaceId)
      rw [history_putMembership, if_pos rfl, uses_snoc_of_joins hjoins, h.counted link hmem]
  · rcases (hlinks l).mp hl with ⟨hold, -⟩ | rfl
    · exact h.bounded l hold
    · exact fun maxUses hm => hmax maxUses hm
  · have hkept : ∀ l ∈ s.links, l.id = linkId → l.spaceId = k → (∀ e ∈ l.expiresAt, at_ < e) →
        ∃ l' ∈ (Invites.redeem link userId
          (s.putMembership link.spaceId userId m (.joined link.id userId startedAt))).links,
          l'.id = linkId ∧ l'.spaceId = k ∧ ∀ e ∈ l'.expiresAt, at_ < e := by
      intro l hl hid hspace hexpiry
      by_cases hsame : l.id = link.id
      · cases Keyed.eq_of_key hl hmem hsame
        exact ⟨_, (hlinks _).mpr (.inr rfl), hid, hspace, hexpiry⟩
      · exact ⟨l, (hlinks l).mpr (.inl ⟨hl, hsame⟩), hid, hspace, hexpiry⟩
    have hentry : .joined linkId u at_ ∈ (s.putMembership link.spaceId userId m _).history k := hentry
    rw [history_putMembership] at hentry
    split at hentry
    · rename_i hk
      rcases List.mem_append.mp hentry with hold | hnew
      · obtain ⟨l, hl, hid, hspace, hexpiry⟩ := h.joined _ linkId u at_ hold
        exact hkept l hl hid (hspace.trans hk.symm) hexpiry
      · cases List.mem_singleton.mp hnew
        exact hkept link hmem rfl hk.symm fun e he => Int.lt_of_le_of_lt hstarted (hexpires e he)
    · obtain ⟨l, hl, hid, hspace, hexpiry⟩ := h.joined k linkId u at_ hentry
      exact hkept l hl hid hspace hexpiry
  · exact standing_putMembership (e := .joined link.id userId startedAt) (m := m) rfl hstatus.symm h.standing k
  · have hjoined : ∀ linkId u at_, Entry.joined link.id userId startedAt = .joined linkId u at_ →
        Admissible (Statuses.of s link.spaceId u) := by
      intro linkId u at_ he
      cases he
      exact hadmissible
    exact @lawful_putMembership start s link.spaceId userId m _ h hjoined k

theorem Effect.redeem
    (hlink : s.links.get? link.id = some link) (hactive : linkStatus link now = .active) :
    Effect s (redeem link userId (s.putMembership link.spaceId userId m (.joined link.id userId startedAt))) where
  revoked l hl hrevoked := by
    have hid : l.id ≠ link.id := by
      intro hid
      obtain ⟨hmem, -⟩ := Keyed.get?_eq_some_iff.mp hlink
      rw [Keyed.eq_of_key hl hmem hid] at hrevoked
      exact hrevoked (linkStatus_active hactive).1
    refine ⟨l, ?_, rfl, rfl, hrevoked, uses_joined_of_ne (m := m) hid l.spaceId⟩
    exact (mem_links_redeem (s := s.putMembership link.spaceId userId m (.joined link.id userId startedAt)) hlink).mpr
      (.inl ⟨hl, hid⟩)
  invited k' := by
    show ∃ entries, (s.putMembership link.spaceId userId m (.joined link.id userId startedAt)).history k' = _ ∧ _
    rw [history_putMembership]
    split
    · rename_i hk
      subst hk
      refine ⟨_, rfl, fun actorId targetId hmem => ?_⟩
      cases List.mem_singleton.mp hmem
    · exact ⟨[], (List.append_nil _).symm, fun _ _ hmem => by cases hmem⟩

/-- A link and a membership are written under the locks of the link and of its space. -/
theorem row_redeem {r : Row} (hr : r ≠ .link link.id) :
    (rely start).row r (redeem link userId s) = (rely start).row r s := by
  cases r with
  | link id =>
    have hid : link.id ≠ id := fun hid => hr (hid ▸ rfl)
    have hget : (redeem link userId s).links.get? id = (s.links.get? id).map fun l =>
        if l.id = link.id then { l with useCount := link.useCount + 1 } else l := Keyed.get?_modify (fun _ => by rfl) id
    show (redeem link userId s).links.get? id = s.links.get? id
    rw [hget]
    cases hl : s.links.get? id with
    | none => rfl
    | some l =>
      obtain ⟨-, hkey⟩ := Keyed.get?_eq_some_iff.mp hl
      rw [Option.map_some, if_neg (hkey ▸ hid.symm)]
  | space k => rfl

theorem commits_redeem (h : Inv start s)
    (hspace : held (.space link.spaceId)) (hheld : held (.link link.id)) (hlink : s.links.get? link.id = some link)
    (hactive : linkStatus link now = .active) (hstarted : startedAt ≤ now) (hstatus : m.status = .active)
    (hadmissible : Admissible (Statuses.of s link.spaceId userId)) :
    (rely start).Commits held s
      (redeem link userId (s.putMembership link.spaceId userId m (.joined link.id userId startedAt))) where
  inv := h.redeem hlink hactive hstarted hstatus hadmissible
  since := Int.le_refl _
  frame r hr := by
    have hlink' : r ≠ .link link.id := fun hk => hr (by rwa [hk])
    have hspace' : r ≠ .space link.spaceId := fun hk => hr (by rwa [hk])
    rw [row_redeem hlink', row_putMembership hspace']
  commits := .redeem hlink hactive

/-! ### Other writes of links -/

theorem Effect.refl : Effect s s where
  revoked l hl hrevoked := ⟨l, hl, rfl, rfl, hrevoked, rfl⟩
  invited _ := ⟨[], (List.append_nil _).symm, fun _ _ hmem => by cases hmem⟩

theorem commits_self (h : Inv start s) : (rely start).Commits held s s where
  inv := h
  since := Int.le_refl _
  frame _ _ := rfl
  commits := .refl

theorem mem_links_revoke {now : Instant} {l : InviteLink} :
    l ∈ (s.putLink id fun l => { l with revokedAt := some now }).links ↔
      ∃ r ∈ s.links, (if r.id = id then { r with revokedAt := some now } else r) = l :=
  Keyed.mem_modify (t := s.links) (p := fun l => l.id = id) (f := fun l => { l with revokedAt := some now }) fun _ => rfl

theorem commits_revoke (h : Inv start s) {now : Instant} (hheld : held (.link id)) :
    (rely start).Commits held s (s.putLink id fun l => { l with revokedAt := some now }) where
  inv := by
    refine ⟨fun l hl => ?_, fun l hl => ?_, fun k linkId u at_ hentry => ?_, h.standing, h.lawful⟩
    · obtain ⟨r, hr, rfl⟩ := mem_links_revoke.mp hl
      split <;> exact h.counted r hr
    · obtain ⟨r, hr, rfl⟩ := mem_links_revoke.mp hl
      split <;> exact h.bounded r hr
    · obtain ⟨r, hr, hrest⟩ := h.joined k linkId u at_ hentry
      refine ⟨_, mem_links_revoke.mpr ⟨r, hr, rfl⟩, ?_⟩
      split <;> exact hrest
  since := Int.le_refl _
  frame r hr := by
    cases r with
    | link other =>
      have hget : (s.putLink id fun l => { l with revokedAt := some now }).links.get? other =
          (s.links.get? other).map fun l => if l.id = id then { l with revokedAt := some now } else l :=
        Keyed.get?_modify (fun _ => by rfl) other
      show (s.putLink id fun l => { l with revokedAt := some now }).links.get? other = s.links.get? other
      rw [hget]
      cases hl : s.links.get? other with
      | none => rfl
      | some l =>
        obtain ⟨-, hkey⟩ := Keyed.get?_eq_some_iff.mp hl
        have hne : l.id ≠ id := fun heq => hr (by rwa [← hkey, heq])
        rw [Option.map_some, if_neg hne]
    | space k => rfl
  commits := by
    refine ⟨fun l hl hrevoked => ?_, fun k => ⟨[], (List.append_nil _).symm, fun _ _ hmem => by cases hmem⟩⟩
    refine ⟨_, mem_links_revoke.mpr ⟨l, hl, rfl⟩, ?_⟩
    split
    · exact ⟨rfl, rfl, Option.some_ne_none _, rfl⟩
    · exact ⟨rfl, rfl, hrevoked, rfl⟩

theorem insertLink_eq_some (ht : s.insertLink link = some t) :
    ∃ links, s.links.Adds link links ∧ t = { s with links } := by
  obtain ⟨-, ht⟩ := Option.ite_none_right_eq_some.mp ht
  obtain ⟨links, hlinks, rfl⟩ := Option.map_eq_some_iff.mp ht
  exact ⟨links, Keyed.insert?_eq_some hlinks, rfl⟩

theorem commits_insertLink (h : Inv start s) (hnew : link.useCount = 0) (hheld : held (.link link.id))
    (ht : s.insertLink link = some t) : (rely start).Commits held s t := by
  obtain ⟨links, hadds, rfl⟩ := insertLink_eq_some ht
  have hnone : uses link.id (s.history link.spaceId) = 0 := by
    refine uses_eq_zero fun e he hjoins => ?_
    cases e with
    | joined linkId u at_ =>
      obtain ⟨l, hl, hid, -⟩ := h.joined _ linkId u at_ he
      exact hadds.new l hl (hid.trans hjoins)
    | invited actorId u => exact hjoins
    | accepted u => exact hjoins
    | removed actorId u => exact hjoins
  constructor
  · refine ⟨fun l hl => ?_, fun l hl => ?_, fun k linkId u at_ hentry => ?_, h.standing, h.lawful⟩
    · rcases hadds.mem_iff.mp hl with hold | rfl
      · exact h.counted l hold
      · exact hnew.trans hnone.symm
    · rcases hadds.mem_iff.mp hl with hold | rfl
      · exact h.bounded l hold
      · intro maxUses _
        rw [hnew]
        exact Nat.zero_le maxUses
    · obtain ⟨l, hl, hrest⟩ := h.joined k linkId u at_ hentry
      exact ⟨l, hadds.mem_iff.mpr (.inl hl), hrest⟩
  · exact Int.le_refl _
  · intro r hr
    cases r with
    | link id =>
      have hid : id ≠ link.id := fun hid => hr (by rwa [hid])
      exact hadds.get?.trans (if_neg hid)
    | space k => rfl
  · refine ⟨fun l hl hrevoked => ?_, fun k => ⟨[], (List.append_nil _).symm, fun _ _ hmem => by cases hmem⟩⟩
    exact ⟨l, hadds.mem_iff.mpr (.inl hl), rfl, rfl, hrevoked, rfl⟩

theorem sound_finish : (Program.finish : Call).Sound (rely start) held s := by
  intro t _ hinv _ u hu
  cases hu
  exact commits_self hinv

theorem sound_clock {next : Instant → Call} (h : ∀ t, (rely start).Later held s t → (next t.now).Sound (rely start) held t) :
    (clock next).Sound (rely start) held s := fun t ht _ => h t ht

theorem sound_write {f : Store → Option Store}
    (h : ∀ t, (rely start).Later held s t → Inv start t → ∀ u, f t = some u → (rely start).Commits held t u) :
    (write f).Sound (rely start) held s := fun t ht hinv _ => h t ht hinv

/-! ### The calls -/

variable (start s)

theorem sound_createLink (spaceId : SpaceId) (actorId : UserId) (expiresInDays maxUses : Option ℕ) (id : LinkId)
    (code : String) :
    (createLink spaceId actorId expiresInDays maxUses id code).Sound (rely start) (fun _ => False) s := by
  refine sound_organizationSpace fun _ _ => sound_requireManager (.require fun _ => .require fun _ => ?_)
  refine sound_clock fun _ _ => .lock (fun _ _ _ hnone => by cases hnone) fun t r _ _ hr => ?_
  cases hr
  exact sound_write fun t _ hinv u hu => commits_insertLink hinv rfl (.inr rfl) hu

theorem sound_revokeLink (spaceId : SpaceId) (actorId : UserId) (linkId : LinkId) :
    (revokeLink spaceId actorId linkId).Sound (rely start) (fun _ => False) s := by
  intro t _ _
  dsimp only
  split
  · trivial
  · refine .require fun _ => sound_requireManager ?_
    split
    · refine sound_clock fun _ _ => .lock (fun t _ _ hnone => ?_) fun t r _ _ hr => ?_
      · rw [Option.map_eq_none_iff] at hnone
        simp only [hnone, Program.Sound]
      · obtain ⟨l, hl, rfl⟩ := Option.map_eq_some_iff.mp hr
        simp only [hl]
        refine sound_write fun t _ hinv u hu => ?_
        cases hu
        exact commits_revoke hinv (.inr rfl)
    · exact sound_finish

def Revoked (id : LinkId) (s : Store) : Prop := ∃ l ∈ s.links, l.id = id ∧ l.revokedAt ≠ none

theorem Effect.revoked_mono (h : Effect s t) (hrevoked : Revoked id s) : Revoked id t := by
  obtain ⟨l, hl, rfl, hrevoked⟩ := hrevoked
  obtain ⟨l', hl', hid, -, hrevoked, -⟩ := h.revoked l hl hrevoked
  exact ⟨l', hl', hid, hrevoked⟩

/-- A link that is revoked stays so, and a commit leaves it revoked. -/
def revocation (id : LinkId) : Rely Store Row :=
  { rely start with
    since := fun s t => Revoked id s → Revoked id t
    commits := fun _ t => Revoked id t
    refl := fun _ h => h
    trans := fun _ _ _ h h' => h' ∘ h }

/-- A call of `revokeLink` that commits leaves its link revoked, also where an earlier call had revoked it. -/
theorem revoked_of_revokeLink (spaceId : SpaceId) (actorId : UserId) (linkId : LinkId) :
    (revokeLink spaceId actorId linkId).Sound (revocation start linkId) (fun _ => False) s := by
  intro t _ _
  dsimp only
  split
  · trivial
  · rename_i link hlink
    obtain ⟨hmem, hid⟩ := Keyed.get?_eq_some_iff.mp hlink
    refine .require fun _ => sound_requireManager ?_
    split
    · refine .select fun w _ _ => .lock (fun _ _ _ hnone => ?_) fun _ _ _ _ hr => ?_
      · rw [Option.map_eq_none_iff] at hnone
        simp only [hnone, Program.Sound]
      · obtain ⟨l, hl, rfl⟩ := Option.map_eq_some_iff.mp hr
        simp only [hl]
        refine .commit fun u hlater hinv _ v hv => ?_
        cases hv
        obtain ⟨hmem, hid⟩ := Keyed.get?_eq_some_iff.mp ((hlater.rows (.link linkId) (.inr rfl)).trans hl)
        have hcommits : (rely start).Commits (fun r => False ∨ r = .link linkId) u (u.putLink linkId (revoked w.now)) :=
          commits_revoke hinv (.inr rfl)
        have hrevoked : Revoked linkId (u.putLink linkId (revoked w.now)) :=
          ⟨_, mem_links_revoke.mpr ⟨l, hmem, if_pos hid⟩, hid, Option.some_ne_none _⟩
        exact ⟨hcommits.inv, fun _ => hrevoked, hcommits.frame, hrevoked⟩
    · rename_i hrevoked
      refine .commit fun u hlater hinv _ v hv => ?_
      cases hv
      exact ⟨hinv, id, fun _ _ => rfl, hlater.since ⟨link, hmem, hid, hrevoked⟩⟩

theorem sound_inviteUser (spaceId : SpaceId) (actorId targetId : UserId) (id : MembershipId) :
    (inviteUser spaceId actorId targetId id).Sound (rely start) (fun _ => False) s := by
  refine sound_organizationSpace fun _ _ => sound_requireManager_of_stable (fun _ _ ht => Later.memberships ht (.inr rfl))
    fun t _ hmanager => ?_
  refine sound_activeUser (sound_membershipOf fun u hu => ?_)
  have hmanager : ∀ v, (rely start).Later (fun x => False ∨ x = .space spaceId) u v → ∀ a b,
      Entry.invited actorId targetId = .invited a b → Manager v spaceId a := by
    intro v hv a b he
    cases he
    obtain ⟨m, hm, hrest⟩ := hmanager
    exact ⟨m, (congrFun (Later.memberships (hu.trans hv) (.inr rfl)) actorId).trans hm, hrest⟩
  split
  · refine sound_write fun v hv hinv w hw => ?_
    obtain ⟨-, hw⟩ := Option.ite_none_right_eq_some.mp hw
    cases hw
    exact commits_putMembership hinv (.inr rfl) rfl rfl (fun _ h => h) (hmanager v hv)
  · split
    · exact sound_finish
    · refine sound_write fun v hv hinv w hw => ?_
      cases hw
      exact commits_putMembership hinv (.inr rfl) rfl rfl (fun _ h => h) (hmanager v hv)

theorem sound_acceptInvitation (spaceId : SpaceId) (userId : UserId) :
    (acceptInvitation spaceId userId).Sound (rely start) (fun _ => False) s := by
  refine sound_organizationSpace fun _ _ => sound_activeUser (sound_membershipOf fun u hu => ?_)
  split
  · trivial
  · refine .require fun _ => ?_
    split
    · exact sound_finish
    · refine sound_write fun v hv hinv w hw => ?_
      cases hw
      exact commits_putMembership hinv (.inr rfl) rfl rfl (fun _ h => h) fun _ _ he => by cases he

theorem sound_removeUser (spaceId : SpaceId) (actorId targetId : UserId) :
    (removeUser spaceId actorId targetId).Sound (rely start) (fun _ => False) s := by
  refine sound_organizationSpace fun t _ => ?_
  refine sound_requireRemover (sound_membershipOf fun u hu => ?_)
  split
  · trivial
  · rename_i found _
    have hremove : ∀ v, (if found.status = .removed then .finish
        else write fun s => some (s.putMembership spaceId targetId
          { id := found.id, status := .removed, version := found.version + 1 } (.removed actorId targetId)) :
        Call).Sound (rely start) (fun x => False ∨ x = .space spaceId) v := by
      intro v
      split
      · exact sound_finish
      · refine sound_write fun v hv hinv w hw => ?_
        cases hw
        exact commits_putMembership hinv (.inr rfl) rfl rfl (fun _ h => h) fun _ _ he => by cases he
    refine sound_rolesFor fun v _ => .require fun _ => ?_
    split
    · exact sound_requireManager (hremove v)
    · exact hremove v

/-- An accepting call finds its link and its membership at the commit as it has read them. -/
theorem sound_accept (code : String) (userId : UserId) (id : MembershipId) {startedAt : Instant}
    (hstarted : startedAt ≤ s.now) : (accept code userId id startedAt).Sound (rely start) (fun _ => False) s := by
  refine .lock (fun t _ _ hnone => ?_) fun t r ht _ hsome => ?_
  · rw [Option.map_eq_none_iff] at hnone
    simp only [hnone, Program.Sound]
  · obtain ⟨link, hlink, rfl⟩ := Option.map_eq_some_iff.mp hsome
    simp only [hlink]
    have hget : t.links.get? link.id = some link := Keyed.get?_key (List.mem_of_find?_eq_some hlink)
    refine sound_organizationSpace fun u hu => sound_activeUser (sound_membershipOf fun v hv => ?_)
    have hrow : ∀ {w}, (rely start).Later (fun x => (False ∨ x = .link link.id) ∨ x = .space link.spaceId) v w →
        w.links.get? link.id = some link ∧ w.memberships link.spaceId = v.memberships link.spaceId := by
      intro w hw
      have hfirst := Later.link hu (.inr rfl)
      have hthen := Later.link (hv.trans hw) (.inl (.inr rfl))
      exact ⟨hthen.trans (hfirst.trans hget), Later.memberships hw (.inr rfl)⟩
    have hnow : s.now ≤ v.now := Int.le_trans ht.since (Int.le_trans hu.since hv.since)
    split
    · rename_i hnone
      have hnone : v.memberships link.spaceId userId = none := hnone
      refine sound_clock fun w hw => .require fun hactive => sound_write fun x hx hinv y hy => ?_
      obtain ⟨z, hz, rfl⟩ := Option.map_eq_some_iff.mp hy
      obtain ⟨-, hz⟩ := Option.ite_none_right_eq_some.mp hz
      cases hz
      obtain ⟨hlink, hmemberships⟩ := hrow (hw.trans hx)
      refine commits_redeem hinv (.inr rfl) (.inl (.inr rfl)) hlink hactive
        (Int.le_trans hstarted (Int.le_trans hnow hw.since)) rfl (.inl ?_)
      simp only [Statuses.of, hmemberships, hnone, Option.map_none]
    · rename_i found hfound
      split
      · exact sound_finish
      · rename_i hinactive
        have hfound : v.memberships link.spaceId userId = some found := hfound
        refine sound_clock fun w hw => .require fun hactive => .require fun hkept => sound_write fun x hx hinv y hy => ?_
        cases hy
        obtain ⟨hlink, hmemberships⟩ := hrow (hw.trans hx)
        refine commits_redeem hinv (.inr rfl) (.inl (.inr rfl)) hlink hactive
          (Int.le_trans hstarted (Int.le_trans hnow hw.since)) rfl (.inr ?_)
        have hinvited : found.status = .invited := by
          cases hstatus : found.status with
          | invited => rfl
          | active => exact absurd hstatus hinactive
          | suspended => exact absurd hstatus hkept.2
          | removed => exact absurd hstatus hkept.1
        simp only [Statuses.of, hmemberships, hfound, Option.map_some, hinvited]

end Invariant

/-! ### Runs -/

section Runs

variable {start : Store} {d d' : Calls Store Row}

theorem sound_program (request : Request) (s : Store) :
    (request.program s).Sound (rely start) (fun _ => False) s := by
  cases request with
  | createLink spaceId actorId expiresInDays maxUses id code =>
    exact sound_createLink start s spaceId actorId expiresInDays maxUses id code
  | revokeLink spaceId actorId linkId => exact sound_revokeLink start s spaceId actorId linkId
  | accept code userId id => exact sound_accept start s code userId id (Int.le_refl _)
  | inviteUser spaceId actorId targetId id => exact sound_inviteUser start s spaceId actorId targetId id
  | acceptInvitation spaceId userId => exact sound_acceptInvitation start s spaceId userId
  | removeUser spaceId actorId targetId => exact sound_removeUser start s spaceId actorId targetId

theorem outside_kept (event : Event) {s : Store} (h : Inv start s) :
    Inv start (event.apply s) ∧ Effect s (event.apply s) ∧ ∀ held, (rely start).Later held s (event.apply s) := by
  cases event with
  | tick microseconds =>
    refine ⟨⟨h.counted, h.bounded, h.joined, h.standing, h.lawful⟩, ⟨(Effect.refl (s := s)).revoked, Effect.refl.invited⟩,
      fun held => ⟨fun r _ => ?_, ?_⟩⟩
    · cases r <;> rfl
    · exact Int.le_add_of_nonneg_right (Int.natCast_nonneg microseconds)
  | user userId row =>
    refine ⟨⟨h.counted, h.bounded, h.joined, h.standing, h.lawful⟩, ⟨(Effect.refl (s := s)).revoked, Effect.refl.invited⟩,
      fun held => ⟨fun r _ => ?_, Int.le_refl _⟩⟩
    cases r <;> rfl

theorem kept_step {a : CallAction Request Event} (h : Calls.Kept (rely start) d) (hstep : invites.step d a = some d') :
    Calls.Kept (rely start) d' ∧ Effect d.committed d'.committed := by
  obtain ⟨hkept, hmoved⟩ := Calls.Kept.step (fun request s _ => sound_program request s)
    (fun event s hinv => ⟨(outside_kept event hinv).1, (outside_kept event hinv).2.2⟩) h (fun hno => hno.elim) hstep
  refine ⟨hkept, ?_⟩
  generalize d'.committed = t at hmoved
  cases hmoved with
  | same => exact .refl
  | commits heffect => exact heffect
  | outside event => exact (outside_kept event h.inv).2.1

theorem kept_run {actions : List (CallAction Request Event)} (h : Calls.Kept (rely start) d)
    (hrun : invites.run d actions = some d') : Calls.Kept (rely start) d' :=
  invites.run_invariant (fun _ _ _ hkept hstep => (kept_step hkept hstep).1) h hrun

theorem uses_of_revoked {actions : List (CallAction Request Event)} (h : Calls.Kept (rely start) d)
    (hrun : invites.run d actions = some d') {l : InviteLink} (hl : l ∈ d.committed.links) (hrevoked : l.revokedAt ≠ none) :
    uses l.id (d'.committed.history l.spaceId) = uses l.id (d.committed.history l.spaceId) := by
  induction actions generalizing d l with
  | nil =>
    cases hrun
    rfl
  | cons a rest ih =>
    obtain ⟨next, hstep, hrest⟩ := invites.run_cons_eq_some.mp hrun
    obtain ⟨hkept, heffect⟩ := kept_step h hstep
    obtain ⟨l', hl', hid, hspace, hstill, huses⟩ := heffect.revoked l hl hrevoked
    have hlater := ih hkept hrest hl' hstill
    rw [hid, hspace] at hlater
    exact hlater.trans huses

/-- In every run from tables without links: a link is used as often as it activated a membership, at most as often as it may be, never after it was revoked and never by a call that began after it expired; between any other entry of a user's membership and a join by a link there is an invitation, so that a removed user comes back invited only and a user who joins twice is counted once; and it is a manager who invites. -/
theorem admits_only_whom_it_may (hlinks : ∀ l, l ∉ start.links) (hhistory : ∀ k, start.history k = [])
    {actions : List (CallAction Request Event)} (hrun : invites.run { committed := start } actions = some d) :
    (∀ l ∈ d.committed.links, l.useCount = uses l.id (d.committed.history l.spaceId) ∧
      ∀ maxUses ∈ l.maxUses, l.useCount ≤ maxUses) ∧
    (∀ l ∈ d.committed.links, l.revokedAt ≠ none → ∀ later d', invites.run d later = some d' →
      uses l.id (d'.committed.history l.spaceId) = uses l.id (d.committed.history l.spaceId)) ∧
    (∀ k linkId userId startedAt, .joined linkId userId startedAt ∈ d.committed.history k →
      ∃ l ∈ d.committed.links, l.id = linkId ∧ l.spaceId = k ∧ ∀ expiresAt ∈ l.expiresAt, startedAt < expiresAt) ∧
    (∀ k front e mid linkId userId startedAt back,
      d.committed.history k = front ++ e :: mid ++ .joined linkId userId startedAt :: back → e.userId = userId →
      e.status ≠ .invited → ∃ actorId, .invited actorId userId ∈ mid) ∧
    (∀ k front linkId userId startedAt back,
      d.committed.history k = front ++ .joined linkId userId startedAt :: back →
      ¬ Admissible (Statuses.of start k userId) → ∃ actorId, .invited actorId userId ∈ front) ∧
    ∀ a d', invites.step d a = some d' → ∀ k, ∃ entries, d'.committed.history k = d.committed.history k ++ entries ∧
      ∀ actorId targetId, .invited actorId targetId ∈ entries → Manager d.committed k actorId := by
  have hstart : Inv start start := by
    refine ⟨fun l hl => absurd hl (hlinks l), fun l hl => absurd hl (hlinks l), ?_, ?_, ?_⟩
    · intro k linkId userId startedAt hmem
      rw [hhistory] at hmem
      cases hmem
    · intro k
      rw [hhistory]
      rfl
    · intro k front linkId userId startedAt back heq
      rw [hhistory] at heq
      exact absurd heq.symm (by simp)
  have hkept := kept_run (Calls.Kept.start (R := rely start) hstart) hrun
  have hinv : Inv start d.committed := hkept.inv
  refine ⟨fun l hl => ⟨hinv.counted l hl, hinv.bounded l hl⟩, fun l hl hrevoked later d' hlater =>
    uses_of_revoked hkept hlater hl hrevoked, hinv.joined, ?_, ?_, fun a d' hstep => (kept_step hkept hstep).2.invited⟩
  · intro k front e mid linkId userId startedAt back heq huser hstatus
    have hadmissible := hinv.lawful k (front ++ e :: mid) linkId userId startedAt back heq
    rw [List.append_cons, standing_append, standing_snoc] at hadmissible
    refine exists_invited ?_ hadmissible
    rw [← huser, Function.update_self]
    rintro (hnone | hinvited)
    · cases hnone
    · exact hstatus (Option.some.inj hinvited)
  · intro k front linkId userId startedAt back heq hnot
    exact exists_invited hnot (hinv.lawful k front linkId userId startedAt back heq)

def organization : Store where
  users u := if u = 1 ∨ u = 2 then some { id := u, humanId := "hu_" ++ toString u } else none
  spaces k := if k = 1 then some { id := 1, kind := .organization } else none
  memberships k u := if k = 1 ∧ u = 1 then some { id := 1, status := .active, roles := [.owner] } else none

/-- User 2 accepts a link twice at once; the second call waits for the link and finds the user active. -/
def acceptedTwice : List (CallAction Request Event) :=
  .call 0 (.createLink 1 1 (some 7) (some 1) 5 "oi_a") :: List.replicate 8 (.next 0) ++
    [.call 1 (.accept "oi_a" 2 9), .call 2 (.accept "oi_a" 2 10)] ++ List.replicate 6 (.next 1) ++
    List.replicate 5 (.next 2)

theorem admits_only_whom_it_may_twice : ∃ d l, invites.run { committed := organization } acceptedTwice = some d ∧
    d.running 1 = none ∧ d.running 2 = none ∧ d.committed.links.get? 5 = some l ∧ l.useCount = 1 ∧
    uses 5 (d.committed.history 1) = 1 := by
  have hrun : (invites.run { committed := organization } acceptedTwice).any (fun d =>
      (d.running 1).isNone ∧ (d.running 2).isNone ∧ (d.committed.links.get? 5).any (fun l =>
        l.useCount = 1 ∧ l.id = 5 ∧ l.spaceId = 1) = true) = true := by decide +kernel
  obtain ⟨d, hrun, hd⟩ := Option.any_eq_true _ _ |>.mp hrun
  obtain ⟨hfirst, hsecond, hlink⟩ := of_decide_eq_true hd
  obtain ⟨l, hl, hlink⟩ := Option.any_eq_true _ _ |>.mp hlink
  obtain ⟨hcount, hid, hspace⟩ := of_decide_eq_true hlink
  have hnone : ∀ l, l ∉ organization.links := fun l => Keyed.not_mem_empty
  obtain ⟨hcounted, -⟩ := admits_only_whom_it_may hnone (fun _ => by rfl) hrun
  have huses := (hcounted l (Keyed.get?_eq_some_iff.mp hl).1).1
  rw [hid, hspace, hcount] at huses
  exact ⟨d, l, hrun, Option.isNone_iff_eq_none.mp hfirst, Option.isNone_iff_eq_none.mp hsecond, hl, hcount, huses.symm⟩

end Runs

end BotCord.Invites
