import BotCord.Wallet.TransferInvariant

/-!
# A key moves money once

In every interleaving at most one transfer is committed under a key, and every balance is what the committed transfers make it. Once the key is committed, its other calls answer with that transfer, as long as none of them comes to its balance check with too small a balance left or to the insert of a wallet that is there by then: these two checks come before the unique index is asked, and they raise.
-/

namespace BotCord.Wallet.Transfers

open Transaction

section Key

variable (request : ℕ → TransferRequest) (draw : ℕ → Draw) (start : Store) (owner : OwnerId) (key : String)

/-- A session calls with the key. -/
def Calls (i : ℕ) : Prop := (request i).fromOwnerId = owner ∧ (request i).idempotencyKey = some key
deriving Decidable

def Done (d : State) : Prop := underKey d.committed owner key ≠ []
deriving Decidable

/-- A call that is at its balance check has the balance, and one that is at the insert of a wallet still finds none. -/
def Phase.Covered (r : TransferRequest) (s : Store) : Phase → Prop
  | .inserting w w' => r.amountMinor ≤ (senderOf r w w').availableBalanceMinor
  | .openingFirst => s.findWallet (firstKey r) = none
  | .openingSecond _ => s.findWallet (secondKey r) = none
  | .called | .validating | .lockingFirst | .lockingSecond _ | .reloading | .inserted _ _ | .returning _ | .returned _
  | .raised _ | .crashed => True

instance (r : TransferRequest) (s : Store) : DecidablePred (Phase.Covered r s) := fun _ => by
  unfold Phase.Covered
  split <;> infer_instance

/-- Once the key is committed, its other calls are covered. -/
def Covered (d : State) : Action → Prop
  | .advance i => Calls request owner key i → Done owner key d → (d.phase i).Covered (request i) (d.view i)
  | .crash _ => True

instance (d : State) : DecidablePred (Covered request owner key d) := fun _ => by
  unfold Covered
  split <;> infer_instance

/-- The request could be carried out, as far as the request goes. -/
def Good (i : ℕ) : Prop := Valid start (request i) ∧ FitsBigInteger (request i).amountMinor

/-- In which phases a call of the key knows its request to be good: it is past the lookup while the key is committed, or about to commit the key. -/
def GoodIn (d : State) (i : ℕ) : Phase → Prop
  | .validating | .lockingFirst | .openingFirst | .lockingSecond _ | .openingSecond _ | .inserting _ _ =>
    Done owner key d → Good request start i
  | .returning _ => Done owner key d ∨ Good request start i
  | .called | .reloading | .inserted _ _ | .returned _ | .raised _ | .crashed => True

def KeySound (d : State) : Prop := ∀ i, Calls request owner key i → GoodIn request start owner key d i (d.phase i)

/-- Where a call of the key may go: to a phase it is good in, and not to an error once the key is committed. -/
def Next (d : State) (i : ℕ) (p : Phase) : Prop :=
  Calls request owner key i → GoodIn request start owner key d i p ∧ (Done owner key d → ∀ e, p ≠ .raised e)

variable {request draw start owner key} {d d' : State} {i : ℕ}

theorem scalarOneOrNone_answer {ρ : Type} {rows : List ρ} (h : rows.length ≤ 1) (σ : Session Store) :
    exec (scalarOneOrNone rows) σ = (.ok rows.head?, σ) := by
  match rows with
  | [] => rfl
  | [_] => rfl
  | _ :: _ :: _ => simp at h

theorem existingTransaction_answer {s : Store} (h : (underKey s owner key).length ≤ 1) (hkey : key ≠ "") :
    answer (existingTransaction (some key) .transfer owner) s = .ok (underKey s owner key).head? := by
  have hgiven : Given (some key) := ⟨by simp, by simpa using hkey⟩
  rw [answer_ok]
  unfold existingTransaction
  rw [if_pos hgiven]
  exact ⟨_, scalarOneOrNone_answer h _⟩

theorem reloadExisting_answer {s : Store} (h : (underKey s owner key).length ≤ 1) {tx : WalletTransaction}
    (htx : (underKey s owner key).head? = some tx) :
    answer (reloadExisting (some key) .transfer owner) s = .ok tx := by
  rw [answer_ok]
  refine ⟨⟨s, s⟩, exec_bind_ok.mpr ⟨some tx, ⟨s, s⟩, ?_, rfl⟩⟩
  rw [← htx]
  exact scalarOneOrNone_answer h _

theorem head?_of_done {s : Store} (h : underKey s owner key ≠ []) : ∃ tx, (underKey s owner key).head? = some tx :=
  ⟨_, List.head?_eq_some_head h⟩

theorem Next.of_not_raised {p : Phase} (hgood : Calls request owner key i → GoodIn request start owner key d i p)
    (hp : ∀ e, p ≠ .raised e) : Next request start owner key d i p :=
  fun hcalls => ⟨hgood hcalls, fun _ => hp⟩

theorem Next.raised {e : Error} (h : Calls request owner key i → ¬ Done owner key d) :
    Next request start owner key d i (.raised e) :=
  fun hcalls => ⟨trivial, fun hdone => absurd hdone (h hcalls)⟩

theorem Next.lookup (h : Inv request draw start d) (hkey : key ≠ "") (hid : d.pending i = id) :
    Next request start owner key d i ((lookup request d i).phase i) := by
  intro hcalls
  have hview : d.view i = d.committed := Sessions.view_of_pending_eq_id hid
  have hanswer := existingTransaction_answer (hview ▸ h.single i owner key) hkey
  unfold Transfers.lookup
  rw [hcalls.1, hcalls.2, hview, hanswer]
  by_cases hdone : Done owner key d
  · obtain ⟨tx, htx⟩ := head?_of_done hdone
    rw [htx]
    simp [GoodIn, hdone]
  · rw [show underKey d.committed owner key = [] from not_not.mp hdone]
    simp [GoodIn, hdone]

theorem Next.validate (h : Inv request draw start d) (hkeySound : KeySound request start owner key d)
    (hp : d.phase i = .validating) : Next request start owner key d i ((validate request d i).phase i) := by
  intro hcalls
  have hgood : Done owner key d → Good request start i := by
    have := hkeySound i hcalls
    rwa [hp] at this
  unfold Transfers.validate
  split
  · rw [Sessions.goto_phase_self]
    exact ⟨hgood, fun _ => nofun⟩
  · rename_i e hanswer
    rw [raise, Sessions.goto_phase_self]
    refine ⟨trivial, fun hdone => ?_⟩
    obtain ⟨hagents, hhumans⟩ := h.view_owners i
    have hvalid : Valid (d.view i) (request i) := (hgood hdone).1.congr hagents hhumans
    rw [show answer (validateTransfer (request i)) (d.view i) = .ok () from hvalid] at hanswer
    cases hanswer

theorem Next.reload (h : Inv request draw start d) (hid : d.pending i = id) :
    Next request start owner key d i ((reload request d i).phase i) := by
  intro hcalls
  have hview : d.view i = d.committed := Sessions.view_of_pending_eq_id hid
  unfold Transfers.reload
  split
  · rename_i tx hanswer
    rw [hcalls.1, hcalls.2, hview] at hanswer
    rw [Sessions.goto_phase_self]
    exact ⟨.inl (List.ne_nil_of_mem (reloadExisting_mem hanswer)), fun _ => nofun⟩
  · rename_i e hanswer
    rw [raise, Sessions.goto_phase_self]
    refine ⟨trivial, fun hdone => ?_⟩
    obtain ⟨tx, htx⟩ := head?_of_done hdone
    rw [hcalls.1, hcalls.2, hview, reloadExisting_answer (hview ▸ h.single i owner key) htx] at hanswer
    cases hanswer

theorem Next.insert (hkeySound : KeySound request start owner key d) {w w' : WalletAccount}
    (hp : d.phase i = .inserting w w') (hcovered : Covered request owner key d (.advance i))
    (hstep : insert request draw d i w w' = some d') : Next request start owner key d i (d'.phase i) := by
  intro hcalls
  have hgood : Done owner key d → Good request start i := by
    have := hkeySound i hcalls
    rwa [hp] at this
  have hfunds : Done owner key d → (request i).amountMinor ≤ (senderOf (request i) w w').availableBalanceMinor := by
    have := hcovered hcalls
    rwa [hp] at this
  unfold Transfers.insert at hstep
  simp only at hstep
  split at hstep
  · rename_i hshort
    obtain rfl := Option.some.inj hstep
    rw [raise, Sessions.goto_phase_self]
    exact ⟨trivial, fun hdone => absurd (hfunds hdone) (not_le.mpr hshort)⟩
  · split at hstep
    · rename_i hfits
      obtain rfl := Option.some.inj hstep
      rw [raise, Sessions.goto_phase_self]
      exact ⟨trivial, fun hdone => absurd (hgood hdone).2 hfits⟩
    · obtain ⟨-, hstep⟩ := Option.ite_none_right_eq_some.mp hstep
      split at hstep
      · obtain rfl := Option.some.inj hstep
        rw [Sessions.goto_phase_self]
        exact ⟨trivial, fun _ => nofun⟩
      · obtain rfl := Option.some.inj hstep
        rw [Sessions.goto_phase_self]
        exact ⟨trivial, fun _ => nofun⟩

theorem Next.settle (h : Inv request draw start d) {w w' : WalletAccount} (hp : d.phase i = .inserted w w') :
    Next request start owner key d i ((settle request draw d i w w').phase i) := by
  intro hcalls
  obtain ⟨-, hgood, -, hinserted⟩ : PhaseSound request draw start d i (.inserted w w') := hp ▸ h.phase i
  unfold Transfers.settle
  simp only
  split
  · rw [Sessions.goto_phase_self]
    exact ⟨.inr hgood, fun _ => nofun⟩
  · rw [raise, Sessions.goto_phase_self]
    obtain ⟨-, hnone, -⟩ := hinserted key hcalls.2
    exact ⟨trivial, fun hdone => absurd (hcalls.1 ▸ hnone) hdone⟩

theorem advance_next (h : Inv request draw start d) (hkeySound : KeySound request start owner key d) (hkey : key ≠ "")
    (hcovered : Covered request owner key d (.advance i)) (hstep : advance request draw d i = some d') :
    Next request start owner key d i (d'.phase i) := by
  have hphase := h.phase i
  have hgood : Calls request owner key i → GoodIn request start owner key d i (d.phase i) := hkeySound i
  unfold advance at hstep
  cases hp : d.phase i with
  | called =>
    simp only [hp] at hstep hphase
    exact Option.some.inj hstep ▸ .lookup h hkey hphase
  | validating =>
    simp only [hp] at hstep
    exact Option.some.inj hstep ▸ .validate h hkeySound hp
  | lockingFirst =>
    simp only [hp] at hstep hgood
    rcases selectWallet_cases hstep with ⟨-, rfl⟩ | ⟨w, -, -, rfl⟩
    · rw [Sessions.goto_phase_self]
      exact .of_not_raised hgood nofun
    · rw [Sessions.goto_phase_self]
      exact .of_not_raised hgood nofun
  | openingFirst =>
    simp only [hp] at hstep hgood
    obtain ⟨-, ⟨-, rfl⟩ | ⟨hfound, rfl⟩⟩ := insertWallet_cases hstep
    · rw [Sessions.goto_phase_self]
      exact .of_not_raised hgood nofun
    · rw [Sessions.goto_phase_self]
      refine .raised fun hcalls hdone => hfound ?_
      have := hcovered hcalls hdone
      rwa [hp] at this
  | lockingSecond w =>
    simp only [hp] at hstep hgood
    rcases selectWallet_cases hstep with ⟨-, rfl⟩ | ⟨w', -, -, rfl⟩
    · rw [Sessions.goto_phase_self]
      exact .of_not_raised hgood nofun
    · rw [Sessions.goto_phase_self]
      exact .of_not_raised hgood nofun
  | openingSecond w =>
    simp only [hp] at hstep hgood
    obtain ⟨-, ⟨-, rfl⟩ | ⟨hfound, rfl⟩⟩ := insertWallet_cases hstep
    · rw [Sessions.goto_phase_self]
      exact .of_not_raised hgood nofun
    · rw [Sessions.goto_phase_self]
      refine .raised fun hcalls hdone => hfound ?_
      have := hcovered hcalls hdone
      rwa [hp] at this
  | inserting w w' =>
    simp only [hp] at hstep
    exact .insert hkeySound hp hcovered hstep
  | reloading =>
    simp only [hp] at hstep hphase
    exact Option.some.inj hstep ▸ .reload h hphase
  | inserted w w' =>
    simp only [hp] at hstep
    exact Option.some.inj hstep ▸ .settle h hp
  | returning tx =>
    simp only [hp] at hstep
    rw [← Option.some.inj hstep, Sessions.goto_phase_self]
    exact .of_not_raised (fun _ => trivial) nofun
  | returned tx => simp [hp] at hstep
  | raised e => simp [hp] at hstep
  | crashed => simp [hp] at hstep

/-- A statement that is not a commit leaves the store and the other sessions' phases as they are. -/
def StaysLocal (d d' : State) (i : ℕ) : Prop :=
  ∃ (m : State) (p : Phase), m.phase = d.phase ∧ m.committed = d.committed ∧ d' = m.goto i p

theorem StaysLocal.goto {m : State} {p : Phase} (hphase : m.phase = d.phase) (hcommitted : m.committed = d.committed) :
    StaysLocal d (m.goto i p) i :=
  ⟨m, p, hphase, hcommitted, rfl⟩

theorem StaysLocal.committed_eq (h : StaysLocal d d' i) : d'.committed = d.committed := by
  obtain ⟨m, p, -, hcommitted, rfl⟩ := h
  exact hcommitted

theorem StaysLocal.phase_eq (h : StaysLocal d d' i) {j : ℕ} (hj : j ≠ i) : d'.phase j = d.phase j := by
  obtain ⟨m, p, hphase, -, rfl⟩ := h
  rw [Sessions.goto_phase_of_ne _ _ hj, hphase]

theorem lockIndex_phase : (lockIndex request d i).phase = d.phase := by
  unfold lockIndex
  split <;> rfl

theorem advance_local (hstep : advance request draw d i = some d') :
    StaysLocal d d' i ∨ ∃ tx, d.phase i = .returning tx ∧ d' = (d.commit i).goto i (.returned tx) := by
  unfold advance at hstep
  cases hp : d.phase i with
  | called =>
    simp only [hp] at hstep
    obtain rfl := Option.some.inj hstep
    unfold lookup
    split <;> exact .inl (.goto rfl rfl)
  | validating =>
    simp only [hp] at hstep
    obtain rfl := Option.some.inj hstep
    unfold validate
    split <;> exact .inl (.goto rfl rfl)
  | lockingFirst =>
    simp only [hp] at hstep
    rcases selectWallet_cases hstep with ⟨-, rfl⟩ | ⟨w, -, -, rfl⟩ <;> exact .inl (.goto rfl rfl)
  | openingFirst =>
    simp only [hp] at hstep
    obtain ⟨-, ⟨-, rfl⟩ | ⟨-, rfl⟩⟩ := insertWallet_cases hstep <;> exact .inl (.goto rfl rfl)
  | lockingSecond w =>
    simp only [hp] at hstep
    rcases selectWallet_cases hstep with ⟨-, rfl⟩ | ⟨w', -, -, rfl⟩ <;> exact .inl (.goto rfl rfl)
  | openingSecond w =>
    simp only [hp] at hstep
    obtain ⟨-, ⟨-, rfl⟩ | ⟨-, rfl⟩⟩ := insertWallet_cases hstep <;> exact .inl (.goto rfl rfl)
  | inserting w w' =>
    simp only [hp, insert] at hstep
    split at hstep
    · exact .inl (Option.some.inj hstep ▸ .goto rfl rfl)
    · split at hstep
      · exact .inl (Option.some.inj hstep ▸ .goto rfl rfl)
      · obtain ⟨-, hstep⟩ := Option.ite_none_right_eq_some.mp hstep
        split at hstep
        · exact .inl (Option.some.inj hstep ▸ .goto rfl rfl)
        · exact .inl (Option.some.inj hstep ▸ .goto lockIndex_phase lockIndex_committed)
  | reloading =>
    simp only [hp] at hstep
    obtain rfl := Option.some.inj hstep
    unfold reload
    split <;> exact .inl (.goto rfl rfl)
  | inserted w w' =>
    simp only [hp] at hstep
    obtain rfl := Option.some.inj hstep
    simp only [settle]
    split <;> exact .inl (.goto rfl rfl)
  | returning tx =>
    simp only [hp] at hstep
    exact .inr ⟨tx, rfl, (Option.some.inj hstep).symm⟩
  | returned tx => simp [hp] at hstep
  | raised e => simp [hp] at hstep
  | crashed => simp [hp] at hstep

theorem Good.of_calls {j : ℕ} (h : Good request start i)
    (hto : (request i).toOwnerId = (request j).toOwnerId) (hamount : (request i).amountMinor = (request j).amountMinor)
    (hfrom : (request i).fromOwnerId = (request j).fromOwnerId) : Good request start j := by
  unfold Good at h ⊢
  rw [valid_iff] at h ⊢
  rwa [← hto, ← hamount, ← hfrom]

/-- The calls with the key ask for one transfer. -/
def OnePayload (request : ℕ → TransferRequest) (owner : OwnerId) (key : String) : Prop :=
  ∀ i j, Calls request owner key i → Calls request owner key j →
    (request i).toOwnerId = (request j).toOwnerId ∧ (request i).amountMinor = (request j).amountMinor

theorem GoodIn.congr {p : Phase} (h : GoodIn request start owner key d i p)
    (hdone : Done owner key d' → Done owner key d ∨ Good request start i) (hdone' : Done owner key d → Done owner key d') :
    GoodIn request start owner key d' i p := by
  cases p with
  | validating => exact fun hd => (hdone hd).elim h id
  | lockingFirst => exact fun hd => (hdone hd).elim h id
  | openingFirst => exact fun hd => (hdone hd).elim h id
  | lockingSecond w => exact fun hd => (hdone hd).elim h id
  | openingSecond w => exact fun hd => (hdone hd).elim h id
  | inserting w w' => exact fun hd => (hdone hd).elim h id
  | returning tx => exact h.imp hdone' id
  | _ => trivial

/-- A commit makes the key committed only if it was, or if the committer's request is good. -/
theorem done_of_commit (h : Inv request draw start d) (hkeySound : KeySound request start owner key d)
    {tx : WalletTransaction} (hp : d.phase i = .returning tx) (hdone : underKey (d.view i) owner key ≠ []) :
    Done owner key d ∨ (Calls request owner key i ∧ Good request start i) := by
  by_cases hheld : d.held (.key owner key) = some i
  · have hcalls : Calls request owner key i := h.keyHolder i owner key hheld
    have hgood := hkeySound i hcalls
    rw [hp] at hgood
    exact hgood.imp id fun hg => ⟨hcalls, hg⟩
  · exact .inl fun hnone => hdone ((h.disciplined.view_eq hheld).trans hnone)

theorem KeySound.step (h : Inv request draw start d) (hkeySound : KeySound request start owner key d) (hkey : key ≠ "")
    (hone : OnePayload request owner key) {a : Action} (hcovered : Covered request owner key d a)
    (hstep : (transfers request draw).step d a = some d') : KeySound request start owner key d' := by
  cases a with
  | crash i =>
    change crash d i = some d' at hstep
    intro j hcalls
    have hcrash : ∀ m, some ((d.rollback i).goto i .crashed) = some m → GoodIn request start owner key m j (m.phase j) := by
      intro m hm
      obtain rfl := Option.some.inj hm
      by_cases hj : j = i
      · subst hj
        rw [Sessions.goto_phase_self]
        trivial
      · rw [Sessions.goto_phase_of_ne _ _ hj]
        exact (hkeySound j hcalls).congr .inl id
    unfold crash at hstep
    split at hstep
    · cases hstep
    · cases hstep
    · cases hstep
    · exact hcrash d' hstep
  | advance i =>
    have hnext := advance_next h hkeySound hkey hcovered hstep
    intro j hcalls
    rcases advance_local hstep with hlocal | ⟨tx, hp, rfl⟩
    · have hdone : Done owner key d' ↔ Done owner key d := by rw [Done, Done, hlocal.committed_eq]
      by_cases hj : j = i
      · subst hj
        exact (hnext hcalls).1.congr (fun hd => .inl (hdone.mp hd)) hdone.mpr
      · rw [hlocal.phase_eq hj]
        exact (hkeySound j hcalls).congr (fun hd => .inl (hdone.mp hd)) hdone.mpr
    · by_cases hj : j = i
      · subst hj
        rw [Sessions.goto_phase_self]
        trivial
      · rw [Sessions.goto_phase_of_ne _ _ hj]
        refine (hkeySound j hcalls).congr (fun hd => ?_) fun hd hnone => hd ?_
        · refine (done_of_commit h hkeySound hp hd).imp id fun ⟨hcalls', hgood⟩ => ?_
          obtain ⟨hto, hamount⟩ := hone i j hcalls' hcalls
          exact hgood.of_calls hto hamount (hcalls'.1.trans hcalls.1.symm)
        · have hgrown := h.grows i d.committed owner key
          rw [← Sessions.view, show underKey (d.view i) owner key = [] from hnone] at hgrown
          exact List.sublist_nil.mp hgrown

theorem underKey_step (h : Inv request draw start d) {a : Action}
    (hstep : (transfers request draw).step d a = some d') :
    underKey d.committed owner key ⊆ underKey d'.committed owner key := by
  cases a with
  | crash i =>
    change crash d i = some d' at hstep
    unfold crash at hstep
    split at hstep
    · cases hstep
    · cases hstep
    · cases hstep
    · exact Option.some.inj hstep ▸ List.Subset.refl _
  | advance i =>
    rcases advance_local hstep with hlocal | ⟨tx, -, rfl⟩
    · rw [hlocal.committed_eq]
      exact List.Subset.refl _
    · exact (h.grows i d.committed owner key).subset

theorem not_raised_step (h : Inv request draw start d) (hkeySound : KeySound request start owner key d) (hkey : key ≠ "")
    {a : Action} (hcovered : Covered request owner key d a) (hdone : Done owner key d) {j : ℕ}
    (hcalls : Calls request owner key j) (hstep : (transfers request draw).step d a = some d')
    (hbefore : ∀ e, d.phase j ≠ .raised e) (e : Error) : d'.phase j ≠ .raised e := by
  cases a with
  | crash i =>
    change crash d i = some d' at hstep
    have hcrash : ∀ m, some ((d.rollback i).goto i .crashed) = some m → m.phase j ≠ .raised e := by
      intro m hm
      obtain rfl := Option.some.inj hm
      by_cases hj : j = i
      · subst hj
        rw [Sessions.goto_phase_self]
        nofun
      · rw [Sessions.goto_phase_of_ne _ _ hj]
        exact hbefore e
    unfold crash at hstep
    split at hstep
    · cases hstep
    · cases hstep
    · cases hstep
    · exact hcrash d' hstep
  | advance i =>
    by_cases hj : j = i
    · subst hj
      exact (advance_next h hkeySound hkey hcovered hstep hcalls).2 hdone e
    · rcases advance_local hstep with hlocal | ⟨tx, -, rfl⟩
      · rw [hlocal.phase_eq hj]
        exact hbefore e
      · rw [Sessions.goto_phase_of_ne _ _ hj]
        exact hbefore e

theorem eq_of_length_le_one {ρ : Type} {rows : List ρ} (h : rows.length ≤ 1) {r r' : ρ} (hr : r ∈ rows)
    (hr' : r' ∈ rows) : r = r' := by
  match rows with
  | [_] => exact (List.mem_singleton.mp hr).trans (List.mem_singleton.mp hr').symm
  | _ :: _ :: _ => simp at h

theorem keySound_start : KeySound request start owner key (Sessions.start start Phase.called) := fun _ _ => trivial

theorem run_sound {actions : List Action} (hkey : key ≠ "") (hone : OnePayload request owner key)
    (hcovered : (transfers request draw).Meets (Covered request owner key) d actions)
    (hrun : (transfers request draw).run d actions = some d')
    (h : Inv request draw start d ∧ KeySound request start owner key d) :
    Inv request draw start d' ∧ KeySound request start owner key d' :=
  (transfers request draw).run_invariant_of_meets
    (P := fun m => Inv request draw start m ∧ KeySound request start owner key m)
    (fun _ _ _ ⟨hinv, hsound⟩ hcov hstep => ⟨hinv.step hstep, hsound.step hinv hkey hone hcov hstep⟩) h hcovered hrun

end Key

/-- The balances move for a key at most once, and after the key is committed its calls answer with that one transfer, in every run that covers them. -/
theorem transfer_once (request : ℕ → TransferRequest) (draw : ℕ → Draw) (start : Store) (owner : OwnerId) (key : String)
    (front back : List Action) {d d' : State} (hs : start.Integral) (hkey : key ≠ "")
    (hone : OnePayload request owner key)
    (hcovered : (transfers request draw).Meets (Covered request owner key) (Sessions.start start .called) (front ++ back))
    (hfront : (transfers request draw).run (Sessions.start start .called) front = some d)
    (hback : (transfers request draw).run d back = some d') :
    (underKey d'.committed owner key).length ≤ 1 ∧
      (∀ k, untransferred d'.committed k = untransferred start k) ∧
      ∀ tx ∈ underKey d.committed owner key, ∀ i, Calls request owner key i →
        ((∀ e, d.phase i ≠ .raised e) → ∀ e, d'.phase i ≠ .raised e) ∧
          ∀ answer, d'.phase i = .returned answer → answer = tx := by
  obtain ⟨hcoveredFront, hcoveredBack⟩ := (transfers request draw).meets_append.mp hcovered
  obtain ⟨hinv, hsound⟩ := run_sound hkey hone hcoveredFront hfront ⟨Inv.initial hs, keySound_start⟩
  obtain ⟨hinv', -⟩ := run_sound hkey hone (hcoveredBack d hfront) hback ⟨hinv, hsound⟩
  refine ⟨hinv'.single_committed owner key, hinv'.balance, fun tx htx i hcalls => ?_⟩
  -- What the run keeps from the moment the key is committed.
  let Kept : State → Prop := fun m => (Inv request draw start m ∧ KeySound request start owner key m) ∧
    tx ∈ underKey m.committed owner key ∧ ((∀ e, d.phase i ≠ .raised e) → ∀ e, m.phase i ≠ .raised e)
  have hkept : Kept d' := by
    refine (transfers request draw).run_invariant_of_meets (fun m a m' hm hcov hstep => ?_)
      ⟨⟨hinv, hsound⟩, htx, id⟩ (hcoveredBack d hfront) hback
    obtain ⟨⟨hi, hk⟩, hmem, hquiet⟩ := hm
    refine ⟨⟨hi.step hstep, hk.step hi hkey hone hcov hstep⟩, underKey_step hi hstep hmem, fun hbefore e => ?_⟩
    exact not_raised_step hi hk hkey hcov (List.ne_nil_of_mem hmem) hcalls hstep (hquiet hbefore) e
  refine ⟨hkept.2.2, fun answer hanswer => ?_⟩
  have hmem : answer ∈ underKey d'.committed owner key := by
    have hphase := hinv'.phase i
    rw [hanswer] at hphase
    exact hcalls.1 ▸ hphase.2 key hcalls.2
  exact eq_of_length_le_one (hinv'.single_committed owner key) hmem hkept.2.1

def payment (amount : ℤ) : TransferRequest :=
  { fromOwnerId := "ag_1", toOwnerId := "ag_2", amountMinor := amount, idempotencyKey := some "k" }

def drawOf (i : ℕ) : Draw :=
  if i = 0 then { txId := "tx_1", firstEntryId := "we_1", secondEntryId := "we_2" }
  else { txId := "tx_2", firstEntryId := "we_3", secondEntryId := "we_4" }

/-- Two wallets, one with 100. -/
def funded : Store :=
  { Store.empty ["ag_1", "ag_2"] [] with
    wallets := [{ ownerId := "ag_1", assetCode := "COIN", availableBalanceMinor := 100 },
      { ownerId := "ag_2", assetCode := "COIN" }] }

/-- Both calls look the key up before the first of them commits. -/
def bothLookUp : List Action := [.advance 0, .advance 1]

def firstCommits : List Action := List.replicate 6 (.advance 0)

theorem transfer_once_retry :
    ∃ d d', (transfers (fun _ => payment 40) drawOf).run (Sessions.start funded .called) (bothLookUp ++ firstCommits) =
        some d ∧
      (transfers (fun _ => payment 40) drawOf).run d (List.replicate 6 (.advance 1)) = some d' ∧
      d'.phase 1 = .returned ((payment 40).row (drawOf 0)) ∧
      (underKey d'.committed "ag_1" "k").length ≤ 1 ∧
      (∀ k, untransferred d'.committed k = untransferred funded k) ∧
      ∀ tx ∈ underKey d.committed "ag_1" "k", ∀ i, Calls (fun _ => payment 40) "ag_1" "k" i →
        ((∀ e, d.phase i ≠ .raised e) → ∀ e, d'.phase i ≠ .raised e) ∧
          ∀ answer, d'.phase i = .returned answer → answer = tx :=
  ⟨_, _, rfl, rfl, by decide +kernel,
    transfer_once (fun _ => payment 40) drawOf funded "ag_1" "k" (bothLookUp ++ firstCommits)
      (List.replicate 6 (.advance 1)) (by decide +kernel) (by decide) (fun _ _ _ _ => ⟨rfl, rfl⟩) (by decide +kernel)
      rfl rfl⟩

/-- The second call comes to its balance check after the first one took the money, and raises. -/
theorem retry_raises :
    ((transfers (fun _ => payment 100) drawOf).run (Sessions.start funded .called)
        (bothLookUp ++ firstCommits ++ List.replicate 4 (.advance 1))).map (fun d => (d.phase 0, d.phase 1)) =
      some (.returned ((payment 100).row (drawOf 0)), .raised (.value "Insufficient balance")) := by
  decide +kernel

/-- Whatever calls run, and wherever they crash: a key has one transfer at most, balances have moved by the stored transfers alone, and a call with a key is answered with a stored transfer under it. -/
theorem transfers_conserve (request : ℕ → TransferRequest) (draw : ℕ → Draw) (start : Store) (hs : start.Integral)
    (actions : List Action) {d : State} (hrun : (transfers request draw).run (Sessions.start start .called) actions = some d) :
    (∀ owner key, (underKey d.committed owner key).length ≤ 1) ∧
      (∀ k, untransferred d.committed k = untransferred start k) ∧
      ∀ i answer, d.phase i = .returned answer → ∀ key, (request i).idempotencyKey = some key →
        answer ∈ underKey d.committed (request i).fromOwnerId key := by
  have hinv : Inv request draw start d := (transfers request draw).run_invariant (fun _ _ _ h hstep => h.step hstep)
    (Inv.initial hs) hrun
  refine ⟨hinv.single_committed, hinv.balance, fun i answer hanswer key hkey => ?_⟩
  have hphase := hinv.phase i
  rw [hanswer] at hphase
  exact hphase.2 key hkey

theorem transfers_conserve_raced : ∃ d, (transfers (fun _ => payment 40) drawOf).run (Sessions.start funded .called)
      (bothLookUp ++ firstCommits ++ List.replicate 6 (.advance 1)) = some d ∧
    d.phase 1 = .returned ((payment 40).row (drawOf 0)) ∧ ∀ owner key, (underKey d.committed owner key).length ≤ 1 :=
  ⟨_, rfl, by decide +kernel, (transfers_conserve (fun _ => payment 40) drawOf funded (by decide +kernel)
    (bothLookUp ++ firstCommits ++ List.replicate 6 (.advance 1)) rfl).1⟩

end BotCord.Wallet.Transfers
