import BotCord.Foundation.Locking
import BotCord.Wallet.Service

/-!
# Locking a wallet, statement by statement

`_lock_wallet` of a session among others: the locking select waits for the row if it is there; if it is not there, the insert waits for whoever is inserting the same row and fails if that one committed.
-/

namespace BotCord.Wallet

variable {κ φ : Type} [DecidableEq κ] (d : Sessions Store κ φ) (i : ℕ) (row : κ) (key : WalletKey)

/-- `SELECT … FOR UPDATE`. -/
def selectWallet (found : WalletAccount → φ) (missing : φ) : Option (Sessions Store κ φ) :=
  match (d.view i).findWallet key with
  | none => some (d.goto i missing)
  | some wallet => if d.Free i row then some ((d.lock i row).goto i (found wallet)) else none

def newWallet : WalletAccount := { ownerId := key.1, assetCode := key.2 }

def insertWallet (found : WalletAccount → φ) (failed : φ) : Option (Sessions Store κ φ) :=
  if d.Free i row then
    if (d.view i).findWallet key = none then
      some (((d.lock i row).write i (·.addWallet (newWallet key))).goto i (found (newWallet key)))
    else some ((d.rollback i).goto i failed)
  else none

variable {d i row key} {found : WalletAccount → φ} {p : φ} {d' : Sessions Store κ φ}

theorem selectWallet_cases (h : selectWallet d i row key found p = some d') :
    ((d.view i).findWallet key = none ∧ d' = d.goto i p) ∨
      ∃ wallet, (d.view i).findWallet key = some wallet ∧ d.Free i row ∧ d' = (d.lock i row).goto i (found wallet) := by
  unfold selectWallet at h
  cases hwallet : (d.view i).findWallet key with
  | none =>
    rw [hwallet] at h
    exact .inl ⟨rfl, (Option.some.inj h).symm⟩
  | some wallet =>
    rw [hwallet] at h
    obtain ⟨hfree, h⟩ := Option.ite_none_right_eq_some.mp h
    exact .inr ⟨wallet, rfl, hfree, (Option.some.inj h).symm⟩

theorem insertWallet_cases (h : insertWallet d i row key found p = some d') :
    d.Free i row ∧ (((d.view i).findWallet key = none ∧
        d' = ((d.lock i row).write i (·.addWallet (newWallet key))).goto i (found (newWallet key))) ∨
      ((d.view i).findWallet key ≠ none ∧ d' = (d.rollback i).goto i p)) := by
  obtain ⟨hfree, h⟩ := Option.ite_none_right_eq_some.mp h
  refine ⟨hfree, ?_⟩
  split at h
  · rename_i hnone
    exact .inl ⟨hnone, (Option.some.inj h).symm⟩
  · rename_i hsome
    exact .inr ⟨hsome, (Option.some.inj h).symm⟩

end BotCord.Wallet
