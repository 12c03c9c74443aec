import HomeBanking.Bank
import HomeBanking.Lib.Threads

/-!
# Balances as numbers

What the 32-bit arithmetic of `addBalance` and `subtractBalance` computes as
mathematical integers, and the sum of all balances of a table.
-/

namespace HomeBanking

theorem toInt_toInt32 (x : UInt32) :
    x.toInt32.toInt = if x.toNat < 2 ^ 31 then (x.toNat : ℤ) else x.toNat - 2 ^ 32 := by
  have hx : x.toBitVec.toNat = x.toNat := rfl
  have h : x.toInt32.toInt = x.toBitVec.toInt := rfl
  rw [h, BitVec.toInt_eq_toNat_cond, hx]
  split <;> split <;> omega

theorem subtractedBalance_toInt (b a : UInt32) : (subtractedBalance b a).toInt =
    if (b - a).toNat < 2 ^ 31 then ((b - a).toNat : ℤ) else (b - a).toNat - 2 ^ 32 :=
  toInt_toInt32 (b - a)

theorem addedBalance_toInt (b a : UInt32) : (addedBalance b a).toInt =
    if (b + a).toNat < 2 ^ 31 then ((b + a).toNat : ℤ) else (b + a).toNat - 2 ^ 32 :=
  toInt_toInt32 (b + a)

theorem lt_minBalance_iff (x : Int32) : x < minBalance ↔ x.toInt < 1 :=
  Int32.lt_iff_toInt_lt

theorem maxBalance_lt_iff (x : Int32) : maxBalance < x ↔ 1000000000 < x.toInt :=
  Int32.lt_iff_toInt_lt

/-- A debit that `subtractBalance` accepts, of an amount within the limits,
stores the exact difference. -/
theorem debit_exact {b a : UInt32} (ha : a.toNat ≤ 1000000000)
    (h : ¬ subtractedBalance b a < minBalance) :
    ((subtractedBalance b a).toUInt32.toNat : ℤ) = b.toNat - a.toNat := by
  have hs : (subtractedBalance b a).toUInt32 = b - a := rfl
  rw [lt_minBalance_iff, subtractedBalance_toInt] at h
  rw [hs]
  have hb := b.toNat_lt
  rw [UInt32.toNat_sub] at h ⊢
  split at h <;> omega

/-- A credit stores the exact sum unless the sum leaves 32 bits. -/
theorem credit_exact {b a : UInt32} (h : b.toNat + a.toNat < 2 ^ 32) :
    (addedBalance b a).toUInt32.toNat = b.toNat + a.toNat := by
  have hs : (addedBalance b a).toUInt32 = b + a := rfl
  rw [hs, UInt32.toNat_add, Nat.mod_eq_of_lt h]

/-- The ids inside the account array. -/
def slots : Finset UInt32 := (Finset.range 4096).image UInt32.ofNat

theorem mem_slots {id : UInt32} : id ∈ slots ↔ id < maxBankAccounts := by
  simp only [slots, Finset.mem_image, Finset.mem_range, UInt32.lt_iff_toNat_lt]
  constructor
  · rintro ⟨n, hn, rfl⟩
    rw [UInt32.toNat_ofNat_of_lt' (by simp only [UInt32.size]; omega)]
    exact hn
  · intro h
    exact ⟨id.toNat, h, UInt32.ofNat_toNat⟩

/-- The balance of an entry; an empty slot has none. -/
def entryBalance (e : Option BankAccount) : ℕ := e.elim 0 fun a => a.balance.toNat

@[simp] theorem entryBalance_none : entryBalance none = 0 := rfl
@[simp] theorem entryBalance_some (a : BankAccount) :
    entryBalance (some a) = a.balance.toNat := rfl

/-- The sum of the balances of all accounts. -/
def total (t : Table) : ℕ := ∑ id ∈ slots, entryBalance (t id)

/-- Replacing one entry of the array replaces its balance in the sum. -/
theorem total_update {id : UInt32} (hid : id < maxBankAccounts) (t : Table)
    (e : Option BankAccount) :
    total (Function.update t id e) + entryBalance (t id) = total t + entryBalance e :=
  Threads.sum_update_of_mem (mem_slots.mpr hid) t (fun _ e => entryBalance e) e

/-- The bank starts without money. -/
theorem total_adminTable (sha256sum : CString → CString) (salt adminPassword : CString) :
    total (adminTable sha256sum salt adminPassword) = 0 := by
  have h := total_update (by decide : adminAccountId < maxBankAccounts) (fun _ => none)
    (some (newAccount sha256sum salt adminAccountId adminAccountBallance adminPassword))
  have hempty : total (fun _ => none) = 0 := by simp [total]
  rw [hempty] at h
  simpa [adminTable, adminAccountBallance] using h

end HomeBanking
