import HomeBanking.Locks
import HomeBanking.Balance

/-!
# No run creates money

What holds between the steps of any number of offices that work on requests
within the limits of the user program: balances stay within their limits, the
32-bit arithmetic of debits and credits is exact, and the balances of all
accounts, with the amounts that are debited and not yet credited, add up to no
more than was brought in by creations.
-/

namespace HomeBanking

variable {n : ℕ} {sha256sum : CString → CString} {ok : TlvRequest → Prop} {t₀ : Table}

/-- Between its check and its write, a transfer has computed the new balance
from the one still stored. -/
def Fresh (t : Table) (req : TlvRequest) : Pc → Prop
  | .subtractWrite _ _ x => ∃ a, t req.headerId = some a ∧
      x = subtractedBalance a.balance req.amount ∧ ¬ x < minBalance
  | .addWrite _ _ x => ∃ a, t req.transferId = some a ∧
      x = addedBalance a.balance req.amount ∧ ¬ maxBalance < x
  | _ => True

theorem OfficeStep.fresh {choice : Choice} {req : TlvRequest} {b b' : Bank (Fin n)} {i : Fin n}
    {o o' : Office} {act : Action} (h : OfficeStep sha256sum choice req b o act o')
    (hb : b.apply i act = some b') : Fresh b'.bankAccounts req o'.pc := by
  cases h with
  | dispatch => cases ht : req.type <;> trivial
  | subtractRead id r a ha hfunds =>
      cases hb
      exact ⟨a, ha, rfl, hfunds⟩
  | addRead id r a ha hroom =>
      cases hb
      exact ⟨a, ha, rfl, hroom⟩
  | _ => trivial

/-- The mutex of the account keeps the computed balance up to date. -/
theorem fresh {s : System n} (h : (bankOffices sha256sum ok t₀ n).Reachable s) (i : Fin n) :
    Fresh s.table (s.requests i) (s.pc i) := by
  refine exclusive_invariant (I := fun t req o => Fresh t req o.pc) (fun _ _ _ => trivial)
    (fun _ _ _ _ => trivial) ?_ (fun _ _ _ _ _ _ _ _ _ _ _ hs hb => hs.fresh hb) h i
  rintro t t' req ⟨pc, r⟩ - hsame hf
  cases pc with
  | subtractWrite =>
      obtain ⟨a, ha, hx⟩ := hf
      exact ⟨a, (hsame _ (by simp [held])).trans ha, hx⟩
  | addWrite =>
      obtain ⟨a, ha, hx⟩ := hf
      exact ⟨a, (hsame _ (by simp [held])).trans ha, hx⟩
  | _ => trivial

theorem ne_zero_of_one_le {id : UInt32} (h : 1 ≤ id) : id ≠ 0 := by
  rintro rfl
  exact absurd h (by decide)

/-- The administrator owns nothing, everybody else an amount within the limits. -/
def InBounds (t : Table) : Prop :=
  ∀ id a, t id = some a → (id = 0 → a.balance = 0) ∧
    (id ≠ 0 → 1 ≤ a.balance.toNat ∧ a.balance.toNat ≤ 1000000000)

/-- What a transfer has debited and not yet credited. -/
def inTransit (req : TlvRequest) (o : Office) : ℕ :=
  match o.pc with
  | .addRead _ | .addWrite .. => req.amount.toNat
  | _ => 0

theorem subtractedBalance_exact {b a : UInt32} (hb : b.toNat ≤ 1000000000)
    (ha : a.toNat ≤ 1000000000) : (subtractedBalance b a).toInt = b.toNat - a.toNat := by
  rw [subtractedBalance_toInt, UInt32.toNat_sub]
  split <;> omega

theorem addedBalance_exact {b a : UInt32} (hb : b.toNat ≤ 1000000000)
    (ha : a.toNat ≤ 1000000000) : (addedBalance b a).toInt = b.toNat + a.toNat := by
  rw [addedBalance_toInt, UInt32.toNat_add, Nat.mod_eq_of_lt (by omega)]
  split <;> omega

section Steps

variable {choice : Choice} {req : TlvRequest} {b : Bank (Fin n)} {o o' : Office} {act : Action}

/-- A balance write moves the difference to or from what is in transit, and
stores a balance within the limits. -/
theorem OfficeStep.write_exact {id x : UInt32}
    (h : OfficeStep sha256sum choice req b o (.setBalance id x) o')
    (hv : Valid b.bankAccounts req o.pc) (hf : Fresh b.bankAccounts req o.pc)
    (hr : InUserRange req) (hb : InBounds b.bankAccounts) :
    ∃ a, b.bankAccounts id = some a ∧ (id < maxBankAccounts ∧ id ≠ 0) ∧
      (1 ≤ x.toNat ∧ x.toNat ≤ 1000000000) ∧
      x.toNat + inTransit req o' = a.balance.toNat + inTransit req o := by
  cases h with
  | subtractWrite id' sid x' r =>
      obtain ⟨hp, -, rfl⟩ := hv
      obtain ⟨a, ha, rfl, hfunds⟩ := hf
      have hamount := (hr.2.2 hp.type).1
      have hbal := (hb _ a ha).2 hp.notAdmin
      have hexact := debit_exact hamount.2 hfunds
      have hint := subtractedBalance_exact hbal.2 hamount.2
      rw [lt_minBalance_iff] at hfunds
      refine ⟨a, ha, ⟨hp.source.1, hp.notAdmin⟩, ⟨?_, ?_⟩, ?_⟩
      · omega
      · omega
      · change _ + req.amount.toNat = a.balance.toNat + 0
        omega
  | addWrite id' aid x' r =>
      obtain ⟨hp, -, rfl⟩ := hv
      obtain ⟨a, ha, rfl, hroom⟩ := hf
      obtain ⟨hamount, hdest⟩ := hr.2.2 hp.type
      have hne := ne_zero_of_one_le hdest.1
      have hbal := (hb _ a ha).2 hne
      have hexact := credit_exact (b := a.balance) (a := req.amount) (by omega)
      have hint := addedBalance_exact hbal.2 hamount.2
      rw [maxBalance_lt_iff] at hroom
      refine ⟨a, ha, ⟨hp.dest.1, hne⟩, ⟨?_, ?_⟩, ?_⟩
      · omega
      · omega
      · change _ + 0 = a.balance.toNat + req.amount.toNat
        omega

/-- Every other step keeps what is in transit, or loses it to a refused credit. -/
theorem OfficeStep.inTransit_le (h : OfficeStep sha256sum choice req b o act o')
    (hact : ∀ id x, act ≠ .setBalance id x) : inTransit req o' ≤ inTransit req o := by
  cases h with
  | subtractWrite | addWrite => exact absurd rfl (hact _ _)
  | dispatch => cases ht : req.type <;> exact Nat.zero_le _
  | addRead => exact le_rfl
  | _ => exact Nat.zero_le _

/-- A new account starts within the limits. -/
theorem OfficeStep.created_inRange {id : UInt32} {a : BankAccount}
    (h : OfficeStep sha256sum choice req b o (.setAccount id a) o')
    (hv : Valid b.bankAccounts req o.pc) (hr : InUserRange req) :
    id < maxBankAccounts ∧ id ≠ 0 ∧ 1 ≤ a.balance.toNat ∧ a.balance.toNat ≤ 1000000000 := by
  cases h
  obtain ⟨ht, rfl, -⟩ := hv
  obtain ⟨hbal, hid⟩ := hr.2.1 ht
  exact ⟨hid.2, ne_zero_of_one_le hid.1, hbal⟩

end Steps

/-- The money an action brings in. -/
def Action.created : Action → ℕ
  | .setAccount _ a => a.balance.toNat
  | _ => 0

/-- The money brought in by the creations so far. -/
def createdTotal (trace : List (Fin n × Action)) : ℕ := (trace.map fun e => e.2.created).sum

/-- Storing a balance replaces it in the sum of all balances. -/
theorem total_setBalance {b : Bank (Fin n)} {id x : UInt32} {a : BankAccount}
    (hid : id < maxBankAccounts) (ha : b.bankAccounts id = some a) :
    total (b.setBalance id x).bankAccounts + a.balance.toNat =
      total b.bankAccounts + x.toNat := by
  have h := total_update hid b.bankAccounts (some { a with balance := x })
  rw [ha] at h
  simpa [Bank.setBalance, ha] using h

section Runs

variable {s : System n} {adminPassword : CString} {salt : CString}

/-- The runs from the table with only the administrator, on requests within
the limits of the user program. -/
abbrev userRuns (sha256sum : CString → CString) (salt adminPassword : CString) (n : ℕ) :
    LTS (System n) (Label n) :=
  bankOffices sha256sum InUserRange (adminTable sha256sum salt adminPassword) n

theorem inBounds (h : (userRuns sha256sum salt adminPassword n).Reachable s) :
    InBounds s.table := by
  apply h.invariant (I := fun s => InBounds s.table)
  · intro s hs id a ha
    rw [System.table, hs.1] at ha
    by_cases hid : id = 0
    · subst id
      obtain rfl := Option.some.inj ha
      exact ⟨fun _ => rfl, fun hne => absurd rfl hne⟩
    · simp [Bank.idle, adminTable, adminAccountId, hid] at ha
  · intro s l s' hr ih hs
    rcases bankOffices_step_cases hs with ⟨i, req, -, -, -, rfl⟩ |
      ⟨i, choice, act, b, o, -, hstep, hb, rfl⟩
    · exact ih
    have hok := (ok_request hr i).resolve_left hstep.pc_ne_idle
    intro id a ha
    rw [System.perform_table] at ha
    by_cases hw : id ∈ act.writes
    · cases act with
      | setBalance j x =>
          cases hb
          obtain rfl : id = j := by simpa [Action.writes] using hw
          obtain ⟨a', ha', ⟨-, hne⟩, hx, -⟩ := hstep.write_exact (valid hr i) (fresh hr i) hok ih
          have hbal : a.balance = x := by
            simp only [Bank.setBalance, Function.update_self, ha', Option.map_some,
              Option.some.injEq] at ha
            rw [← ha]
          exact ⟨fun hzero => absurd hzero hne, fun _ => by rw [hbal]; exact hx⟩
      | setAccount j a' =>
          cases hb
          obtain rfl : id = j := by simpa [Action.writes] using hw
          obtain ⟨-, hne, hx⟩ := hstep.created_inRange (valid hr i) hok
          simp only [Bank.setAccount, Function.update_self, Option.some.injEq] at ha
          exact ⟨fun hzero => absurd hzero hne, fun _ => ha ▸ hx⟩
      | _ => simp [Action.writes] at hw
    · exact ih id a ((apply_eq_of_notMem_writes hb hw).symm.trans ha)

/-- Only creations and the writes of transfers change the sum of all balances. -/
theorem OfficeStep.total_le_created {choice : Choice} {req : TlvRequest} {b b' : Bank (Fin n)}
    {i : Fin n} {o o' : Office} {act : Action} (h : OfficeStep sha256sum choice req b o act o')
    (hv : Valid b.bankAccounts req o.pc) (hok : InUserRange req) (hb : b.apply i act = some b')
    (hact : ∀ id x, act ≠ .setBalance id x) :
    total b'.bankAccounts ≤ act.created + total b.bankAccounts := by
  by_cases hset : ∃ id a, act = .setAccount id a
  · obtain ⟨id, a, rfl⟩ := hset
    cases hb
    have hupd := total_update (h.created_inRange hv hok).1 b.bankAccounts (some a)
    rw [entryBalance_some] at hupd
    change total (Function.update b.bankAccounts id (some a)) ≤ _
    simp only [Action.created]
    omega
  · push Not at hset
    rw [apply_table hb (Action.writes_eq_empty hact hset)]
    exact Nat.le_add_left _ _

/-- What is in the accounts and in transit was brought in by creations. -/
theorem total_le (h : (userRuns sha256sum salt adminPassword n).Reachable s) :
    total s.table + s.sum inTransit ≤ createdTotal s.trace := by
  apply h.invariant
    (I := fun s : System n => total s.table + s.sum inTransit ≤ createdTotal s.trace)
  · intro s hs
    have hsum : s.sum inTransit = 0 := s.sum_eq_zero _ fun i => by
      simp [inTransit, show (s.offices i).pc = _ from hs.2.1 i]
    have htable : s.table = adminTable sha256sum salt adminPassword := by
      rw [System.table, hs.1]
      rfl
    rw [htable, total_adminTable, hsum]
    exact Nat.zero_le _
  · intro s l s' hr ih hs
    rcases bankOffices_step_cases hs with ⟨i, req, -, hidle, -, rfl⟩ |
      ⟨i, choice, act, b, o, -, hstep, hb, rfl⟩
    · rw [s.sum_give i req _ (by simp [inTransit, show (s.offices i).pc = _ from hidle])]
      exact ih
    have hok := (ok_request hr i).resolve_left hstep.pc_ne_idle
    have hsum := s.sum_perform i act b o inTransit
    have htrace : createdTotal (s.perform i act b o).trace =
        act.created + createdTotal s.trace := by
      simp [createdTotal]
    rw [System.perform_table, htrace]
    by_cases hact : ∃ id x, act = .setBalance id x
    · obtain ⟨id, x, rfl⟩ := hact
      cases hb
      obtain ⟨a, ha, hid, -, hx⟩ :=
        hstep.write_exact (valid hr i) (fresh hr i) hok (inBounds hr)
      have htotal := total_setBalance (x := x) hid.1 ha
      simp only [Action.created]
      change total s.table + _ ≤ _ at ih
      change _ = total s.table + _ at htotal
      omega
    push Not at hact
    have hle := hstep.inTransit_le hact
    have htotal : total b.bankAccounts ≤ act.created + total s.table :=
      hstep.total_le_created (valid hr i) hok hb hact
    omega

/-- In every run from the table with only the administrator, on requests within
the limits of the user program: the administrator has balance 0 and everybody
else a balance within the limits, the 32-bit results of the debit and the
credit that are about to be checked are exact, and all balances together are at
most what the creations so far brought in. -/
theorem balances_bounded (h : (userRuns sha256sum salt adminPassword n).Reachable s) :
    (∀ id a, s.table id = some a → (id = 0 → a.balance = 0) ∧
      (id ≠ 0 → 1 ≤ a.balance.toNat ∧ a.balance.toNat ≤ 1000000000)) ∧
    (∀ i id a, s.pc i = .subtractRead id → s.table (s.requests i).headerId = some a →
      (subtractedBalance a.balance (s.requests i).amount).toInt =
        a.balance.toNat - (s.requests i).amount.toNat) ∧
    (∀ i id a, s.pc i = .addRead id → s.table (s.requests i).transferId = some a →
      (addedBalance a.balance (s.requests i).amount).toInt =
        a.balance.toNat + (s.requests i).amount.toNat) ∧
    total s.table ≤ createdTotal s.trace := by
  have hbounds := inBounds h
  have hsmall : ∀ id a, s.table id = some a → a.balance.toNat ≤ 1000000000 := by
    intro id a ha
    by_cases hid : id = 0
    · rw [(hbounds id a ha).1 hid]
      decide
    · exact ((hbounds id a ha).2 hid).2
  have hamount : ∀ i, s.pc i ≠ .idle → TransferPassed s.table (s.requests i) →
      (s.requests i).amount.toNat ≤ 1000000000 := fun i hi hp =>
    (((ok_request h i).resolve_left hi).2.2 hp.type).1.2
  refine ⟨hbounds, ?_, ?_, (Nat.le_add_right _ _).trans (total_le h)⟩
  · intro i id a hpc ha
    have hv := valid h i
    rw [hpc] at hv
    exact subtractedBalance_exact (hsmall _ a ha) (hamount i (by rw [hpc]; exact nofun) hv.1)
  · intro i id a hpc ha
    have hv := valid h i
    rw [hpc] at hv
    exact addedBalance_exact (hsmall _ a ha) (hamount i (by rw [hpc]; exact nofun) hv.1)

end Runs

/-- Between the debit and the credit of 50, of the 300 brought in 250 are in
the accounts. Another office waits with a transfer from the same account. -/
theorem balances_bounded_midway : ∃ s : System 2,
    (userRuns Sample.sha256sum Sample.salt Sample.adminPassword 2).Reachable s ∧
    s.pc 0 = .addRead 1 ∧ s.pc 1 = .transferLock₁ 1 2 ∧
    (s.table 1).map BankAccount.balance = some 50 ∧
    createdTotal s.trace = 300 ∧ total s.table ≤ 300 := by
  obtain ⟨s, hs, hf⟩ : ∃ s : System 2,
      (userRuns Sample.sha256sum Sample.salt Sample.adminPassword 2).Reachable s ∧
      (s.pc 0, s.pc 1, (s.table 1).map BankAccount.balance, createdTotal s.trace) =
        (.addRead 1, .transferLock₁ 1 2, some 50, 300) :=
    execute_reachable Sample.emptyReply (Sample.shutdown 0)
      (Sample.creations 0 1 ++ Sample.serve 0 (Sample.transfer 9 50) 13 ++
        Sample.serve 1 (Sample.transfer 10 20) 9) (by decide +kernel)
  simp only [Prod.mk.injEq] at hf
  obtain ⟨hpc, hwaits, hbal, hcreated⟩ := hf
  exact ⟨s, hs, hpc, hwaits, hbal, hcreated, hcreated ▸ (balances_bounded hs).2.2.2⟩

end HomeBanking
