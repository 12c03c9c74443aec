import HomeBanking.Isolation
import HomeBanking.Conservation

/-!
# Transfers

Two things about a transfer that its reply promises. Within the 32-bit
arithmetic of the server, for amounts outside the range of the user program:
when an accepted transfer has moved exactly its amount. With other offices at
work: when the balance it reports is the one it left.
-/

namespace HomeBanking

section Amounts

variable {ι : Type} {me : ι} {req : TlvRequest}

/-- `MIN_BALANCE` and `MAX_BALANCE`. -/
def WithinLimits (balance : UInt32) : Prop :=
  1 ≤ balance.toNat ∧ balance.toNat ≤ 1000000000

instance (balance : UInt32) : Decidable (WithinLimits balance) := by
  unfold WithinLimits
  infer_instance

/-- As integers, the amount went from the source to the destination, and both
new balances are within the limits. -/
def MovedExactly (req : TlvRequest) (src dst : BankAccount) (t : Table) : Prop :=
  ∃ src' dst', t req.headerId = some src' ∧ t req.transferId = some dst' ∧
    (src'.balance.toNat : ℤ) = src.balance.toNat - req.amount.toNat ∧
    dst'.balance.toNat = dst.balance.toNat + req.amount.toNat ∧
    WithinLimits src'.balance ∧ WithinLimits dst'.balance

theorem not_subtractedBalance_lt_iff {b a : UInt32} (hb : WithinLimits b) :
    ¬ subtractedBalance b a < minBalance ↔ a.toNat < b.toNat ∨ 2 ^ 31 + b.toNat < a.toNat := by
  obtain ⟨_, hb⟩ := hb
  have ha := a.toNat_lt
  rw [lt_minBalance_iff, subtractedBalance_toInt, UInt32.toNat_sub]
  split <;> omega

theorem not_maxBalance_lt_iff {b a : UInt32} (hb : WithinLimits b) :
    ¬ maxBalance < addedBalance b a ↔
      b.toNat + a.toNat ≤ 1000000000 ∨ 2 ^ 31 ≤ b.toNat + a.toNat := by
  obtain ⟨_, hb⟩ := hb
  have ha := a.toNat_lt
  rw [maxBalance_lt_iff, addedBalance_toInt, UInt32.toNat_add]
  split <;> omega

/-- The table after an accepted transfer. -/
theorem TransferExit.ok_table {w w' : World ι} (h : TransferExit me req w w')
    (hrc : w'.reply.retCode = .ok) {src dst : BankAccount}
    (hsrc : w.bank.bankAccounts req.headerId = some src)
    (hdst : w.bank.bankAccounts req.transferId = some dst) :
    ¬ subtractedBalance src.balance req.amount < minBalance ∧
      ¬ maxBalance < addedBalance dst.balance req.amount ∧
      w'.bank.bankAccounts = Function.update
        (Function.update w.bank.bankAccounts req.headerId
          (some { src with balance := (subtractedBalance src.balance req.amount).toUInt32 }))
        req.transferId
        (some { dst with balance := (addedBalance dst.balance req.amount).toUInt32 }) := by
  cases h with
  | notAllowed | notFound | sameId | noFunds | tooHigh => cases hrc
  | done src' dst' hv hf hfunds hroom =>
      obtain rfl := Option.some.inj (hsrc.symm.trans hv.source)
      obtain rfl := Option.some.inj (hdst.symm.trans hv.dest)
      exact ⟨hfunds, hroom, debit_credit_bankAccounts req hv⟩

/-- Of an amount below the source balance the arithmetic is exact. -/
theorem movedExactly_of_lt {src dst : BankAccount} {t : Table}
    (hne : req.transferId ≠ req.headerId) (hsrc : WithinLimits src.balance)
    (hdst : WithinLimits dst.balance) (hlt : req.amount.toNat < src.balance.toNat)
    (hroom : ¬ maxBalance < addedBalance dst.balance req.amount) :
    MovedExactly req src dst (Function.update
      (Function.update t req.headerId
        (some { src with balance := (subtractedBalance src.balance req.amount).toUInt32 }))
      req.transferId
      (some { dst with balance := (addedBalance dst.balance req.amount).toUInt32 })) := by
  obtain ⟨hsrc₁, hsrc₂⟩ := hsrc
  have hdebit := debit_exact (b := src.balance) (a := req.amount) (by omega)
    ((not_subtractedBalance_lt_iff ⟨hsrc₁, hsrc₂⟩).mpr (.inl hlt))
  have hsmall : dst.balance.toNat + req.amount.toNat ≤ 1000000000 := by
    rcases (not_maxBalance_lt_iff hdst).mp hroom with h | h
    · exact h
    · have := hdst.2
      omega
  have hcredit := credit_exact (b := dst.balance) (a := req.amount) (by omega)
  have hdst₁ := hdst.1
  refine ⟨_, _, by rw [Function.update_of_ne hne.symm, Function.update_self],
    Function.update_self .., hdebit, hcredit, ⟨?_, ?_⟩, ⟨?_, ?_⟩⟩ <;> dsimp only <;> omega

variable (me req)

/-- Between two accounts within the limits, every accepted transfer moves
exactly its amount if and only if the amount is at most 2^31 above the source
balance: up to there a debit that is not covered is negative as an `int`. -/
theorem opTransfer_exact_iff (hheader : req.headerId < maxBankAccounts)
    (htransfer : req.transferId < maxBankAccounts) (hadmin : req.headerId ≠ 0)
    (hne : req.transferId ≠ req.headerId) {src dst : BankAccount}
    (hsrc : WithinLimits src.balance) (hdst : WithinLimits dst.balance) :
    (∀ w w' : World ι, w.bank.bankAccounts req.headerId = some src →
      w.bank.bankAccounts req.transferId = some dst →
      opTransfer me req w = .ok ((), w') → w'.reply.retCode = .ok →
      MovedExactly req src dst w'.bank.bankAccounts) ↔
    req.amount.toNat ≤ 2 ^ 31 + src.balance.toNat := by
  have hv : ∀ {t : Table}, t req.headerId = some src → t req.transferId = some dst →
      TransferValid req t src dst := fun hs hd => ⟨hadmin, ⟨hheader, htransfer⟩, hs, hd, hne⟩
  constructor
  · intro h
    by_contra hlarge
    have hfunds := (not_subtractedBalance_lt_iff (a := req.amount) hsrc).mpr
      (.inr (by omega))
    have hroom := (not_maxBalance_lt_iff (a := req.amount) hdst).mpr (.inr (by omega))
    -- the two accounts in a bank in which no mutex is taken
    let t : Table := Function.update (fun _ => some dst) req.headerId (some src)
    have hs : t req.headerId = some src := Function.update_self ..
    have hd : t req.transferId = some dst := Function.update_of_ne hne ..
    let w : World ι := ⟨Bank.idle t, Sample.emptyReply⟩
    have hexit : TransferExit me req w _ := .done src dst (hv hs hd) ⟨rfl, rfl⟩ hfunds hroom
    obtain ⟨src', _, hsrc', _, hexact, -⟩ :=
      h w _ hs hd ((opTransfer_eq_ok me req hheader hs).mpr hexit) rfl
    have := src'.balance.toNat_lt
    have := hsrc.2
    omega
  · intro hsmall w w' hs hd hw hrc
    obtain ⟨hfunds, hroom, ht⟩ :=
      ((opTransfer_eq_ok me req hheader hs).mp hw).ok_table hrc hs hd
    have hlt : req.amount.toNat < src.balance.toNat :=
      ((not_subtractedBalance_lt_iff hsrc).mp hfunds).resolve_right (by omega)
    rw [ht]
    exact movedExactly_of_lt hne hsrc hdst hlt hroom

end Amounts

/-- A transfer of 50 from 100 to 200 moves exactly 50. -/
theorem opTransfer_exact_fifty : ∃ w' : World Unit,
    opTransfer () (Sample.transfer 9 50)
      ⟨Bank.idle (Sample.twoAccounts 100 200), Sample.emptyReply⟩ = .ok ((), w') ∧
    w'.reply.retCode = .ok ∧
    MovedExactly (Sample.transfer 9 50)
      (newAccount Sample.sha256sum Sample.salt 1 100 Sample.password₁)
      (newAccount Sample.sha256sum Sample.salt 2 200 Sample.password₂) w'.bank.bankAccounts := by
  have hv := Sample.transfer_valid 100 200 9 50
  have hexit : TransferExit () (Sample.transfer 9 50)
      ⟨Bank.idle (Sample.twoAccounts 100 200), Sample.emptyReply⟩ _ :=
    .done _ _ hv ⟨rfl, rfl⟩ (by decide +kernel) (by decide +kernel)
  have hw := (opTransfer_eq_ok () _ hv.inArray.1 hv.source).mpr hexit
  let src := newAccount Sample.sha256sum Sample.salt 1 100 Sample.password₁
  let dst := newAccount Sample.sha256sum Sample.salt 2 200 Sample.password₂
  have hsrc : WithinLimits src.balance := (by decide : WithinLimits 100)
  have hdst : WithinLimits dst.balance := (by decide : WithinLimits 200)
  have hbound : (50 : UInt32).toNat ≤ 2 ^ 31 + (100 : UInt32).toNat := by decide
  exact ⟨_, hw, rfl, (opTransfer_exact_iff () (Sample.transfer 9 50) (by decide) (by decide)
    (by decide) (by decide) hsrc hdst).mpr hbound _ _ hv.source hv.dest hw rfl⟩

/-- A transfer of 2^32 - 1 from 100 to 1 is accepted and takes the amount for
-1: the source is left with 101 and the destination with 0. -/
theorem opTransfer_not_exact : ∃ w' : World Unit,
    opTransfer () (Sample.transfer 9 4294967295)
      ⟨Bank.idle (Sample.twoAccounts 100 1), Sample.emptyReply⟩ = .ok ((), w') ∧
    w'.reply.retCode = .ok ∧
    (w'.bank.bankAccounts 1).map BankAccount.balance = some 101 ∧
    (w'.bank.bankAccounts 2).map BankAccount.balance = some 0 ∧
    ¬ MovedExactly (Sample.transfer 9 4294967295)
      (newAccount Sample.sha256sum Sample.salt 1 100 Sample.password₁)
      (newAccount Sample.sha256sum Sample.salt 2 1 Sample.password₂) w'.bank.bankAccounts := by
  have hv := Sample.transfer_valid 100 1 9 4294967295
  have hexit : TransferExit () (Sample.transfer 9 4294967295)
      ⟨Bank.idle (Sample.twoAccounts 100 1), Sample.emptyReply⟩ _ :=
    .done _ _ hv ⟨rfl, rfl⟩ (by decide +kernel) (by decide +kernel)
  refine ⟨_, (opTransfer_eq_ok () _ hv.inArray.1 hv.source).mpr hexit, rfl, ?_, ?_, ?_⟩
  · exact congrArg (Option.map BankAccount.balance) (debit_credit_source _ hv)
  · exact (congrArg (Option.map BankAccount.balance)
      (congrFun (debit_credit_bankAccounts _ hv) 2)).trans rfl
  · rintro ⟨src', _, _, _, hexact, -⟩
    -- 100 minus the amount is negative
    have hneg : (src'.balance.toNat : ℤ) = 100 - 4294967295 := hexact
    omega

variable {n : ℕ} {sha256sum : CString → CString} {ok : TlvRequest → Prop} {t₀ : Table}

/-- The account whose entry the next step writes. -/
def Pc.writesTo : Pc → Option UInt32
  | .subtractWrite _ id _ | .addWrite _ id _ => some id
  | .createWrite c => some c.accountId
  | _ => none

/-- The account whose mutex a transfer has released and whose balance it will
report. -/
def Pc.unreported : Pc → Option UInt32
  | .transferUnlock₂ id _ | .transferReport id => some id
  | _ => none

/-- From the debit to the report. -/
def Pc.owesReport : Pc → Bool
  | .addRead _ | .addWrite .. | .transferUnlock₁ _ | .transferUnlock₂ .. | .transferReport _ => true
  | _ => false

/-- After the operation, up to the sending of the reply. -/
def Pc.answered : Pc → Bool
  | .activeLock .leave | .activeLoad .leave | .activeStore .leave _ | .activeUnlock .leave
  | .ret | .replyOpen | .replyWrite _ => true
  | _ => false

/-- The step writes an account that the transfer of another office has released
and not yet reported. -/
def System.intrudes (s : System n) : Label n → Bool
  | .act j _ => decide (∃ i, i ≠ j ∧ (s.pc i).unreported.isSome ∧
      (s.pc j).writesTo = (s.pc i).unreported)
  | .give .. => false

/-- The balance that a debit finds; any other step keeps what was noted before. -/
def foundBalance (t : Table) (noted : Option UInt32) : Pc → Option UInt32
  | .subtractWrite _ id _ => (t id).map BankAccount.balance
  | _ => noted

/-- For each office, the source balance before the debit of its request. -/
def noteDebit (s : System n) : Label n → (Fin n → Option UInt32) → Fin n → Option UInt32
  | .act i _, noted => Function.update noted i (foundBalance s.table (noted i) (s.pc i))
  | .give i _, noted => Function.update noted i none

/-- The runs in which no account is written between a transfer's release and its
report of it, with a note of the balances before the debits. -/
abbrev undisturbedRuns (sha256sum : CString → CString) (ok : TlvRequest → Prop) (t₀ : Table)
    (n : ℕ) : LTS (System n × (Fin n → Option UInt32)) (Label n) :=
  ((bankOffices sha256sum ok t₀ n).guard fun s l => s.intrudes l = false).record
    (fun _ => none) noteDebit

/-- `x` is what an accepted debit of the amount has left of the noted balance. -/
def Debits (noted : Option UInt32) (req : TlvRequest) (x : UInt32) : Prop :=
  ∃ before, noted = some before ∧ ¬ subtractedBalance before req.amount < minBalance ∧
    x = before - req.amount

/-- Until its report, the source of a transfer holds what its debit left; this
is then the balance in its reply. -/
structure Reports (t : Table) (noted : Option UInt32) (req : TlvRequest) (o : Office) : Prop where
  source : o.pc.owesReport = true → ∃ a, t req.headerId = some a ∧ Debits noted req a.balance
  reply : o.pc.answered = true → req.type = .transfer → o.reply.retCode = .ok →
    Debits noted req o.reply.info

theorem Reports.of_not {t : Table} {noted : Option UInt32} {req : TlvRequest} {o : Office}
    (hd : o.pc.owesReport = false) (ha : o.pc.answered = false) : Reports t noted req o where
  source h := by
    rw [hd] at h
    cases h
  reply h := by
    rw [ha] at h
    cases h

theorem Reports.of_reply {t : Table} {noted : Option UInt32} {req : TlvRequest} {o : Office}
    (hd : o.pc.owesReport = false)
    (h : req.type = .transfer → o.reply.retCode = .ok → Debits noted req o.reply.info) :
    Reports t noted req o where
  source h := by
    rw [hd] at h
    cases h
  reply _ := h

theorem Reports.of_source {t t' : Table} {noted : Option UInt32} {req : TlvRequest} {o : Office}
    (h : Reports t noted req o)
    (hsame : o.pc.owesReport = true → t' req.headerId = t req.headerId) :
    Reports t' noted req o where
  source hd := by
    rw [hsame hd]
    exact h.source hd
  reply := h.reply

section Steps

variable {choice : Choice} {req : TlvRequest} {b b' : Bank (Fin n)} {i : Fin n} {o o' : Office}
  {act : Action} {noted : Option UInt32}

/-- With the debit, the noted balance is the one the source had. -/
theorem OfficeStep.reports_debit {id subtractId : UInt32} {x : Int32} {r : TlvReply}
    (hv : Valid b.bankAccounts req (.subtractWrite id subtractId x))
    (hf : Fresh b.bankAccounts req (.subtractWrite id subtractId x)) :
    Reports (b.setBalance subtractId x.toUInt32).bankAccounts
      (foundBalance b.bankAccounts noted (.subtractWrite id subtractId x)) req
      ⟨.addRead id, r⟩ where
  source _ := by
    obtain ⟨-, -, rfl⟩ := hv
    obtain ⟨a, ha, rfl, hfunds⟩ := hf
    have hfound : foundBalance b.bankAccounts noted (.subtractWrite id req.headerId
        (subtractedBalance a.balance req.amount)) = some a.balance := by
      simp [foundBalance, ha]
    exact ⟨_, Bank.setBalance_bankAccounts b _ ha ▸ Function.update_self .., a.balance, hfound,
      hfunds, rfl⟩
  reply h := by cases h

/-- A step of the office itself. -/
theorem OfficeStep.reports (h : OfficeStep sha256sum choice req b o act o')
    (hb : b.apply i act = some b') (hv : Valid b.bankAccounts req o.pc)
    (hf : Fresh b.bankAccounts req o.pc) (hr : Reports b.bankAccounts noted req o) :
    Reports b'.bankAccounts (foundBalance b.bankAccounts noted o.pc) req o' := by
  cases h with
  | subtractWrite =>
      cases hb
      exact reports_debit hv hf
  | addWrite id addId x =>
      obtain ⟨hp, -, rfl⟩ := hv
      cases hb
      have hsame := b.setBalance_bankAccounts_of_ne x.toUInt32 hp.distinct.symm
      exact ⟨fun _ => hsame ▸ hr.source rfl, nofun⟩
  | addRead | transferUnlock₁ | transferUnlock₂ =>
      cases hb
      exact ⟨fun _ => hr.source rfl, nofun⟩
  | transferReport id r a ha =>
      obtain ⟨-, rfl⟩ := hv
      obtain ⟨a', ha', hdebits⟩ := hr.source rfl
      obtain rfl := Option.some.inj (ha.symm.trans ha')
      exact .of_reply rfl fun _ _ => hdebits
  | activeLock c | activeLoad c | activeStore c =>
      cases c with
      | enter => exact .of_not rfl rfl
      | leave => exact .of_reply rfl (hr.reply rfl)
  | activeLeft | ret | replyOpen => exact .of_reply rfl (hr.reply rfl)
  | replyUserDown | loginUnknown | loginFailed | createNotAllowed | createInUse
  | balanceNotAllowed | transferNotAllowed | transferNotFound | transferSameId | noFunds | tooHigh
  | shutdownNotAllowed =>
      exact .of_reply rfl fun _ hrc => by cases hrc
  | createUnlock | balanceUnlock | shutdownSet =>
      refine .of_reply rfl fun ht => ?_
      rw [hv.1] at ht
      cases ht
  | dispatch =>
      cases ht : req.type with
      | undefined =>
          refine .of_reply rfl fun ht' => ?_
          rw [ht] at ht'
          cases ht'
      | _ => exact .of_not rfl rfl
  | _ => exact .of_not rfl rfl

theorem OfficeStep.writesTo (h : OfficeStep sha256sum choice req b o act o') {id : UInt32}
    (hid : id ∈ act.writes) : o.pc.writesTo = some id := by
  cases h with
  | createWrite | subtractWrite | addWrite =>
      rw [Finset.mem_singleton.mp hid]
      rfl
  | _ => simp [Action.writes] at hid

/-- Between its debit and its report, a transfer holds the mutex of its source
or has released it unreported. -/
theorem Valid.held_or_unreported {t : Table} {pc : Pc} (hv : Valid t req pc)
    (hd : pc.owesReport = true) :
    req.headerId ∈ held req pc ∨ pc.unreported = some req.headerId := by
  cases pc with
  | addRead | addWrite | transferUnlock₁ => exact .inl (Finset.mem_insert_self ..)
  | transferUnlock₂ => exact .inr (congrArg some hv.2.1)
  | transferReport => exact .inr (congrArg some hv.2)
  | _ => cases hd

end Steps

/-- In every undisturbed run, each transfer reports what its debit left. -/
theorem reports {p : System n × (Fin n → Option UInt32)}
    (h : (undisturbedRuns sha256sum ok t₀ n).Reachable p) (i : Fin n) :
    Reports p.1.table (p.2 i) (p.1.requests i) (p.1.offices i) := by
  refine h.invariant (I := fun p => ∀ i, Reports p.1.table (p.2 i) (p.1.requests i)
    (p.1.offices i)) ?_ ?_ i
  · intro p hp i
    have hidle : (p.1.offices i).pc = .idle := hp.1.2.1 i
    exact .of_not (by rw [hidle]; rfl) (by rw [hidle]; rfl)
  · rintro ⟨s, noted⟩ l ⟨s', noted'⟩ hr ih ⟨⟨hs, hguard⟩, hnote⟩ i
    have hreach : (bankOffices sha256sum ok t₀ n).Reachable s := hr.of_record.of_guard
    rcases bankOffices_step_cases hs with ⟨j, req, rfl, -, -, rfl⟩ |
      ⟨j, choice, act, b, o, rfl, hstep, hb, rfl⟩
    · change noted' = Function.update noted j none at hnote
      subst hnote
      by_cases hij : i = j
      · subst i
        have hidle := s.give_offices_self j req
        exact .of_not (by rw [hidle]; rfl) (by rw [hidle]; rfl)
      · simpa [hij] using ih i
    · change noted' = Function.update noted j (foundBalance s.table (noted j) (s.pc j)) at hnote
      subst hnote
      by_cases hij : i = j
      · subst i
        have hreports := hstep.reports hb (valid hreach j) (fresh hreach j) (ih j)
        simpa using hreports
      · have hi : Reports s.table (noted i) (s.requests i) (s.offices i) := ih i
        have hkept := hi.of_source fun hd => apply_eq_of_notMem_writes hb fun hw => ?_
        · simpa [hij] using hkept
        · rcases (valid hreach i).held_or_unreported hd with hheld | hfree
          · exact notMem_held_of_writes hreach hij hstep hheld hw
          · -- the account is released and not yet reported, so the guard excludes the write
            have hintrudes : s.intrudes (.act j choice) = true :=
              decide_eq_true ⟨i, hij, by rw [hfree]; rfl, (hstep.writesTo hw).trans hfree.symm⟩
            rw [hintrudes] at hguard
            cases hguard

/-- In every undisturbed run of any number of offices, the reply to a transfer
that is answered `RC_OK` carries the balance that its source had before the
debit, minus the amount; for amounts within the limits this is the difference
of integers. -/
theorem reported_balance {p : System n × (Fin n → Option UInt32)}
    (h : (undisturbedRuns sha256sum ok t₀ n).Reachable p) (i : Fin n)
    (hpc : (p.1.pc i).answered = true) (htype : (p.1.requests i).type = .transfer)
    (hrc : (p.1.offices i).reply.retCode = .ok) : ∃ before, p.2 i = some before ∧
      (p.1.offices i).reply.info = before - (p.1.requests i).amount ∧
      ((p.1.requests i).amount.toNat ≤ 1000000000 →
        ((p.1.offices i).reply.info.toNat : ℤ) =
          before.toNat - (p.1.requests i).amount.toNat) := by
  obtain ⟨before, hnoted, hfunds, hinfo⟩ := (reports h i).reply hpc htype hrc
  refine ⟨before, hnoted, hinfo, fun hamount => ?_⟩
  rw [hinfo]
  exact debit_exact hamount hfunds

/-- Office 0 transfers 50 from an account with 100. Office 1, with a transfer of 20
from the same account, waits for its mutex and goes on when office 0 has read
the balance that it reports. The transfers report 50 and 30. -/
theorem reported_balance_fifty : ∃ p : System 2 × (Fin 2 → Option UInt32),
    (undisturbedRuns Sample.sha256sum (fun _ => True) Sample.adminOnly 2).Reachable p ∧
    p.1.pc 0 = .replyWrite (some 9) ∧ p.2 0 = some 100 ∧
    (p.1.offices 0).reply.info = 100 - 50 ∧
    p.1.pc 1 = .replyWrite (some 10) ∧ p.2 1 = some 50 ∧
    (p.1.offices 1).reply.info = 50 - 20 := by
  obtain ⟨s, hs, hf⟩ : ∃ s : System 2,
      ((bankOffices Sample.sha256sum (fun _ => True) Sample.adminOnly 2).guard
        fun s l => s.intrudes l = false).Reachable s ∧
      ([0, 1].map fun i => (s.pc i, (s.requests i).type, (s.requests i).amount,
        (s.offices i).reply.retCode, (s.offices i).reply.info)) =
        [(.replyWrite (some 9), .transfer, 50, .ok, 50),
          (.replyWrite (some 10), .transfer, 20, .ok, 30)] :=
    guarded_execute (C := fun s l => !s.intrudes l)
      (fun s l h => ⟨by simpa using h, fun _ _ _ => trivial⟩) Sample.emptyReply
      (Sample.shutdown 0)
      (Sample.creations 0 1 ++ Sample.serve 0 (Sample.transfer 9 50) 12 ++
        Sample.serve 1 (Sample.transfer 10 20) 9 ++ Sample.steps 0 6 ++ Sample.steps 1 15 ++
        Sample.steps 0 6) (by decide +kernel)
  simp only [List.map_cons, List.map_nil, List.cons.injEq, Prod.mk.injEq, and_true] at hf
  obtain ⟨⟨hpc₀, htype₀, hamount₀, hrc₀, hinfo₀⟩, hpc₁, htype₁, hamount₁, hrc₁, hinfo₁⟩ := hf
  obtain ⟨noted, hp⟩ : ∃ noted, (undisturbedRuns Sample.sha256sum (fun _ => True)
      Sample.adminOnly 2).Reachable (s, noted) := hs.exists_record
  have hbefore : ∀ {before info amount : UInt32}, info = before - amount →
      before = info + amount := fun h => by rw [h, sub_add_cancel]
  obtain ⟨before₀, hnoted₀, hreported₀, -⟩ :=
    reported_balance hp 0 (by rw [hpc₀]; rfl) htype₀ hrc₀
  obtain ⟨before₁, hnoted₁, hreported₁, -⟩ :=
    reported_balance hp 1 (by rw [hpc₁]; rfl) htype₁ hrc₁
  rw [hinfo₀, hamount₀] at hreported₀
  rw [hinfo₁, hamount₁] at hreported₁
  obtain rfl := hbefore hreported₀
  obtain rfl := hbefore hreported₁
  exact ⟨(s, noted), hp, hpc₀, hnoted₀, hinfo₀, hpc₁, hnoted₁, hinfo₁⟩

/-- Office 0 debits 50 from an account with 100 and releases it; before its
report office 1 debits 20. The first transfer then reports 30. -/
theorem reported_balance_disturbed : ∃ s s' : System 2,
    (bankOffices Sample.sha256sum (fun _ => True) Sample.adminOnly 2).Reachable s ∧
    (bankOffices Sample.sha256sum (fun _ => True) Sample.adminOnly 2).Reaches s s' ∧
    s.pc 0 = .subtractWrite 1 1 50 ∧ (s.table 1).map BankAccount.balance = some 100 ∧
    s'.pc 0 = .replyWrite (some 9) ∧ s'.requests 0 = Sample.transfer 9 50 ∧
    (s'.offices 0).reply.retCode = .ok ∧ (s'.offices 0).reply.info = 30 := by
  obtain ⟨s, s', hs, hreaches, hf, hf'⟩ : ∃ s s' : System 2,
      (bankOffices Sample.sha256sum (fun _ => True) Sample.adminOnly 2).Reachable s ∧
      (bankOffices Sample.sha256sum (fun _ => True) Sample.adminOnly 2).Reaches s s' ∧
      (s.pc 0, (s.table 1).map BankAccount.balance) = (.subtractWrite 1 1 50, some 100) ∧
      (s'.pc 0, s'.requests 0, (s'.offices 0).reply.retCode, (s'.offices 0).reply.info) =
        (.replyWrite (some 9), Sample.transfer 9 50, .ok, 30) :=
    execute_reaches Sample.emptyReply (Sample.shutdown 0)
      (Sample.serve 0 (Sample.create 7 1 100 Sample.password₁) 19 ++
        Sample.serve 0 (Sample.create 8 2 200 Sample.password₂) 19 ++
        Sample.serve 0 (Sample.transfer 9 50) 12)
      (Sample.steps 0 5 ++ Sample.serve 1 (Sample.transfer 10 20) 25 ++ Sample.steps 0 7)
      (by decide +kernel)
  simp only [Prod.mk.injEq] at hf hf'
  exact ⟨s, s', hs, hreaches, hf.1, hf.2, hf'⟩

end HomeBanking
