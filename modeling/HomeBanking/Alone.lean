import HomeBanking.Processing
import HomeBanking.Offices

/-!
# One office alone

`processRequest` is modelled twice: as one call on the bank, and as the steps
of an office between which other offices may take theirs. A call that returns
is a run of the office in which the others rest, so what is shown of every
interleaving includes what the calls do.
-/

namespace HomeBanking

variable {n : ℕ}

theorem Office.withEntry_of_lt (o : Office) (t : Table) {id : UInt32}
    (hid : id < maxBankAccounts) (k : Option BankAccount → Action × Office) :
    o.withEntry t id k = k (t id) := if_pos hid

theorem Office.withAccount_of_eq_some (o : Office) {t : Table} {id : UInt32} {a : BankAccount}
    (hid : id < maxBankAccounts) (ha : t id = some a) (k : BankAccount → Action × Office) :
    o.withAccount t id k = k a := by
  rw [Office.withAccount, o.withEntry_of_lt t hid, ha]
  rfl

theorem Office.withMutex_of_lt (o : Office) {id : UInt32} (hid : id < maxBankAccounts)
    (k : Action × Office) : o.withMutex id k = k := if_pos hid

theorem Bank.apply_lock {b : Bank (Fin n)} {id : UInt32} (i : Fin n) (h : b.mutex id = none) :
    b.apply i (.lock id) = some (b.setMutex id (some i)) := by
  simp [Bank.apply, h]

section Alone

variable (sha256sum : CString → CString) (salt : CString) (req : TlvRequest) (i : Fin n)

/-- Office `i` takes a step while the others rest. -/
def AloneStep (p q : Bank (Fin n) × Office) : Prop :=
  ∃ act, officeStep sha256sum ⟨salt, true⟩ req p.1 p.2 = some (act, q.2) ∧
    p.1.apply i act = some q.1

/-- Office `i` takes some steps while the others rest. -/
abbrev Alone : Bank (Fin n) × Office → Bank (Fin n) × Office → Prop :=
  Relation.ReflTransGen (AloneStep sha256sum salt req i)

variable {sha256sum salt req i} {b b' : Bank (Fin n)} {r : TlvReply} {p : Bank (Fin n) × Office}

theorem alone_step {pc : Pc} {act : Action} {o : Office}
    (hstep : officeStep sha256sum ⟨salt, true⟩ req b ⟨pc, r⟩ = some (act, o))
    (hb : b.apply i act = some b') (h : Alone sha256sum salt req i (b', o) p) :
    Alone sha256sum salt req i (b, ⟨pc, r⟩) p :=
  .head ⟨act, hstep, hb⟩ h

theorem alone_enter (hactive : b.activeMutex = none) :
    Alone sha256sum salt req i (b, ⟨.activeLock .enter, r⟩)
      ({ b with activeBankOffices := b.activeBankOffices + 1 }, ⟨.login, r.start req.type⟩) := by
  obtain ⟨t, mutex, active, offices, down, readOnly⟩ := b
  obtain rfl : active = none := hactive
  exact alone_step rfl rfl (alone_step rfl rfl (alone_step rfl rfl (alone_step rfl rfl .refl)))

theorem alone_leave (hactive : b.activeMutex = none) :
    Alone sha256sum salt req i (b, ⟨.activeLock .leave, r⟩)
      ({ b with activeBankOffices := b.activeBankOffices - 1 }, ⟨.ret, r⟩) := by
  obtain ⟨t, mutex, active, offices, down, readOnly⟩ := b
  obtain rfl : active = none := hactive
  exact alone_step rfl rfl (alone_step rfl rfl (alone_step rfl rfl (alone_step rfl rfl .refl)))

theorem alone_login (hid : req.headerId < maxBankAccounts)
    (hlogin : loginOk sha256sum req b.bankAccounts = true) :
    Alone sha256sum salt req i (b, ⟨.login, r⟩) (b, ⟨.dispatch, r⟩) := by
  unfold loginOk at hlogin
  split at hlogin
  · cases hlogin
  · rename_i a ha
    refine alone_step (congrArg some ((Office.withEntry_of_lt _ _ hid _).trans (by rw [ha])))
      rfl ?_
    refine alone_step (congrArg some (Office.withAccount_of_eq_some _ hid ha _)) rfl ?_
    refine alone_step (congrArg some ((Office.withAccount_of_eq_some _ hid ha _).trans
      (if_pos (of_decide_eq_true hlogin)))) rfl ?_
    exact .refl

theorem alone_loginFail (hid : req.headerId < maxBankAccounts)
    (hlogin : loginOk sha256sum req b.bankAccounts = false) :
    Alone sha256sum salt req i (b, ⟨.login, r⟩) (b, ⟨.ret, r.setRetCode .loginFail⟩) := by
  unfold loginOk at hlogin
  split at hlogin
  · rename_i hnone
    refine alone_step (congrArg some ((Office.withEntry_of_lt _ _ hid _).trans
      (by rw [hnone]))) rfl ?_
    exact .refl
  · rename_i a ha
    refine alone_step (congrArg some ((Office.withEntry_of_lt _ _ hid _).trans (by rw [ha])))
      rfl ?_
    refine alone_step (congrArg some (Office.withAccount_of_eq_some _ hid ha _)) rfl ?_
    refine alone_step (congrArg some ((Office.withAccount_of_eq_some _ hid ha _).trans
      (if_neg (of_decide_eq_false hlogin)))) rfl ?_
    exact .refl

variable {w w' : World (Fin n)}

theorem alone_create (h : CreateExit sha256sum salt req w w') :
    Alone sha256sum salt req i (w.bank, ⟨.createCheck, w.reply⟩)
      (w'.bank, ⟨.activeLock .leave, w'.reply⟩) := by
  cases h with
  | notAllowed hadmin =>
      refine alone_step (congrArg some (if_pos hadmin)) rfl ?_
      exact .refl
  | inUse hadmin hid hsome =>
      obtain ⟨a, ha⟩ := Option.isSome_iff_exists.mp hsome
      refine alone_step (congrArg some ((if_neg (not_not.mpr hadmin)).trans
        ((Office.withEntry_of_lt _ _ hid _).trans (by rw [ha])))) rfl ?_
      exact .refl
  | done hadmin hid hnone hfree =>
      refine alone_step (congrArg some ((if_neg (not_not.mpr hadmin)).trans
        ((Office.withEntry_of_lt _ _ hid _).trans (by rw [hnone])))) rfl ?_
      refine alone_step (congrArg some (Office.withMutex_of_lt _ hid _))
        (Bank.apply_lock i hfree) ?_
      refine alone_step (congrArg some (Office.withMutex_of_lt _ hid _)) rfl ?_
      refine alone_step (congrArg some (Office.withMutex_of_lt _ hid _)) rfl ?_
      have hunlock := Bank.setMutex_setMutex_none (w.bank.setAccount req.createId
        (newAccount sha256sum salt req.createId req.value.create.balance
          req.value.create.password)) (some i) hfree
      change Alone sha256sum salt req i (((w.bank.setAccount req.createId _).setMutex
        req.createId (some i)).setMutex req.createId none, _) _
      rw [hunlock]

theorem alone_balance (hid : req.headerId < maxBankAccounts) (h : BalanceExit req w w') :
    Alone sha256sum salt req i (w.bank, ⟨.balanceCheck, w.reply⟩)
      (w'.bank, ⟨.activeLock .leave, w'.reply⟩) := by
  cases h with
  | notAllowed hadmin =>
      refine alone_step (congrArg some (if_pos hadmin)) rfl ?_
      exact .refl
  | done src hadmin hsrc hfree =>
      refine alone_step (congrArg some (if_neg hadmin)) rfl ?_
      refine alone_step (congrArg some (Office.withMutex_of_lt _ hid _))
        (Bank.apply_lock i hfree) ?_
      refine alone_step (congrArg some (Office.withAccount_of_eq_some _ hid hsrc _)) rfl ?_
      refine alone_step (congrArg some (Office.withMutex_of_lt _ hid _)) rfl ?_
      rw [Bank.setMutex_setMutex_none w.bank (some i) hfree]

/-- Both mutexes of a transfer are taken, in the order of the ids. -/
theorem alone_lockBoth (hin : req.headerId < maxBankAccounts ∧ req.transferId < maxBankAccounts)
    (hne : req.transferId ≠ req.headerId) (hfree : TransferFree req b) :
    Alone sha256sum salt req i (b, ⟨.transferLock₁ req.headerId req.transferId, r⟩)
      (b.lockBoth i req.headerId req.transferId, ⟨.subtractRead req.headerId, r⟩) := by
  have hlock : ∀ id addId first second : UInt32, firstLock id addId = first →
      secondLock id addId = second → first < maxBankAccounts → second < maxBankAccounts →
      second ≠ first → b.mutex first = none → b.mutex second = none →
      Alone sha256sum salt req i (b, ⟨.transferLock₁ id addId, r⟩)
        (b.lockBoth i first second, ⟨.subtractRead id, r⟩) := by
    rintro id addId _ _ rfl rfl hlt₁ hlt₂ hne hfree₁ hfree₂
    refine alone_step (congrArg some (Office.withMutex_of_lt _ hlt₁ _))
      (Bank.apply_lock i hfree₁) ?_
    refine alone_step (congrArg some (Office.withMutex_of_lt _ hlt₂ _))
      (Bank.apply_lock i ?_) ?_
    · rw [Bank.setMutex_mutex, Function.update_of_ne hne, hfree₂]
    · exact .refl
  cases hfirst : subtractsFirst req.headerId req.transferId with
  | true =>
      exact hlock _ _ _ _ (by simp [firstLock, hfirst]) (by simp [secondLock, hfirst]) hin.1 hin.2
        hne hfree.1 hfree.2
  | false =>
      rw [Bank.lockBoth_comm b i hne.symm]
      exact hlock _ _ _ _ (by simp [firstLock, hfirst]) (by simp [secondLock, hfirst]) hin.2 hin.1
        hne.symm hfree.2 hfree.1

/-- A transfer that passes the validation has taken both mutexes. -/
theorem alone_transferValid {src dst : BankAccount}
    (hv : TransferValid req b.bankAccounts src dst) (hfree : TransferFree req b) :
    Alone sha256sum salt req i (b, ⟨.transferCheck, r⟩)
      (b.lockBoth i req.headerId req.transferId,
        ⟨.subtractRead req.headerId, (transferReply req r).setRetCode .ok⟩) := by
  have hcheck : officeStep sha256sum ⟨salt, true⟩ req b ⟨.transferCheck, r⟩ = some (.skip,
      ⟨.transferLock₁ req.headerId req.transferId, (transferReply req r).setRetCode .ok⟩) := by
    refine congrArg some ((if_neg hv.notAdmin).trans
      ((Office.withEntry_of_lt _ _ hv.inArray.2 _).trans ?_))
    rw [hv.dest]
    exact if_neg hv.distinct
  exact alone_step hcheck rfl (alone_lockBoth hv.inArray hv.distinct hfree)

theorem debit_dest {src dst : BankAccount} (hv : TransferValid req b.bankAccounts src dst) :
    ((b.lockBoth i req.headerId req.transferId).debit req src).bankAccounts req.transferId =
      some dst := by
  rw [Bank.debit, Bank.setBalance_bankAccounts_of_ne _ _ hv.distinct, Bank.lockBoth_bankAccounts,
    hv.dest]

/-- The debit has been written and the credit is about to be checked. -/
theorem alone_debited {src dst : BankAccount} (hv : TransferValid req b.bankAccounts src dst)
    (hfree : TransferFree req b)
    (hfunds : ¬ subtractedBalance src.balance req.amount < minBalance) :
    Alone sha256sum salt req i (b, ⟨.transferCheck, r⟩)
      ((b.lockBoth i req.headerId req.transferId).debit req src,
        ⟨.addRead req.headerId, (transferReply req r).setRetCode .ok⟩) := by
  have hsrc : (b.lockBoth i req.headerId req.transferId).bankAccounts req.headerId = some src :=
    hv.source
  refine (alone_transferValid hv hfree).trans ?_
  refine alone_step (congrArg some ((Office.withAccount_of_eq_some _ hv.inArray.1 hsrc _).trans
    (if_neg hfunds))) rfl ?_
  refine alone_step (congrArg some (Office.withAccount_of_eq_some _ hv.inArray.1 hsrc _)) rfl ?_
  exact .refl

/-- The credit has been written and the mutexes have been released. -/
theorem alone_credit {dst : BankAccount}
    (hin : req.headerId < maxBankAccounts ∧ req.transferId < maxBankAccounts)
    (hdst : b.bankAccounts req.transferId = some dst)
    (hroom : ¬ maxBalance < addedBalance dst.balance req.amount) :
    Alone sha256sum salt req i (b, ⟨.addRead req.headerId, r⟩)
      (((b.credit req dst).setMutex req.headerId none).setMutex req.transferId none,
        ⟨.transferReport req.headerId, r⟩) := by
  refine alone_step (congrArg some ((Office.withAccount_of_eq_some _ hin.2 hdst _).trans
    (if_neg hroom))) rfl ?_
  refine alone_step (congrArg some (Office.withAccount_of_eq_some _ hin.2 hdst _)) rfl ?_
  refine alone_step (congrArg some (Office.withMutex_of_lt _ hin.1 _)) rfl ?_
  refine alone_step (congrArg some (Office.withMutex_of_lt _ hin.2 _)) rfl ?_
  exact .refl

theorem alone_transfer (h : TransferExit i req w w') :
    Alone sha256sum salt req i (w.bank, ⟨.transferCheck, w.reply⟩)
      (w'.bank, ⟨.activeLock .leave, w'.reply⟩) := by
  cases h with
  | notAllowed hadmin =>
      refine alone_step (congrArg some (if_pos hadmin)) rfl ?_
      exact .refl
  | notFound hadmin hid hnone =>
      refine alone_step (congrArg some ((if_neg hadmin).trans
        ((Office.withEntry_of_lt _ _ hid _).trans (by rw [hnone])))) rfl ?_
      exact .refl
  | sameId hadmin hid hsome hsame =>
      obtain ⟨a, ha⟩ := Option.isSome_iff_exists.mp hsome
      have hcheck : officeStep sha256sum ⟨salt, true⟩ req w.bank ⟨.transferCheck, w.reply⟩ =
          some (.refuse .sameId,
            ⟨.activeLock .leave, (transferReply req w.reply).setRetCode .sameId⟩) := by
        refine congrArg some ((if_neg hadmin).trans
          ((Office.withEntry_of_lt _ _ hid _).trans ?_))
        rw [ha]
        exact if_pos hsame
      exact alone_step hcheck rfl .refl
  | noFunds src dst hv hf hlow =>
      refine (alone_transferValid hv hf).trans ?_
      refine alone_step (congrArg some ((Office.withAccount_of_eq_some _ hv.inArray.1
        hv.source _).trans (if_pos hlow))) rfl ?_
      exact .refl
  | tooHigh src dst hv hf hfunds hhigh =>
      refine (alone_debited hv hf hfunds).trans ?_
      refine alone_step (congrArg some ((Office.withAccount_of_eq_some _ hv.inArray.2
        (debit_dest hv) _).trans (if_pos hhigh))) rfl ?_
      exact .refl
  | done src dst hv hf hfunds hroom =>
      refine (alone_debited hv hf hfunds).trans
        ((alone_credit hv.inArray (debit_dest hv) hroom).trans ?_)
      rw [unlock_debit_credit i req w.bank src dst hf]
      refine alone_step (congrArg some (Office.withAccount_of_eq_some _ hv.inArray.1
        (debit_credit_source req hv) _)) rfl ?_
      exact .refl

theorem alone_shutDown (h : ShutDownExit req w w') :
    Alone sha256sum salt req i (w.bank, ⟨.shutdownCheck, w.reply⟩)
      (w'.bank, ⟨.activeLock .leave, w'.reply⟩) := by
  cases h with
  | notAllowed hadmin =>
      refine alone_step (congrArg some (if_pos hadmin)) rfl ?_
      exact .refl
  | done hadmin =>
      refine alone_step (congrArg some (if_neg (not_not.mpr hadmin))) rfl ?_
      refine alone_step rfl rfl ?_
      refine alone_step rfl rfl ?_
      refine alone_step rfl rfl ?_
      exact .refl

theorem alone_operation (hid : req.headerId < maxBankAccounts)
    (h : OpExit sha256sum i salt req w w') :
    Alone sha256sum salt req i (w.bank, ⟨.dispatch, w.reply⟩)
      (w'.bank, ⟨.activeLock .leave, w'.reply⟩) := by
  refine alone_step rfl rfl ?_
  change Alone sha256sum salt req i (w.bank, ⟨operationPc req.type, w.reply⟩) _
  cases h with
  | create ht h =>
      rw [ht]
      exact alone_create h
  | balance ht h =>
      rw [ht]
      exact alone_balance hid h
  | transfer ht h =>
      rw [ht]
      exact alone_transfer h
  | shutdown ht h =>
      rw [ht]
      exact alone_shutDown h
  | undefined code ht h =>
      rw [ht, h]
      exact .refl

/-- A call that returns is a run of the office in which the others rest. -/
theorem alone_processRequest (h : processRequest sha256sum i salt req w = .ok ((), w')) :
    Alone sha256sum salt req i (w.bank, ⟨.activeLock .enter, w.reply⟩)
      (w'.bank, ⟨.ret, w'.reply⟩) := by
  obtain ⟨hactive, hid, hexit⟩ := (processRequest_eq_ok sha256sum i salt req).mp h
  refine (alone_enter hactive).trans ?_
  cases hexit with
  | loginFail hlogin => exact alone_loginFail hid hlogin
  | op w₁ hlogin hop =>
      have hactive₁ : w₁.bank.activeMutex = none :=
        (OpExit.activeMutex sha256sum i salt req hop).trans hactive
      exact (alone_login (b := (begun req w).bank) hid hlogin).trans
        ((alone_operation hid hop).trans (alone_leave hactive₁))

end Alone

section Runs

variable {sha256sum : CString → CString} {ok : TlvRequest → Prop} {t₀ : Table} {salt : CString}
  {s : System n} {i : Fin n}

/-- Steps of one office alone are steps of the system. -/
theorem reaches_of_alone {p : Bank (Fin n) × Office}
    (h : Alone sha256sum salt (s.requests i) i (s.bank, s.offices i) p) :
    ∃ s', (bankOffices sha256sum ok t₀ n).Reaches s s' ∧ s'.bank = p.1 ∧
      s'.offices = Function.update s.offices i p.2 ∧ s'.requests = s.requests := by
  induction h with
  | refl => exact ⟨s, .refl, rfl, (Function.update_eq_self i s.offices).symm, rfl⟩
  | @tail p q _ hstep ih =>
      obtain ⟨s', hr, hbank, hoffices, hrequests⟩ := ih
      obtain ⟨act, hact, hb⟩ := hstep
      have hnext : s'.next sha256sum (.act i ⟨salt, true⟩) = some (s'.perform i act q.1 q.2) := by
        simp only [System.next, hbank, hoffices, hrequests, Function.update_self, hact,
          Option.bind_some, hb, Option.map_some]
      refine ⟨s'.perform i act q.1 q.2, .tail hr ⟨_, hnext, fun j req hl => by cases hl⟩, rfl,
        ?_, hrequests⟩
      change Function.update s'.offices i q.2 = _
      rw [hoffices, Function.update_idem]

/-- From any state, an idle office can process an allowed request as the call
does, when the call returns. -/
theorem reaches_processRequest {req : TlvRequest} {w' : World (Fin n)} (hidle : s.pc i = .idle)
    (hok : ok req)
    (h : processRequest sha256sum i salt req ⟨s.bank, (s.offices i).reply⟩ = .ok ((), w')) :
    ∃ s', (bankOffices sha256sum ok t₀ n).Reaches s s' ∧ s'.bank = w'.bank ∧
      s'.offices = Function.update s.offices i ⟨.ret, w'.reply⟩ ∧
      s'.requests = Function.update s.requests i req := by
  have hgive : (bankOffices sha256sum ok t₀ n).step s (.give i req) (s.give i req) := by
    refine ⟨?_, fun j req' hl => by cases hl; exact hok⟩
    simp only [System.next, hidle, if_true]
  have halone := alone_processRequest h
  rw [← s.give_requests_self i req, ← s.give_offices_self i req] at halone
  obtain ⟨s', hr, hbank, hoffices, hrequests⟩ := reaches_of_alone (s := s.give i req) halone
  refine ⟨s', .head ⟨_, hgive⟩ hr, hbank, ?_, hrequests⟩
  rw [hoffices]
  exact Function.update_idem _ _ _

end Runs

end HomeBanking
