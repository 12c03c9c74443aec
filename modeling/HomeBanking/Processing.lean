import HomeBanking.Bank

/-!
# What a returning call does

Every function of one request is inverted once: from a call that returns, the
conditions it met and the world it left. `Exit` lists the fifteen ways in which
`processRequest` returns, and `processRequest_eq_ok` says that these are all.

## Implementation notes

The inversion lemmas are equivalences, so they also show that a call returns
when its conditions are met. A taken mutex on the way is the only obstacle for
requests whose ids are inside the array.
-/

namespace HomeBanking

variable {ι : Type} {α β : Type}

namespace BankM

theorem bind_eq_ok {x : BankM ι α} {f : α → BankM ι β} {w : World ι} {r : β × World ι} :
    (x >>= f) w = .ok r ↔ ∃ a w', x w = .ok (a, w') ∧ f a w' = .ok r := by
  change StateT.bind x f w = _ ↔ _
  unfold StateT.bind
  cases hx : x w with
  | error e => simp [bind, Except.bind]
  | ok p =>
      obtain ⟨a, w'⟩ := p
      simp [bind, Except.bind]

theorem pure_eq_ok {a : α} {w : World ι} {r : α × World ι} :
    (pure a : BankM ι α) w = .ok r ↔ r = (a, w) := by
  change Except.ok (a, w) = _ ↔ _
  simp [eq_comm]

theorem ite_eq_ok {c : Prop} [Decidable c] {x y : BankM ι α} {w : World ι} {r : α × World ι} :
    (if c then x else y) w = .ok r ↔ (c ∧ x w = .ok r) ∨ (¬ c ∧ y w = .ok r) := by
  split <;> simp [*]

theorem throw_eq_ok {e : Halt} {w : World ι} {r : α × World ι} :
    (throw e : BankM ι α) w = .ok r ↔ False := by
  change Except.error e = _ ↔ _
  simp

theorem get_eq_ok {w : World ι} {r : World ι × World ι} :
    (get : BankM ι (World ι)) w = .ok r ↔ r = (w, w) := by
  change Except.ok (w, w) = _ ↔ _
  simp [eq_comm]

theorem modifyBank_eq_ok {f : Bank ι → Bank ι} {w : World ι} {r : Unit × World ι} :
    modifyBank f w = .ok r ↔ r = ((), { w with bank := f w.bank }) := by
  simp [modifyBank, eq_comm]

theorem modifyReply_eq_ok {f : TlvReply → TlvReply} {w : World ι} {r : Unit × World ι} :
    modifyReply f w = .ok r ↔ r = ((), { w with reply := f w.reply }) := by
  simp [modifyReply, eq_comm]

theorem account_eq_ok {id : UInt32} {w : World ι} {r : BankAccount × World ι} :
    account id w = .ok r ↔
      id < maxBankAccounts ∧ w.bank.bankAccounts id = some r.1 ∧ r.2 = w := by
  unfold account
  by_cases h : id < maxBankAccounts
  · cases hb : w.bank.bankAccounts id with
    | none => simp [h]
    | some a => simp [h, Prod.ext_iff, eq_comm]
  · simp [h]

theorem accountExists_eq_ok {id : UInt32} {w : World ι} {r : Bool × World ι} :
    accountExists id w = .ok r ↔
      id < maxBankAccounts ∧ r = ((w.bank.bankAccounts id).isSome, w) := by
  have hentry : ∀ {q : Option BankAccount × World ι}, entry id w = .ok q ↔
      id < maxBankAccounts ∧ q = (w.bank.bankAccounts id, w) := by
    intro q
    unfold entry
    by_cases h : id < maxBankAccounts <;> simp [h, eq_comm]
  simp only [accountExists, bind_eq_ok, pure_eq_ok, hentry]
  simp [and_assoc]

theorem bankAccountLock_eq_ok {me : ι} {id : UInt32} {w : World ι} {r : Unit × World ι} :
    bankAccountLock me id w = .ok r ↔ id < maxBankAccounts ∧ w.bank.mutex id = none ∧
      r = ((), { w with bank := w.bank.setMutex id (some me) }) := by
  unfold bankAccountLock
  by_cases h : id < maxBankAccounts
  · cases hm : w.bank.mutex id <;> simp [h, eq_comm]
  · simp [h]

theorem bankAccountUnlock_eq_ok {id : UInt32} {w : World ι} {r : Unit × World ι} :
    bankAccountUnlock id w = .ok r ↔ id < maxBankAccounts ∧
      r = ((), { w with bank := w.bank.setMutex id none }) := by
  unfold bankAccountUnlock
  by_cases h : id < maxBankAccounts <;> simp [h, eq_comm]

theorem activeOfficesLock_eq_ok {me : ι} {w : World ι} {r : Unit × World ι} :
    activeOfficesLock me w = .ok r ↔ w.bank.activeMutex = none ∧
      r = ((), { w with bank.activeMutex := some me }) := by
  unfold activeOfficesLock
  cases hm : w.bank.activeMutex <;> simp [eq_comm]

/-- A result that is known can be put in place. -/
theorem exists_pair_eq {a₀ : α} {w₀ : World ι} {p : α → World ι → Prop} :
    (∃ a w, (a, w) = (a₀, w₀) ∧ p a w) ↔ p a₀ w₀ := by
  simp [Prod.ext_iff, and_assoc]

end BankM

namespace Bank

@[simp] theorem setMutex_bankAccounts (b : Bank ι) (id : UInt32) (o : Option ι) :
    (b.setMutex id o).bankAccounts = b.bankAccounts := rfl
@[simp] theorem setMutex_mutex (b : Bank ι) (id : UInt32) (o : Option ι) :
    (b.setMutex id o).mutex = Function.update b.mutex id o := rfl
@[simp] theorem setMutex_serverDown (b : Bank ι) (id : UInt32) (o : Option ι) :
    (b.setMutex id o).serverDown = b.serverDown := rfl
@[simp] theorem setMutex_activeMutex (b : Bank ι) (id : UInt32) (o : Option ι) :
    (b.setMutex id o).activeMutex = b.activeMutex := rfl

@[simp] theorem setAccount_bankAccounts (b : Bank ι) (id : UInt32) (a : BankAccount) :
    (b.setAccount id a).bankAccounts = Function.update b.bankAccounts id (some a) := rfl
@[simp] theorem setAccount_mutex (b : Bank ι) (id : UInt32) (a : BankAccount) :
    (b.setAccount id a).mutex = b.mutex := rfl
@[simp] theorem setAccount_serverDown (b : Bank ι) (id : UInt32) (a : BankAccount) :
    (b.setAccount id a).serverDown = b.serverDown := rfl
@[simp] theorem setAccount_activeMutex (b : Bank ι) (id : UInt32) (a : BankAccount) :
    (b.setAccount id a).activeMutex = b.activeMutex := rfl

@[simp] theorem setBalance_mutex (b : Bank ι) (id x : UInt32) :
    (b.setBalance id x).mutex = b.mutex := rfl
@[simp] theorem setBalance_serverDown (b : Bank ι) (id x : UInt32) :
    (b.setBalance id x).serverDown = b.serverDown := rfl
@[simp] theorem setBalance_activeMutex (b : Bank ι) (id x : UInt32) :
    (b.setBalance id x).activeMutex = b.activeMutex := rfl

theorem setBalance_bankAccounts (b : Bank ι) {id : UInt32} {a : BankAccount} (x : UInt32)
    (h : b.bankAccounts id = some a) : (b.setBalance id x).bankAccounts =
      Function.update b.bankAccounts id (some { a with balance := x }) := by
  simp [setBalance, h]

theorem setBalance_bankAccounts_self (b : Bank ι) (id x : UInt32) :
    (b.setBalance id x).bankAccounts id =
      (b.bankAccounts id).map fun a => { a with balance := x } := by
  simp [setBalance]

theorem setBalance_bankAccounts_of_ne (b : Bank ι) {id j : UInt32} (x : UInt32) (h : j ≠ id) :
    (b.setBalance id x).bankAccounts j = b.bankAccounts j := by
  simp [setBalance, h]

/-- Releasing a lock that was free restores the bank. -/
theorem setMutex_setMutex_none (b : Bank ι) {id : UInt32} (o : Option ι)
    (h : b.mutex id = none) : (b.setMutex id o).setMutex id none = b := by
  have hm : Function.update b.mutex id none = b.mutex := by
    rw [← h, Function.update_eq_self]
  simp [setMutex, hm]

end Bank

variable (sha256sum : CString → CString) (me : ι) (salt : CString) (req : TlvRequest)

/-- The header names an account and carries its password. -/
def loginOk (t : Table) : Bool :=
  match t req.headerId with
  | none => false
  | some a => passwordMatches sha256sum req.value.header.password a

theorem validateLogin_eq_ok {w : World ι} {r : Bool × World ι} :
    validateLogin sha256sum req w = .ok r ↔ req.headerId < maxBankAccounts ∧
      r = (loginOk sha256sum req w.bank.bankAccounts, w) := by
  simp only [validateLogin, BankM.bind_eq_ok, BankM.ite_eq_ok, BankM.pure_eq_ok,
    BankM.accountExists_eq_ok, BankM.account_eq_ok]
  cases ht : w.bank.bankAccounts req.headerId with
  | none => simp [ht, loginOk]
  | some a => simp [ht, loginOk]

theorem validateCreateAccount_eq_ok {w : World ι} {r : ℤ × World ι} :
    validateCreateAccount req w = .ok r ↔
      (req.headerId ≠ 0 ∧ r = (-1, { w with reply := w.reply.setRetCode .opNAllow })) ∨
      (req.headerId = 0 ∧ req.createId < maxBankAccounts ∧
        (w.bank.bankAccounts req.createId).isSome ∧
        r = (-2, { w with reply := w.reply.setRetCode .idInUse })) ∨
      (req.headerId = 0 ∧ req.createId < maxBankAccounts ∧
        w.bank.bankAccounts req.createId = none ∧
        r = (0, { w with reply := w.reply.setRetCode .ok })) := by
  simp only [validateCreateAccount, BankM.bind_eq_ok, BankM.ite_eq_ok, BankM.pure_eq_ok,
    BankM.accountExists_eq_ok, BankM.modifyReply_eq_ok]
  by_cases hadmin : req.headerId = 0
  · cases ht : w.bank.bankAccounts req.createId <;>
      simp [checkAdminOperation, hadmin, ht, TlvReply.setRetCode]
  · simp [checkAdminOperation, hadmin, TlvReply.setRetCode]

theorem validateOPBalance_eq_ok {w : World ι} {r : ℤ × World ι} :
    validateOPBalance req w = .ok r ↔
      (req.headerId = 0 ∧ r = (-1, { w with reply := w.reply.setRetCode .opNAllow })) ∨
      (req.headerId ≠ 0 ∧ r = (0, { w with reply := w.reply.setRetCode .ok })) := by
  simp only [validateOPBalance, BankM.bind_eq_ok, BankM.ite_eq_ok, BankM.pure_eq_ok,
    BankM.modifyReply_eq_ok]
  by_cases hadmin : req.headerId = 0 <;> simp [checkAdminOperation, hadmin, TlvReply.setRetCode]

theorem validateOPTransfer_eq_ok {w : World ι} {r : ℤ × World ι} :
    validateOPTransfer req w = .ok r ↔
      (req.headerId = 0 ∧ r = (-1, { w with reply := w.reply.setRetCode .opNAllow })) ∨
      (req.headerId ≠ 0 ∧ req.transferId < maxBankAccounts ∧
        w.bank.bankAccounts req.transferId = none ∧
        r = (-2, { w with reply := w.reply.setRetCode .idNotFound })) ∨
      (req.headerId ≠ 0 ∧ req.transferId < maxBankAccounts ∧
        (w.bank.bankAccounts req.transferId).isSome ∧ req.transferId = req.headerId ∧
        r = (-3, { w with reply := w.reply.setRetCode .sameId })) ∨
      (req.headerId ≠ 0 ∧ req.transferId < maxBankAccounts ∧
        (w.bank.bankAccounts req.transferId).isSome ∧ req.transferId ≠ req.headerId ∧
        r = (0, { w with reply := w.reply.setRetCode .ok })) := by
  simp only [validateOPTransfer, BankM.bind_eq_ok, BankM.ite_eq_ok, BankM.pure_eq_ok,
    BankM.accountExists_eq_ok, BankM.modifyReply_eq_ok]
  by_cases hadmin : req.headerId = 0
  · simp [checkAdminOperation, hadmin, TlvReply.setRetCode]
  · cases ht : w.bank.bankAccounts req.transferId with
    | none => simp [checkAdminOperation, hadmin, ht, TlvReply.setRetCode]
    | some a =>
        simp [checkAdminOperation, hadmin, ht, TlvReply.setRetCode]
        tauto

theorem validateShutDown_eq_ok {w : World ι} {r : ℤ × World ι} :
    validateShutDown req w = .ok r ↔
      (req.headerId ≠ 0 ∧ r = (-1, { w with reply := w.reply.setRetCode .opNAllow })) ∨
      (req.headerId = 0 ∧ r = (0, { w with reply := w.reply.setRetCode .ok })) := by
  simp only [validateShutDown, BankM.bind_eq_ok, BankM.ite_eq_ok, BankM.pure_eq_ok,
    BankM.modifyReply_eq_ok]
  by_cases hadmin : req.headerId = 0 <;> simp [checkAdminOperation, hadmin, TlvReply.setRetCode]

/-- Both mutexes of a transfer are taken. -/
def Bank.lockBoth (b : Bank ι) (me : ι) (i j : UInt32) : Bank ι :=
  (b.setMutex i (some me)).setMutex j (some me)

@[simp] theorem Bank.lockBoth_bankAccounts (b : Bank ι) (me : ι) (i j : UInt32) :
    (b.lockBoth me i j).bankAccounts = b.bankAccounts := rfl
@[simp] theorem Bank.lockBoth_serverDown (b : Bank ι) (me : ι) (i j : UInt32) :
    (b.lockBoth me i j).serverDown = b.serverDown := rfl

theorem Bank.lockBoth_comm (b : Bank ι) (me : ι) {i j : UInt32} (h : i ≠ j) :
    b.lockBoth me i j = b.lockBoth me j i := by
  simp [lockBoth, setMutex, Function.update_comm h]

theorem lockAccountsTranfer_eq_ok {w : World ι} {r : Unit × World ι} :
    lockAccountsTranfer me req w = .ok r ↔
      (req.headerId < maxBankAccounts ∧ req.transferId < maxBankAccounts) ∧
      (req.transferId ≠ req.headerId ∧ w.bank.mutex req.headerId = none ∧
        w.bank.mutex req.transferId = none) ∧
      r = ((), { w with bank := w.bank.lockBoth me req.headerId req.transferId }) := by
  have hlock : ∀ i j : UInt32, (bankAccountLock me i >>= fun _ => bankAccountLock me j) w = .ok r ↔
      (i < maxBankAccounts ∧ j < maxBankAccounts) ∧
      (j ≠ i ∧ w.bank.mutex i = none ∧ w.bank.mutex j = none) ∧
      r = ((), { w with bank := w.bank.lockBoth me i j }) := by
    intro i j
    simp only [BankM.bind_eq_ok, BankM.bankAccountLock_eq_ok]
    by_cases hij : j = i
    · subst j
      simp
    · simp [hij, Bank.lockBoth]
      tauto
  unfold lockAccountsTranfer lockAccount
  cases subtractsFirst req.headerId req.transferId with
  | true => simpa using hlock req.headerId req.transferId
  | false =>
      have h := hlock req.transferId req.headerId
      by_cases hne : req.transferId = req.headerId
      · simpa [hne] using h
      · rw [Bank.lockBoth_comm _ _ hne] at h
        simp only [Bool.false_eq_true, if_false]
        rw [h]
        simp only [ne_eq, hne, Ne.symm hne, not_false_eq_true, true_and]
        tauto

theorem unlockAccountsTranfer_eq_ok {w : World ι} {r : Unit × World ι} :
    unlockAccountsTranfer req w = .ok r ↔
      (req.headerId < maxBankAccounts ∧ req.transferId < maxBankAccounts) ∧
      r = ((), { w with
        bank := (w.bank.setMutex req.headerId none).setMutex req.transferId none }) := by
  simp only [unlockAccountsTranfer, BankM.bind_eq_ok, BankM.bankAccountUnlock_eq_ok]
  simp [and_assoc]

/-- The write of `subtractBalance`. -/
def Bank.debit (b : Bank ι) (req : TlvRequest) (src : BankAccount) : Bank ι :=
  b.setBalance req.headerId (subtractedBalance src.balance req.amount).toUInt32

/-- The write of `addBalance`. -/
def Bank.credit (b : Bank ι) (req : TlvRequest) (dst : BankAccount) : Bank ι :=
  b.setBalance req.transferId (addedBalance dst.balance req.amount).toUInt32

theorem subtractBalance_eq_ok {w : World ι} {r : ℤ × World ι} :
    subtractBalance req w = .ok r ↔ req.headerId < maxBankAccounts ∧
      ∃ src, w.bank.bankAccounts req.headerId = some src ∧
        ((subtractedBalance src.balance req.amount < minBalance ∧ r = (-1, w)) ∨
         (¬ subtractedBalance src.balance req.amount < minBalance ∧
          r = (0, { w with bank := w.bank.debit req src }))) := by
  simp only [subtractBalance, Bank.debit, BankM.bind_eq_ok, BankM.ite_eq_ok, BankM.pure_eq_ok,
    BankM.modifyBank_eq_ok, BankM.account_eq_ok]
  simp [and_assoc]

theorem addBalance_eq_ok {w : World ι} {r : ℤ × World ι} :
    addBalance req w = .ok r ↔ req.transferId < maxBankAccounts ∧
      ∃ dst, w.bank.bankAccounts req.transferId = some dst ∧
        ((maxBalance < addedBalance dst.balance req.amount ∧ r = (-1, w)) ∨
         (¬ maxBalance < addedBalance dst.balance req.amount ∧
          r = (0, { w with bank := w.bank.credit req dst }))) := by
  simp only [addBalance, Bank.credit, BankM.bind_eq_ok, BankM.ite_eq_ok, BankM.pure_eq_ok,
    BankM.modifyBank_eq_ok, BankM.account_eq_ok]
  simp [and_assoc]

/-- The accounts of a transfer that passes validation. -/
structure TransferValid (t : Table) (src dst : BankAccount) : Prop where
  notAdmin : req.headerId ≠ 0
  inArray : req.headerId < maxBankAccounts ∧ req.transferId < maxBankAccounts
  source : t req.headerId = some src
  dest : t req.transferId = some dst
  distinct : req.transferId ≠ req.headerId

/-- No office holds a mutex the transfer takes. -/
def TransferFree (b : Bank ι) : Prop :=
  b.mutex req.headerId = none ∧ b.mutex req.transferId = none

/-- The ways in which the locked part of a transfer ends. -/
inductive TransferEnd (w : World ι) (src dst : BankAccount) : ℤ × World ι → Prop
  | noFunds (hlow : subtractedBalance src.balance req.amount < minBalance) :
      TransferEnd w src dst (-1, {
        bank := w.bank.lockBoth me req.headerId req.transferId
        reply := w.reply.setRetCode .noFunds })
  | tooHigh (hfunds : ¬ subtractedBalance src.balance req.amount < minBalance)
      (hhigh : maxBalance < addedBalance dst.balance req.amount) :
      TransferEnd w src dst (-1, {
        bank := (w.bank.lockBoth me req.headerId req.transferId).debit req src
        reply := w.reply.setRetCode .tooHigh })
  | done (hfunds : ¬ subtractedBalance src.balance req.amount < minBalance)
      (hroom : ¬ maxBalance < addedBalance dst.balance req.amount) :
      TransferEnd w src dst (0, { w with bank := (w.bank.debit req src).credit req dst })

/-- Releasing both mutexes after the two writes leaves only the writes. -/
theorem unlock_debit_credit (b : Bank ι) (src dst : BankAccount) (hf : TransferFree req b) :
    ((((b.lockBoth me req.headerId req.transferId).debit req src).credit req dst).setMutex
      req.headerId none).setMutex req.transferId none = (b.debit req src).credit req dst := by
  have hm : Function.update (Function.update (Function.update (Function.update b.mutex
      req.headerId (some me)) req.transferId (some me)) req.headerId none)
      req.transferId none = b.mutex := by
    funext j
    by_cases h₁ : j = req.transferId
    · subst j
      simp [hf.2]
    · by_cases h₂ : j = req.headerId
      · subst j
        simp [h₁, hf.1]
      · simp [h₁, h₂]
  simp only [Bank.lockBoth, Bank.debit, Bank.credit, Bank.setBalance, Bank.setMutex, hm]

theorem transference_eq_ok {w : World ι} {src dst : BankAccount}
    (hv : TransferValid req w.bank.bankAccounts src dst) {r : ℤ × World ι} :
    transference me req w = .ok r ↔ TransferFree req w.bank ∧ TransferEnd me req w src dst r := by
  obtain ⟨_, hin, hsrc, hdst, hne⟩ := hv
  have hdst' : ((w.bank.lockBoth me req.headerId req.transferId).debit req src).bankAccounts
      req.transferId = some dst := by
    rw [Bank.debit, Bank.setBalance_bankAccounts_of_ne _ _ hne]
    exact hdst
  simp only [transference, BankM.bind_eq_ok, BankM.ite_eq_ok, BankM.pure_eq_ok,
    BankM.modifyReply_eq_ok, lockAccountsTranfer_eq_ok, subtractBalance_eq_ok,
    addBalance_eq_ok, unlockAccountsTranfer_eq_ok]
  constructor
  · rintro ⟨_, w₁, ⟨_, ⟨_, hf⟩, he⟩, v, w₂, ⟨_, src', hs, hsub⟩, h⟩
    cases he
    obtain rfl : src = src' := by simpa [hsrc] using hs
    refine ⟨hf, ?_⟩
    rcases hsub with ⟨hlow, he⟩ | ⟨hfunds, he⟩
    · cases he
      rcases h with ⟨_, _, _, hr, rfl⟩ | ⟨hneg, _⟩
      · cases hr
        exact .noFunds hlow
      · exact absurd (by decide) hneg
    · cases he
      rcases h with ⟨hneg, _⟩ | ⟨_, v, w₃, ⟨_, dst', hd, hadd⟩, h⟩
      · exact absurd hneg (by decide)
      · obtain rfl : dst = dst' := by simpa [hdst'] using hd
        rcases hadd with ⟨hhigh, he⟩ | ⟨hroom, he⟩
        · cases he
          rcases h with ⟨_, _, _, hr, rfl⟩ | ⟨hneg, _⟩
          · cases hr
            exact .tooHigh hfunds hhigh
          · exact absurd (by decide) hneg
        · cases he
          rcases h with ⟨hneg, _⟩ | ⟨_, _, w₄, ⟨_, hu⟩, rfl⟩
          · exact absurd hneg (by decide)
          · cases hu
            rw [unlock_debit_credit me req w.bank src dst hf]
            exact .done hfunds hroom
  · rintro ⟨hf, he⟩
    refine ⟨(), _, ⟨hin, ⟨hne, hf⟩, rfl⟩, ?_⟩
    cases he with
    | noFunds hlow =>
        exact ⟨-1, _, ⟨hin.1, src, hsrc, .inl ⟨hlow, rfl⟩⟩,
          .inl ⟨by decide, (), _, rfl, rfl⟩⟩
    | tooHigh hfunds hhigh =>
        exact ⟨0, _, ⟨hin.1, src, hsrc, .inr ⟨hfunds, rfl⟩⟩, .inr ⟨by decide, -1, _,
          ⟨hin.2, dst, hdst', .inl ⟨hhigh, rfl⟩⟩, .inl ⟨by decide, (), _, rfl, rfl⟩⟩⟩
    | done hfunds hroom =>
        refine ⟨0, _, ⟨hin.1, src, hsrc, .inr ⟨hfunds, rfl⟩⟩, .inr ⟨by decide, 0, _,
          ⟨hin.2, dst, hdst', .inr ⟨hroom, rfl⟩⟩, .inr ⟨by decide, (), _, ⟨hin, rfl⟩, ?_⟩⟩⟩
        rw [unlock_debit_credit me req w.bank src dst hf]

/-- The ways in which `opTransfer` returns. -/
inductive TransferExit (w : World ι) : World ι → Prop
  | notAllowed (hadmin : req.headerId = 0) :
      TransferExit w { w with reply := (transferReply req w.reply).setRetCode .opNAllow }
  | notFound (hadmin : req.headerId ≠ 0) (hin : req.transferId < maxBankAccounts)
      (hnone : w.bank.bankAccounts req.transferId = none) :
      TransferExit w { w with reply := (transferReply req w.reply).setRetCode .idNotFound }
  | sameId (hadmin : req.headerId ≠ 0) (hin : req.transferId < maxBankAccounts)
      (hsome : (w.bank.bankAccounts req.transferId).isSome)
      (hsame : req.transferId = req.headerId) :
      TransferExit w { w with reply := (transferReply req w.reply).setRetCode .sameId }
  | noFunds (src dst : BankAccount) (hv : TransferValid req w.bank.bankAccounts src dst)
      (hf : TransferFree req w.bank)
      (hlow : subtractedBalance src.balance req.amount < minBalance) :
      TransferExit w {
        bank := w.bank.lockBoth me req.headerId req.transferId
        reply := (transferReply req w.reply).setRetCode .noFunds }
  | tooHigh (src dst : BankAccount) (hv : TransferValid req w.bank.bankAccounts src dst)
      (hf : TransferFree req w.bank)
      (hfunds : ¬ subtractedBalance src.balance req.amount < minBalance)
      (hhigh : maxBalance < addedBalance dst.balance req.amount) :
      TransferExit w {
        bank := (w.bank.lockBoth me req.headerId req.transferId).debit req src
        reply := (transferReply req w.reply).setRetCode .tooHigh }
  | done (src dst : BankAccount) (hv : TransferValid req w.bank.bankAccounts src dst)
      (hf : TransferFree req w.bank)
      (hfunds : ¬ subtractedBalance src.balance req.amount < minBalance)
      (hroom : ¬ maxBalance < addedBalance dst.balance req.amount) :
      TransferExit w {
        bank := (w.bank.debit req src).credit req dst
        reply := ((transferReply req w.reply).setRetCode .ok).setInfo
          (subtractedBalance src.balance req.amount).toUInt32 }

/-- After both writes the source entry holds the debited balance. -/
theorem debit_credit_source {b : Bank ι} {src dst : BankAccount}
    (hv : TransferValid req b.bankAccounts src dst) :
    ((b.debit req src).credit req dst).bankAccounts req.headerId =
      some { src with balance := (subtractedBalance src.balance req.amount).toUInt32 } := by
  rw [Bank.credit, Bank.setBalance_bankAccounts_of_ne _ _ (Ne.symm hv.distinct), Bank.debit,
    Bank.setBalance_bankAccounts_self, hv.source]
  rfl

theorem opTransfer_eq_ok {w : World ι} (hid : req.headerId < maxBankAccounts)
    {src : BankAccount} (hsrc : w.bank.bankAccounts req.headerId = some src)
    {w' : World ι} : opTransfer me req w = .ok ((), w') ↔ TransferExit me req w w' := by
  simp only [opTransfer, BankM.bind_eq_ok, BankM.ite_eq_ok, BankM.pure_eq_ok,
    BankM.modifyReply_eq_ok, BankM.account_eq_ok, validateOPTransfer_eq_ok,
    BankM.exists_pair_eq]
  constructor
  · rintro ⟨v, w₁, hval, h⟩
    rcases hval with ⟨hadmin, he⟩ | ⟨hadmin, hin, hnone, he⟩ | ⟨hadmin, hin, hsome, hsame, he⟩ |
      ⟨hadmin, hin, hsome, hne, he⟩
    · cases he
      rcases h with ⟨_, he⟩ | ⟨hv, _⟩
      · cases he
        exact .notAllowed hadmin
      · exact absurd hv (by decide)
    · cases he
      rcases h with ⟨_, he⟩ | ⟨hv, _⟩
      · cases he
        exact .notFound hadmin hin hnone
      · exact absurd hv (by decide)
    · cases he
      rcases h with ⟨_, he⟩ | ⟨hv, _⟩
      · cases he
        exact .sameId hadmin hin hsome hsame
      · exact absurd hv (by decide)
    · cases he
      obtain ⟨dst, hdst⟩ := Option.isSome_iff_exists.mp hsome
      have hvalid : TransferValid req w.bank.bankAccounts src dst :=
        ⟨hadmin, ⟨hid, hin⟩, hsrc, hdst, hne⟩
      rcases h with ⟨hv, _⟩ | ⟨_, v, w₂, ht, h⟩
      · exact absurd rfl hv
      · obtain ⟨hf, hend⟩ := (transference_eq_ok me req (by exact hvalid)).mp ht
        cases hend with
        | noFunds hlow =>
            rcases h with ⟨hv, _⟩ | ⟨_, he⟩
            · exact absurd hv (by decide)
            · cases he
              exact .noFunds src dst hvalid hf hlow
        | tooHigh hfunds hhigh =>
            rcases h with ⟨hv, _⟩ | ⟨_, he⟩
            · exact absurd hv (by decide)
            · cases he
              exact .tooHigh src dst hvalid hf hfunds hhigh
        | done hfunds hroom =>
            rcases h with ⟨_, a, _, ⟨_, ha, rfl⟩, he⟩ | ⟨hv, _⟩
            · cases he
              obtain rfl := Option.some.inj (ha.symm.trans (debit_credit_source req hvalid))
              exact .done src dst hvalid hf hfunds hroom
            · exact absurd rfl hv
  · intro h
    -- the four disjuncts are the returns of the validation
    have hpassed : ∀ {src dst}, TransferValid req w.bank.bankAccounts src dst →
        req.headerId ≠ 0 ∧ req.transferId < maxBankAccounts ∧
          (w.bank.bankAccounts req.transferId).isSome ∧ req.transferId ≠ req.headerId :=
      fun hv => ⟨hv.notAdmin, hv.inArray.2, Option.isSome_iff_exists.mpr ⟨_, hv.dest⟩,
        hv.distinct⟩
    cases h with
    | notAllowed hadmin => exact ⟨-1, _, .inl ⟨hadmin, rfl⟩, .inl ⟨by decide, rfl⟩⟩
    | notFound hadmin hin hnone =>
        exact ⟨-2, _, .inr (.inl ⟨hadmin, hin, hnone, rfl⟩), .inl ⟨by decide, rfl⟩⟩
    | sameId hadmin hin hsome hsame =>
        exact ⟨-3, _, .inr (.inr (.inl ⟨hadmin, hin, hsome, hsame, rfl⟩)),
          .inl ⟨by decide, rfl⟩⟩
    | noFunds src' dst hv hf hlow =>
        obtain ⟨hadmin, hin, hsome, hne⟩ := hpassed hv
        exact ⟨0, _, .inr (.inr (.inr ⟨hadmin, hin, hsome, hne, rfl⟩)), .inr ⟨by decide, -1, _,
          (transference_eq_ok me req (by exact hv)).mpr ⟨hf, .noFunds hlow⟩,
          .inr ⟨by decide, rfl⟩⟩⟩
    | tooHigh src' dst hv hf hfunds hhigh =>
        obtain ⟨hadmin, hin, hsome, hne⟩ := hpassed hv
        exact ⟨0, _, .inr (.inr (.inr ⟨hadmin, hin, hsome, hne, rfl⟩)), .inr ⟨by decide, -1, _,
          (transference_eq_ok me req (by exact hv)).mpr ⟨hf, .tooHigh hfunds hhigh⟩,
          .inr ⟨by decide, rfl⟩⟩⟩
    | done src' dst hv hf hfunds hroom =>
        obtain ⟨hadmin, hin, hsome, hne⟩ := hpassed hv
        exact ⟨0, _, .inr (.inr (.inr ⟨hadmin, hin, hsome, hne, rfl⟩)), .inr ⟨by decide, 0, _,
          (transference_eq_ok me req (by exact hv)).mpr ⟨hf, .done hfunds hroom⟩,
          .inl ⟨rfl, _, _, ⟨hid, debit_credit_source req hv, rfl⟩, rfl⟩⟩⟩

/-- The ways in which `opCreateAccount` returns. -/
inductive CreateExit (w : World ι) : World ι → Prop
  | notAllowed (hadmin : req.headerId ≠ 0) :
      CreateExit w { w with reply := w.reply.setRetCode .opNAllow }
  | inUse (hadmin : req.headerId = 0) (hin : req.createId < maxBankAccounts)
      (hsome : (w.bank.bankAccounts req.createId).isSome) :
      CreateExit w { w with reply := w.reply.setRetCode .idInUse }
  | done (hadmin : req.headerId = 0) (hin : req.createId < maxBankAccounts)
      (hnone : w.bank.bankAccounts req.createId = none)
      (hf : w.bank.mutex req.createId = none) :
      CreateExit w {
        bank := w.bank.setAccount req.createId (newAccount sha256sum salt req.createId
          req.value.create.balance req.value.create.password)
        reply := (w.reply.setRetCode .ok).setAccountId req.headerId }

theorem opCreateAccount_eq_ok {w w' : World ι} :
    opCreateAccount sha256sum me salt req w = .ok ((), w') ↔
      CreateExit sha256sum salt req w w' := by
  have hunlock : ∀ b : Bank ι, b.mutex req.createId = none → ∀ a : BankAccount,
      ((b.setMutex req.createId (some me)).setAccount req.createId a).setMutex
        req.createId none = b.setAccount req.createId a := by
    intro b hb a
    exact congrArg (fun c => c.setAccount req.createId a)
      (b.setMutex_setMutex_none (some me) hb)
  simp only [opCreateAccount, createBankAccount, lockAccount, BankM.bind_eq_ok,
    BankM.ite_eq_ok, BankM.pure_eq_ok, BankM.modifyReply_eq_ok, BankM.modifyBank_eq_ok,
    BankM.bankAccountLock_eq_ok, BankM.bankAccountUnlock_eq_ok, BankM.throw_eq_ok,
    validateCreateAccount_eq_ok]
  constructor
  · rintro ⟨v, w₁, hval, h⟩
    rcases hval with ⟨hadmin, he⟩ | ⟨hadmin, hin, hsome, he⟩ | ⟨hadmin, hin, hnone, he⟩
    · cases he
      rcases h with ⟨_, he⟩ | ⟨hv, _⟩
      · cases he
        exact .notAllowed hadmin
      · exact absurd hv (by decide)
    · cases he
      rcases h with ⟨_, he⟩ | ⟨hv, _⟩
      · cases he
        exact .inUse hadmin hin hsome
      · exact absurd hv (by decide)
    · cases he
      rcases h with ⟨hv, _⟩ | ⟨_, _, w₂, ⟨_, hf, he⟩, _, w₃, hset, _, w₄, ⟨_, hu⟩, hr⟩
      · exact absurd rfl hv
      · cases he
        rcases hset with ⟨_, he⟩ | ⟨_, hfalse⟩
        · cases he
          cases hu
          cases hr
          rw [hunlock _ hf]
          exact .done hadmin hin hnone hf
        · exact hfalse.elim
  · intro h
    cases h with
    | notAllowed hadmin => exact ⟨-1, _, .inl ⟨hadmin, rfl⟩, .inl ⟨by decide, rfl⟩⟩
    | inUse hadmin hin hsome =>
        exact ⟨-2, _, .inr (.inl ⟨hadmin, hin, hsome, rfl⟩), .inl ⟨by decide, rfl⟩⟩
    | done hadmin hin hnone hf =>
        refine ⟨0, _, .inr (.inr ⟨hadmin, hin, hnone, rfl⟩), .inr ⟨by decide, (), _,
          ⟨hin, hf, rfl⟩, (), _, .inl ⟨hin, rfl⟩, (), _, ⟨hin, rfl⟩, ?_⟩⟩
        rw [hunlock _ hf]

/-- The ways in which `opBalance` returns. -/
inductive BalanceExit (w : World ι) : World ι → Prop
  | notAllowed (hadmin : req.headerId = 0) :
      BalanceExit w { w with reply := w.reply.setRetCode .opNAllow }
  | done (src : BankAccount) (hadmin : req.headerId ≠ 0)
      (hsrc : w.bank.bankAccounts req.headerId = some src)
      (hf : w.bank.mutex req.headerId = none) :
      BalanceExit w { w with
        reply := (((w.reply.setRetCode .ok).setAccountId req.headerId).setInfo
          src.balance).addInfo }

theorem opBalance_eq_ok {w : World ι} (hid : req.headerId < maxBankAccounts) {w' : World ι} :
    opBalance me req w = .ok ((), w') ↔ BalanceExit req w w' := by
  simp only [opBalance, lockAccount, checkBalance, BankM.bind_eq_ok,
    BankM.ite_eq_ok, BankM.pure_eq_ok, BankM.modifyReply_eq_ok, BankM.account_eq_ok,
    BankM.bankAccountLock_eq_ok, BankM.bankAccountUnlock_eq_ok, validateOPBalance_eq_ok,
    BankM.exists_pair_eq]
  constructor
  · rintro ⟨v, w₁, hval, h⟩
    rcases hval with ⟨hadmin, he⟩ | ⟨hadmin, he⟩
    · cases he
      rcases h with ⟨_, he⟩ | ⟨hv, _⟩
      · cases he
        exact .notAllowed hadmin
      · exact absurd hv (by decide)
    · cases he
      rcases h with ⟨hv, _⟩ | ⟨_, _, _, ⟨_, hf, he⟩, _, _, ⟨src, _, ⟨_, hsrc, rfl⟩, hb⟩,
        _, _, ⟨_, hu⟩, hr⟩
      · exact absurd rfl hv
      · cases he
        cases hb
        cases hu
        cases hr
        simp only [Bank.setMutex_setMutex_none _ _ hf]
        exact .done src hadmin hsrc hf
  · intro h
    cases h with
    | notAllowed hadmin => exact ⟨-1, _, .inl ⟨hadmin, rfl⟩, .inl ⟨by decide, rfl⟩⟩
    | done src hadmin hsrc hf =>
        refine ⟨0, _, .inr ⟨hadmin, rfl⟩, .inr ⟨by decide, (), _, ⟨hid, hf, rfl⟩,
          _, _, ⟨src, _, ⟨hid, hsrc, rfl⟩, rfl⟩, (), _, ⟨hid, rfl⟩, ?_⟩⟩
        simp only [Bank.setMutex_setMutex_none _ _ hf]

/-- The ways in which `opShutDown` returns. -/
inductive ShutDownExit (w : World ι) : World ι → Prop
  | notAllowed (hadmin : req.headerId ≠ 0) :
      ShutDownExit w { w with reply := w.reply.setRetCode .opNAllow }
  | done (hadmin : req.headerId = 0) :
      ShutDownExit w {
        bank := { w.bank with fifoReadOnly := true, serverDown := true }
        reply := (((w.reply.setRetCode .ok).setAccountId req.headerId).setInfo
          (UInt32.ofInt (w.bank.activeBankOffices - 1))).addInfo }

theorem opShutDown_eq_ok {w w' : World ι} :
    opShutDown req w = .ok ((), w') ↔ ShutDownExit req w w' := by
  simp only [opShutDown, BankM.bind_eq_ok, BankM.ite_eq_ok, BankM.pure_eq_ok,
    BankM.modifyReply_eq_ok, BankM.modifyBank_eq_ok, BankM.get_eq_ok, validateShutDown_eq_ok,
    BankM.exists_pair_eq]
  constructor
  · rintro ⟨v, w₁, hval, h⟩
    rcases hval with ⟨hadmin, he⟩ | ⟨hadmin, he⟩
    · cases he
      rcases h with ⟨_, he⟩ | ⟨hv, _⟩
      · cases he
        exact .notAllowed hadmin
      · exact absurd hv (by decide)
    · cases he
      rcases h with ⟨hv, _⟩ | ⟨_, he⟩
      · exact absurd rfl hv
      · cases he
        exact .done hadmin
  · intro h
    cases h with
    | notAllowed hadmin => exact ⟨-1, _, .inl ⟨hadmin, rfl⟩, .inl ⟨by decide, rfl⟩⟩
    | done hadmin =>
        exact ⟨0, _, .inr ⟨hadmin, rfl⟩, .inr ⟨by decide, rfl⟩⟩

/-- The ways in which the operation selected by the type returns. -/
inductive OpExit (w w' : World ι) : Prop
  | create (ht : req.type = .createAccount) (h : CreateExit sha256sum salt req w w') :
      OpExit w w'
  | balance (ht : req.type = .balance) (h : BalanceExit req w w') : OpExit w w'
  | transfer (ht : req.type = .transfer) (h : TransferExit me req w w') : OpExit w w'
  | shutdown (ht : req.type = .shutdown) (h : ShutDownExit req w w') : OpExit w w'
  | undefined (code : UInt32) (ht : req.type = .undefined code) (h : w' = w) : OpExit w w'

/-- No operation changes the lock of the office counter. -/
theorem OpExit.activeMutex {w w' : World ι} (h : OpExit sha256sum me salt req w w') :
    w'.bank.activeMutex = w.bank.activeMutex := by
  rcases h with ⟨_, h⟩ | ⟨_, h⟩ | ⟨_, h⟩ | ⟨_, h⟩ | ⟨_, _, rfl⟩
  · cases h <;> rfl
  · cases h <;> rfl
  · cases h <;> rfl
  · cases h <;> rfl
  · rfl

/-- The world when the login is checked. -/
def begun (w : World ι) : World ι where
  bank := { w.bank with activeBankOffices := w.bank.activeBankOffices + 1 }
  reply := w.reply.start req.type

/-- The ways in which `processRequest` returns. -/
inductive Exit (w : World ι) : World ι → Prop
  | loginFail (hlogin : loginOk sha256sum req w.bank.bankAccounts = false) :
      Exit w { begun req w with reply := (begun req w).reply.setRetCode .loginFail }
  | op (w₁ : World ι) (hlogin : loginOk sha256sum req w.bank.bankAccounts = true)
      (hop : OpExit sha256sum me salt req (begun req w) w₁) :
      Exit w { w₁ with bank.activeBankOffices := w₁.bank.activeBankOffices - 1 }

theorem loginClient_eq_ok {w : World ι} {r : ℤ × World ι} :
    loginClient sha256sum req w = .ok r ↔ req.headerId < maxBankAccounts ∧
      ((loginOk sha256sum req w.bank.bankAccounts = false ∧
        r = (-1, { w with reply := w.reply.setRetCode .loginFail })) ∨
       (loginOk sha256sum req w.bank.bankAccounts = true ∧ r = (0, w))) := by
  simp only [loginClient, BankM.bind_eq_ok, BankM.ite_eq_ok, BankM.pure_eq_ok,
    BankM.modifyReply_eq_ok, validateLogin_eq_ok, BankM.exists_pair_eq]
  constructor
  · rintro ⟨b, _, ⟨hid, he⟩, h⟩
    cases he
    exact ⟨hid, by simpa using h⟩
  · rintro ⟨hid, h⟩
    exact ⟨_, _, ⟨hid, rfl⟩, by simpa using h⟩

theorem loginOk_source {t : Table} (h : loginOk sha256sum req t = true) :
    ∃ a, t req.headerId = some a := by
  cases ht : t req.headerId with
  | none => simp [loginOk, ht] at h
  | some a => exact ⟨a, rfl⟩

theorem operation_eq_ok {w w' : World ι} (hid : req.headerId < maxBankAccounts)
    (hlogin : loginOk sha256sum req w.bank.bankAccounts = true) :
    operation sha256sum me salt req w = .ok ((), w') ↔ OpExit sha256sum me salt req w w' := by
  obtain ⟨src, hsrc⟩ := loginOk_source sha256sum req hlogin
  constructor
  · intro h
    cases ht : req.type with
    | createAccount =>
        simp only [operation, ht] at h
        exact .create ht ((opCreateAccount_eq_ok sha256sum me salt req).mp h)
    | balance =>
        simp only [operation, ht] at h
        exact .balance ht ((opBalance_eq_ok me req hid).mp h)
    | transfer =>
        simp only [operation, ht] at h
        exact .transfer ht ((opTransfer_eq_ok me req hid hsrc).mp h)
    | shutdown =>
        simp only [operation, ht] at h
        exact .shutdown ht ((opShutDown_eq_ok req).mp h)
    | undefined code =>
        simp only [operation, ht, BankM.pure_eq_ok, Prod.mk.injEq, true_and] at h
        exact .undefined code ht h
  · intro h
    rcases h with ⟨ht, h⟩ | ⟨ht, h⟩ | ⟨ht, h⟩ | ⟨ht, h⟩ | ⟨code, ht, rfl⟩
    · simp only [operation, ht]
      exact (opCreateAccount_eq_ok sha256sum me salt req).mpr h
    · simp only [operation, ht]
      exact (opBalance_eq_ok me req hid).mpr h
    · simp only [operation, ht]
      exact (opTransfer_eq_ok me req hid hsrc).mpr h
    · simp only [operation, ht]
      exact (opShutDown_eq_ok req).mpr h
    · simp only [operation, ht, BankM.pure_eq_ok]

/-- A call returns exactly in the listed ways, and only when it can take the
lock of the office counter and its header id is inside the array. -/
theorem processRequest_eq_ok {w w' : World ι} :
    processRequest sha256sum me salt req w = .ok ((), w') ↔
      w.bank.activeMutex = none ∧ req.headerId < maxBankAccounts ∧
      Exit sha256sum me salt req w w' := by
  have hbegun : w.bank.activeMutex = none → (World.mk
      { w.bank with activeMutex := none, activeBankOffices := w.bank.activeBankOffices + 1 }
      (w.reply.start req.type)) = begun req w := by
    intro h
    simp only [begun, ← h]
  have hend : ∀ w₁ : World ι, w₁.bank.activeMutex = none → (World.mk
      { w₁.bank with activeMutex := none, activeBankOffices := w₁.bank.activeBankOffices - 1 }
      w₁.reply) = { w₁ with bank.activeBankOffices := w₁.bank.activeBankOffices - 1 } := by
    intro w₁ h
    simp only [← h]
  simp only [processRequest, BankM.bind_eq_ok, BankM.ite_eq_ok, BankM.pure_eq_ok,
    BankM.modifyReply_eq_ok, BankM.modifyBank_eq_ok, BankM.activeOfficesLock_eq_ok,
    activeOfficesUnlock, loginClient_eq_ok]
  constructor
  · rintro ⟨_, _, ⟨hactive, he⟩, _, _, he₁, _, _, he₂, _, _, he₃, v, w₁, ⟨hid, hlogin⟩, h⟩
    cases he
    cases he₁
    cases he₂
    cases he₃
    rw [hbegun hactive] at hlogin
    refine ⟨hactive, hid, ?_⟩
    rcases hlogin with ⟨hlogin, he⟩ | ⟨hlogin, he⟩
    · cases he
      rcases h with ⟨_, he⟩ | ⟨hv, _⟩
      · cases he
        exact .loginFail hlogin
      · exact absurd (by decide) hv
    · cases he
      rcases h with ⟨hv, _⟩ | ⟨_, _, w₂, hop, _, _, ⟨hactive₂, he⟩, _, _, he₁, he₂⟩
      · exact absurd hv (by decide)
      · cases he
        cases he₁
        cases he₂
        rw [hend w₂ hactive₂]
        exact .op w₂ hlogin ((operation_eq_ok sha256sum me salt req hid hlogin).mp hop)
  · rintro ⟨hactive, hid, h⟩
    refine ⟨(), _, ⟨hactive, rfl⟩, (), _, rfl, (), _, rfl, (), _, rfl, ?_⟩
    rw [hbegun hactive]
    cases h with
    | loginFail hlogin =>
        exact ⟨-1, _, ⟨hid, .inl ⟨hlogin, rfl⟩⟩, .inl ⟨by decide, rfl⟩⟩
    | op w₁ hlogin hop =>
        have hactive₁ : w₁.bank.activeMutex = none :=
          (OpExit.activeMutex sha256sum me salt req hop).trans hactive
        refine ⟨0, _, ⟨hid, .inr ⟨hlogin, rfl⟩⟩, .inr ⟨by decide, (), w₁,
          (operation_eq_ok sha256sum me salt req hid (by exact hlogin)).mpr hop, (), _,
          ⟨hactive₁, rfl⟩, (), _, rfl, ?_⟩⟩
        rw [← hend w₁ hactive₁]

end HomeBanking
