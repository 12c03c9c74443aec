import HomeBanking.Processing
import HomeBanking.Balance
import HomeBanking.Sample

/-!
# One request at a time

What a request that is processed alone may change, and when a transfer moves
its amount or leaves the table as it was. A transfer debits the source before
it looks at the destination, and a credit that is refused does not give the
debit back.
-/

namespace HomeBanking

section Requests

variable {ι : Type} (sha256sum : CString → CString) (me : ι) (salt : CString) (req : TlvRequest)

/-- The accounts and the shutdown flag stay as they were. -/
def Unchanged (w w' : World ι) : Prop :=
  w'.bank.bankAccounts = w.bank.bankAccounts ∧ w'.bank.serverDown = w.bank.serverDown

/-- A creation by the administrator on an empty slot. -/
def FillsSlot (t : Table) : Prop :=
  req.type = .createAccount ∧ req.headerId = 0 ∧ t req.createId = none

/-- A transfer of a client to a different existing account. -/
def MovesMoney (t : Table) : Prop :=
  req.type = .transfer ∧ req.headerId ≠ 0 ∧ (∃ dst, t req.transferId = some dst) ∧
    req.transferId ≠ req.headerId

/-- A shutdown by the administrator. -/
def ShutsDown : Prop := req.type = .shutdown ∧ req.headerId = 0

/-- Entries change at most at `ids`, and there at most in their balance. -/
def BalancesOnly (ids : UInt32 → Prop) (t t' : Table) : Prop :=
  ∀ id, t' id = t id ∨
    (ids id ∧ ∃ a x, t id = some a ∧ t' id = some { a with balance := x })

/-- Everything one request may change. -/
structure Frame (w w' : World ι) : Prop where
  loginFail : loginOk sha256sum req w.bank.bankAccounts = false → Unchanged w w'
  create : loginOk sha256sum req w.bank.bankAccounts = true →
    FillsSlot req w.bank.bankAccounts →
    (∃ a, a.accountId = req.createId ∧ a.balance = req.value.create.balance ∧
      w'.bank.bankAccounts = Function.update w.bank.bankAccounts req.createId (some a)) ∧
    w'.bank.serverDown = w.bank.serverDown
  transfer : loginOk sha256sum req w.bank.bankAccounts = true →
    MovesMoney req w.bank.bankAccounts →
    BalancesOnly (fun id => id = req.headerId ∨ id = req.transferId)
      w.bank.bankAccounts w'.bank.bankAccounts ∧
    w'.bank.serverDown = w.bank.serverDown
  shutdown : loginOk sha256sum req w.bank.bankAccounts = true → ShutsDown req →
    w'.bank.bankAccounts = w.bank.bankAccounts ∧ w'.bank.serverDown = true
  otherwise : loginOk sha256sum req w.bank.bankAccounts = true →
    ¬ FillsSlot req w.bank.bankAccounts → ¬ MovesMoney req w.bank.bankAccounts →
    ¬ ShutsDown req → Unchanged w w'
  refused : w'.reply.retCode ∈ [.opNAllow, .idInUse, .idNotFound, .sameId] → Unchanged w w'
  kept : ∀ id a, w.bank.bankAccounts id = some a →
    ∃ x, w'.bank.bankAccounts id = some { a with balance := x }

theorem Unchanged.kept {w w' : World ι} (h : Unchanged w w') (id : UInt32) (a : BankAccount)
    (ha : w.bank.bankAccounts id = some a) :
    ∃ x, w'.bank.bankAccounts id = some { a with balance := x } :=
  ⟨a.balance, by rw [h.1, ha]⟩

theorem BalancesOnly.kept {ids : UInt32 → Prop} {t t' : Table} (h : BalancesOnly ids t t')
    (id : UInt32) (a : BankAccount) (ha : t id = some a) :
    ∃ x, t' id = some { a with balance := x } := by
  rcases h id with he | ⟨_, a', x, ha', hx⟩
  · exact ⟨a.balance, by rw [he, ha]⟩
  · obtain rfl : a = a' := by simpa [ha] using ha'
    exact ⟨x, hx⟩

/-- A request that changes nothing and is no creation, transfer or shutdown
with effect meets every frame condition. -/
theorem Frame.of_unchanged {w w' : World ι} (h : Unchanged w w')
    (hfill : loginOk sha256sum req w.bank.bankAccounts = true →
      ¬ FillsSlot req w.bank.bankAccounts)
    (hshut : loginOk sha256sum req w.bank.bankAccounts = true → ¬ ShutsDown req) :
    Frame sha256sum req w w' where
  loginFail _ := h
  create hl hf := absurd hf (hfill hl)
  transfer _ _ := ⟨fun id => .inl (by rw [h.1]), h.2⟩
  shutdown hl hs := absurd hs (hshut hl)
  otherwise _ _ _ _ := h
  refused _ := h
  kept := h.kept

theorem setBalance_balancesOnly (b : Bank ι) (id x : UInt32) :
    BalancesOnly (fun j => j = id) b.bankAccounts (b.setBalance id x).bankAccounts := by
  intro j
  by_cases hj : j = id
  · subst j
    have hset := b.setBalance_bankAccounts_self id x
    cases ha : b.bankAccounts id with
    | none => exact .inl (by rw [hset, ha]; rfl)
    | some a => exact .inr ⟨rfl, a, x, rfl, by rw [hset, ha]; rfl⟩
  · exact .inl (Bank.setBalance_bankAccounts_of_ne _ _ hj)

theorem BalancesOnly.trans {ids ids' : UInt32 → Prop} {t t' t'' : Table}
    (h : BalancesOnly ids t t') (h' : BalancesOnly ids' t' t'') :
    BalancesOnly (fun id => ids id ∨ ids' id) t t'' := by
  intro id
  rcases h' id with he' | ⟨hid', a', x', ha', hx'⟩
  · rcases h id with he | ⟨hid, a, x, ha, hx⟩
    · exact .inl (he'.trans he)
    · exact .inr ⟨.inl hid, a, x, ha, he'.trans hx⟩
  · rcases h id with he | ⟨hid, a, x, ha, hx⟩
    · exact .inr ⟨.inr hid', a', x', he ▸ ha', hx'⟩
    · obtain rfl : { a with balance := x } = a' := by simpa [hx] using ha'
      exact .inr ⟨.inl hid, a, x', ha, hx'⟩

theorem BalanceExit.frame {w w' : World ι} (ht : req.type = .balance) (h : BalanceExit req w w') :
    Frame sha256sum req w w' := by
  have hun : Unchanged w w' := by
    cases h <;> exact ⟨rfl, rfl⟩
  exact .of_unchanged sha256sum req hun (fun _ => by simp [FillsSlot, ht])
    fun _ => by simp [ShutsDown, ht]

section Operations

variable {w w' : World ι} (hlogin : loginOk sha256sum req w.bank.bankAccounts = true)
include hlogin

theorem CreateExit.frame (ht : req.type = .createAccount)
    (h : CreateExit sha256sum salt req w w') : Frame sha256sum req w w' := by
  have hshut : ¬ ShutsDown req := by simp [ShutsDown, ht]
  have hmove : ¬ MovesMoney req w.bank.bankAccounts := by simp [MovesMoney, ht]
  cases h with
  | notAllowed hadmin =>
      exact .of_unchanged sha256sum req ⟨rfl, rfl⟩ (fun _ hf => hadmin hf.2.1) fun _ => hshut
  | inUse hadmin hin hsome =>
      refine .of_unchanged sha256sum req ⟨rfl, rfl⟩ ?_ fun _ => hshut
      intro _ hf
      rw [hf.2.2] at hsome
      exact absurd hsome (by decide)
  | done hadmin hin hnone hf =>
      exact {
        loginFail := fun hl => by simp [hl] at hlogin
        create := fun _ _ => ⟨⟨_, rfl, rfl, rfl⟩, rfl⟩
        transfer := fun _ hm => absurd hm hmove
        shutdown := fun _ hs => absurd hs hshut
        otherwise := fun _ hfill _ _ => absurd ⟨ht, hadmin, hnone⟩ hfill
        refused := fun hr => by simp [TlvReply.setRetCode, TlvReply.setAccountId] at hr
        kept := fun id a ha => by
          have hne : id ≠ req.createId := by
            rintro rfl
            simp [hnone] at ha
          exact ⟨a.balance, by rw [Bank.setAccount_bankAccounts, Function.update_of_ne hne, ha]⟩ }

theorem ShutDownExit.frame (ht : req.type = .shutdown) (h : ShutDownExit req w w') :
    Frame sha256sum req w w' := by
  have hfill : ¬ FillsSlot req w.bank.bankAccounts := by simp [FillsSlot, ht]
  have hmove : ¬ MovesMoney req w.bank.bankAccounts := by simp [MovesMoney, ht]
  cases h with
  | notAllowed hadmin =>
      exact .of_unchanged sha256sum req ⟨rfl, rfl⟩ (fun _ => hfill) fun _ hs => hadmin hs.2
  | done hadmin =>
      exact {
        loginFail := fun hl => by simp [hl] at hlogin
        create := fun _ hf => absurd hf hfill
        transfer := fun _ hm => absurd hm hmove
        shutdown := fun _ _ => ⟨rfl, rfl⟩
        otherwise := fun _ _ _ hs => absurd ⟨ht, hadmin⟩ hs
        refused := fun hr => by
          simp [TlvReply.setRetCode, TlvReply.setAccountId, TlvReply.setInfo,
            TlvReply.addInfo] at hr
        kept := fun id a ha => ⟨a.balance, ha⟩ }

/-- A transfer that reaches the accounts writes balances only. -/
theorem TransferValid.frame (ht : req.type = .transfer) {src dst : BankAccount}
    (hv : TransferValid req w.bank.bankAccounts src dst)
    (hb : BalancesOnly (fun id => id = req.headerId ∨ id = req.transferId)
      w.bank.bankAccounts w'.bank.bankAccounts)
    (hdown : w'.bank.serverDown = w.bank.serverDown)
    (hrc : w'.reply.retCode ∉ [.opNAllow, .idInUse, .idNotFound, .sameId]) :
    Frame sha256sum req w w' where
  loginFail hl := by simp [hl] at hlogin
  create _ hf := by simp [FillsSlot, ht] at hf
  transfer _ _ := ⟨hb, hdown⟩
  shutdown _ hs := by simp [ShutsDown, ht] at hs
  otherwise _ _ hm _ := absurd ⟨ht, hv.notAdmin, ⟨dst, hv.dest⟩, hv.distinct⟩ hm
  refused hr := absurd hr hrc
  kept := hb.kept

theorem TransferExit.frame (ht : req.type = .transfer) (h : TransferExit me req w w') :
    Frame sha256sum req w w' := by
  have hfill : ¬ FillsSlot req w.bank.bankAccounts := by simp [FillsSlot, ht]
  have hshut : ¬ ShutsDown req := by simp [ShutsDown, ht]
  cases h with
  | notAllowed | notFound | sameId =>
      exact .of_unchanged sha256sum req ⟨rfl, rfl⟩ (fun _ => hfill) fun _ => hshut
  | noFunds src dst hv hf hlow =>
      exact hv.frame sha256sum req hlogin ht (fun id => .inl rfl) rfl
        (by simp [TlvReply.setRetCode])
  | tooHigh src dst hv hf hfunds hhigh =>
      refine hv.frame sha256sum req hlogin ht (fun id => ?_) rfl (by simp [TlvReply.setRetCode])
      exact (setBalance_balancesOnly (w.bank.lockBoth me req.headerId req.transferId)
        req.headerId _ id).imp_right fun h => ⟨.inl h.1, h.2⟩
  | done src dst hv hf hfunds hroom =>
      exact hv.frame sha256sum req hlogin ht ((setBalance_balancesOnly w.bank _ _).trans
        (setBalance_balancesOnly _ _ _)) rfl (by simp [TlvReply.setRetCode, TlvReply.setInfo])

theorem OpExit.frame (h : OpExit sha256sum me salt req w w') : Frame sha256sum req w w' := by
  rcases h with ⟨ht, h⟩ | ⟨ht, h⟩ | ⟨ht, h⟩ | ⟨ht, h⟩ | ⟨_, ht, rfl⟩
  · exact h.frame sha256sum salt req hlogin ht
  · exact h.frame sha256sum req ht
  · exact h.frame sha256sum me req hlogin ht
  · exact h.frame sha256sum req hlogin ht
  · exact .of_unchanged sha256sum req ⟨rfl, rfl⟩ (fun _ => by simp [FillsSlot, ht])
      fun _ => by simp [ShutsDown, ht]

end Operations

theorem Exit.frame {w w' : World ι} (h : Exit sha256sum me salt req w w') :
    Frame sha256sum req w w' := by
  cases h with
  | loginFail hlogin =>
      exact .of_unchanged sha256sum req ⟨rfl, rfl⟩ (fun hl => by simp [hl] at hlogin)
        fun hl => by simp [hl] at hlogin
  | op w₁ hlogin hop =>
      have hf := hop.frame sha256sum me salt req (by exact hlogin)
      exact ⟨hf.loginFail, hf.create, hf.transfer, hf.shutdown, hf.otherwise, hf.refused, hf.kept⟩

/-- No mutex is taken: no other office is in an operation or has left a lock behind. -/
def Bank.Unlocked (b : Bank ι) : Prop := (∀ id, b.mutex id = none) ∧ b.activeMutex = none

/-- The accounts a request operates on. -/
def operatesOn : Finset UInt32 :=
  match req.type with
  | .createAccount => {req.createId}
  | .balance => {req.headerId}
  | .transfer => {req.headerId, req.transferId}
  | .shutdown | .undefined _ => ∅

/-- The mutexes that a request may wait for are free. -/
structure Bank.FreeFor (b : Bank ι) : Prop where
  accounts : ∀ id ∈ operatesOn req, b.mutex id = none
  active : b.activeMutex = none

theorem Bank.Unlocked.freeFor {b : Bank ι} (h : b.Unlocked) : b.FreeFor req :=
  ⟨fun id _ => h.1 id, h.2⟩

/-- The accounts whose mutexes a request takes when it has passed its login. -/
def Takes (t : Table) (id : UInt32) : Prop :=
  (FillsSlot req t ∧ id = req.createId) ∨
    (req.type = .balance ∧ req.headerId ≠ 0 ∧ id = req.headerId) ∨
    (MovesMoney req t ∧ (id = req.headerId ∨ id = req.transferId))

/-- The mutexes that a request takes are free. -/
structure Bank.Grants (b : Bank ι) : Prop where
  active : b.activeMutex = none
  accounts : loginOk sha256sum req b.bankAccounts = true →
    ∀ id, Takes req b.bankAccounts id → b.mutex id = none

theorem Takes.mem_operatesOn {t : Table} {id : UInt32} (h : Takes req t id) :
    id ∈ operatesOn req := by
  rcases h with ⟨hfill, rfl⟩ | ⟨ht, -, rfl⟩ | ⟨hmove, rfl | rfl⟩
  · simp [operatesOn, hfill.1]
  · simp [operatesOn, ht]
  · simp [operatesOn, hmove.1]
  · simp [operatesOn, hmove.1]

theorem Bank.FreeFor.grants {b : Bank ι} (h : b.FreeFor req) : b.Grants sha256sum req :=
  ⟨h.active, fun _ id hid => h.accounts id (hid.mem_operatesOn req)⟩

section Returns

variable {w w' : World ι} (hfree : ∀ id, Takes req w.bank.bankAccounts id → w.bank.mutex id = none)
include hfree

theorem exists_createExit (ht : req.type = .createAccount)
    (hin : req.createId < maxBankAccounts) : ∃ w', CreateExit sha256sum salt req w w' := by
  by_cases hadmin : req.headerId = 0
  · cases hslot : w.bank.bankAccounts req.createId with
    | none => exact ⟨_, .done hadmin hin hslot (hfree _ (.inl ⟨⟨ht, hadmin, hslot⟩, rfl⟩))⟩
    | some a => exact ⟨_, .inUse hadmin hin (by simp [hslot])⟩
  · exact ⟨_, .notAllowed hadmin⟩

theorem exists_transferExit (ht : req.type = .transfer) (hid : req.headerId < maxBankAccounts)
    (hin : req.transferId < maxBankAccounts) {src : BankAccount}
    (hsrc : w.bank.bankAccounts req.headerId = some src) : ∃ w', TransferExit me req w w' := by
  by_cases hadmin : req.headerId = 0
  · exact ⟨_, .notAllowed hadmin⟩
  cases hdst : w.bank.bankAccounts req.transferId with
  | none => exact ⟨_, .notFound hadmin hin hdst⟩
  | some dst =>
      by_cases hsame : req.transferId = req.headerId
      · exact ⟨_, .sameId hadmin hin (by simp [hdst]) hsame⟩
      have hv : TransferValid req w.bank.bankAccounts src dst :=
        ⟨hadmin, ⟨hid, hin⟩, hsrc, hdst, hsame⟩
      have hmove : MovesMoney req w.bank.bankAccounts := ⟨ht, hadmin, ⟨dst, hdst⟩, hsame⟩
      have hf : TransferFree req w.bank :=
        ⟨hfree _ (.inr (.inr ⟨hmove, .inl rfl⟩)), hfree _ (.inr (.inr ⟨hmove, .inr rfl⟩))⟩
      by_cases hfunds : subtractedBalance src.balance req.amount < minBalance
      · exact ⟨_, .noFunds src dst hv hf hfunds⟩
      by_cases hhigh : maxBalance < addedBalance dst.balance req.amount
      · exact ⟨_, .tooHigh src dst hv hf hfunds hhigh⟩
      · exact ⟨_, .done src dst hv hf hfunds hhigh⟩

theorem exists_opExit (hin : req.InArray)
    (hlogin : loginOk sha256sum req w.bank.bankAccounts = true) :
    ∃ w', OpExit sha256sum me salt req w w' := by
  obtain ⟨src, hsrc⟩ := loginOk_source sha256sum req hlogin
  cases ht : req.type with
  | createAccount =>
      obtain ⟨w', h⟩ := exists_createExit sha256sum salt req hfree ht (hin.2.1 ht)
      exact ⟨w', .create ht h⟩
  | balance =>
      by_cases hadmin : req.headerId = 0
      · exact ⟨_, .balance ht (.notAllowed hadmin)⟩
      · have hf := hfree req.headerId (.inr (.inl ⟨ht, hadmin, rfl⟩))
        exact ⟨_, .balance ht (.done src hadmin hsrc hf)⟩
  | transfer =>
      obtain ⟨w', h⟩ := exists_transferExit me req hfree ht hin.1 (hin.2.2 ht) hsrc
      exact ⟨w', .transfer ht h⟩
  | shutdown =>
      by_cases hadmin : req.headerId = 0
      · exact ⟨_, .shutdown ht (.done hadmin)⟩
      · exact ⟨_, .shutdown ht (.notAllowed hadmin)⟩
  | undefined code => exact ⟨w, .undefined code ht rfl⟩

end Returns

theorem TransferExit.free {w w' : World ι} (hmove : MovesMoney req w.bank.bankAccounts)
    (h : TransferExit me req w w') : TransferFree req w.bank := by
  obtain ⟨_, hadmin, ⟨dst, hdst⟩, hne⟩ := hmove
  cases h with
  | notAllowed h => exact absurd h hadmin
  | notFound _ _ hnone =>
      rw [hdst] at hnone
      cases hnone
  | sameId _ _ _ hsame => exact absurd hsame hne
  | noFunds _ _ _ hf => exact hf
  | tooHigh _ _ _ hf => exact hf
  | done _ _ _ hf => exact hf

/-- An operation that returns has found the mutexes free that it takes. -/
theorem OpExit.free {w w' : World ι} (h : OpExit sha256sum me salt req w w') (id : UInt32)
    (hid : Takes req w.bank.bankAccounts id) : w.bank.mutex id = none := by
  cases h with
  | create ht hcreate =>
      rcases hid with ⟨⟨_, hadmin, hnone⟩, rfl⟩ | ⟨ht', _⟩ | ⟨hmove, _⟩
      · cases hcreate with
        | notAllowed h => exact absurd hadmin h
        | inUse _ _ hsome =>
            rw [hnone] at hsome
            cases hsome
        | done _ _ _ hf => exact hf
      · cases ht.symm.trans ht'
      · cases ht.symm.trans hmove.1
  | balance ht hbalance =>
      rcases hid with ⟨hfill, _⟩ | ⟨_, hadmin, rfl⟩ | ⟨hmove, _⟩
      · cases ht.symm.trans hfill.1
      · cases hbalance with
        | notAllowed h => exact absurd h hadmin
        | done _ _ _ hf => exact hf
      · cases ht.symm.trans hmove.1
  | transfer ht htransfer =>
      rcases hid with ⟨hfill, _⟩ | ⟨ht', _⟩ | ⟨hmove, hid⟩
      · cases ht.symm.trans hfill.1
      · cases ht.symm.trans ht'
      · obtain ⟨hsource, hdest⟩ := htransfer.free me req hmove
        rcases hid with rfl | rfl
        · exact hsource
        · exact hdest
  | shutdown ht | undefined _ ht =>
      -- these two take no account
      rcases hid with ⟨hfill, _⟩ | ⟨ht', _⟩ | ⟨hmove, _⟩
      · cases ht.symm.trans hfill.1
      · cases ht.symm.trans ht'
      · cases ht.symm.trans hmove.1

/-- With its ids inside the array, a request is answered exactly when the
mutexes it takes are free. -/
theorem processRequest_returns_iff (hin : req.InArray) {w : World ι} :
    (∃ w', processRequest sha256sum me salt req w = .ok ((), w')) ↔
      w.bank.Grants sha256sum req := by
  simp only [processRequest_eq_ok]
  constructor
  · rintro ⟨w', hactive, _, hexit⟩
    refine ⟨hactive, fun hlogin id hid => ?_⟩
    cases hexit with
    | loginFail h =>
        rw [hlogin] at h
        cases h
    | op w₁ _ hop => exact hop.free sha256sum me salt req id (by exact hid)
  · intro h
    cases hlogin : loginOk sha256sum req w.bank.bankAccounts with
    | false => exact ⟨_, h.active, hin.1, .loginFail hlogin⟩
    | true =>
        obtain ⟨w₁, hop⟩ : ∃ w₁, OpExit sha256sum me salt req (begun req w) w₁ :=
          exists_opExit sha256sum me salt req (by exact h.accounts hlogin) hin hlogin
        exact ⟨_, h.active, hin.1, .op w₁ hlogin hop⟩

/-- A request that finds its mutexes free is answered. -/
theorem processRequest_returns_of_free (hin : req.InArray) {w : World ι}
    (hfree : w.bank.FreeFor req) :
    ∃ w', processRequest sha256sum me salt req w = .ok ((), w') :=
  (processRequest_returns_iff sha256sum me salt req hin).mpr (hfree.grants sha256sum req)

/-- A request alone in the bank is always answered. -/
theorem processRequest_returns (hin : req.InArray) {w : World ι} (hfree : w.bank.Unlocked) :
    ∃ w', processRequest sha256sum me salt req w = .ok ((), w') :=
  processRequest_returns_of_free sha256sum me salt req hin (hfree.freeFor req)

/-- The frame of one request: whenever it returns, only what its type and its
rights allow has changed, and processed alone it does return. -/
theorem processRequest_frame (hin : req.InArray) (w : World ι) :
    (∀ w', processRequest sha256sum me salt req w = .ok ((), w') →
      Frame sha256sum req w w') ∧
    (w.bank.Unlocked → ∃ w', processRequest sha256sum me salt req w = .ok ((), w')) :=
  ⟨fun _ h => ((processRequest_eq_ok sha256sum me salt req).mp h).2.2.frame sha256sum me salt req,
    processRequest_returns sha256sum me salt req hin⟩

/-- The first creation after the start is answered within its frame. -/
theorem processRequest_frame_create : ∃ w',
    processRequest Sample.sha256sum () Sample.salt (Sample.create 7 1 100 Sample.password₁)
      ⟨Bank.idle Sample.adminOnly, Sample.emptyReply⟩ = .ok ((), w') ∧
    Frame Sample.sha256sum (Sample.create 7 1 100 Sample.password₁)
      ⟨Bank.idle Sample.adminOnly, Sample.emptyReply⟩ w' := by
  have h := processRequest_frame Sample.sha256sum () Sample.salt
    (Sample.create 7 1 100 Sample.password₁) (by decide)
    ⟨Bank.idle Sample.adminOnly, Sample.emptyReply⟩
  obtain ⟨w', hw⟩ := h.2 ⟨fun _ => rfl, rfl⟩
  exact ⟨w', hw, h.1 w' hw⟩

/-- Either the amount moved from the source to the destination and nothing else
changed, or the request was refused and the table is as before. -/
def TransferAtomic (t : Table) (rc : RetCode) (t' : Table) : Prop :=
  (rc = .ok ∧ ∃ src dst x y, t req.headerId = some src ∧ t req.transferId = some dst ∧
    req.transferId ≠ req.headerId ∧
    (x.toNat : ℤ) = src.balance.toNat - req.amount.toNat ∧
    y.toNat = dst.balance.toNat + req.amount.toNat ∧
    t' = Function.update (Function.update t req.headerId (some { src with balance := x }))
      req.transferId (some { dst with balance := y })) ∨
  (rc ≠ .ok ∧ t' = t)

/-- The transfer gets past login, validation and debit, and the destination
cannot take the amount: the sum is above the limit, or it leaves 32 bits. -/
def CreditLost (t : Table) : Prop :=
  loginOk sha256sum req t = true ∧ ∃ src dst, TransferValid req t src dst ∧
    ¬ subtractedBalance src.balance req.amount < minBalance ∧
    (maxBalance < addedBalance dst.balance req.amount ∨
      2 ^ 32 ≤ dst.balance.toNat + req.amount.toNat)

theorem debit_bankAccounts {b : Bank ι} {src : BankAccount}
    (hsrc : b.bankAccounts req.headerId = some src) : (b.debit req src).bankAccounts =
      Function.update b.bankAccounts req.headerId
        (some { src with balance := (subtractedBalance src.balance req.amount).toUInt32 }) :=
  Bank.setBalance_bankAccounts b _ hsrc

theorem debit_credit_bankAccounts {b : Bank ι} {src dst : BankAccount}
    (hv : TransferValid req b.bankAccounts src dst) :
    ((b.debit req src).credit req dst).bankAccounts =
      Function.update (Function.update b.bankAccounts req.headerId
        (some { src with balance := (subtractedBalance src.balance req.amount).toUInt32 }))
        req.transferId
        (some { dst with balance := (addedBalance dst.balance req.amount).toUInt32 }) := by
  have hdst : (b.debit req src).bankAccounts req.transferId = some dst :=
    (Bank.setBalance_bankAccounts_of_ne b _ hv.distinct).trans hv.dest
  rw [Bank.credit, Bank.setBalance_bankAccounts _ _ hdst, debit_bankAccounts req hv.source]

/-- An exit of a transfer is atomic unless the credit is lost. -/
theorem TransferExit.atomic (hr : TransferInRange req) {w w' : World ι}
    (hlogin : loginOk sha256sum req w.bank.bankAccounts = true)
    (h : TransferExit me req w w') (hlost : ¬ CreditLost sha256sum req w.bank.bankAccounts) :
    TransferAtomic req w.bank.bankAccounts w'.reply.retCode w'.bank.bankAccounts := by
  cases h with
  | notAllowed | notFound | sameId => exact .inr ⟨by simp [TlvReply.setRetCode], rfl⟩
  | noFunds src dst hv hf hlow => exact .inr ⟨by simp [TlvReply.setRetCode], rfl⟩
  | tooHigh src dst hv hf hfunds hhigh =>
      exact absurd ⟨hlogin, src, dst, hv, hfunds, .inl hhigh⟩ hlost
  | done src dst hv hf hfunds hroom =>
      have hfits : dst.balance.toNat + req.amount.toNat < 2 ^ 32 := by
        by_contra hwrap
        exact hlost ⟨hlogin, src, dst, hv, hfunds, .inr (not_lt.mp hwrap)⟩
      exact .inl ⟨rfl, src, dst, _, _, hv.source, hv.dest, hv.distinct,
        debit_exact hr.1.2 hfunds, credit_exact hfits, debit_credit_bankAccounts req hv⟩

/-- A refused transfer that has kept its debit has changed the table. -/
theorem debit_bankAccounts_ne (hr : TransferInRange req) {b : Bank ι} {src dst : BankAccount}
    (hv : TransferValid req b.bankAccounts src dst)
    (hfunds : ¬ subtractedBalance src.balance req.amount < minBalance) :
    (b.debit req src).bankAccounts ≠ b.bankAccounts := by
  intro heq
  have hsrc := congrFun heq req.headerId
  rw [debit_bankAccounts req hv.source, Function.update_self, hv.source,
    Option.some.injEq] at hsrc
  have hbal : (subtractedBalance src.balance req.amount).toUInt32 = src.balance :=
    congrArg BankAccount.balance hsrc
  have hexact := debit_exact hr.1.2 hfunds
  rw [hbal] at hexact
  have := hr.1.1
  omega

/-- A lost credit is never atomic: the transfer has either kept the debit of a
refused request or stored a wrapped sum. -/
theorem CreditLost.not_atomic (hr : TransferInRange req) {w w' : World ι}
    (hlost : CreditLost sha256sum req w.bank.bankAccounts) (h : TransferExit me req w w') :
    ¬ TransferAtomic req w.bank.bankAccounts w'.reply.retCode w'.bank.bankAccounts := by
  obtain ⟨_, src, dst, hv, hfunds, hhigh⟩ := hlost
  cases h with
  | notAllowed hadmin => exact absurd hadmin hv.notAdmin
  | notFound _ _ hnone =>
      rw [hv.dest] at hnone
      cases hnone
  | sameId _ _ _ hsame => exact absurd hsame hv.distinct
  | noFunds src' _ hv' _ hlow =>
      obtain rfl := Option.some.inj (hv.source.symm.trans hv'.source)
      exact absurd hlow hfunds
  | tooHigh src' dst' hv' _ hfunds' _ =>
      rintro (⟨hok, _⟩ | ⟨_, heq⟩)
      · simp [TlvReply.setRetCode] at hok
      · exact debit_bankAccounts_ne req hr (b := w.bank.lockBoth me req.headerId req.transferId)
          (by exact hv') hfunds' heq
  | done src' dst' hv' _ _ hroom =>
      rintro (⟨_, _, dst₁, _, y, _, hdst, _, _, hy, _⟩ | ⟨hrc, _⟩)
      · obtain rfl := Option.some.inj (hv.dest.symm.trans hv'.dest)
        obtain rfl := Option.some.inj (hv.dest.symm.trans hdst)
        have := hhigh.resolve_left hroom
        have := y.toNat_lt
        omega
      · exact hrc rfl

/-- A transfer in range that returns is atomic exactly when its credit is not lost. -/
theorem transfer_atomic_iff (ht : req.type = .transfer) (hr : TransferInRange req)
    {w w' : World ι} (hw : processRequest sha256sum me salt req w = .ok ((), w')) :
    TransferAtomic req w.bank.bankAccounts w'.reply.retCode w'.bank.bankAccounts ↔
      ¬ CreditLost sha256sum req w.bank.bankAccounts := by
  obtain ⟨_, _, hexit⟩ := (processRequest_eq_ok sha256sum me salt req).mp hw
  cases hexit with
  | loginFail hlogin =>
      refine iff_of_true (.inr ⟨by simp [TlvReply.setRetCode], rfl⟩) ?_
      rintro ⟨hpassed, _⟩
      rw [hlogin] at hpassed
      cases hpassed
  | op w₁ hlogin hop =>
      cases hop with
      | transfer _ h =>
          constructor
          · intro hatomic hlost
            exact CreditLost.not_atomic sha256sum me req hr (by exact hlost) h hatomic
          · intro hlost
            have hatomic := h.atomic sha256sum me req hr (by exact hlogin) (by exact hlost)
            exact hatomic
      | create ht' | balance ht' | shutdown ht' | undefined _ ht' => cases ht.symm.trans ht'

/-- A transfer in range is answered, and atomic, exactly when its header id is
inside the array, the mutexes it takes are free and its credit is not lost. -/
theorem transfer_answered_iff (ht : req.type = .transfer) (hr : TransferInRange req)
    (w : World ι) :
    (∃ w', processRequest sha256sum me salt req w = .ok ((), w') ∧
      TransferAtomic req w.bank.bankAccounts w'.reply.retCode w'.bank.bankAccounts) ↔
    req.headerId < maxBankAccounts ∧ w.bank.Grants sha256sum req ∧
      ¬ CreditLost sha256sum req w.bank.bankAccounts := by
  have hin : req.headerId < maxBankAccounts → req.InArray := fun hid =>
    ⟨hid, by simp [ht], fun _ => hr.2.2⟩
  constructor
  · rintro ⟨w', hw, hatomic⟩
    have hid := ((processRequest_eq_ok sha256sum me salt req).mp hw).2.1
    exact ⟨hid, (processRequest_returns_iff sha256sum me salt req (hin hid)).mp ⟨w', hw⟩,
      (transfer_atomic_iff sha256sum me salt req ht hr hw).mp hatomic⟩
  · rintro ⟨hid, hgrants, hlost⟩
    obtain ⟨w', hw⟩ := (processRequest_returns_iff sha256sum me salt req (hin hid)).mpr hgrants
    exact ⟨w', hw, (transfer_atomic_iff sha256sum me salt req ht hr hw).mpr hlost⟩

/-- The requests answered so far, with their codes, and the bank they leave,
when each request is processed after the one before has returned and met
`guard` when it was taken up. -/
inductive Sequential (guard : World ι → TlvRequest → Prop) (b₀ : Bank ι) :
    List (TlvRequest × RetCode) → Bank ι → Prop
  | nil : Sequential guard b₀ [] b₀
  | snoc {es b} (h : Sequential guard b₀ es b) (me : ι) (salt : CString) (req : TlvRequest)
      (reply : TlvReply) (w' : World ι) (hguard : guard ⟨b, reply⟩ req)
      (hw : processRequest sha256sum me salt req ⟨b, reply⟩ = .ok ((), w')) :
      Sequential guard b₀ (es ++ [(req, w'.reply.retCode)]) w'.bank

/-- The initial balance of an account created with `RC_OK`. -/
def createdBalance (e : TlvRequest × RetCode) : ℕ :=
  if e.1.type = .createAccount ∧ e.2 = .ok then e.1.value.create.balance.toNat else 0

theorem total_of_transferAtomic {t t' : Table} {rc : RetCode}
    (hhead : req.headerId < maxBankAccounts) (hdest : req.transferId < maxBankAccounts)
    (h : TransferAtomic req t rc t') : total t' = total t := by
  rcases h with ⟨_, src, dst, x, y, hsrc, hdst, hne, hx, hy, rfl⟩ | ⟨_, rfl⟩
  · have h₁ := total_update hhead t (some { src with balance := x })
    have h₂ := total_update hdest (Function.update t req.headerId
      (some { src with balance := x })) (some { dst with balance := y })
    rw [Function.update_of_ne hne, hdst] at h₂
    rw [hsrc] at h₁
    simp only [entryBalance_some] at h₁ h₂
    omega
  · rfl

/-- One request adds to the sum of all balances what it creates. -/
theorem total_processRequest {w w' : World ι}
    (hw : processRequest sha256sum me salt req w = .ok ((), w'))
    (htransfer : req.type = .transfer →
      TransferInRange req ∧ ¬ CreditLost sha256sum req w.bank.bankAccounts) :
    total w'.bank.bankAccounts =
      total w.bank.bankAccounts + createdBalance (req, w'.reply.retCode) := by
  obtain ⟨_, hid, hexit⟩ := (processRequest_eq_ok sha256sum me salt req).mp hw
  by_cases ht : req.type = .transfer
  · obtain ⟨hr, hlost⟩ := htransfer ht
    have hatomic := (transfer_atomic_iff sha256sum me salt req ht hr hw).mpr hlost
    rw [total_of_transferAtomic req hid hr.2.2 hatomic]
    simp [createdBalance, ht]
  cases hexit with
  | loginFail hlogin => simp [begun, createdBalance, TlvReply.setRetCode]
  | op w₁ hlogin hop =>
      rcases hop with ⟨hc, h⟩ | ⟨hb, h⟩ | ⟨ht', _⟩ | ⟨hs, h⟩ | ⟨_, hu, rfl⟩
      · cases h with
        | notAllowed | inUse => simp [begun, createdBalance, TlvReply.setRetCode]
        | done hadmin hin hnone hf =>
            have hsum := total_update hin w.bank.bankAccounts
              (some (newAccount sha256sum salt req.createId req.value.create.balance
                req.value.create.password))
            have hnone' : w.bank.bankAccounts req.createId = none := hnone
            rw [hnone', entryBalance_none, entryBalance_some, add_zero] at hsum
            simpa [begun, createdBalance, hc, TlvReply.setRetCode, TlvReply.setAccountId]
              using hsum
      · cases h <;> simp [begun, createdBalance, hb]
      · exact absurd ht' ht
      · cases h <;> simp [begun, createdBalance, hs]
      · simp [begun, createdBalance, hu]

/-- As long as no credit is lost, the money in the bank is the money the
answered creations brought in. -/
theorem Sequential.total_eq {adminPassword : CString} {guard : World ι → TlvRequest → Prop}
    (hguard : ∀ w req, guard w req → req.type = .transfer →
      TransferInRange req ∧ ¬ CreditLost sha256sum req w.bank.bankAccounts)
    {es : List (TlvRequest × RetCode)} {b : Bank ι}
    (h : Sequential sha256sum guard (Bank.idle (adminTable sha256sum salt adminPassword)) es b) :
    total b.bankAccounts = (es.map createdBalance).sum := by
  induction h with
  | nil => exact total_adminTable sha256sum salt adminPassword
  | snoc h me salt' req reply w' hg hw ih =>
      rw [total_processRequest sha256sum me salt' req hw (hguard _ _ hg), ih]
      simp

/-- A transfer in range is answered and moves its amount or leaves the table as
it was exactly when its header id is inside the array, the mutexes it takes are
free and its credit is not lost. Every sequential run that loses no credit holds
exactly the money of its answered creations. -/
theorem transfer_atomic_unless_credit_lost (adminPassword : CString) :
    (∀ (w : World ι) (req : TlvRequest), req.type = .transfer → TransferInRange req →
      ((∃ w', processRequest sha256sum me salt req w = .ok ((), w') ∧
        TransferAtomic req w.bank.bankAccounts w'.reply.retCode w'.bank.bankAccounts) ↔
      req.headerId < maxBankAccounts ∧ w.bank.Grants sha256sum req ∧
        ¬ CreditLost sha256sum req w.bank.bankAccounts)) ∧
    (∀ (es : List (TlvRequest × RetCode)) (b : Bank ι),
      Sequential sha256sum (fun w req => req.type = .transfer →
          TransferInRange req ∧ ¬ CreditLost sha256sum req w.bank.bankAccounts)
        (Bank.idle (adminTable sha256sum salt adminPassword)) es b →
      total b.bankAccounts = (es.map createdBalance).sum) :=
  ⟨fun w req ht hr => transfer_answered_iff sha256sum me salt req ht hr w,
    fun _ _ h => h.total_eq sha256sum salt fun _ _ hg => hg⟩

end Requests

namespace Sample

theorem loginOk_create {t : Table} (ht : t 0 = adminOnly 0) (pid id x : UInt32)
    (password : CString) : loginOk sha256sum (create pid id x password) t = true := by
  have hmatch : loginOk sha256sum (create 0 0 0 []) adminOnly = true := by decide +kernel
  rw [← hmatch]
  simp only [loginOk, create, ht]

/-- A creation by the administrator on a free slot of an unlocked bank. -/
theorem create_answered {b : Bank Unit} (hfree : b.Unlocked)
    (hadmin : b.bankAccounts 0 = adminOnly 0) {id : UInt32} (hid : id < maxBankAccounts)
    (hnone : b.bankAccounts id = none) (pid x : UInt32) (password : CString) : ∃ w',
      processRequest sha256sum () salt (create pid id x password) ⟨b, emptyReply⟩ = .ok ((), w') ∧
      w'.reply.retCode = .ok ∧ w'.bank.Unlocked ∧
      w'.bank.bankAccounts =
        Function.update b.bankAccounts id (some (newAccount sha256sum salt id x password)) :=
  ⟨_, (processRequest_eq_ok _ _ _ _).mpr ⟨hfree.2, (by decide : (0 : UInt32) < 4096), .op _
    (loginOk_create hadmin pid id x password)
    (.create rfl (.done rfl hid hnone (hfree.1 id)))⟩, rfl, hfree, rfl⟩

/-- The two creations that fill the small bank. -/
theorem sequential_twoAccounts (guard : World Unit → TlvRequest → Prop)
    (hguard : ∀ w pid id x password, guard w (create pid id x password)) (x y : UInt32) :
    ∃ b : Bank Unit, Sequential sha256sum guard (Bank.idle adminOnly)
      [(create 7 1 x password₁, .ok), (create 8 2 y password₂, .ok)] b ∧
      b.bankAccounts = twoAccounts x y ∧ b.Unlocked := by
  have hidle : (Bank.idle adminOnly : Bank Unit).Unlocked := ⟨fun _ => rfl, rfl⟩
  obtain ⟨w₁, hw₁, hrc₁, hfree₁, ht₁⟩ :=
    create_answered hidle rfl (by decide : (1 : UInt32) < 4096) rfl 7 x password₁
  obtain ⟨w₂, hw₂, hrc₂, hfree₂, ht₂⟩ := create_answered hfree₁ (by rw [ht₁]; rfl)
    (by decide : (2 : UInt32) < 4096) (by rw [ht₁]; rfl) 8 y password₂
  refine ⟨w₂.bank, ?_, by rw [ht₂, ht₁]; rfl, hfree₂⟩
  have h : Sequential sha256sum guard (Bank.idle adminOnly)
      [(create 7 1 x password₁, w₁.reply.retCode), (create 8 2 y password₂, w₂.reply.retCode)]
      w₂.bank :=
    (Sequential.nil.snoc () salt _ emptyReply w₁ (hguard _ _ _ _ _) hw₁).snoc () salt _
      emptyReply w₂ (hguard _ _ _ _ _) hw₂
  rw [hrc₁, hrc₂] at h
  exact h

theorem loginOk_transfer {x y : UInt32} (pid amount : UInt32) :
    loginOk sha256sum (transfer pid amount) (twoAccounts x y) = true := by
  have hmatch : loginOk sha256sum (transfer 0 0) (twoAccounts 0 0) = true := by decide +kernel
  exact hmatch

theorem transfer_valid (x y pid amount : UInt32) :
    TransferValid (transfer pid amount) (twoAccounts x y)
      (newAccount sha256sum salt 1 x password₁) (newAccount sha256sum salt 2 y password₂) where
  notAdmin := (by decide : (1 : UInt32) ≠ 0)
  inArray := (by decide : (1 : UInt32) < 4096 ∧ (2 : UInt32) < 4096)
  source := rfl
  dest := rfl
  distinct := (by decide : (2 : UInt32) ≠ 1)

end Sample

/-- With 100 and 200 in the two accounts nothing is lost: a transfer of 50 is
atomic, and the three requests leave the 300 that were brought in. -/
theorem transfer_atomic_fifty : ∃ (b : Bank Unit) (w' : World Unit),
    processRequest Sample.sha256sum () Sample.salt (Sample.transfer 9 50)
      ⟨b, Sample.emptyReply⟩ = .ok ((), w') ∧
    TransferAtomic (Sample.transfer 9 50) b.bankAccounts w'.reply.retCode
      w'.bank.bankAccounts ∧
    total w'.bank.bankAccounts = 300 := by
  obtain ⟨b, hseq, ht, hfree⟩ := Sample.sequential_twoAccounts
    (fun w req => req.type = .transfer →
      TransferInRange req ∧ ¬ CreditLost Sample.sha256sum req w.bank.bankAccounts)
    (fun _ _ _ _ _ h => by cases h) 100 200
  have hatomic := transfer_atomic_unless_credit_lost Sample.sha256sum () Sample.salt
    Sample.adminPassword
  have hv := Sample.transfer_valid 100 200 9 50
  rw [← ht] at hv
  have hlogin := Sample.loginOk_transfer (x := 100) (y := 200) 9 50
  rw [← ht] at hlogin
  have hkept : ¬ CreditLost Sample.sha256sum (Sample.transfer 9 50) b.bankAccounts := by
    rintro ⟨_, src, dst, hv', _, hhigh⟩
    obtain rfl : _ = dst := Option.some.inj (hv.dest.symm.trans hv'.dest)
    exact absurd hhigh (by decide +kernel)
  have hgrants := (hfree.freeFor (Sample.transfer 9 50)).grants Sample.sha256sum
  obtain ⟨w', hw, hmoved⟩ := (hatomic.1 ⟨b, Sample.emptyReply⟩ _ rfl (by decide)).mpr
    ⟨hv.inArray.1, hgrants, hkept⟩
  refine ⟨b, w', hw, hmoved, ?_⟩
  have hrun := hseq.snoc () Sample.salt _ Sample.emptyReply w' (fun _ => ⟨by decide, hkept⟩) hw
  exact hatomic.2 _ _ hrun

/-- With account 1 at 100 and account 2 at the limit, a transfer of 50 is
answered `RC_TOO_HIGH` and account 1 is left with 50. -/
theorem transfer_not_atomic : ∃ (b : Bank Unit) (w' : World Unit),
    Sequential Sample.sha256sum (fun _ _ => True) (Bank.idle Sample.adminOnly)
      [(Sample.create 7 1 100 Sample.password₁, .ok),
        (Sample.create 8 2 1000000000 Sample.password₂, .ok)] b ∧
    TransferInRange (Sample.transfer 9 50) ∧
    processRequest Sample.sha256sum () Sample.salt (Sample.transfer 9 50)
      ⟨b, Sample.emptyReply⟩ = .ok ((), w') ∧
    w'.reply.retCode = .tooHigh ∧ (b.bankAccounts 1).map BankAccount.balance = some 100 ∧
    (w'.bank.bankAccounts 1).map BankAccount.balance = some 50 ∧
    w'.bank.bankAccounts 2 = b.bankAccounts 2 ∧
    ¬ TransferAtomic (Sample.transfer 9 50) b.bankAccounts w'.reply.retCode
      w'.bank.bankAccounts := by
  obtain ⟨b, hseq, ht, hfree⟩ := Sample.sequential_twoAccounts (fun _ _ => True)
    (fun _ _ _ _ _ => trivial) 100 1000000000
  have hv := Sample.transfer_valid 100 1000000000 9 50
  rw [← ht] at hv
  have hlogin := Sample.loginOk_transfer (x := 100) (y := 1000000000) 9 50
  rw [← ht] at hlogin
  refine ⟨b, _, hseq, by decide, (processRequest_eq_ok _ _ _ _).mpr ⟨hfree.2, hv.inArray.1,
    .op _ hlogin (.transfer rfl (.tooHigh _ _ (by exact hv) ⟨hfree.1 _, hfree.1 _⟩
      (by decide +kernel) (by decide +kernel)))⟩, rfl, by rw [ht]; rfl, ?_, ?_, ?_⟩
  · have hdebit := debit_bankAccounts (b := b) (Sample.transfer 9 50) hv.source
    exact (congrArg (Option.map BankAccount.balance) (congrFun hdebit 1)).trans rfl
  · exact Bank.setBalance_bankAccounts_of_ne b 50 (by decide : (2 : UInt32) ≠ 1)
  · rintro (⟨hrc, _⟩ | ⟨_, heq⟩)
    · cases hrc
    · have hdebit := debit_bankAccounts (b := b) (Sample.transfer 9 50) hv.source
      have hsrc := (congrFun hdebit 1).symm.trans ((congrFun heq 1).trans hv.source)
      have hbal : (some 50 : Option UInt32) = some 100 :=
        congrArg (Option.map BankAccount.balance) hsrc
      exact absurd hbal (by decide)

end HomeBanking
