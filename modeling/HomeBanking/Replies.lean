import HomeBanking.Isolation
import HomeBanking.Wire

/-!
# Replies

Which return code a request is answered with, and what of the reply memory is
sent. The codes are listed in `ret_code_t` in the order in which errors have
precedence. The reply memory of an office is used for all its clients, so a
field that is not assigned shows what an earlier reply left there.
-/

namespace HomeBanking

/-- The value of a `ret_code_t`. -/
def RetCode.code : RetCode → UInt32
  | .ok => 0
  | .srvDown => 1
  | .srvTimeout => 2
  | .usrDown => 3
  | .loginFail => 4
  | .opNAllow => 5
  | .idInUse => 6
  | .idNotFound => 7
  | .sameId => 8
  | .noFunds => 9
  | .tooHigh => 10
  | .other => 11

/-- `tlv_reply_t` in memory. -/
def TlvReply.bytes (r : TlvReply) : List UInt8 :=
  Bytes.ofWord r.type.code ++ Bytes.ofWord r.length ++ Bytes.ofWord r.accountId ++
    Bytes.ofWord r.retCode.code ++ Bytes.ofWord r.info

/-- The reply after the reply FIFO was opened or could not be. -/
def openFifoReply (opens : Bool) (r : TlvReply) : TlvReply :=
  if opens then r else r.setRetCode .usrDown

/-- The bytes that `sendReply` writes: those of type and length and then `length` more. -/
def TlvReply.shown (r : TlvReply) : List UInt8 := r.bytes.take (4 + 4 + r.length.toNat)

/-- The reply that `sendReply` leaves, and what it writes; without a reply FIFO
the write fails. -/
def sendReply (opens : Bool) (r : TlvReply) : TlvReply × List UInt8 :=
  let r := openFifoReply opens r
  (r, if opens then r.shown else [])

@[simp] theorem sendReply_retCode (opens : Bool) (r : TlvReply) :
    (sendReply opens r).1.retCode = if opens then r.retCode else .usrDown := by
  cases opens <;> rfl
@[simp] theorem sendReply_accountId (opens : Bool) (r : TlvReply) :
    (sendReply opens r).1.accountId = r.accountId := by
  cases opens <;> rfl

/-- The operation is for the other kind of account. -/
def NotAllowed (req : TlvRequest) : Prop :=
  match req.type with
  | .createAccount | .shutdown => req.headerId ≠ 0
  | .balance | .transfer => req.headerId = 0
  | .undefined _ => False

/-- The header id has no account or the password does not match. -/
def LoginInvalid (sha256sum : CString → CString) (req : TlvRequest) (t : Table) : Prop :=
  t req.headerId = none ∨ ∃ a, t req.headerId = some a ∧
    generateHash sha256sum (req.value.header.password ++ a.salt) ≠ a.hash

/-- The error conditions that `ret_code_t` documents, for a request on the
accounts `t`. The balances are compared as mathematical integers. -/
def ErrorCondition (sha256sum : CString → CString) (req : TlvRequest) (t : Table)
    (opens : Bool) : RetCode → Prop
  | .usrDown => opens = false
  | .loginFail => LoginInvalid sha256sum req t
  | .opNAllow => NotAllowed req
  | .idInUse => req.type = .createAccount ∧ ∃ a, t req.createId = some a
  | .idNotFound => req.type = .transfer ∧ t req.transferId = none
  | .sameId => req.type = .transfer ∧ req.transferId = req.headerId
  | .noFunds => req.type = .transfer ∧ ∃ src, t req.headerId = some src ∧
      (src.balance.toNat : ℤ) - req.amount.toNat < minBalance.toInt
  | .tooHigh => req.type = .transfer ∧ ∃ dst, t req.transferId = some dst ∧
      maxBalance.toInt < (dst.balance.toNat : ℤ) + req.amount.toNat
  | .ok | .srvDown | .srvTimeout | .other => False

/-- `rc` is the first error in the order of `ret_code_t`, or `RC_OK` when there
is none. -/
def FirstError (condition : RetCode → Prop) (rc : RetCode) : Prop :=
  (rc = .ok ∧ ∀ e, ¬ condition e) ∨ (condition rc ∧ ∀ e, condition e → rc.code ≤ e.code)

/-- The results that a transfer compares with the limits are below 2^31: that of
the debit and, when enough is left, that of the credit. -/
def ResultsFit (sha256sum : CString → CString) (req : TlvRequest) (t : Table) : Prop :=
  req.type = .transfer → loginOk sha256sum req t = true →
    ∀ src dst, TransferValid req t src dst →
      (src.balance.toNat : ℤ) - req.amount.toNat < 2 ^ 31 ∧
      (minBalance.toInt ≤ (src.balance.toNat : ℤ) - req.amount.toNat →
        dst.balance.toNat + req.amount.toNat < 2 ^ 31)

section FirstErrors

variable {condition : RetCode → Prop}

theorem RetCode.code_injective : Function.Injective RetCode.code := by
  intro a b h
  cases a <;> cases b <;> first | rfl | exact absurd h (by decide)

theorem RetCode.code_toNat_le (rc : RetCode) : rc.code.toNat ≤ 11 := by
  cases rc <;> decide

/-- No error before `rc` in the order of `ret_code_t`. -/
def NoneBefore (condition : RetCode → Prop) (rc : RetCode) : Prop :=
  ∀ e, e.code < rc.code → ¬ condition e

theorem NoneBefore.first {rc : RetCode} (h : NoneBefore condition rc) (hrc : condition rc) :
    FirstError condition rc :=
  .inr ⟨hrc, fun e he => UInt32.not_lt.mp fun hlt => h e hlt he⟩

theorem NoneBefore.next {rc rc' : RetCode} (h : NoneBefore condition rc)
    (hrc : ¬ condition rc) (hnext : rc'.code = rc.code + 1) : NoneBefore condition rc' := by
  intro e he
  have hle := rc.code_toNat_le
  rw [hnext, UInt32.lt_iff_toNat_lt, UInt32.toNat_add] at he
  change e.code.toNat < (rc.code.toNat + 1) % 2 ^ 32 at he
  rw [Nat.mod_eq_of_lt (by omega)] at he
  rcases Nat.lt_succ_iff_lt_or_eq.mp he with hlt | heq
  · exact h e (UInt32.lt_iff_toNat_lt.mpr hlt)
  · obtain rfl := RetCode.code_injective (UInt32.toNat_inj.mp heq)
    exact hrc

end FirstErrors

section Codes

variable {ι : Type} {sha256sum : CString → CString} {me : ι} {salt : CString} {req : TlvRequest}

theorem loginInvalid_iff {t : Table} :
    LoginInvalid sha256sum req t ↔ loginOk sha256sum req t = false := by
  unfold LoginInvalid loginOk
  cases ht : t req.headerId with
  | none => simp
  | some a => simp [passwordMatches]

theorem subtractedBalance_lt_iff {b a : UInt32} (ha : a.toNat ≤ 1000000000)
    (hfit : (b.toNat : ℤ) - a.toNat < 2 ^ 31) :
    subtractedBalance b a < minBalance ↔ (b.toNat : ℤ) - a.toNat < minBalance.toInt := by
  have hmin : minBalance.toInt = 1 := rfl
  have hb := b.toNat_lt
  rw [lt_minBalance_iff, subtractedBalance_toInt, UInt32.toNat_sub, hmin]
  split <;> omega

/-- A debit that passes its check is computed without overflow. -/
theorem debit_lt_of_funds {b a : UInt32} (ha : a.toNat ≤ 1000000000)
    (hfunds : ¬ subtractedBalance b a < minBalance) : (b.toNat : ℤ) - a.toNat < 2 ^ 31 := by
  have hb := b.toNat_lt
  rw [lt_minBalance_iff, subtractedBalance_toInt, UInt32.toNat_sub] at hfunds
  split at hfunds <;> omega

/-- A credit that is refused is computed without overflow. -/
theorem credit_lt_of_high {b a : UInt32} (ha : a.toNat ≤ 1000000000)
    (hhigh : maxBalance < addedBalance b a) : b.toNat + a.toNat < 2 ^ 31 := by
  have hb := b.toNat_lt
  rw [maxBalance_lt_iff, addedBalance_toInt, UInt32.toNat_add] at hhigh
  split at hhigh <;> omega

theorem maxBalance_lt_addedBalance_iff {b a : UInt32} (hfit : b.toNat + a.toNat < 2 ^ 31) :
    maxBalance < addedBalance b a ↔ maxBalance.toInt < (b.toNat : ℤ) + a.toNat := by
  have hmax : maxBalance.toInt = 1000000000 := rfl
  rw [maxBalance_lt_iff, addedBalance_toInt, UInt32.toNat_add, Nat.mod_eq_of_lt (by omega),
    if_pos hfit, hmax]
  push_cast
  rfl

section Order

variable {t : Table}

/-- Nothing is looked at before the reply FIFO. -/
theorem noneBefore_usrDown (opens : Bool) :
    NoneBefore (ErrorCondition sha256sum req t opens) .usrDown := by
  intro e he
  cases e with
  | ok | srvDown | srvTimeout => exact fun h => h
  | _ => exact absurd he (by decide)

theorem noneBefore_loginFail :
    NoneBefore (ErrorCondition sha256sum req t true) .loginFail :=
  (noneBefore_usrDown true).next (fun h => by cases h) rfl

variable (hlogin : loginOk sha256sum req t = true)
include hlogin

theorem noneBefore_opNAllow : NoneBefore (ErrorCondition sha256sum req t true) .opNAllow := by
  refine noneBefore_loginFail.next ?_ rfl
  intro h
  rw [loginInvalid_iff.mp h] at hlogin
  cases hlogin

theorem noneBefore_idInUse (hallowed : ¬ NotAllowed req) :
    NoneBefore (ErrorCondition sha256sum req t true) .idInUse :=
  (noneBefore_opNAllow hlogin).next hallowed rfl

theorem noneBefore_idNotFound (hallowed : ¬ NotAllowed req)
    (hfree : req.type = .createAccount → t req.createId = none) :
    NoneBefore (ErrorCondition sha256sum req t true) .idNotFound := by
  refine (noneBefore_idInUse hlogin hallowed).next ?_ rfl
  rintro ⟨htype, a, ha⟩
  rw [hfree htype] at ha
  cases ha

/-- A request that is allowed and passes its own checks has no error. -/
theorem firstError_ok (hallowed : ¬ NotAllowed req)
    (hfree : req.type = .createAccount → t req.createId = none)
    (htransfer : req.type ≠ .transfer) :
    FirstError (ErrorCondition sha256sum req t true) .ok := by
  refine .inl ⟨rfl, fun e => ?_⟩
  have hbefore := noneBefore_idNotFound hlogin hallowed hfree
  cases e with
  | idNotFound | sameId | noFunds | tooHigh => exact fun h => htransfer h.1
  | other => exact fun h => h
  | _ => exact hbefore _ (by decide)

end Order

theorem CreateExit.firstError {w w' : World ι} (htype : req.type = .createAccount)
    (hl : loginOk sha256sum req w.bank.bankAccounts = true)
    (h : CreateExit sha256sum salt req w w') :
    FirstError (ErrorCondition sha256sum req w.bank.bankAccounts true) w'.reply.retCode := by
  have hallowed : ¬ NotAllowed req ↔ req.headerId = 0 := by simp [NotAllowed, htype]
  cases h with
  | notAllowed hadmin =>
      exact (noneBefore_opNAllow hl).first (not_not.mp (mt hallowed.mp hadmin))
  | inUse hadmin _ hsome =>
      exact (noneBefore_idInUse hl (hallowed.mpr hadmin)).first
        ⟨htype, Option.isSome_iff_exists.mp hsome⟩
  | done hadmin _ hnone _ =>
      exact firstError_ok hl (hallowed.mpr hadmin) (fun _ => hnone) (by simp [htype])

theorem BalanceExit.firstError {w w' : World ι} (htype : req.type = .balance)
    (hl : loginOk sha256sum req w.bank.bankAccounts = true) (h : BalanceExit req w w') :
    FirstError (ErrorCondition sha256sum req w.bank.bankAccounts true) w'.reply.retCode := by
  have hallowed : NotAllowed req ↔ req.headerId = 0 := by simp [NotAllowed, htype]
  cases h with
  | notAllowed hadmin => exact (noneBefore_opNAllow hl).first (hallowed.mpr hadmin)
  | done src hadmin _ _ =>
      exact firstError_ok hl (mt hallowed.mp hadmin) (by simp [htype]) (by simp [htype])

theorem ShutDownExit.firstError {w w' : World ι} (htype : req.type = .shutdown)
    (hl : loginOk sha256sum req w.bank.bankAccounts = true) (h : ShutDownExit req w w') :
    FirstError (ErrorCondition sha256sum req w.bank.bankAccounts true) w'.reply.retCode := by
  have hallowed : ¬ NotAllowed req ↔ req.headerId = 0 := by simp [NotAllowed, htype]
  cases h with
  | notAllowed hadmin =>
      exact (noneBefore_opNAllow hl).first (not_not.mp (mt hallowed.mp hadmin))
  | done hadmin =>
      exact firstError_ok hl (hallowed.mpr hadmin) (by simp [htype]) (by simp [htype])

section Transfers

variable {t : Table} {src dst : BankAccount} (htype : req.type = .transfer)
include htype

theorem noneBefore_sameId (hlogin : loginOk sha256sum req t = true) (hadmin : req.headerId ≠ 0)
    (hdst : t req.transferId = some dst) :
    NoneBefore (ErrorCondition sha256sum req t true) .sameId := by
  have hallowed : ¬ NotAllowed req := by simpa [NotAllowed, htype] using hadmin
  refine (noneBefore_idNotFound hlogin hallowed (by simp [htype])).next ?_ rfl
  rintro ⟨_, hnone⟩
  rw [hdst] at hnone
  cases hnone

theorem noneBefore_noFunds (hlogin : loginOk sha256sum req t = true)
    (hv : TransferValid req t src dst) :
    NoneBefore (ErrorCondition sha256sum req t true) .noFunds := by
  refine (noneBefore_sameId htype hlogin hv.notAdmin hv.dest).next ?_ rfl
  exact fun h => hv.distinct h.2

/-- The debit check refuses exactly the documented cases. -/
theorem noFunds_iff (hv : TransferValid req t src dst) (hamount : req.amount.toNat ≤ 1000000000)
    (hfit : (src.balance.toNat : ℤ) - req.amount.toNat < 2 ^ 31) :
    subtractedBalance src.balance req.amount < minBalance ↔
      ErrorCondition sha256sum req t true .noFunds := by
  rw [subtractedBalance_lt_iff hamount hfit]
  constructor
  · intro hlow
    exact ⟨htype, src, hv.source, hlow⟩
  · rintro ⟨_, src', hsrc, hlow⟩
    obtain rfl := Option.some.inj (hv.source.symm.trans hsrc)
    exact hlow

/-- The credit check refuses exactly the documented cases. -/
theorem tooHigh_iff (hv : TransferValid req t src dst)
    (hfit : dst.balance.toNat + req.amount.toNat < 2 ^ 31) :
    maxBalance < addedBalance dst.balance req.amount ↔
      ErrorCondition sha256sum req t true .tooHigh := by
  rw [maxBalance_lt_addedBalance_iff hfit]
  constructor
  · intro hhigh
    exact ⟨htype, dst, hv.dest, hhigh⟩
  · rintro ⟨_, dst', hdst, hhigh⟩
    obtain rfl := Option.some.inj (hv.dest.symm.trans hdst)
    exact hhigh

end Transfers

theorem TransferExit.firstError {w w' : World ι} (htype : req.type = .transfer)
    (hl : loginOk sha256sum req w.bank.bankAccounts = true)
    (hamount : req.amount.toNat ≤ 1000000000)
    (hfit : ResultsFit sha256sum req w.bank.bankAccounts) (h : TransferExit me req w w') :
    FirstError (ErrorCondition sha256sum req w.bank.bankAccounts true) w'.reply.retCode := by
  cases h with
  | notAllowed hadmin =>
      have hallowed : NotAllowed req := by simpa [NotAllowed, htype] using hadmin
      exact (noneBefore_opNAllow hl).first hallowed
  | notFound hadmin _ hnone =>
      have hallowed : ¬ NotAllowed req := by simpa [NotAllowed, htype] using hadmin
      exact (noneBefore_idNotFound hl hallowed (by simp [htype])).first ⟨htype, hnone⟩
  | sameId hadmin _ hsome hsame =>
      obtain ⟨dst, hdst⟩ := Option.isSome_iff_exists.mp hsome
      exact (noneBefore_sameId htype hl hadmin hdst).first ⟨htype, hsame⟩
  | noFunds src dst hv _ hlow =>
      have hdebit := (hfit htype hl src dst hv).1
      exact (noneBefore_noFunds htype hl hv).first ((noFunds_iff htype hv hamount hdebit).mp hlow)
  | tooHigh src dst hv _ hfunds hhigh =>
      have hdebit := (hfit htype hl src dst hv).1
      have hbefore := (noneBefore_noFunds htype hl hv).next
        (mt (noFunds_iff htype hv hamount hdebit).mpr hfunds) (rfl : RetCode.tooHigh.code = _)
      exact hbefore.first ((tooHigh_iff htype hv (credit_lt_of_high hamount hhigh)).mp hhigh)
  | done src dst hv _ hfunds hroom =>
      obtain ⟨hdebit, hcredit⟩ := hfit htype hl src dst hv
      have hbefore := (noneBefore_noFunds htype hl hv).next
        (mt (noFunds_iff htype hv hamount hdebit).mpr hfunds) (rfl : RetCode.tooHigh.code = _)
      have hleft := not_lt.mp (mt (subtractedBalance_lt_iff hamount hdebit).mpr hfunds)
      refine .inl ⟨rfl, fun e => ?_⟩
      cases e with
      | tooHigh => exact mt (tooHigh_iff htype hv (hcredit hleft)).mpr hroom
      | other => exact fun h => h
      | _ => exact hbefore _ (by decide)

/-- A transfer whose results do not fit is not answered with its first error:
the overflow of the debit is taken for missing funds, that of the credit for room. -/
theorem TransferExit.resultsFit {w w' : World ι} (htype : req.type = .transfer)
    (hamount : req.amount.toNat ≤ 1000000000) (h : TransferExit me req w w')
    (hfirst : FirstError (ErrorCondition sha256sum req w.bank.bankAccounts true)
      w'.reply.retCode) : ResultsFit sha256sum req w.bank.bankAccounts := by
  intro _ _ src dst hv
  cases h with
  | notAllowed hadmin => exact absurd hadmin hv.notAdmin
  | notFound _ _ hnone =>
      rw [hv.dest] at hnone
      cases hnone
  | sameId _ _ _ hsame => exact absurd hsame hv.distinct
  | noFunds =>
      rcases hfirst with ⟨hrc, _⟩ | ⟨⟨_, src', hsrc, hlow⟩, _⟩
      · cases hrc
      · obtain rfl := Option.some.inj (hv.source.symm.trans hsrc)
        have hmin : minBalance.toInt = 1 := rfl
        exact ⟨by omega, fun hleft => by omega⟩
  | tooHigh src' dst' hv' _ hfunds hhigh =>
      obtain rfl := Option.some.inj (hv.source.symm.trans hv'.source)
      obtain rfl := Option.some.inj (hv.dest.symm.trans hv'.dest)
      exact ⟨debit_lt_of_funds hamount hfunds, fun _ => credit_lt_of_high hamount hhigh⟩
  | done src' dst' hv' _ hfunds _ =>
      obtain rfl := Option.some.inj (hv.source.symm.trans hv'.source)
      have hnone : ¬ ErrorCondition sha256sum req w.bank.bankAccounts true .tooHigh :=
        hfirst.elim (fun h => h.2 .tooHigh) fun h => h.1.elim
      have hmax : maxBalance.toInt = 1000000000 := rfl
      have hroom := not_lt.mp fun hhigh => hnone ⟨htype, dst, hv.dest, hhigh⟩
      exact ⟨debit_lt_of_funds hamount hfunds, fun _ => by omega⟩

theorem Exit.firstError {w w' : World ι} (hop : ∀ code, req.type ≠ .undefined code)
    (hamount : req.type = .transfer → req.amount.toNat ≤ 1000000000)
    (hfit : ResultsFit sha256sum req w.bank.bankAccounts) (h : Exit sha256sum me salt req w w') :
    FirstError (ErrorCondition sha256sum req w.bank.bankAccounts true) w'.reply.retCode := by
  cases h with
  | loginFail hlogin => exact noneBefore_loginFail.first (loginInvalid_iff.mpr hlogin)
  | op w₁ hlogin hexit =>
      -- counting the office changes neither the accounts nor the reply
      change FirstError (ErrorCondition sha256sum req (begun req w).bank.bankAccounts true)
        w₁.reply.retCode
      cases hexit with
      | create htype h => exact h.firstError htype hlogin
      | balance htype h => exact h.firstError htype hlogin
      | transfer htype h => exact h.firstError htype hlogin (hamount htype) hfit
      | shutdown htype h => exact h.firstError htype hlogin
      | undefined code htype => exact absurd htype (hop code)

theorem Exit.resultsFit {w w' : World ι}
    (hamount : req.type = .transfer → req.amount.toNat ≤ 1000000000)
    (h : Exit sha256sum me salt req w w')
    (hfirst : FirstError (ErrorCondition sha256sum req w.bank.bankAccounts true)
      w'.reply.retCode) : ResultsFit sha256sum req w.bank.bankAccounts := by
  intro htype hlogin
  cases h with
  | loginFail hfails =>
      rw [hlogin] at hfails
      cases hfails
  | op w₁ _ hexit =>
      cases hexit with
      | transfer _ h =>
          have hfit : ResultsFit sha256sum req (begun req w).bank.bankAccounts :=
            h.resultsFit htype (hamount htype) hfirst
          exact hfit htype hlogin
      | create ht => cases htype.symm.trans ht
      | balance ht => cases htype.symm.trans ht
      | shutdown ht => cases htype.symm.trans ht
      | undefined _ ht => cases htype.symm.trans ht

variable (sha256sum me salt req)

/-- With results that fit, the return code that reaches the client is the first
error in the order of `ret_code_t`. -/
theorem processRequest_firstError (hop : ∀ code, req.type ≠ .undefined code)
    (hr : InUserRange req) {w w' : World ι} (opens : Bool)
    (hfit : opens = true → ResultsFit sha256sum req w.bank.bankAccounts)
    (h : processRequest sha256sum me salt req w = .ok ((), w')) :
    FirstError (ErrorCondition sha256sum req w.bank.bankAccounts opens)
      (sendReply opens w'.reply).1.retCode := by
  rw [sendReply_retCode]
  cases opens with
  | false => exact (noneBefore_usrDown false).first rfl
  | true =>
      exact ((processRequest_eq_ok sha256sum me salt req).mp h).2.2.firstError hop
        (fun ht => (hr.2.2 ht).1.2) (hfit rfl)

/-- A request is answered, with the first error in the order of `ret_code_t`,
exactly when the mutexes it takes are free and either the reply FIFO cannot be
opened or the results of a transfer fit. -/
theorem firstError_iff (hop : ∀ code, req.type ≠ .undefined code) (hr : InUserRange req)
    (w : World ι) (opens : Bool) :
    (∃ w', processRequest sha256sum me salt req w = .ok ((), w') ∧
      FirstError (ErrorCondition sha256sum req w.bank.bankAccounts opens)
        (sendReply opens w'.reply).1.retCode) ↔
    w.bank.Grants sha256sum req ∧
      (opens = true → ResultsFit sha256sum req w.bank.bankAccounts) := by
  have hreturns := processRequest_returns_iff sha256sum me salt req hr.inArray (w := w)
  constructor
  · rintro ⟨w', hw, hfirst⟩
    refine ⟨hreturns.mp ⟨w', hw⟩, ?_⟩
    rintro rfl
    rw [sendReply_retCode, if_pos rfl] at hfirst
    exact ((processRequest_eq_ok sha256sum me salt req).mp hw).2.2.resultsFit
      (fun ht => (hr.2.2 ht).1.2) hfirst
  · rintro ⟨hgrants, hfit⟩
    obtain ⟨w', hw⟩ := hreturns.mpr hgrants
    exact ⟨w', hw, processRequest_firstError sha256sum me salt req hop hr opens hfit hw⟩

end Codes

/-- A transfer of 500 from an account that holds 100 is refused for its funds,
the first and only error. -/
theorem firstError_noFunds : ∃ w',
    processRequest Sample.sha256sum () Sample.salt (Sample.transfer 9 500)
      ⟨Bank.idle (Sample.twoAccounts 100 200), Sample.emptyReply⟩ = .ok ((), w') ∧
    FirstError (ErrorCondition Sample.sha256sum (Sample.transfer 9 500)
      (Sample.twoAccounts 100 200) true) (sendReply true w'.reply).1.retCode := by
  have hv := Sample.transfer_valid 100 200 9 500
  have hfit : ResultsFit Sample.sha256sum (Sample.transfer 9 500)
      (Sample.twoAccounts 100 200) := by
    intro _ _ src dst hv'
    obtain rfl := Option.some.inj (hv.source.symm.trans hv'.source)
    obtain rfl := Option.some.inj (hv.dest.symm.trans hv'.dest)
    exact ⟨(by decide : ((100 : UInt32).toNat : ℤ) - (500 : UInt32).toNat < 2 ^ 31),
      fun _ => (by decide : (200 : UInt32).toNat + (500 : UInt32).toNat < 2 ^ 31)⟩
  have hfree : (Bank.idle (Sample.twoAccounts 100 200) : Bank Unit).Unlocked :=
    ⟨fun _ => rfl, rfl⟩
  exact (firstError_iff Sample.sha256sum () Sample.salt (Sample.transfer 9 500)
    (fun _ h => by cases h) (by decide)
    ⟨Bank.idle (Sample.twoAccounts 100 200), Sample.emptyReply⟩ true).mpr
    ⟨(hfree.freeFor _).grants Sample.sha256sum, fun _ => hfit⟩

/-- The server creates account 1 with 3000000000 and answers `RC_OK`. The
transfer of 50 that follows is refused for its funds, since the difference is
read as a negative number. -/
theorem firstError_not_noFunds : ∃ (b : Bank Unit) (w' : World Unit),
    Sequential Sample.sha256sum (fun _ _ => True) (Bank.idle Sample.adminOnly)
      [(Sample.create 7 1 3000000000 Sample.password₁, .ok),
        (Sample.create 8 2 100 Sample.password₂, .ok)] b ∧
    b.Unlocked ∧ InUserRange (Sample.transfer 9 50) ∧
    processRequest Sample.sha256sum () Sample.salt (Sample.transfer 9 50)
      ⟨b, Sample.emptyReply⟩ = .ok ((), w') ∧
    (sendReply true w'.reply).1.retCode = .noFunds ∧
    ¬ FirstError (ErrorCondition Sample.sha256sum (Sample.transfer 9 50) b.bankAccounts true)
      .noFunds := by
  obtain ⟨b, hseq, ht, hfree⟩ := Sample.sequential_twoAccounts (fun _ _ => True)
    (fun _ _ _ _ _ => trivial) 3000000000 100
  have hv := Sample.transfer_valid 3000000000 100 9 50
  rw [← ht] at hv
  have hlogin := Sample.loginOk_transfer (x := 3000000000) (y := 100) 9 50
  rw [← ht] at hlogin
  refine ⟨b, _, hseq, hfree, by decide, (processRequest_eq_ok _ _ _ _).mpr ⟨hfree.2, hv.inArray.1,
    .op _ hlogin (.transfer rfl (.noFunds _ _ (by exact hv) ⟨hfree.1 _, hfree.1 _⟩
      (by decide +kernel)))⟩, rfl, ?_⟩
  rintro (⟨hrc, _⟩ | ⟨⟨_, src, hsrc, hlow⟩, _⟩)
  · cases hrc
  · obtain rfl := Option.some.inj (hv.source.symm.trans hsrc)
    exact absurd hlow (by decide +kernel)

section Residue

variable {ι : Type} {sha256sum : CString → CString} {me : ι} {salt : CString} {req : TlvRequest}

/-- The requests on which every part of the reply that is sent is assigned: the
login passes, and so does the validation unless it is that of a transfer. -/
def ReplyAssigned (sha256sum : CString → CString) (req : TlvRequest) (t : Table) : Prop :=
  loginOk sha256sum req t = true ∧
    match req.type with
    | .createAccount => req.headerId = 0 ∧ t req.createId = none
    | .balance => req.headerId ≠ 0
    | .transfer => True
    | .shutdown => req.headerId = 0
    | .undefined _ => False

/-- A reply of a header alone does not show the payload. -/
theorem TlvReply.shown_of_header (r : TlvReply) (hlength : r.length = sizeofRepHeader)
    (x : UInt32) : (r.setInfo x).shown = r.shown := by
  have hx : (r.setInfo x).length.toNat = 8 := congrArg UInt32.toNat hlength
  have hr : r.length.toNat = 8 := congrArg UInt32.toNat hlength
  rw [shown, shown, hx, hr]
  rfl

/-- A transfer assigns every field of the reply before its validation. -/
theorem TransferExit.any_reply {b : Bank ι} {r : TlvReply} {w : World ι}
    (h : TransferExit me req (begun req ⟨b, r⟩) w) (r' : TlvReply) :
    TransferExit me req (begun req ⟨b, r'⟩) w := by
  cases h with
  | notAllowed hadmin => exact .notAllowed hadmin
  | notFound hadmin hin hnone => exact .notFound hadmin hin hnone
  | sameId hadmin hin hsome hsame => exact .sameId hadmin hin hsome hsame
  | noFunds src dst hv hf hlow => exact .noFunds src dst hv hf hlow
  | tooHigh src dst hv hf hfunds hhigh => exact .tooHigh src dst hv hf hfunds hhigh
  | done src dst hv hf hfunds hroom => exact .done src dst hv hf hfunds hroom

theorem TransferExit.accountId {w w' : World ι} (h : TransferExit me req w w') :
    w'.reply.accountId = req.headerId := by
  cases h <;> rfl

/-- With all parts assigned, the operation does the same over any earlier reply. -/
theorem OpExit.any_reply {b : Bank ι} {r : TlvReply} {w : World ι}
    (ha : ReplyAssigned sha256sum req b.bankAccounts)
    (h : OpExit sha256sum me salt req (begun req ⟨b, r⟩) w) (r' : TlvReply) :
    w.reply.accountId = req.headerId ∧ ∃ x, OpExit sha256sum me salt req (begun req ⟨b, r'⟩)
      { w with reply := w.reply.setInfo x } ∧ (w.reply.setInfo x).shown = w.reply.shown := by
  obtain ⟨_, ha⟩ := ha
  cases h with
  | create ht h =>
      rw [ht] at ha
      cases h with
      | notAllowed hadmin => exact absurd ha.1 hadmin
      | inUse _ _ hsome =>
          rw [show (begun req ⟨b, r⟩).bank.bankAccounts = b.bankAccounts from rfl, ha.2] at hsome
          cases hsome
      | done hadmin hin hnone hf =>
          exact ⟨rfl, r'.info, .create ht (.done hadmin hin hnone hf),
            TlvReply.shown_of_header _ rfl _⟩
  | balance ht h =>
      rw [ht] at ha
      cases h with
      | notAllowed hadmin => exact absurd hadmin ha
      | done src hadmin hsrc hf =>
          exact ⟨rfl, src.balance, .balance ht (.done src hadmin hsrc hf), rfl⟩
  | transfer ht h =>
      exact ⟨h.accountId, w.reply.info, .transfer ht (h.any_reply r'), rfl⟩
  | shutdown ht h =>
      rw [ht] at ha
      cases h with
      | notAllowed hadmin => exact absurd ha hadmin
      | done hadmin => exact ⟨rfl, _, .shutdown ht (.done hadmin), rfl⟩
  | undefined code ht h =>
      rw [ht] at ha
      exact ha.elim

/-- Otherwise the account id in the reply is the one that was there before. -/
theorem OpExit.accountId_kept {w w' : World ι} (hop : ∀ code, req.type ≠ .undefined code)
    (hlogin : loginOk sha256sum req w.bank.bankAccounts = true)
    (ha : ¬ ReplyAssigned sha256sum req w.bank.bankAccounts)
    (h : OpExit sha256sum me salt req w w') : w'.reply.accountId = w.reply.accountId := by
  have hassigned := fun hmatch => ha ⟨hlogin, hmatch⟩
  cases h with
  | create ht h =>
      rw [ht] at hassigned
      cases h with
      | notAllowed | inUse => rfl
      | done hadmin _ hnone _ => exact (hassigned ⟨hadmin, hnone⟩).elim
  | balance ht h =>
      rw [ht] at hassigned
      cases h with
      | notAllowed => rfl
      | done src hadmin _ _ => exact (hassigned hadmin).elim
  | transfer ht h =>
      rw [ht] at hassigned
      exact (hassigned trivial).elim
  | shutdown ht h =>
      rw [ht] at hassigned
      cases h with
      | notAllowed => rfl
      | done hadmin => exact (hassigned hadmin).elim
  | undefined code ht => exact absurd ht (hop code)

theorem Exit.accountId_kept {w w' : World ι} (hop : ∀ code, req.type ≠ .undefined code)
    (ha : ¬ ReplyAssigned sha256sum req w.bank.bankAccounts)
    (h : Exit sha256sum me salt req w w') : w'.reply.accountId = w.reply.accountId := by
  cases h with
  | loginFail => rfl
  | op w₁ hlogin hexit =>
      have hkept : w₁.reply.accountId = (begun req w).reply.accountId :=
        hexit.accountId_kept hop hlogin ha
      exact hkept

/-- Two calls on the same bank with different reply memory send the same bytes. -/
theorem Exit.any_reply {b : Bank ι} {r : TlvReply} {w : World ι}
    (ha : ReplyAssigned sha256sum req b.bankAccounts)
    (h : Exit sha256sum me salt req ⟨b, r⟩ w) (r' : TlvReply) :
    w.reply.accountId = req.headerId ∧ ∃ w', Exit sha256sum me salt req ⟨b, r'⟩ w' ∧
      ∀ opens, (sendReply opens w'.reply).2 = (sendReply opens w.reply).2 := by
  cases h with
  | loginFail hlogin =>
      have hpassed : loginOk sha256sum req b.bankAccounts = true := ha.1
      rw [hlogin] at hpassed
      cases hpassed
  | op w₁ hlogin hexit =>
      obtain ⟨hid, x, hexit', hshown⟩ := hexit.any_reply ha r'
      refine ⟨hid, _, .op _ hlogin hexit', ?_⟩
      intro opens
      cases opens with
      | true => exact hshown
      | false => rfl

variable (sha256sum me salt req)

/-- What a client is sent does not depend on earlier replies, and carries the id
of its header, exactly for the requests whose reply is assigned completely. -/
theorem reply_independent_iff (hop : ∀ code, req.type ≠ .undefined code) (hin : req.InArray)
    (b : Bank ι) (hfree : b.Unlocked) (opens : Bool) :
    (∀ r₁ r₂ w₁ w₂, processRequest sha256sum me salt req ⟨b, r₁⟩ = .ok ((), w₁) →
      processRequest sha256sum me salt req ⟨b, r₂⟩ = .ok ((), w₂) →
      (sendReply opens w₁.reply).2 = (sendReply opens w₂.reply).2 ∧
      (sendReply opens w₁.reply).1.accountId = req.headerId) ↔
    ReplyAssigned sha256sum req b.bankAccounts := by
  constructor
  · intro h
    by_contra ha
    -- the memory holds another account id before the request
    let r : TlvReply := ⟨.createAccount, 0, ⟨⟨req.headerId + 1, .ok⟩, 0⟩⟩
    obtain ⟨w, hw⟩ := processRequest_returns sha256sum me salt req hin
      (by exact hfree : (World.mk b r).bank.Unlocked)
    have hid := (h r r w w hw hw).2
    have hkept := ((processRequest_eq_ok sha256sum me salt req).mp hw).2.2.accountId_kept hop ha
    rw [sendReply_accountId, hkept] at hid
    have hone : req.headerId + 1 ≠ req.headerId := by simp
    exact hone hid
  · intro ha r₁ r₂ w₁ w₂ hw₁ hw₂
    obtain ⟨hactive, hheader, hexit⟩ := (processRequest_eq_ok sha256sum me salt req).mp hw₁
    obtain ⟨hid, w, hexit', hbytes⟩ := hexit.any_reply ha r₂
    have hw := (processRequest_eq_ok sha256sum me salt req).mpr
      (by exact ⟨hactive, hheader, hexit'⟩ :
        (World.mk b r₂).bank.activeMutex = none ∧ req.headerId < maxBankAccounts ∧
          Exit sha256sum me salt req ⟨b, r₂⟩ w)
    cases hw.symm.trans hw₂
    exact ⟨(hbytes opens).symm, by rw [sendReply_accountId, hid]⟩

end Residue

/-- A balance check of account 1 shows nothing of the last reply. -/
theorem reply_independent_balance : ∃ w₁ w₂,
    processRequest Sample.sha256sum () Sample.salt (Sample.balance 9)
      ⟨Bank.idle (Sample.twoAccounts 100 200), Sample.emptyReply⟩ = .ok ((), w₁) ∧
    processRequest Sample.sha256sum () Sample.salt (Sample.balance 9)
      ⟨Bank.idle (Sample.twoAccounts 100 200), ⟨.transfer, 12, ⟨⟨2, .ok⟩, 150⟩⟩⟩ =
        .ok ((), w₂) ∧
    (sendReply true w₁.reply).2 = (sendReply true w₂.reply).2 ∧
    (sendReply true w₁.reply).1.accountId = 1 := by
  have hlogin := Sample.loginOk_transfer (x := 100) (y := 200) 0 0
  have hexit : ∀ r, Exit Sample.sha256sum () Sample.salt (Sample.balance 9)
      ⟨Bank.idle (Sample.twoAccounts 100 200), r⟩ _ := fun r =>
    .op _ hlogin (.balance rfl (.done _ (by decide : (1 : UInt32) ≠ 0) rfl rfl))
  have hid : (1 : UInt32) < maxBankAccounts := by decide
  have hw₁ := (processRequest_eq_ok _ _ _ _).mpr ⟨rfl, hid, hexit Sample.emptyReply⟩
  have hw₂ := (processRequest_eq_ok _ _ _ _).mpr ⟨rfl, hid, hexit ⟨.transfer, 12, ⟨⟨2, .ok⟩, 150⟩⟩⟩
  have hsame := (reply_independent_iff Sample.sha256sum () Sample.salt (Sample.balance 9)
    (fun _ h => by cases h) (by decide) (Bank.idle (Sample.twoAccounts 100 200))
    ⟨fun _ => rfl, rfl⟩ true).mpr ⟨hlogin, (by decide : (1 : UInt32) ≠ 0)⟩
  exact ⟨_, _, hw₁, hw₂, hsame _ _ _ _ hw₁ hw₂⟩

/-- The administrator asks for a balance, which is not allowed: the reply
carries the account id of the last client of the office. -/
theorem reply_shows_earlier_client : ∃ w₁ w₂,
    processRequest Sample.sha256sum () Sample.salt { Sample.shutdown 9 with type := .balance }
      ⟨Bank.idle (Sample.twoAccounts 100 200), ⟨.transfer, 12, ⟨⟨2, .ok⟩, 150⟩⟩⟩ =
        .ok ((), w₁) ∧
    processRequest Sample.sha256sum () Sample.salt { Sample.shutdown 9 with type := .balance }
      ⟨Bank.idle (Sample.twoAccounts 100 200), ⟨.transfer, 12, ⟨⟨1, .ok⟩, 150⟩⟩⟩ =
        .ok ((), w₂) ∧
    (sendReply true w₁.reply).2 = [1, 0, 0, 0, 8, 0, 0, 0, 2, 0, 0, 0, 5, 0, 0, 0] ∧
    (sendReply true w₂.reply).2 = [1, 0, 0, 0, 8, 0, 0, 0, 1, 0, 0, 0, 5, 0, 0, 0] ∧
    (sendReply true w₁.reply).1.accountId = 2 ∧ (Sample.shutdown 9).headerId = 0 := by
  have hexit : ∀ r, Exit Sample.sha256sum () Sample.salt
      { Sample.shutdown 9 with type := .balance }
      ⟨Bank.idle (Sample.twoAccounts 100 200), r⟩ _ := fun r =>
    .op _ (Sample.loginOk_create rfl 0 0 0 []) (.balance rfl (.notAllowed rfl))
  have hid : (0 : UInt32) < maxBankAccounts := by decide
  exact ⟨_, _, (processRequest_eq_ok _ _ _ _).mpr ⟨rfl, hid, hexit _⟩,
    (processRequest_eq_ok _ _ _ _).mpr ⟨rfl, hid, hexit _⟩, by decide +kernel,
    by decide +kernel, rfl, rfl⟩

end HomeBanking
