import HomeBanking.Isolation
import HomeBanking.Conservation

/-!
# Balance checks and transfers are serializable

Without creations, the offices together do what one office would do that
processes the requests one after the other. A request takes effect at one
step: where it is refused, where the balance is read, where a debit or credit
fails its check, or where the credit is written. Until then a transfer that has
debited its source is ahead of the serial table by that debit.
-/

namespace HomeBanking

variable {n : ℕ} {sha256sum : CString → CString} {t₀ : Table}

/-- The code of an answer, and the balance if it was a balance check that
succeeded. The balance that a transfer reports is left out: it is read after
both mutexes are released, and no serial order need give it. -/
structure Outcome where
  request : TlvRequest
  retCode : RetCode
  balance : Option UInt32
  deriving DecidableEq

def outcomeOf (req : TlvRequest) (reply : TlvReply) : Outcome where
  request := req
  retCode := reply.retCode
  balance := if req.type = .balance ∧ reply.retCode = .ok then some reply.info else none

/-- One request, processed alone with every mutex free. -/
def SerialStep (sha256sum : CString → CString) (t : Table) (e : Outcome) (t' : Table) : Prop :=
  ∃ (salt : CString) (reply : TlvReply) (w' : World Unit),
    processRequest sha256sum () salt e.request ⟨Bank.idle t, reply⟩ = .ok ((), w') ∧
      outcomeOf e.request w'.reply = e ∧ w'.bank.bankAccounts = t'

/-- The requests processed so far, in order, and the table they leave. -/
def serialBank (sha256sum : CString → CString) (t₀ : Table) :
    LTS (List Outcome × Table) Outcome where
  init a := a = ([], t₀)
  step a e a' := SerialStep sha256sum a.2 e a'.2 ∧ a'.1 = a.1 ++ [e]

section SerialSteps

variable {req : TlvRequest} {t : Table}

theorem serialStep_loginFail (hid : req.headerId < maxBankAccounts)
    (hlogin : loginOk sha256sum req t = false) (reply : TlvReply) :
    SerialStep sha256sum t (outcomeOf req (reply.setRetCode .loginFail)) t :=
  ⟨[], reply, _, (processRequest_eq_ok sha256sum () [] req).mpr
    ⟨rfl, hid, .loginFail (by exact hlogin)⟩, by simp [outcomeOf, TlvReply.setRetCode], rfl⟩

theorem outcomeOf_congr {r r' : TlvReply} (hcode : r.retCode = r'.retCode)
    (hinfo : req.type = .balance → r.retCode = .ok → r.info = r'.info) :
    outcomeOf req r = outcomeOf req r' := by
  unfold outcomeOf
  rw [← hcode]
  by_cases h : req.type = .balance ∧ r.retCode = .ok
  · rw [if_pos h, if_pos h, hinfo h.1 h.2]
  · rw [if_neg h, if_neg h]

theorem serialStep_opExit (hid : req.headerId < maxBankAccounts)
    (hlogin : loginOk sha256sum req t = true) {reply : TlvReply} {w : World Unit}
    (hop : OpExit sha256sum () [] req (begun req ⟨Bank.idle t, reply⟩) w) :
    SerialStep sha256sum t (outcomeOf req w.reply) w.bank.bankAccounts :=
  ⟨[], reply, _, (processRequest_eq_ok sha256sum () [] req).mpr
    ⟨rfl, hid, .op w (by exact hlogin) hop⟩, rfl, rfl⟩

theorem serialStep_balance (ht : req.type = .balance) (hid : req.headerId < maxBankAccounts)
    (hlogin : loginOk sha256sum req t = true) (reply : TlvReply) {w : World Unit}
    (hexit : BalanceExit req (begun req ⟨Bank.idle t, reply⟩) w) {r : TlvReply}
    (hcode : r.retCode = w.reply.retCode) (hinfo : r.retCode = .ok → r.info = w.reply.info) :
    SerialStep sha256sum t (outcomeOf req r) w.bank.bankAccounts := by
  rw [outcomeOf_congr hcode fun _ => hinfo]
  exact serialStep_opExit hid hlogin (.balance ht hexit)

theorem serialStep_transfer (ht : req.type = .transfer) (hid : req.headerId < maxBankAccounts)
    (hlogin : loginOk sha256sum req t = true) (reply : TlvReply) {w : World Unit}
    (hexit : TransferExit () req (begun req ⟨Bank.idle t, reply⟩) w) {r : TlvReply}
    (hcode : r.retCode = w.reply.retCode) :
    SerialStep sha256sum t (outcomeOf req r) w.bank.bankAccounts := by
  rw [outcomeOf_congr hcode fun hb => by rw [ht] at hb; cases hb]
  exact serialStep_opExit hid hlogin (.transfer ht hexit)

end SerialSteps

/-- The outcome of a request that has taken effect and has not returned yet. -/
def decided (req : TlvRequest) (o : Office) : Multiset Outcome :=
  match o.pc with
  | .balanceUnlock | .transferUnlock₁ _ | .transferUnlock₂ .. | .transferReport _
  | .activeLock .leave | .activeLoad .leave | .activeStore .leave _ | .activeUnlock .leave
  | .ret => {outcomeOf req o.reply}
  | _ => 0

/-- The outcome of a request that returns. -/
def returnedOutcome : Action → Multiset Outcome
  | .returned req reply => {outcomeOf req reply}
  | _ => 0

/-- The outcomes of all requests that were refused or have finished their
accesses to the balances. -/
def System.finished (s : System n) : Multiset Outcome :=
  s.sum decided + (s.trace.map fun e => returnedOutcome e.2).sum

/-- Between the first access to a balance and the last. -/
def Pc.accessing : Pc → Bool
  | .subtractWrite .. | .addRead _ | .addWrite .. => true
  | _ => false

/-- The debit is written and the credit is not. -/
def Pc.debited : Pc → Bool
  | .addRead _ | .addWrite .. => true
  | _ => false

/-- An account without its balance. -/
def BankAccount.identity (a : BankAccount) : BankAccount := { a with balance := 0 }

/-- The same accounts, with any balances. -/
def SameAccounts (t t' : Table) : Prop :=
  ∀ id, (t id).map BankAccount.identity = (t' id).map BankAccount.identity

theorem SameAccounts.exists_balance {t t' : Table} (h : SameAccounts t t') {id : UInt32}
    {a : BankAccount} (ha : t id = some a) : ∃ x, t' id = some { a with balance := x } := by
  have hid := h id
  rw [ha, Option.map_some] at hid
  obtain ⟨a', ha', heq⟩ := Option.map_eq_some_iff.mp hid.symm
  refine ⟨a'.balance, ha'.trans ?_⟩
  obtain ⟨_, _, _, _⟩ := a
  obtain ⟨_, _, _, _⟩ := a'
  simp only [BankAccount.identity, BankAccount.mk.injEq] at heq
  obtain ⟨rfl, rfl, rfl, -⟩ := heq
  rfl

theorem SameAccounts.symm {t t' : Table} (h : SameAccounts t t') : SameAccounts t' t :=
  fun id => (h id).symm

theorem SameAccounts.eq_none {t t' : Table} (h : SameAccounts t t') {id : UInt32}
    (hnone : t id = none) : t' id = none := by
  have hid := h id
  rw [hnone, Option.map_none] at hid
  exact Option.map_eq_none_iff.mp hid.symm

/-- The login check looks at no balance. -/
theorem SameAccounts.loginOk {t t' : Table} (h : SameAccounts t t') (req : TlvRequest) :
    loginOk sha256sum req t = loginOk sha256sum req t' := by
  unfold HomeBanking.loginOk
  cases ht : t req.headerId with
  | none => rw [h.eq_none ht]
  | some a =>
      obtain ⟨x, hx⟩ := h.exists_balance ht
      rw [hx]
      rfl

/-- The runs on balance checks and transfers only. -/
abbrev accountRuns (sha256sum : CString → CString) (t₀ : Table) (n : ℕ) :
    LTS (System n) (Label n) :=
  bankOffices sha256sum (fun req => req.type = .balance ∨ req.type = .transfer) t₀ n

section Steps

variable {choice : Choice} {req : TlvRequest} {b b' : Bank (Fin n)} {o o' : Office}
  {act : Action} {i : Fin n}

/-- Without creations no step changes an account but in its balance. -/
theorem OfficeStep.sameAccounts (h : OfficeStep sha256sum choice req b o act o')
    (hv : Valid b.bankAccounts req o.pc) (hreq : req.type = .balance ∨ req.type = .transfer)
    (hb : b.apply i act = some b') : SameAccounts b.bankAccounts b'.bankAccounts := by
  intro id
  by_cases hw : id ∈ act.writes
  · cases act with
    | setBalance j x =>
        cases hb
        obtain rfl : id = j := by simpa [Action.writes] using hw
        rw [Bank.setBalance_bankAccounts_self, Option.map_map]
        rfl
    | setAccount j a =>
        have hcreate : req.type = .createAccount := by
          cases h
          exact hv.1
        rw [hcreate] at hreq
        rcases hreq with hreq | hreq <;> cases hreq
    | _ => simp [Action.writes] at hw
  · rw [apply_eq_of_notMem_writes hb hw]

/-- From the login check to its last access an office has the right password. -/
def LoggedIn (sha256sum : CString → CString) (t : Table) (req : TlvRequest) : Pc → Prop
  | .loginCompare _ hash => ∀ a, t req.headerId = some a →
      hash = generateHash sha256sum (req.value.header.password ++ a.salt)
  | .dispatch | .balanceCheck | .balanceLock _ | .balanceRead | .transferCheck
  | .transferLock₁ .. | .transferLock₂ .. | .subtractRead _ | .subtractWrite .. | .addRead _
  | .addWrite .. => loginOk sha256sum req t = true
  | _ => True

theorem LoggedIn.congr {t t' : Table} (hs : SameAccounts t t') {pc : Pc}
    (h : LoggedIn sha256sum t req pc) : LoggedIn sha256sum t' req pc := by
  cases pc with
  | loginCompare =>
      intro a ha
      obtain ⟨x, hx⟩ := hs.symm.exists_balance ha
      have hhash := h _ hx
      exact hhash
  | dispatch | balanceCheck | balanceLock | balanceRead | transferCheck | transferLock₁
  | transferLock₂ | subtractRead | subtractWrite | addRead | addWrite =>
      exact (hs.loginOk req).symm.trans h
  | _ => trivial

theorem OfficeStep.loggedIn (h : OfficeStep sha256sum choice req b o act o')
    (hv : Valid b.bankAccounts req o.pc)
    (hl : LoggedIn sha256sum b.bankAccounts req o.pc) :
    LoggedIn sha256sum b.bankAccounts req o'.pc := by
  cases h with
  | loginHash id r a ha =>
      intro a' ha'
      obtain ⟨rfl, -⟩ := hv
      obtain rfl : a = a' := Option.some.inj (ha.symm.trans ha')
      rfl
  | loginPassed id hash r a ha hhash =>
      obtain ⟨rfl, -⟩ := hv
      have hok := hl a ha
      change loginOk sha256sum req b.bankAccounts = true
      simp only [loginOk, ha, passwordMatches, decide_eq_true_eq]
      rw [← hok, hhash]
  | dispatch => cases ht : req.type <;> first | exact hl | trivial
  | balanceCheck | balanceLock | transferCheck | transferLock₁ | transferLock₂ | subtractRead
  | subtractWrite | addRead => exact hl
  | _ => trivial

end Steps

theorem loggedIn {s : System n} (h : (accountRuns sha256sum t₀ n).Reachable s) (i : Fin n) :
    LoggedIn sha256sum s.table (s.requests i) (s.pc i) := by
  refine h.invariant
    (I := fun s : System n => ∀ i, LoggedIn sha256sum s.table (s.requests i) (s.pc i)) ?_ ?_ i
  · intro s hs i
    rw [hs.2.1 i]
    trivial
  · intro s l s' hr ih hs i
    rcases bankOffices_step_cases hs with ⟨j, req, -, -, -, rfl⟩ |
      ⟨j, choice, act, b, o, -, hstep, hb, rfl⟩
    · by_cases hij : i = j
      · subst i
        rw [System.give_pc_self]
        trivial
      · simpa [hij] using ih i
    · have hreq := (ok_request hr j).resolve_left hstep.pc_ne_idle
      apply LoggedIn.congr (hstep.sameAccounts (valid hr j) hreq hb)
      by_cases hij : i = j
      · subst i
        simpa using hstep.loggedIn (valid hr j) (ih j)
      · simpa [hij] using ih i

/-- The table after a debit that the credit has not followed. -/
def debitTable (req : TlvRequest) (t : Table) (src : BankAccount) : Table :=
  Function.update t req.headerId
    (some { src with balance := (subtractedBalance src.balance req.amount).toUInt32 })

/-- The table after a debit and the credit. -/
def creditTable (req : TlvRequest) (t : Table) (src dst : BankAccount) : Table :=
  Function.update (debitTable req t src) req.transferId
    (some { dst with balance := (addedBalance dst.balance req.amount).toUInt32 })

/-- The request of the office takes effect with this step. -/
def TakesEffect (req : TlvRequest) (o : Office) (act : Action) (o' : Office) : Prop :=
  decided req o = 0 ∧ returnedOutcome act = 0 ∧ decided req o' = {outcomeOf req o'.reply}

/-- What a step does to the outcomes and the balances. A serial table agrees
with the table of the bank where the office holds the mutex, but for the debit
of the office itself. -/
inductive Effect (sha256sum : CString → CString) (req : TlvRequest) (t : Table) (o : Office)
    (act : Action) (o' : Office) : Prop
  | quiet (hw : act.writes = ∅) (hdebited : o'.pc.debited = o.pc.debited)
      (hsame : decided req o' + returnedOutcome act = decided req o)
  | settled (hw : act.writes = ∅) (hbefore : o.pc.debited = false)
      (hafter : o'.pc.debited = false) (heffect : TakesEffect req o act o')
      (hserial : ∀ u, SameAccounts t u → (∀ id ∈ held req o.pc, u id = t id) →
        SerialStep sha256sum u (outcomeOf req o'.reply) u)
  | debit (src : BankAccount) (hp : TransferPassed t req) (hsrc : t req.headerId = some src)
      (hact : act = .setBalance req.headerId
        (subtractedBalance src.balance req.amount).toUInt32)
      (hfunds : ¬ subtractedBalance src.balance req.amount < minBalance)
      (hheld : held req o.pc = {req.headerId, req.transferId})
      (hbefore : o.pc.debited = false) (hafter : o'.pc.debited = true)
      (hsame : decided req o' + returnedOutcome act = decided req o)
  | lost (hp : TransferPassed t req) (hw : act.writes = ∅)
      (hheld : held req o.pc = {req.headerId, req.transferId})
      (hbefore : o.pc.debited = true) (hafter : o'.pc.debited = false)
      (heffect : TakesEffect req o act o')
      (hserial : ∀ u src, SameAccounts t u → u req.transferId = t req.transferId →
        u req.headerId = some src → ¬ subtractedBalance src.balance req.amount < minBalance →
        SerialStep sha256sum u (outcomeOf req o'.reply) (debitTable req u src))
  | credit (dst : BankAccount) (hp : TransferPassed t req)
      (hdst : t req.transferId = some dst)
      (hact : act = .setBalance req.transferId
        (addedBalance dst.balance req.amount).toUInt32)
      (hheld : held req o.pc = {req.headerId, req.transferId})
      (hbefore : o.pc.debited = true) (hafter : o'.pc.debited = false)
      (heffect : TakesEffect req o act o')
      (hserial : ∀ u src, SameAccounts t u → u req.transferId = some dst →
        u req.headerId = some src → ¬ subtractedBalance src.balance req.amount < minBalance →
        SerialStep sha256sum u (outcomeOf req o'.reply) (creditTable req u src dst))

section Steps

variable {choice : Choice} {req : TlvRequest} {b : Bank (Fin n)} {o o' : Office} {act : Action}

theorem TransferPassed.valid {t u : Table} (hp : TransferPassed t req) {src dst : BankAccount}
    (hsrc : u req.headerId = some src) (hdst : u req.transferId = some dst) :
    TransferValid req u src dst :=
  ⟨hp.notAdmin, ⟨hp.source.1, hp.dest.1⟩, hsrc, hdst, hp.distinct⟩

/-- A debit that fails its check leaves the serial table as it is. -/
theorem serialStep_noFunds {t u : Table} (hp : TransferPassed t req)
    (hlogin : loginOk sha256sum req u = true) {src dst : BankAccount}
    (hsrc : u req.headerId = some src) (hdst : u req.transferId = some dst)
    (hlow : subtractedBalance src.balance req.amount < minBalance) (r : TlvReply) :
    SerialStep sha256sum u (outcomeOf req (r.setRetCode .noFunds)) u :=
  serialStep_transfer hp.type hp.source.1 hlogin r
    (.noFunds src dst (hp.valid hsrc hdst) ⟨rfl, rfl⟩ hlow) rfl

/-- A credit that fails its check leaves the debit in the serial table. -/
theorem serialStep_tooHigh {t u : Table} (hp : TransferPassed t req)
    (hlogin : loginOk sha256sum req u = true) {src dst : BankAccount}
    (hsrc : u req.headerId = some src) (hdst : u req.transferId = some dst)
    (hfunds : ¬ subtractedBalance src.balance req.amount < minBalance)
    (hhigh : maxBalance < addedBalance dst.balance req.amount) (r : TlvReply) :
    SerialStep sha256sum u (outcomeOf req (r.setRetCode .tooHigh)) (debitTable req u src) := by
  let b := (begun req (⟨Bank.idle u, r⟩ : World Unit)).bank.lockBoth () req.headerId req.transferId
  have htable : (b.debit req src).bankAccounts = debitTable req u src :=
    debit_bankAccounts req hsrc
  rw [← htable]
  exact serialStep_transfer hp.type hp.source.1 hlogin r
    (.tooHigh src dst (hp.valid hsrc hdst) ⟨rfl, rfl⟩ hfunds hhigh) rfl

/-- A transfer that passes both checks moves its amount in the serial table. -/
theorem serialStep_done {t u : Table} (hp : TransferPassed t req)
    (hlogin : loginOk sha256sum req u = true) {src dst : BankAccount}
    (hsrc : u req.headerId = some src) (hdst : u req.transferId = some dst)
    (hfunds : ¬ subtractedBalance src.balance req.amount < minBalance)
    (hroom : ¬ maxBalance < addedBalance dst.balance req.amount) {r : TlvReply}
    (hcode : r.retCode = .ok) :
    SerialStep sha256sum u (outcomeOf req r) (creditTable req u src dst) := by
  let b := (begun req (⟨Bank.idle u, r⟩ : World Unit)).bank
  have hv : TransferValid req u src dst := hp.valid hsrc hdst
  have htable : ((b.debit req src).credit req dst).bankAccounts = creditTable req u src dst :=
    debit_credit_bankAccounts req hv
  rw [← htable]
  exact serialStep_transfer hp.type hp.source.1 hlogin r
    (.done src dst hv ⟨rfl, rfl⟩ hfunds hroom) hcode

/-- Past its validation an operation has stored `RC_OK`. -/
def AnswersOk (o : Office) : Prop :=
  match o.pc with
  | .balanceLock _ | .balanceRead | .balanceUnlock | .transferLock₁ .. | .transferLock₂ ..
  | .subtractRead _ | .subtractWrite .. | .addRead _ | .addWrite .. | .transferUnlock₁ _
  | .transferUnlock₂ .. | .transferReport _ => o.reply.retCode = .ok
  | _ => True

theorem OfficeStep.answersOk (h : OfficeStep sha256sum choice req b o act o')
    (ho : AnswersOk o) : AnswersOk o' := by
  cases h with
  | dispatch => cases ht : req.type <;> trivial
  | balanceCheck | transferCheck => rfl
  | balanceLock | balanceRead | transferLock₁ | transferLock₂ | subtractRead | subtractWrite
  | addRead | addWrite | transferUnlock₁ | transferUnlock₂ => exact ho
  | _ => trivial

/-- Every step of a balance check or a transfer has one of the listed effects. -/
theorem OfficeStep.effect (h : OfficeStep sha256sum choice req b o act o')
    (hreq : req.type = .balance ∨ req.type = .transfer)
    (hv : Valid b.bankAccounts req o.pc) (hf : Fresh b.bankAccounts req o.pc)
    (hl : LoggedIn sha256sum b.bankAccounts req o.pc) (ho : AnswersOk o) :
    Effect sha256sum req b.bankAccounts o act o' := by
  cases h with
  | loginUnknown r hid hnone =>
      refine .settled rfl rfl rfl ⟨rfl, rfl, rfl⟩ fun u hs _ => serialStep_loginFail hid ?_ r
      rw [loginOk, hs.eq_none hnone]
  | loginFailed id hash r a ha hhash =>
      obtain ⟨rfl, hknown⟩ := hv
      refine .settled rfl rfl rfl ⟨rfl, rfl, rfl⟩ fun u hs _ =>
        serialStep_loginFail hknown.1 ?_ r
      rw [← hs.loginOk, loginOk, ha]
      have hok := hl a ha
      rw [hok] at hhash
      simpa [passwordMatches] using hhash
  | balanceNotAllowed r hadmin =>
      exact .settled rfl rfl rfl ⟨rfl, rfl, rfl⟩ fun u hs _ =>
        serialStep_balance hv.1 hv.2.1 ((hs.loginOk req).symm.trans hl) r
          (.notAllowed hadmin) rfl fun hcode => by cases hcode
  | balanceRead r a ha =>
      refine .settled rfl rfl rfl ⟨rfl, rfl, rfl⟩ ?_
      intro u hs hheld
      have hsrc : u req.headerId = some a := (hheld _ (by simp [HomeBanking.held])).trans ha
      exact serialStep_balance hv.1 hv.2.1.1 ((hs.loginOk req).symm.trans hl) r
        (.done a hv.2.2 hsrc rfl) ho fun _ => rfl
  | transferNotAllowed r hadmin =>
      exact .settled rfl rfl rfl ⟨rfl, rfl, rfl⟩ fun u hs _ =>
        serialStep_transfer hv.1 hv.2.1 ((hs.loginOk req).symm.trans hl) r
          (.notAllowed hadmin) rfl
  | transferNotFound r hadmin hid hnone =>
      exact .settled rfl rfl rfl ⟨rfl, rfl, rfl⟩ fun u hs _ =>
        serialStep_transfer hv.1 hv.2.1 ((hs.loginOk req).symm.trans hl) r
          (.notFound hadmin hid (hs.eq_none hnone)) rfl
  | transferSameId r a hadmin hid ha hsame =>
      refine .settled rfl rfl rfl ⟨rfl, rfl, rfl⟩ ?_
      intro u hs _
      obtain ⟨x, hx⟩ := hs.exists_balance ha
      exact serialStep_transfer hv.1 hv.2.1 ((hs.loginOk req).symm.trans hl) r
        (.sameId hadmin hid (Option.isSome_iff_exists.mpr ⟨_, hx⟩) hsame) rfl
  | noFunds id r a ha hlow =>
      obtain ⟨hp, rfl⟩ := hv
      refine .settled rfl rfl rfl ⟨rfl, rfl, rfl⟩ ?_
      intro u hs hheld
      obtain ⟨dst, hdst⟩ := Option.isSome_iff_exists.mp hp.dest.2
      have hsrc : u req.headerId = some a := (hheld _ (by simp [HomeBanking.held])).trans ha
      have hdst' : u req.transferId = some dst :=
        (hheld _ (by simp [HomeBanking.held])).trans hdst
      exact serialStep_noFunds hp ((hs.loginOk req).symm.trans hl) hsrc hdst' hlow r
  | subtractWrite id sid x r =>
      obtain ⟨hp, rfl, rfl⟩ := hv
      obtain ⟨src, hsrc, rfl, hfunds⟩ := hf
      exact .debit src hp hsrc rfl hfunds rfl rfl rfl rfl
  | tooHigh id r a ha hhigh =>
      exact .lost hv.1 rfl rfl rfl rfl ⟨rfl, rfl, rfl⟩ fun u src hs hdst hsrc hfunds =>
        serialStep_tooHigh hv.1 ((hs.loginOk req).symm.trans hl) hsrc (hdst.trans ha) hfunds
          hhigh r
  | addWrite id aid x r =>
      obtain ⟨hp, rfl, rfl⟩ := hv
      obtain ⟨dst, hdst, rfl, hroom⟩ := hf
      exact .credit dst hp hdst rfl rfl rfl rfl ⟨rfl, rfl, rfl⟩ fun u src hs hdst' hsrc hfunds =>
        serialStep_done hp ((hs.loginOk req).symm.trans hl) hsrc hdst' hfunds hroom ho
  | createNotAllowed | createInUse | createCheck | shutdownNotAllowed | shutdownCheck =>
      exact absurd hreq (by rw [show req.type = _ from hv]; decide)
  | createLock | createWrite | createUnlock | shutdownChmod | shutdownCount | shutdownSet =>
      exact absurd hreq (by rw [hv.1]; decide)
  | dispatch =>
      rcases hreq with ht | ht <;> exact .quiet rfl (by rw [ht]; rfl) (by rw [ht]; rfl)
  | activeLock c | activeLoad c | activeStore c => cases c <;> exact .quiet rfl rfl rfl
  | transferReport id r a ha =>
      refine .quiet rfl rfl (congrArg (fun e => ({e} : Multiset Outcome)) ?_)
      exact outcomeOf_congr rfl fun hb => by rw [hv.1.type] at hb; cases hb
  | fault pc r r' hfault =>
      rcases hv.faults hfault with ⟨rfl, _⟩ | ⟨rfl, _⟩ | ⟨rfl, _⟩ <;> exact .quiet rfl rfl rfl
  | _ => exact .quiet rfl rfl rfl

end Steps

section Simulation

variable {s : System n} {t : Table} {i : Fin n} {act : Action} {b : Bank (Fin n)} {o : Office}

theorem answersOk {ok : TlvRequest → Prop} (h : (bankOffices sha256sum ok t₀ n).Reachable s)
    (i : Fin n) :
    AnswersOk (s.offices i) :=
  office_invariant (I := fun _ _ o => AnswersOk o) (fun _ _ _ => trivial)
    (fun _ _ _ _ => trivial) (fun _ _ _ _ _ h => h) (fun _ _ _ _ _ _ ho hs => hs.answersOk ho) h i

/-- The serial table is the table of the bank, except that it does not have the
debits whose transfers have not taken effect. -/
structure Linked (s : System n) (t : Table) : Prop where
  same : ∀ id, (∀ i, (s.pc i).debited → id ≠ (s.requests i).headerId) → s.table id = t id
  debited : ∀ i, (s.pc i).debited → ∃ src, t (s.requests i).headerId = some src ∧
    ¬ subtractedBalance src.balance (s.requests i).amount < minBalance ∧
    s.table (s.requests i).headerId =
      some { src with balance :=
        (subtractedBalance src.balance (s.requests i).amount).toUInt32 }

theorem headerId_mem_held (hd : (s.pc i).debited) : (s.requests i).headerId ∈ s.held i := by
  unfold System.held
  cases hpc : s.pc i with
  | addRead | addWrite => simp [held]
  | _ => simp [hpc, Pc.debited] at hd

/-- The two tables agree where an office holds the mutex, but for its own debit. -/
theorem Linked.eq_of_mem_held (hl : Linked s t)
    (h : Threads.Owned s.bank.mutex s.held) {id : UInt32} (hid : id ∈ s.held i)
    (hown : (s.pc i).debited → id ≠ (s.requests i).headerId) : s.table id = t id := by
  apply hl.same id
  intro j hj heq
  subst heq
  obtain rfl := h.eq_of_mem hid (headerId_mem_held hj)
  exact hown hj rfl

theorem Linked.sameAccounts (hl : Linked s t) : SameAccounts s.table t := by
  intro id
  by_cases hd : ∃ i, (s.pc i).debited ∧ id = (s.requests i).headerId
  · obtain ⟨i, hi, rfl⟩ := hd
    obtain ⟨src, hsrc, -, htable⟩ := hl.debited i hi
    rw [hsrc, htable]
    rfl
  · rw [hl.same id fun i hi heq => hd ⟨i, hi, heq⟩]

theorem System.finished_perform (s : System n) (i : Fin n) (act : Action) (b : Bank (Fin n))
    (o : Office) :
    (s.perform i act b o).finished + decided (s.requests i) (s.offices i) =
      s.finished + (decided (s.requests i) o + returnedOutcome act) :=
  s.tally_perform i act b o decided returnedOutcome

theorem System.finished_perform_of_same
    (hsame : decided (s.requests i) o + returnedOutcome act =
      decided (s.requests i) (s.offices i)) :
    (s.perform i act b o).finished = s.finished := by
  have h := s.finished_perform i act b o
  rw [hsame] at h
  exact add_right_cancel h

theorem System.finished_perform_of_effect
    (h : TakesEffect (s.requests i) (s.offices i) act o) :
    (s.perform i act b o).finished = s.finished + {outcomeOf (s.requests i) o.reply} := by
  have hsum := s.finished_perform i act b o
  rwa [h.1, h.2.1, h.2.2, add_zero, add_zero] at hsum

theorem Linked.give (hl : Linked s t) (hidle : s.pc i = .idle) (req : TlvRequest) :
    Linked (s.give i req) t := by
  have hnot : ¬ ((s.give i req).pc i).debited := by
    rw [System.give_pc_self]
    decide
  have hidle' : ¬ (s.pc i).debited := by
    rw [hidle]
    decide
  refine ⟨fun id hid => hl.same id ?_, ?_⟩
  · intro j hj
    have hji : j ≠ i := fun h => hidle' (h ▸ hj)
    simpa [hji] using hid j (by simpa [hji] using hj)
  · intro j hj
    have hji : j ≠ i := fun h => hnot (h ▸ hj)
    rw [System.give_pc_of_ne _ _ hji] at hj
    simpa [hji] using hl.debited j hj

/-- How the link survives a step of one office. -/
theorem Linked.perform (hl : Linked s t) {t' : Table}
    (hself : o.pc.debited → ∃ src, t' (s.requests i).headerId = some src ∧
      ¬ subtractedBalance src.balance (s.requests i).amount < minBalance ∧
      b.bankAccounts (s.requests i).headerId =
        some { src with balance :=
          (subtractedBalance src.balance (s.requests i).amount).toUInt32 })
    (hother : ∀ j, j ≠ i → (s.pc j).debited →
      t' (s.requests j).headerId = t (s.requests j).headerId ∧
        b.bankAccounts (s.requests j).headerId = s.table (s.requests j).headerId)
    (hsame : ∀ id, (o.pc.debited → id ≠ (s.requests i).headerId) →
      (∀ j, j ≠ i → (s.pc j).debited → id ≠ (s.requests j).headerId) →
      b.bankAccounts id = t' id) : Linked (s.perform i act b o) t' := by
  refine ⟨fun id hid => hsame id ?_ ?_, ?_⟩
  · intro hd
    simpa using hid i (by simpa using hd)
  · intro j hj hd
    simpa using hid j (by simpa [hj] using hd)
  · intro j hd
    by_cases hj : j = i
    · subst j
      simpa using hself (by simpa using hd)
    · rw [System.perform_pc_of_ne _ _ _ _ hj] at hd
      obtain ⟨ht, hb⟩ := hother j hj hd
      obtain ⟨src, hsrc, hfunds, htable⟩ := hl.debited j hd
      exact ⟨src, ht.trans hsrc, hfunds, hb.trans htable⟩

/-- A step that writes no balance and leaves its office as far ahead as it was. -/
theorem Linked.quiet (hl : Linked s t) (htable : b.bankAccounts = s.table)
    (hd : o.pc.debited = (s.pc i).debited) : Linked (s.perform i act b o) t := by
  refine hl.perform (fun hi => ?_) (fun j _ _ => ⟨rfl, by rw [htable]⟩) fun id hi hj => ?_
  · rw [htable]
    exact hl.debited i (hd ▸ hi)
  · rw [htable]
    apply hl.same id
    intro j hjd
    by_cases hji : j = i
    · subst j
      exact hi (hd.symm ▸ hjd)
    · exact hj j hji hjd

/-- Nobody else is ahead on an account whose mutex the office holds. -/
theorem ne_headerId_of_held (h : Threads.Owned s.bank.mutex s.held) {id : UInt32}
    (hid : id ∈ s.held i) {j : Fin n} (hj : j ≠ i) (hd : (s.pc j).debited) :
    (s.requests j).headerId ≠ id := by
  rintro rfl
  exact hj (h.eq_of_mem (headerId_mem_held hd) hid)

theorem Linked.debit (hl : Linked s t) (h : Threads.Owned s.bank.mutex s.held)
    {src : BankAccount} (hsrc : s.table (s.requests i).headerId = some src)
    (hfunds : ¬ subtractedBalance src.balance (s.requests i).amount < minBalance)
    (hheld : (s.requests i).headerId ∈ s.held i) (hbefore : (s.pc i).debited = false)
    (hb : b.bankAccounts = debitTable (s.requests i) s.table src) (hafter : o.pc.debited = true) :
    Linked (s.perform i act b o) t := by
  have hagree : s.table (s.requests i).headerId = t (s.requests i).headerId :=
    hl.eq_of_mem_held h hheld fun hd => by simp [hbefore] at hd
  refine hl.perform (fun _ => ⟨src, hagree.symm.trans hsrc, hfunds, ?_⟩)
    (fun j hj hd => ⟨rfl, ?_⟩) ?_
  · rw [hb, debitTable, Function.update_self]
  · rw [hb, debitTable, Function.update_of_ne (ne_headerId_of_held h hheld hj hd)]
  · intro id hi hj
    rw [hb, debitTable, Function.update_of_ne (hi hafter)]
    apply hl.same id
    intro j hd
    by_cases hji : j = i
    · subst j
      simp [hbefore] at hd
    · exact hj j hji hd

theorem Linked.lost (hl : Linked s t) (h : Threads.Owned s.bank.mutex s.held)
    {src : BankAccount} (hsrc : t (s.requests i).headerId = some src)
    (hbefore : (s.pc i).debited) (hafter : o.pc.debited = false)
    (hb : b.bankAccounts = s.table) :
    Linked (s.perform i act b o) (debitTable (s.requests i) t src) := by
  have hheld := headerId_mem_held hbefore
  obtain ⟨src', hsrc', -, htable⟩ := hl.debited i hbefore
  obtain rfl : src = src' := Option.some.inj (hsrc.symm.trans hsrc')
  refine hl.perform (fun hd => by simp [hafter] at hd) (fun j hj hd => ⟨?_, by rw [hb]⟩)
    fun id _ hj => ?_
  · rw [debitTable, Function.update_of_ne (ne_headerId_of_held h hheld hj hd)]
  · rw [hb]
    by_cases hid : id = (s.requests i).headerId
    · subst hid
      rw [htable, debitTable, Function.update_self]
    · rw [debitTable, Function.update_of_ne hid]
      apply hl.same id
      intro j hd
      by_cases hji : j = i
      · subst j
        exact hid
      · exact hj j hji hd

theorem Linked.credit (hl : Linked s t) (h : Threads.Owned s.bank.mutex s.held)
    {src dst : BankAccount} (hsrc : t (s.requests i).headerId = some src)
    (hheld : (s.requests i).transferId ∈ s.held i)
    (hbefore : (s.pc i).debited) (hafter : o.pc.debited = false)
    (hb : b.bankAccounts = Function.update s.table (s.requests i).transferId
      (some { dst with balance :=
        (addedBalance dst.balance (s.requests i).amount).toUInt32 })) :
    Linked (s.perform i act b o) (creditTable (s.requests i) t src dst) := by
  have hlost : Linked (s.perform i act s.bank o) (debitTable (s.requests i) t src) :=
    hl.lost h hsrc hbefore hafter rfl
  refine hl.perform (fun hd => by simp [hafter] at hd) (fun j hj hd => ?_) fun id _ hj => ?_
  · have hsrcne := ne_headerId_of_held h (headerId_mem_held hbefore) hj hd
    have hdstne := ne_headerId_of_held h hheld hj hd
    rw [hb, creditTable, debitTable, Function.update_of_ne hdstne, Function.update_of_ne hsrcne,
      Function.update_of_ne hdstne]
    exact ⟨rfl, rfl⟩
  · rw [hb, creditTable]
    by_cases hid : id = (s.requests i).transferId
    · rw [hid, Function.update_self, Function.update_self]
    · rw [Function.update_of_ne hid, Function.update_of_ne hid]
      apply hlost.same id
      intro j hd
      by_cases hji : j = i
      · subst j
        simp [hafter] at hd
      · rw [System.perform_pc_of_ne _ _ _ _ hji] at hd
        exact hj j hji hd

/-- A step of an office is either no serial step or one that leaves the two tables linked. -/
theorem Linked.effect (hl : Linked s t) (h : Threads.Owned s.bank.mutex s.held)
    (heffect : Effect sha256sum (s.requests i) s.table (s.offices i) act o)
    (hb : s.bank.apply i act = some b) :
    (decided (s.requests i) o + returnedOutcome act = decided (s.requests i) (s.offices i) ∧
      Linked (s.perform i act b o) t) ∨
    (TakesEffect (s.requests i) (s.offices i) act o ∧
      ∃ t', SerialStep sha256sum t (outcomeOf (s.requests i) o.reply) t' ∧
        Linked (s.perform i act b o) t') := by
  have hids : held (s.requests i) (s.pc i) = {(s.requests i).headerId,
      (s.requests i).transferId} → (s.requests i).headerId ∈ s.held i ∧
      (s.requests i).transferId ∈ s.held i := fun hheld => by
    simp [System.held, hheld]
  cases heffect with
  | quiet hw hdebited hsame => exact .inl ⟨hsame, hl.quiet (apply_table hb hw) hdebited⟩
  | settled hw hbefore hafter heffect hserial =>
      refine .inr ⟨heffect, t, hserial t hl.sameAccounts ?_,
        hl.quiet (apply_table hb hw) (hafter.trans hbefore.symm)⟩
      intro id hid
      exact (hl.eq_of_mem_held h hid fun hd => by
        simp [System.pc, hbefore] at hd).symm
  | debit src hp hsrc hact hfunds hheld hbefore hafter hsame =>
      subst hact
      cases hb
      exact .inl ⟨hsame, hl.debit h hsrc hfunds (hids hheld).1 hbefore
        (Bank.setBalance_bankAccounts _ _ hsrc) hafter⟩
  | lost hp hw hheld hbefore hafter heffect hserial =>
      obtain ⟨src, hsrc, hfunds, -⟩ := hl.debited i hbefore
      have hdst := hl.eq_of_mem_held h (hids hheld).2 fun _ => hp.distinct
      exact .inr ⟨heffect, debitTable (s.requests i) t src,
        hserial t src hl.sameAccounts hdst.symm hsrc hfunds,
        hl.lost h hsrc hbefore hafter (apply_table hb hw)⟩
  | credit dst hp hdst hact hheld hbefore hafter heffect hserial =>
      subst hact
      cases hb
      obtain ⟨src, hsrc, hfunds, -⟩ := hl.debited i hbefore
      have hdst' := hl.eq_of_mem_held h (hids hheld).2 fun _ => hp.distinct
      exact .inr ⟨heffect, creditTable (s.requests i) t src dst,
        hserial t src hl.sameAccounts (hdst'.symm.trans hdst) hsrc hfunds,
        hl.credit h hsrc (hids hheld).2 hbefore hafter (Bank.setBalance_bankAccounts _ _ hdst)⟩

/-- The offices simulate the serial execution. -/
theorem simulation : LTS.Simulation (accountRuns sha256sum t₀ n) (serialBank sha256sum t₀)
    fun s a => (a.1 : Multiset Outcome) = s.finished ∧ Linked s a.2 where
  init s hs := by
    have hidle : ∀ i, ¬ (s.pc i).debited := fun i => by
      rw [hs.2.1 i]
      decide
    refine ⟨([], t₀), rfl, ?_, fun id _ => by rw [System.table, hs.1]; rfl,
      fun i hi => absurd hi (hidle i)⟩
    have hsum : s.sum decided = 0 := s.sum_eq_zero _ fun i => by
      rw [decided, show (s.offices i).pc = _ from hs.2.1 i]
    rw [System.finished, hsum, hs.2.2]
    rfl
  step s l s' a hr hs hrel := by
    obtain ⟨horder, hl⟩ := hrel
    rcases bankOffices_step_cases hs with ⟨i, req, -, hidle, -, rfl⟩ |
      ⟨i, choice, act, b, o, -, hstep, hb, rfl⟩
    · refine .inl ⟨horder.trans ?_, hl.give hidle req⟩
      have hsum : (s.give i req).sum decided = s.sum decided := s.sum_give i req _ (by
        rw [decided, decided, show (s.offices i).pc = _ from hidle])
      rw [System.finished, System.finished, hsum]
      rfl
    have heffect := hstep.effect ((ok_request hr i).resolve_left hstep.pc_ne_idle)
      (valid hr i) (fresh hr i) (loggedIn hr i) (answersOk hr i)
    have hlist : ∀ e : Outcome, ((a.1 ++ [e] : List Outcome) : Multiset Outcome) =
        s.finished + {e} := fun e => by
      rw [← Multiset.coe_add, horder]
      rfl
    rcases hl.effect (owned hr) heffect hb with ⟨hsame, hl'⟩ | ⟨heffect, t', hserial, hl'⟩
    · exact .inl ⟨horder.trans (System.finished_perform_of_same hsame).symm, hl'⟩
    · exact .inr ⟨_, (a.1 ++ [_], t'), ⟨hserial, rfl⟩,
        (hlist _).trans (System.finished_perform_of_effect heffect).symm, hl'⟩

end Simulation

/-- On any accounts, in every state of a run of balance checks and transfers in
which no office is between the first and the last access of a transfer, the
requests that were refused or have finished their accesses can be ordered so
that executing them one after another on free mutexes gives the same table,
the same codes and the same balances. -/
theorem serializable {s : System n} (h : (accountRuns sha256sum t₀ n).Reachable s)
    (hquiet : ∀ i, ¬ (s.pc i).accessing) :
    ∃ order : List Outcome, (order : Multiset Outcome) = s.finished ∧
      (serialBank sha256sum t₀).Reachable (order, s.table) := by
  obtain ⟨⟨order, t⟩, hserial, horder, hl⟩ := simulation.reachable h
  have htable : s.table = t := funext fun id => hl.same id fun i hi => by
    exfalso
    apply hquiet i
    cases hpc : s.pc i with
    | addRead | addWrite => rfl
    | _ => simp [hpc, Pc.debited] at hi
  exact ⟨order, horder, htable ▸ hserial⟩

/-- A balance check of the source runs while a transfer of 50 is under way. Some
order of the two gives the codes and the balance that the clients receive and
the table that the bank is left with. -/
theorem serializable_two : ∃ (s : System 2) (order : List Outcome),
    (accountRuns Sample.sha256sum (Sample.twoAccounts 100 200) 2).Reachable s ∧
    (order : Multiset Outcome) = {⟨Sample.transfer 9 50, .ok, none⟩,
      ⟨Sample.balance 10, .ok, some 50⟩} ∧
    (s.table 2).map BankAccount.balance = some 250 ∧
    (serialBank Sample.sha256sum (Sample.twoAccounts 100 200)).Reachable (order, s.table) := by
  obtain ⟨s, hs, hf⟩ : ∃ s : System 2,
      (accountRuns Sample.sha256sum (Sample.twoAccounts 100 200) 2).Reachable s ∧
      (decide (∀ i, ¬ (s.pc i).accessing), s.finished, (s.table 2).map BankAccount.balance) =
        (true, {⟨Sample.transfer 9 50, .ok, none⟩, ⟨Sample.balance 10, .ok, some 50⟩},
          some 250) :=
    execute_reachable Sample.emptyReply (Sample.shutdown 0)
      (Sample.serve 0 (Sample.transfer 9 50) 12 ++ Sample.serve 1 (Sample.balance 10) 9 ++
        Sample.steps 0 5 ++ Sample.steps 1 9) (by decide +kernel)
  simp only [Prod.mk.injEq, decide_eq_true_eq] at hf
  obtain ⟨hquiet, hfinished, hbal⟩ := hf
  obtain ⟨order, horder, hserial⟩ := serializable hs hquiet
  exact ⟨s, order, hs, horder.trans hfinished, hbal, hserial⟩

end HomeBanking
