import HomeBanking.Linearization
import HomeBanking.Login

/-!
# The bank that the server is meant to be

An abstract bank: its accounts have passwords and balances that are natural
numbers, a client states who it is and what it wants, and an order that is
refused changes nothing. Requests that are executed one after another answer as
the abstract bank does and leave the accounts it has, and so do the offices in
any interleaving. Two things are excluded: creations of one id that overlap,
and transfers that the server refuses with `RC_TOO_HIGH`, whose debit it keeps.
-/

namespace HomeBanking

/-- An account: what its owner has to know, and what it holds. -/
structure Holding (P : Type*) where
  password : P
  balance : ℕ

/-- The accounts of the abstract bank. -/
abbrev Ledger (I P : Type*) := I → Option (Holding P)

/-- What a client asks for. -/
inductive Order (I P : Type*)
  | create (id : I) (balance : ℕ) (password : P)
  | balance
  | transfer (dest : I) (amount : ℕ)
  | shutdown

/-- Who the administrator is, and what an account of a client may hold. -/
structure Limits (I : Type*) where
  admin : I
  lowest : ℕ
  highest : ℕ

/-- An order that stays within what an account may hold. -/
def Order.Within {I P : Type*} (limits : Limits I) : Order I P → Prop
  | .create _ x _ => limits.lowest ≤ x ∧ x ≤ limits.highest
  | .transfer dest _ => dest ≠ limits.admin
  | _ => True

namespace Ledger

variable {I P : Type*} (limits : Limits I) (L : Ledger I P) (client : I)

def balanceOf (id : I) : ℕ := (L id).elim 0 Holding.balance

variable {L} in
theorem balanceOf_eq {id : I} {h : Holding P} (hid : L id = some h) :
    L.balanceOf id = h.balance := by
  rw [balanceOf, hid]
  rfl

variable [DecidableEq I]

/-- The answer to a client that is known. -/
def permit : Order I P → RetCode
  | .create id _ _ =>
      if client ≠ limits.admin then .opNAllow else if (L id).isSome then .idInUse else .ok
  | .balance => if client = limits.admin then .opNAllow else .ok
  | .transfer dest amount =>
      if client = limits.admin then .opNAllow
      else if (L dest).isNone then .idNotFound
      else if dest = client then .sameId
      else if L.balanceOf client < amount + limits.lowest then .noFunds
      else if limits.highest < L.balanceOf dest + amount then .tooHigh
      else .ok
  | .shutdown => if client ≠ limits.admin then .opNAllow else .ok

/-- The answer to a client that gives a password. -/
def answer [DecidableEq P] (password : P) (order : Order I P) : RetCode :=
  if (L client).map Holding.password = some password then L.permit limits client order
  else .loginFail

def setBalance (id : I) (x : ℕ) : Ledger I P :=
  Function.update L id ((L id).map fun h => { h with balance := x })

/-- What an order does. -/
def perform : Order I P → Ledger I P
  | .create id balance password => Function.update L id (some ⟨password, balance⟩)
  | .transfer dest amount =>
      (L.setBalance client (L.balanceOf client - amount)).setBalance dest
        (L.balanceOf dest + amount)
  | .balance | .shutdown => L

/-- The accounts after the order; a refused order changes nothing. -/
def after [DecidableEq P] (password : P) (order : Order I P) : Ledger I P :=
  if L.answer limits client password order = .ok then L.perform client order else L

/-- The balance that a client learns. -/
def reported : Order I P → RetCode → Option ℕ
  | .balance, .ok => some (L.balanceOf client)
  | _, _ => none

/-- The administrator owns nothing, everybody else what an account may hold. -/
def Within : Prop :=
  ∀ id h, L id = some h → (id = limits.admin → h.balance = 0) ∧
    (id ≠ limits.admin → limits.lowest ≤ h.balance ∧ h.balance ≤ limits.highest)

variable {limits L client}

theorem setBalance_of_ne {id j : I} (x : ℕ) (h : j ≠ id) : L.setBalance id x j = L j :=
  Function.update_of_ne h ..

/-- What has been checked of a transfer that is carried out. -/
theorem permit_transfer_ok {dest : I} {amount : ℕ}
    (h : L.permit limits client (.transfer dest amount) = .ok) :
    client ≠ limits.admin ∧ (L dest).isSome ∧ dest ≠ client ∧
      amount + limits.lowest ≤ L.balanceOf client ∧
      L.balanceOf dest + amount ≤ limits.highest := by
  simp only [permit] at h
  split at h
  · cases h
  split at h
  · cases h
  split at h
  · cases h
  split at h
  · cases h
  split at h
  · cases h
  rename_i hadmin hdest hne hfunds hroom
  exact ⟨hadmin, by simpa [Option.isSome_iff_ne_none] using hdest, hne, by omega, by omega⟩

/-- A balance that is set to one that the account may hold. -/
theorem Within.setBalance (h : L.Within limits) {id : I} (hid : id ≠ limits.admin) {x : ℕ}
    (hx : limits.lowest ≤ x ∧ x ≤ limits.highest) : (L.setBalance id x).Within limits := by
  intro j hold hj
  by_cases hji : j = id
  · subst j
    rw [Ledger.setBalance, Function.update_self] at hj
    obtain ⟨_, _, rfl⟩ := Option.map_eq_some_iff.mp hj
    exact ⟨fun hzero => absurd hzero hid, fun _ => hx⟩
  · rw [setBalance_of_ne x hji] at hj
    exact h j hold hj

variable [DecidableEq P] {password : P} {order : Order I P}

theorem after_of_ne_ok (h : L.answer limits client password order ≠ .ok) :
    L.after limits client password order = L := if_neg h

theorem answer_of_known (h : (L client).map Holding.password = some password) :
    L.answer limits client password order = L.permit limits client order := if_pos h

theorem after_of_ok (h : L.answer limits client password order = .ok) :
    L.after limits client password order = L.perform client order := if_pos h

/-- Orders keep the accounts within their limits. -/
theorem Within.after (h : L.Within limits) (horder : Order.Within limits order) :
    (L.after limits client password order).Within limits := by
  by_cases hok : L.answer limits client password order = .ok
  · rw [after_of_ok hok]
    have hknown : (L client).map Holding.password = some password := by
      by_contra hnot
      rw [answer, if_neg hnot] at hok
      cases hok
    rw [answer_of_known hknown] at hok
    obtain ⟨hold, hclient, -⟩ := Option.map_eq_some_iff.mp hknown
    cases order with
    | balance | shutdown => exact h
    | create id balance password' =>
        simp only [permit] at hok
        split at hok
        · cases hok
        split at hok
        · cases hok
        rename_i hadmin hfree
        -- the administrator has an account, so the new one is a client's
        have hne : id ≠ limits.admin := by
          rintro rfl
          rw [not_not.mp hadmin] at hclient
          simp [hclient] at hfree
        intro j hold' hj
        by_cases hji : j = id
        · subst j
          rw [perform, Function.update_self] at hj
          obtain rfl := Option.some.inj hj
          exact ⟨fun hzero => absurd hzero hne, fun _ => horder⟩
        · rw [perform, Function.update_of_ne hji] at hj
          exact h j hold' hj
    | transfer dest amount =>
        obtain ⟨hadmin, hdest, hne, hfunds, hroom⟩ := permit_transfer_ok hok
        obtain ⟨hold', hdest⟩ := Option.isSome_iff_exists.mp hdest
        have hsource := (h client hold hclient).2 hadmin
        have htarget := (h dest hold' hdest).2 horder
        rw [balanceOf_eq hclient] at hfunds
        rw [balanceOf_eq hdest] at hroom
        rw [perform, balanceOf_eq hclient, balanceOf_eq hdest]
        exact (h.setBalance hadmin (by omega)).setBalance horder (by omega)
  · rwa [after_of_ne_ok hok]

end Ledger

/-- An order that has been answered. -/
structure Transaction (I P : Type*) where
  client : I
  password : P
  order : Order I P
  retCode : RetCode
  balance : Option ℕ

/-- The transactions so far, and the accounts they leave. -/
def ledgerBank {I P : Type*} [DecidableEq I] [DecidableEq P] (limits : Limits I)
    (L₀ : Ledger I P) : LTS (List (Transaction I P) × Ledger I P) (Transaction I P) where
  init a := a = ([], L₀)
  step a x a' :=
    x.retCode = a.2.answer limits x.client x.password x.order ∧
    x.balance = a.2.reported x.client x.order x.retCode ∧
    a' = (a.1 ++ [x], a.2.after limits x.client x.password x.order)

/-- The transactions so far stay in the history. -/
theorem ledgerBank_extends {I P : Type*} [DecidableEq I] [DecidableEq P] {limits : Limits I}
    {L₀ : Ledger I P} {a a' : List (Transaction I P) × Ledger I P}
    (h : (ledgerBank limits L₀).Reaches a a') : a.1 <+: a'.1 := by
  induction h with
  | refl => exact List.prefix_refl _
  | tail _ hs ih =>
      obtain ⟨x, -, -, rfl⟩ := hs
      exact ih.trans (List.prefix_append _ _)

namespace Ledger

variable {I P : Type*} [DecidableEq I] [DecidableEq P] (limits : Limits I)

/-- The accounts after a transaction. -/
def book (L : Ledger I P) (x : Transaction I P) : Ledger I P :=
  L.after limits x.client x.password x.order

/-- The transactions, each with the accounts that it leaves. -/
def trail : Ledger I P → List (Transaction I P) → List (Transaction I P × Ledger I P)
  | _, [] => []
  | L, x :: history => (x, L.book limits x) :: trail (L.book limits x) history

theorem trail_append (L : Ledger I P) (history : List (Transaction I P))
    (x : Transaction I P) : L.trail limits (history ++ [x]) =
      L.trail limits history ++ [(x, (history ++ [x]).foldl (book limits) L)] := by
  induction history generalizing L with
  | nil => rfl
  | cons y history ih =>
      rw [List.cons_append, trail, ih, trail]
      rfl

end Ledger

/-- The accounts are what the transactions make of the opening ones. -/
theorem ledgerBank_eq_foldl {I P : Type*} [DecidableEq I] [DecidableEq P] {limits : Limits I}
    {L₀ : Ledger I P} {a : List (Transaction I P) × Ledger I P}
    (h : (ledgerBank limits L₀).Reachable a) : a.2 = a.1.foldl (Ledger.book limits) L₀ := by
  induction h with
  | init h => rw [show _ = _ from h, List.foldl_nil]
  | step _ hs ih =>
      obtain ⟨-, -, rfl⟩ := hs
      rw [List.foldl_append, ← ih]
      rfl

/-- The limits of `constants.h`. -/
def bankLimits : Limits UInt32 := ⟨adminAccountId, 1, 1000000000⟩

@[simp] theorem bankLimits_admin : bankLimits.admin = 0 := rfl
@[simp] theorem bankLimits_lowest : bankLimits.lowest = 1 := rfl
@[simp] theorem bankLimits_highest : bankLimits.highest = 1000000000 := rfl

/-- What a request asks for. -/
def orderOf (req : TlvRequest) : Option (Order UInt32 CString) :=
  match req.type with
  | .createAccount =>
      some (.create req.createId req.value.create.balance.toNat req.value.create.password)
  | .balance => some .balance
  | .transfer => some (.transfer req.transferId req.amount.toNat)
  | .shutdown => some .shutdown
  | .undefined _ => none

/-- The same accounts, with the digests of their passwords and with their
balances as 32-bit words. -/
structure Represents (sha256sum : CString → CString) (passwords salts : Set CString) (t : Table)
    (L : Ledger UInt32 CString) : Prop where
  recorded : Recorded sha256sum passwords salts t fun id => (L id).map Holding.password
  balances : ∀ id, (t id).map (fun a => a.balance.toNat) = (L id).map Holding.balance

/-- The requests of the user program with an account id inside the array that name
an operation and give one of the passwords. -/
structure Ordered (passwords : Set CString) (req : TlvRequest) : Prop where
  range : InUserRange req
  operation : ∀ code, req.type ≠ .undefined code
  password : req.value.header.password ∈ passwords
  created : req.type = .createAccount → req.value.create.password ∈ passwords

section Representation

variable {sha256sum : CString → CString} {passwords salts : Set CString} {t : Table}
  {L : Ledger UInt32 CString}

theorem Represents.exists_holding (h : Represents sha256sum passwords salts t L) {id : UInt32}
    {a : BankAccount} (ha : t id = some a) :
    ∃ hold, L id = some hold ∧ hold.balance = a.balance.toNat := by
  have hbal := h.balances id
  rw [ha, Option.map_some] at hbal
  exact Option.map_eq_some_iff.mp hbal.symm

theorem Represents.isSome_eq (h : Represents sha256sum passwords salts t L) (id : UInt32) :
    (L id).isSome = (t id).isSome := by
  have hbal := congrArg Option.isSome (h.balances id)
  rw [Option.isSome_map, Option.isSome_map] at hbal
  exact hbal.symm

theorem Represents.balanceOf_eq (h : Represents sha256sum passwords salts t L) {id : UInt32}
    {a : BankAccount} (ha : t id = some a) : L.balanceOf id = a.balance.toNat := by
  obtain ⟨hold, hhold, hbal⟩ := h.exists_holding ha
  rw [Ledger.balanceOf_eq hhold, hbal]

theorem Represents.inBounds (h : Represents sha256sum passwords salts t L)
    (hL : L.Within bankLimits) : InBounds t := by
  intro id a ha
  obtain ⟨hold, hhold, hbal⟩ := h.exists_holding ha
  obtain ⟨hadmin, hclient⟩ := hL id hold hhold
  refine ⟨fun hid => ?_, fun hid => hbal ▸ hclient hid⟩
  exact UInt32.toNat_inj.mp (hbal.symm.trans (hadmin hid))

/-- The login check of the server lets in the clients that the abstract bank knows. -/
theorem Represents.loginOk_iff (h : Represents sha256sum passwords salts t L)
    (hsha : Sha256On sha256sum (hashInputs passwords salts)) {req : TlvRequest}
    (hpassword : req.value.header.password ∈ passwords) :
    loginOk sha256sum req t = true ↔
      (L req.headerId).map Holding.password = some req.value.header.password := by
  rw [loginOk_eq_true]
  rcases h.recorded req.headerId with ⟨hnone, hL⟩ | ⟨a, password, ha, hL, hmem, hsalt, hhash⟩
  · replace hL : (L req.headerId).map Holding.password = none := hL
    simp [hnone, hL]
  replace hL : (L req.headerId).map Holding.password = some password := hL
  have hgiven : req.value.header.password ++ a.salt ∈ hashInputs passwords salts :=
    Set.mem_image2_of_mem hpassword hsalt
  have hstored : password ++ a.salt ∈ hashInputs passwords salts :=
    Set.mem_image2_of_mem hmem hsalt
  rw [hL, Option.some.injEq]
  constructor
  · rintro ⟨a', ha', hmatch⟩
    obtain rfl : a = a' := Option.some.inj (ha.symm.trans ha')
    have heq := of_decide_eq_true hmatch
    rw [hhash, generateHash_eq_digest hsha hgiven] at heq
    exact (List.append_cancel_right (hsha.injective hgiven hstored heq)).symm
  · rintro rfl
    refine ⟨a, ha, decide_eq_true ?_⟩
    rw [hhash, generateHash_eq_digest hsha hgiven]

theorem Represents.setBalance {ι : Type} {b : Bank ι}
    (h : Represents sha256sum passwords salts b.bankAccounts L) (id x : UInt32) :
    Represents sha256sum passwords salts (b.setBalance id x).bankAccounts
      (L.setBalance id x.toNat) := by
  have hpassword : (fun j => (L.setBalance id x.toNat j).map Holding.password) =
      fun j => (L j).map Holding.password := by
    funext j
    by_cases hj : j = id
    · subst j
      rw [Ledger.setBalance, Function.update_self, Option.map_map]
      rfl
    · rw [Ledger.setBalance_of_ne _ hj]
  refine ⟨hpassword ▸ h.recorded.setBalance id x, fun j => ?_⟩
  by_cases hj : j = id
  · subst j
    have hsome := h.isSome_eq id
    rw [Bank.setBalance_bankAccounts_self, Ledger.setBalance, Function.update_self]
    cases ht : b.bankAccounts id <;> cases hL : L id <;> simp [ht, hL] at hsome ⊢
  · rw [Bank.setBalance_bankAccounts_of_ne _ _ hj, Ledger.setBalance_of_ne _ hj]
    exact h.balances j

theorem Represents.newAccount (h : Represents sha256sum passwords salts t L)
    (hsha : Sha256On sha256sum (hashInputs passwords salts))
    (hlen : ∀ p ∈ passwords, p.length ≤ maxPasswordLen) {rand : ℕ → ℕ}
    (hsalt : generateSalt rand ∈ salts) {password : CString} (hpassword : password ∈ passwords)
    (id x : UInt32) :
    Represents sha256sum passwords salts
      (Function.update t id
        (some (HomeBanking.newAccount sha256sum (generateSalt rand) id x password)))
      (Function.update L id (some ⟨password, x.toNat⟩)) := by
  have hrecorded := h.recorded.newAccount hsha hlen hsalt hpassword id x
  constructor
  · convert hrecorded using 1
    funext j
    by_cases hj : j = id
    · subst j
      rw [Function.update_self, Function.update_self]
      rfl
    · rw [Function.update_of_ne hj, Function.update_of_ne hj]
  · intro j
    by_cases hj : j = id
    · subst j
      rw [Function.update_self, Function.update_self]
      rfl
    · rw [Function.update_of_ne hj, Function.update_of_ne hj]
      exact h.balances j

variable {ι : Type} {req : TlvRequest} {order : Order UInt32 CString} {w w' : World ι}

/-- The server has answered as the abstract bank does, and unless it has kept
the debit of a transfer that it refused it has the accounts of the abstract bank. -/
structure Answers (sha256sum : CString → CString) (passwords salts : Set CString)
    (L : Ledger UInt32 CString) (req : TlvRequest) (order : Order UInt32 CString)
    (w' : World ι) : Prop where
  retCode : w'.reply.retCode =
    L.answer bankLimits req.headerId req.value.header.password order
  table : w'.reply.retCode ≠ .tooHigh →
    Represents sha256sum passwords salts w'.bank.bankAccounts
      (L.after bankLimits req.headerId req.value.header.password order)
  balance : req.type = .balance ∨ req.type = .transfer → w'.reply.retCode = .ok →
    w'.reply.info.toNat = (L.after bankLimits req.headerId req.value.header.password
      order).balanceOf req.headerId

/-- The checks of a transfer on 32-bit words are those on the balances. -/
theorem permit_transfer (hrep : Represents sha256sum passwords salts t L)
    (hL : L.Within bankLimits) (hr : TransferInRange req) {src dst : BankAccount}
    (hv : TransferValid req t src dst) :
    L.permit bankLimits req.headerId (.transfer req.transferId req.amount.toNat) =
      if subtractedBalance src.balance req.amount < minBalance then .noFunds
      else if maxBalance < addedBalance dst.balance req.amount then .tooHigh else .ok := by
  have hbounds := hrep.inBounds hL
  have hsrc := (hbounds _ _ hv.source).2 hv.notAdmin
  have hdst := (hbounds _ _ hv.dest).2 (ne_zero_of_one_le hr.2.1)
  have hfound : (L req.transferId).isNone = false := by
    rw [← Option.not_isSome, hrep.isSome_eq, hv.dest]
    rfl
  have hlow : subtractedBalance src.balance req.amount < minBalance ↔
      L.balanceOf req.headerId < req.amount.toNat + 1 := by
    rw [lt_minBalance_iff, subtractedBalance_exact hsrc.2 hr.1.2, hrep.balanceOf_eq hv.source]
    omega
  have hhigh : maxBalance < addedBalance dst.balance req.amount ↔
      1000000000 < L.balanceOf req.transferId + req.amount.toNat := by
    rw [maxBalance_lt_iff, addedBalance_exact hdst.2 hr.1.2, hrep.balanceOf_eq hv.dest]
    omega
  simp only [Ledger.permit, bankLimits_admin, bankLimits_lowest, bankLimits_highest,
    if_neg hv.notAdmin, hfound, Bool.false_eq_true, if_false, if_neg hv.distinct, hlow, hhigh]
  exact if_congr Iff.rfl rfl (if_congr Iff.rfl rfl rfl)

/-- A transfer that passes both checks leaves the balances of the abstract bank. -/
theorem Represents.transfer {b : Bank ι}
    (hrep : Represents sha256sum passwords salts b.bankAccounts L) (hL : L.Within bankLimits)
    (hr : TransferInRange req) {src dst : BankAccount}
    (hv : TransferValid req b.bankAccounts src dst)
    (hfunds : ¬ subtractedBalance src.balance req.amount < minBalance) :
    Represents sha256sum passwords salts ((b.debit req src).credit req dst).bankAccounts
      (L.perform req.headerId (.transfer req.transferId req.amount.toNat)) := by
  have hbounds := hrep.inBounds hL
  have hdst := (hbounds _ _ hv.dest).2 (ne_zero_of_one_le hr.2.1)
  have hdebit : (subtractedBalance src.balance req.amount).toUInt32.toNat =
      L.balanceOf req.headerId - req.amount.toNat := by
    have hexact := debit_exact hr.1.2 hfunds
    rw [hrep.balanceOf_eq hv.source]
    omega
  have hcredit : (addedBalance dst.balance req.amount).toUInt32.toNat =
      L.balanceOf req.transferId + req.amount.toNat := by
    rw [hrep.balanceOf_eq hv.dest]
    exact credit_exact (by have := hdst.2; have := hr.1.2; omega)
  rw [Ledger.perform, ← hdebit, ← hcredit]
  exact (hrep.setBalance _ _).setBalance _ _

section Answers

variable (hknown : (L req.headerId).map Holding.password = some req.value.header.password)
include hknown

theorem Answers.refused {code : RetCode}
    (hpermit : L.permit bankLimits req.headerId order = code) (hne : code ≠ .ok)
    (hcode : w'.reply.retCode = code)
    (htable : code ≠ .tooHigh → Represents sha256sum passwords salts w'.bank.bankAccounts L) :
    Answers sha256sum passwords salts L req order w' := by
  have hanswer : L.answer bankLimits req.headerId req.value.header.password order = code :=
    (Ledger.answer_of_known hknown).trans hpermit
  refine ⟨hcode.trans hanswer.symm, fun hlow => ?_, fun _ hok => absurd (hcode.symm.trans hok) hne⟩
  rw [Ledger.after_of_ne_ok (hanswer ▸ hne)]
  exact htable (hcode ▸ hlow)

theorem Answers.done (hpermit : L.permit bankLimits req.headerId order = .ok)
    (hcode : w'.reply.retCode = .ok)
    (htable : Represents sha256sum passwords salts w'.bank.bankAccounts
      (L.perform req.headerId order))
    (hbalance : req.type = .balance ∨ req.type = .transfer →
      w'.reply.info.toNat = (L.perform req.headerId order).balanceOf req.headerId) :
    Answers sha256sum passwords salts L req order w' := by
  have hanswer : L.answer bankLimits req.headerId req.value.header.password order = .ok :=
    (Ledger.answer_of_known hknown).trans hpermit
  refine ⟨hcode.trans hanswer.symm, fun _ => ?_, fun ht _ => ?_⟩
  · rw [Ledger.after_of_ok hanswer]
    exact htable
  · rw [Ledger.after_of_ok hanswer]
    exact hbalance ht

theorem CreateExit.answers {rand : ℕ → ℕ}
    (hrep : Represents sha256sum passwords salts w.bank.bankAccounts L)
    (hsha : Sha256On sha256sum (hashInputs passwords salts))
    (hlen : ∀ p ∈ passwords, p.length ≤ maxPasswordLen) (hsalt : generateSalt rand ∈ salts)
    (ht : req.type = .createAccount) (hpassword : req.value.create.password ∈ passwords)
    (h : CreateExit sha256sum (generateSalt rand) req w w') :
    Answers sha256sum passwords salts L req
      (.create req.createId req.value.create.balance.toNat req.value.create.password) w' := by
  cases h with
  | notAllowed hadmin =>
      exact .refused hknown (if_pos hadmin) (by decide) rfl fun _ => hrep
  | inUse hadmin hin hsome =>
      have hused : (L req.createId).isSome = true := (hrep.isSome_eq _).trans hsome
      have hpermit : L.permit bankLimits req.headerId (.create req.createId
          req.value.create.balance.toNat req.value.create.password) = .idInUse := by
        simp [Ledger.permit, hadmin, hused]
      exact .refused hknown hpermit (by decide) rfl fun _ => hrep
  | done hadmin hin hnone hf =>
      have hfree : (L req.createId).isSome = false := by
        rw [hrep.isSome_eq, hnone]
        rfl
      have hpermit : L.permit bankLimits req.headerId (.create req.createId
          req.value.create.balance.toNat req.value.create.password) = .ok := by
        simp [Ledger.permit, hadmin, hfree]
      exact .done hknown hpermit rfl (hrep.newAccount hsha hlen hsalt hpassword _ _)
        fun hb => absurd hb (by rw [ht]; decide)

theorem BalanceExit.answers (hrep : Represents sha256sum passwords salts w.bank.bankAccounts L)
    (h : BalanceExit req w w') : Answers sha256sum passwords salts L req .balance w' := by
  cases h with
  | notAllowed hadmin => exact .refused hknown (if_pos hadmin) (by decide) rfl fun _ => hrep
  | done src hadmin hsrc hf =>
      exact .done hknown (if_neg hadmin) rfl hrep fun _ => (hrep.balanceOf_eq hsrc).symm

theorem ShutDownExit.answers (hrep : Represents sha256sum passwords salts w.bank.bankAccounts L)
    (ht : req.type = .shutdown) (h : ShutDownExit req w w') :
    Answers sha256sum passwords salts L req .shutdown w' := by
  cases h with
  | notAllowed hadmin => exact .refused hknown (if_pos hadmin) (by decide) rfl fun _ => hrep
  | done hadmin =>
      exact .done hknown (if_neg (not_not.mpr hadmin)) rfl hrep fun hb =>
        absurd hb (by rw [ht]; decide)

theorem TransferExit.answers {me : ι}
    (hrep : Represents sha256sum passwords salts w.bank.bankAccounts L)
    (hL : L.Within bankLimits) (hr : TransferInRange req) (h : TransferExit me req w w') :
    Answers sha256sum passwords salts L req (.transfer req.transferId req.amount.toNat) w' := by
  cases h with
  | notAllowed hadmin => exact .refused hknown (if_pos hadmin) (by decide) rfl fun _ => hrep
  | notFound hadmin hin hnone =>
      have hfree : (L req.transferId).isNone = true := by
        rw [← Option.not_isSome, hrep.isSome_eq, hnone]
        rfl
      have hpermit : L.permit bankLimits req.headerId
          (.transfer req.transferId req.amount.toNat) = .idNotFound := by
        simp [Ledger.permit, hadmin, hfree]
      exact .refused hknown hpermit (by decide) rfl fun _ => hrep
  | sameId hadmin hin hsome hsame =>
      have hfound : (L req.transferId).isNone = false := by
        rw [← Option.not_isSome, hrep.isSome_eq, hsome]
        rfl
      have hpermit : L.permit bankLimits req.headerId
          (.transfer req.transferId req.amount.toNat) = .sameId := by
        simp only [Ledger.permit, bankLimits_admin, if_neg hadmin, hfound, Bool.false_eq_true,
          if_false, if_pos hsame]
      exact .refused hknown hpermit (by decide) rfl fun _ => hrep
  | noFunds src dst hv hf hlow =>
      have hpermit := permit_transfer hrep hL hr hv
      rw [if_pos hlow] at hpermit
      exact .refused hknown hpermit (by decide) rfl fun _ => hrep
  | tooHigh src dst hv hf hfunds hhigh =>
      have hpermit := permit_transfer hrep hL hr hv
      rw [if_neg hfunds, if_pos hhigh] at hpermit
      exact .refused hknown hpermit (by decide) rfl fun hne => absurd rfl hne
  | done src dst hv hf hfunds hroom =>
      have hpermit := permit_transfer hrep hL hr hv
      rw [if_neg hfunds, if_neg hroom] at hpermit
      have hafter := hrep.transfer hL hr hv hfunds
      refine .done hknown hpermit rfl hafter fun _ => ?_
      exact (hafter.balanceOf_eq (debit_credit_source req hv)).symm

end Answers

/-- Only the frame of a request sees the number of active offices. -/
theorem Answers.activeBankOffices {k : ℤ}
    (h : Answers sha256sum passwords salts L req order w') :
    Answers sha256sum passwords salts L req order { w' with bank.activeBankOffices := k } :=
  ⟨h.retCode, h.table, h.balance⟩

theorem Ordered.exists_order (h : Ordered passwords req) :
    ∃ order, orderOf req = some order ∧ order.Within bankLimits := by
  obtain ⟨-, hcreate, htransfer⟩ := h.range
  cases ht : req.type with
  | createAccount =>
      exact ⟨.create req.createId req.value.create.balance.toNat req.value.create.password,
        by rw [orderOf, ht], (hcreate ht).1⟩
  | balance => exact ⟨.balance, by rw [orderOf, ht], trivial⟩
  | transfer =>
      exact ⟨.transfer req.transferId req.amount.toNat, by rw [orderOf, ht],
        ne_zero_of_one_le (htransfer ht).2.1⟩
  | shutdown => exact ⟨.shutdown, by rw [orderOf, ht], trivial⟩
  | undefined code => exact absurd ht (h.operation code)

/-- Every way out of a request is an answer of the abstract bank. -/
theorem Exit.answers {me : ι} {rand : ℕ → ℕ}
    (hrep : Represents sha256sum passwords salts w.bank.bankAccounts L)
    (hL : L.Within bankLimits) (hsha : Sha256On sha256sum (hashInputs passwords salts))
    (hlen : ∀ p ∈ passwords, p.length ≤ maxPasswordLen) (hsalt : generateSalt rand ∈ salts)
    (hreq : Ordered passwords req) (horder : orderOf req = some order)
    (h : Exit sha256sum me (generateSalt rand) req w w') :
    Answers sha256sum passwords salts L req order w' := by
  have hlogin := hrep.loginOk_iff hsha hreq.password
  cases h with
  | loginFail hfail =>
      have hunknown : (L req.headerId).map Holding.password ≠
          some req.value.header.password := fun hknown => by
        rw [hlogin.mpr hknown] at hfail
        cases hfail
      have hanswer : L.answer bankLimits req.headerId req.value.header.password order =
          .loginFail := if_neg hunknown
      refine ⟨hanswer.symm, fun _ => ?_, fun _ hok => absurd hok (by simp [TlvReply.setRetCode])⟩
      rw [Ledger.after_of_ne_ok (by rw [hanswer]; decide)]
      exact hrep
  | op w₁ hok hop =>
      have hknown := hlogin.mp hok
      have hrep' : Represents sha256sum passwords salts (begun req w).bank.bankAccounts L := hrep
      cases hop with
      | create ht hc =>
          obtain rfl : Order.create .. = order := by simpa [orderOf, ht] using horder
          exact (hc.answers hknown hrep' hsha hlen hsalt ht (hreq.created ht)).activeBankOffices
      | balance ht hb =>
          obtain rfl : Order.balance = order := by simpa [orderOf, ht] using horder
          exact (hb.answers hknown hrep').activeBankOffices
      | transfer ht htr =>
          obtain rfl : Order.transfer .. = order := by simpa [orderOf, ht] using horder
          exact (htr.answers hknown hrep' hL (hreq.range.2.2 ht)).activeBankOffices
      | shutdown ht hs =>
          obtain rfl : Order.shutdown = order := by simpa [orderOf, ht] using horder
          exact (hs.answers hknown hrep' ht).activeBankOffices
      | undefined code ht _ => exact absurd ht (hreq.operation code)

/-- One request of the user program with an account id inside the array, on a bank
whose mutexes are free and whose table represents accounts within their limits:
it returns, it answers as the abstract bank does and, except after
`RC_TOO_HIGH`, leaves the accounts that the abstract bank has, again within
their limits. -/
theorem processRequest_refines (hsha : Sha256On sha256sum (hashInputs passwords salts))
    (hlen : ∀ p ∈ passwords, p.length ≤ maxPasswordLen) {rand : ℕ → ℕ}
    (hsalt : generateSalt rand ∈ salts) (hreq : Ordered passwords req) {b : Bank ι}
    (hfree : b.Unlocked)
    (hrep : Represents sha256sum passwords salts b.bankAccounts L) (hL : L.Within bankLimits)
    (me : ι) (reply : TlvReply) :
    ∃ order w', orderOf req = some order ∧
      processRequest sha256sum me (generateSalt rand) req ⟨b, reply⟩ = .ok ((), w') ∧
      Answers sha256sum passwords salts L req order w' ∧
      (L.after bankLimits req.headerId req.value.header.password order).Within bankLimits := by
  obtain ⟨order, horder, hwithin⟩ := hreq.exists_order
  obtain ⟨w', hw⟩ := processRequest_returns sha256sum me (generateSalt rand) req
    (InUserRange.inArray hreq.range)
    (by exact hfree : (World.mk b reply).bank.Unlocked)
  have hexit := ((processRequest_eq_ok sha256sum me (generateSalt rand) req).mp hw).2.2
  exact ⟨order, w', horder, hw, hexit.answers hrep hL hsha hlen hsalt hreq horder,
    hL.after hwithin⟩

end Representation

section Runs

variable {n : ℕ} {sha256sum : CString → CString} {passwords salts : Set CString}
  {adminPassword : CString}

/-- The administrator, before any account is created. -/
def openingLedger (adminPassword : CString) : Ledger UInt32 CString :=
  Function.update (fun _ => none) adminAccountId (some ⟨adminPassword, 0⟩)

theorem openingLedger_within : (openingLedger adminPassword).Within bankLimits := by
  intro id h hid
  by_cases hadmin : id = adminAccountId
  · rw [hadmin, openingLedger, Function.update_self] at hid
    obtain rfl := Option.some.inj hid
    exact ⟨fun _ => rfl, fun hne => absurd hadmin hne⟩
  · rw [openingLedger, Function.update_of_ne hadmin] at hid
    cases hid

theorem represents_adminTable (hsha : Sha256On sha256sum (hashInputs passwords salts))
    (hlen : ∀ p ∈ passwords, p.length ≤ maxPasswordLen) {rand : ℕ → ℕ}
    (hsalt : generateSalt rand ∈ salts) (hadmin : adminPassword ∈ passwords) :
    Represents sha256sum passwords salts
      (adminTable sha256sum (generateSalt rand) adminPassword) (openingLedger adminPassword) := by
  have hempty : Represents sha256sum passwords salts (fun _ => none) fun _ => none :=
    ⟨fun _ => .inl ⟨rfl, rfl⟩, fun _ => rfl⟩
  exact hempty.newAccount hsha hlen hsalt hadmin adminAccountId adminAccountBallance

namespace Sample

theorem passwords_length : ∀ p ∈ Sample.passwords, p.length ≤ maxPasswordLen := by
  rintro p (rfl | rfl | rfl) <;> decide

theorem generateSalt_zero : generateSalt (fun _ => 0) = salt := by decide

theorem ordered_create {pid id balance : UInt32}
    (hbalance : 1 ≤ balance.toNat ∧ balance.toNat ≤ 1000000000)
    (hid : 1 ≤ id ∧ id < maxBankAccounts) :
    Ordered Sample.passwords (create pid id balance password₁) :=
  ⟨⟨by change (0 : UInt32) < 4096; decide, fun _ => ⟨hbalance, hid⟩, nofun⟩, nofun, .inl rfl,
    fun _ => .inr (.inl rfl)⟩

theorem ordered_balance (pid : UInt32) : Ordered Sample.passwords (balance pid) :=
  ⟨⟨by change (1 : UInt32) < 4096; decide, nofun, nofun⟩, nofun, .inr (.inl rfl), nofun⟩

end Sample

/-- The administrator creates account 1. -/
theorem processRequest_refines_create : ∃ w',
    processRequest Sample.sha256sum () (generateSalt fun _ => 0)
      (Sample.create 7 1 100 Sample.password₁)
      ⟨Bank.idle (adminTable Sample.sha256sum (generateSalt fun _ => 0) Sample.adminPassword),
        Sample.emptyReply⟩ = .ok ((), w') ∧ w'.reply.retCode = .ok := by
  have hsalt : generateSalt (fun _ => 0) ∈ ({Sample.salt} : Set CString) := Sample.generateSalt_zero
  obtain ⟨order, w', horder, hw, hanswers, -⟩ := processRequest_refines Sample.sha256On
    Sample.passwords_length hsalt
    (show Ordered Sample.passwords (Sample.create 7 1 100 Sample.password₁) from
      Sample.ordered_create (by decide) (by decide))
    (b := Bank.idle _) ⟨fun _ => rfl, rfl⟩
    (represents_adminTable Sample.sha256On Sample.passwords_length hsalt (.inl rfl))
    openingLedger_within () Sample.emptyReply
  obtain rfl := Option.some.inj horder
  exact ⟨w', hw, hanswers.retCode.trans (by decide)⟩

/-- A request that has taken effect, as the abstract bank sees it. -/
def transactionOf (e : Outcome) : Option (Transaction UInt32 CString) :=
  (orderOf e.request).map fun order =>
    ⟨e.request.headerId, e.request.value.header.password, order, e.retCode,
      e.balance.map UInt32.toNat⟩

/-- The abstract bank has had the same transactions and has the accounts that
the table represents. -/
structure Matches (sha256sum : CString → CString) (passwords salts : Set CString)
    (a : List Outcome × Table) (x : List (Transaction UInt32 CString) × Ledger UInt32 CString) :
    Prop where
  history : a.1.map transactionOf = x.1.map some
  table : Represents sha256sum passwords salts a.2 x.2
  within : x.2.Within bankLimits

/-- The balance of a successful balance check, and nothing else, is reported. -/
theorem Answers.reported {L : Ledger UInt32 CString} {req : TlvRequest}
    {order : Order UInt32 CString} {ι : Type} {w' : World ι}
    (h : Answers sha256sum passwords salts L req order w') (horder : orderOf req = some order) :
    (outcomeOf req w'.reply).balance.map UInt32.toNat =
      L.reported req.headerId order w'.reply.retCode := by
  by_cases hb : req.type = .balance ∧ w'.reply.retCode = .ok
  · obtain ⟨ht, hok⟩ := hb
    obtain rfl : Order.balance = order := by simpa [orderOf, ht] using horder
    have hinfo := h.balance (.inl ht) hok
    rw [Ledger.after_of_ok (h.retCode.symm.trans hok)] at hinfo
    simp only [outcomeOf, ht, hok, and_self, if_true, Option.map_some, Ledger.reported]
    exact congrArg some hinfo
  · have hnone : (outcomeOf req w'.reply).balance = none := if_neg hb
    rw [hnone]
    cases order with
    | balance =>
        have ht : req.type = .balance := by
          unfold orderOf at horder
          split at horder <;> simp_all
        have hcode : w'.reply.retCode ≠ .ok := fun hok => hb ⟨ht, hok⟩
        cases hrc : w'.reply.retCode <;> first | rfl | exact absurd hrc hcode
    | _ => rfl

/-- A serial step that does not end in `RC_TOO_HIGH` is a step of the abstract bank. -/
theorem ledger_simulation (hsha : Sha256On sha256sum (hashInputs passwords salts))
    (hlen : ∀ p ∈ passwords, p.length ≤ maxPasswordLen)
    (hsalts : ∀ salt ∈ salts, ∃ rand, salt = generateSalt rand) {rand : ℕ → ℕ}
    (hsalt : generateSalt rand ∈ salts) (hadmin : adminPassword ∈ passwords) :
    LTS.Simulation
      ((serialBankOn sha256sum (Ordered passwords) salts
        (adminTable sha256sum (generateSalt rand) adminPassword)).guard
          fun _ e => e.retCode ≠ .tooHigh)
      (ledgerBank bankLimits (openingLedger adminPassword))
      (Matches sha256sum passwords salts) where
  init a ha := by
    rw [show a = _ from ha]
    exact ⟨([], openingLedger adminPassword), rfl, rfl,
      represents_adminTable hsha hlen hsalt hadmin, openingLedger_within⟩
  step a e a' x _ hs hx := by
    obtain ⟨⟨hreq, ⟨salt, hin, reply, w', hw, he, htable⟩, hlist⟩, hlow⟩ := hs
    obtain ⟨rand', rfl⟩ := hsalts salt hin
    have hfree : (Bank.idle a.2 : Bank Unit).Unlocked := ⟨fun _ => rfl, rfl⟩
    obtain ⟨order, w'', horder, hw', hanswers, hwithin⟩ :=
      processRequest_refines hsha hlen hin hreq hfree hx.table hx.within () reply
    obtain rfl : w'' = w' := congrArg Prod.snd (Except.ok.inj (hw'.symm.trans hw))
    have hcode : e.retCode = w''.reply.retCode := by rw [← he]; rfl
    have hbalance := hanswers.reported horder
    rw [he, ← hcode] at hbalance
    refine .inr ⟨⟨e.request.headerId, e.request.value.header.password, order, e.retCode,
      e.balance.map UInt32.toNat⟩, (x.1 ++ [_], _),
      ⟨hcode.trans hanswers.retCode, hbalance, rfl⟩, ?_, ?_, hwithin⟩
    · rw [hlist, List.map_append, List.map_append, hx.history, List.map_singleton,
        List.map_singleton, transactionOf, horder]
      rfl
    · rw [← htable]
      exact hanswers.table fun h => hlow (hcode.trans h)

/-- The offices refine the abstract bank. In every run on requests of the user
program with ids inside the array in which creations of one id do not overlap:
at any two points at which no transfer is between its first and its last access
and up to which none has ended in `RC_TOO_HIGH`, the requests that have taken
effect are the transactions of an abstract bank whose accounts the table
represents, and the history at the later point continues the one at the earlier
point. -/
theorem offices_refine_ledger (hsha : Sha256On sha256sum (hashInputs passwords salts))
    (hlen : ∀ p ∈ passwords, p.length ≤ maxPasswordLen)
    (hsalts : ∀ salt ∈ salts, ∃ rand, salt = generateSalt rand) {rand : ℕ → ℕ}
    (hsalt : generateSalt rand ∈ salts) (hadmin : adminPassword ∈ passwords) {s s' : System n}
    (h : (saltedRuns sha256sum (Ordered passwords) salts
      (adminTable sha256sum (generateSalt rand) adminPassword) n).Reachable s)
    (hr : (saltedRuns sha256sum (Ordered passwords) salts
      (adminTable sha256sum (generateSalt rand) adminPassword) n).Reaches s s')
    (hquiet : ∀ i, ¬ (s.pc i).accessing) (hquiet' : ∀ i, ¬ (s'.pc i).accessing)
    (hlow : ∀ e ∈ s'.effects, e.retCode ≠ .tooHigh) :
    ∃ history rest L L',
      ((history.map some : List (Option (Transaction UInt32 CString))) : Multiset _) =
        s.effects.map transactionOf ∧
      (((history ++ rest).map some : List (Option (Transaction UInt32 CString))) : Multiset _) =
        s'.effects.map transactionOf ∧
      (ledgerBank bankLimits (openingLedger adminPassword)).Reachable (history, L) ∧
      (ledgerBank bankLimits (openingLedger adminPassword)).Reaches (history, L)
        (history ++ rest, L') ∧
      Represents sha256sum passwords salts s.table L ∧
      Represents sha256sum passwords salts s'.table L' := by
  have hin : ∀ req, Ordered passwords req → req.InArray := fun _ hreq => hreq.range.inArray
  have sim := ledger_simulation hsha hlen hsalts hsalt hadmin
  obtain ⟨⟨order, t⟩, hserial, horder, hl⟩ := (effect_simulation hin).reachable h
  obtain ⟨⟨order', t'⟩, hreaches, horder', hl'⟩ :=
    (effect_simulation hin).reaches h hr ⟨horder, hl⟩
  have hlow' : ∀ e ∈ order', e.retCode ≠ .tooHigh := fun e he =>
    hlow e (horder' ▸ Multiset.mem_coe.mpr he)
  have hlow : ∀ e ∈ order, e.retCode ≠ .tooHigh := fun e he =>
    hlow' e ((serialBankOn_extends hreaches).subset he)
  have hguarded := serialBankOn_guard hserial hlow
  obtain ⟨⟨history, L⟩, hledger, hmatch⟩ := sim.reachable hguarded
  obtain ⟨⟨history', L'⟩, hledger', hmatch'⟩ :=
    sim.reaches hguarded (serialBankOn_guard_reaches hreaches hlow') hmatch
  obtain ⟨rest, rfl⟩ := ledgerBank_extends hledger'
  refine ⟨history, rest, L, L', ?_, ?_, hledger, hledger', ?_, ?_⟩
  · rw [← horder, Multiset.map_coe]
    exact congrArg _ hmatch.history.symm
  · rw [← horder', Multiset.map_coe]
    exact congrArg _ hmatch'.history.symm
  · exact hl.table_eq hquiet ▸ hmatch.table
  · exact hl'.table_eq hquiet' ▸ hmatch'.table

/-- The owner of account 1 checks the balance while account 2 is created. -/
theorem offices_refine_ledger_two : ∃ (s : System 2) (L : Ledger UInt32 CString),
    (saltedRuns Sample.sha256sum (Ordered Sample.passwords) {Sample.salt}
      (adminTable Sample.sha256sum (generateSalt fun _ => 0) Sample.adminPassword) 2).Reachable s ∧
    s.effects = {⟨Sample.create 7 1 100 Sample.password₁, .ok, none⟩,
      ⟨Sample.create 8 2 200 Sample.password₁, .ok, none⟩, ⟨Sample.balance 9, .ok, some 100⟩} ∧
    Represents Sample.sha256sum Sample.passwords {Sample.salt} s.table L := by
  have hsalt : generateSalt (fun _ => 0) ∈ ({Sample.salt} : Set CString) := Sample.generateSalt_zero
  have hordered : ∀ req ∈ [Sample.create 7 1 100 Sample.password₁,
      Sample.create 8 2 200 Sample.password₁, Sample.balance 9],
      Ordered Sample.passwords req := by
    intro req hreq
    simp only [List.mem_cons, List.not_mem_nil, or_false] at hreq
    rcases hreq with rfl | rfl | rfl
    · exact Sample.ordered_create (by decide) (by decide)
    · exact Sample.ordered_create (by decide) (by decide)
    · exact Sample.ordered_balance 9
  obtain ⟨s, hs, hf⟩ : ∃ s : System 2,
      (saltedRuns Sample.sha256sum (Ordered Sample.passwords) {Sample.salt}
        (adminTable Sample.sha256sum (generateSalt fun _ => 0)
          Sample.adminPassword) 2).Reachable s ∧
      (decide (∀ i, ¬ (s.pc i).accessing), s.effects) =
        (true, {⟨Sample.create 7 1 100 Sample.password₁, .ok, none⟩,
          ⟨Sample.create 8 2 200 Sample.password₁, .ok, none⟩,
          ⟨Sample.balance 9, .ok, some 100⟩}) :=
    guarded_execute (C := fun s l => !s.creationOverlaps l && decide (l.Draws {Sample.salt}) &&
        l.allowed fun req => req ∈ [Sample.create 7 1 100 Sample.password₁,
          Sample.create 8 2 200 Sample.password₁, Sample.balance 9])
      (fun s l h => by
        simp only [Bool.and_eq_true, Bool.not_eq_true', decide_eq_true_eq] at h
        exact ⟨h.1, fun i req hl => hordered req (Label.ok_of_allowed h.2 i req hl)⟩)
      Sample.emptyReply (Sample.shutdown 0)
      (Sample.serve 0 (Sample.create 7 1 100 Sample.password₁) 19 ++
        Sample.serve 0 (Sample.create 8 2 200 Sample.password₁) 9 ++
        Sample.serve 1 (Sample.balance 9) 19 ++ Sample.steps 0 10)
      (by decide +kernel)
  obtain ⟨hquiet, heffects⟩ := Prod.mk.inj hf
  have hquiet := of_decide_eq_true hquiet
  have hlow : ∀ e ∈ s.effects, e.retCode ≠ .tooHigh := by
    rw [heffects]
    decide +kernel
  obtain ⟨-, -, L, -, -, -, -, -, hrep, -⟩ := offices_refine_ledger Sample.sha256On
    Sample.passwords_length (by rintro _ rfl; exact ⟨_, Sample.generateSalt_zero.symm⟩) hsalt
    (.inl rfl) hs Relation.ReflTransGen.refl hquiet hquiet hlow
  exact ⟨s, L, hs, heffects, hrep⟩

end Runs

end HomeBanking
