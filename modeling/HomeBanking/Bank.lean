import HomeBanking.Types

/-!
# The bank and the operations of one office

The state shared by all bank offices and the functions of `server.c` that
process one request, in the order of the source. A call reads and writes the
shared state and the office's reply; it has no result when it never returns:
it waits for a mutex that is taken, or it leaves the memory it may access.

## Implementation notes

Log lines and delays change no state of the bank and are left out. The salt
drawn by `generateSalt` is an argument, and so is the digest program that
`generateHash` runs as a coprocess and that is taken to answer. The counter
`activeBankOffices` is an integer; the `int` of the source leaves its range only
after 2^31 failed logins.
-/

namespace HomeBanking

/-- `bankAccounts`: one entry for each id, `none` for a NULL pointer. -/
abbrev Table := UInt32 → Option BankAccount

/-- What the bank offices share. `mutex` and `activeMutex` record the office
that holds the lock. -/
structure Bank (ι : Type) where
  bankAccounts : Table
  mutex : UInt32 → Option ι
  activeMutex : Option ι
  activeBankOffices : ℤ
  serverDown : Bool
  fifoReadOnly : Bool

/-- The shared state together with the reply of the calling office. -/
structure World (ι : Type) where
  bank : Bank ι
  reply : TlvReply

/-- Why a call never returns. -/
inductive Halt
  | blocked (id : UInt32)
  | activeBlocked
  | nullDeref (id : UInt32)
  | outOfBounds (id : UInt32)
  deriving DecidableEq, Repr

abbrev BankM (ι : Type) := StateT (World ι) (Except Halt)

/-- The first token of `strtok(s, " ")`. -/
def firstToken (s : CString) : CString := (s.dropWhile (· = 32)).takeWhile (· ≠ 32)

/-- One read of at most `HASH_LEN` bytes of the digest, cut at the first blank. -/
def generateHash (sha256sum : CString → CString) (input : CString) : CString :=
  firstToken ((sha256sum input).take hashLen)

/-- The `snprintf` of `createBankAccount`, which keeps `HASH_LEN + MAX_PASSWORD_LEN` bytes. -/
def createHashInput (password salt : CString) : CString :=
  (password ++ salt).take (hashLen + maxPasswordLen)

/-- The entry that `createBankAccount` publishes. -/
def newAccount (sha256sum : CString → CString) (salt : CString) (id balance : UInt32)
    (password : CString) : BankAccount where
  accountId := id
  hash := generateHash sha256sum (createHashInput password salt)
  salt := salt
  balance := balance

@[simp] theorem newAccount_accountId (sha256sum : CString → CString) (salt : CString)
    (id balance : UInt32) (password : CString) :
    (newAccount sha256sum salt id balance password).accountId = id := rfl
@[simp] theorem newAccount_balance (sha256sum : CString → CString) (salt : CString)
    (id balance : UInt32) (password : CString) :
    (newAccount sha256sum salt id balance password).balance = balance := rfl

/-- The comparison of `validateLogin`: the given password hashes to the stored digest. -/
def passwordMatches (sha256sum : CString → CString) (password : CString)
    (account : BankAccount) : Bool :=
  generateHash sha256sum (password ++ account.salt) = account.hash

/-- `int newBalance = balance + amount`, in 32-bit arithmetic. -/
def addedBalance (balance amount : UInt32) : Int32 :=
  (balance + amount.toInt32.toUInt32).toInt32

/-- `int newBalance = balance - amount`, in 32-bit arithmetic. -/
def subtractedBalance (balance amount : UInt32) : Int32 :=
  (balance - amount.toInt32.toUInt32).toInt32

/-- The test of `lockAccountsTranfer`: both ids are compared as `int`. -/
def subtractsFirst (subtractId addId : UInt32) : Bool := subtractId.toInt32 < addId.toInt32

variable {ι : Type}

namespace Bank

def setMutex (b : Bank ι) (id : UInt32) (owner : Option ι) : Bank ι :=
  { b with mutex := Function.update b.mutex id owner }

def setAccount (b : Bank ι) (id : UInt32) (account : BankAccount) : Bank ι :=
  { b with bankAccounts := Function.update b.bankAccounts id (some account) }

/-- Store a new balance in an existing entry. -/
def setBalance (b : Bank ι) (id : UInt32) (balance : UInt32) : Bank ι :=
  let stored := (b.bankAccounts id).map fun a => { a with balance := balance }
  { b with bankAccounts := Function.update b.bankAccounts id stored }

end Bank

def modifyBank (f : Bank ι → Bank ι) : BankM ι Unit := fun w =>
  .ok ((), { w with bank := f w.bank })

def modifyReply (f : TlvReply → TlvReply) : BankM ι Unit := fun w =>
  .ok ((), { w with reply := f w.reply })

/-- Read `bankAccounts[id]`. -/
def entry (id : UInt32) : BankM ι (Option BankAccount) := fun w =>
  if id < maxBankAccounts then .ok (w.bank.bankAccounts id, w) else .error (.outOfBounds id)

/-- Dereference `bankAccounts[id]`. -/
def account (id : UInt32) : BankM ι BankAccount := fun w =>
  if id < maxBankAccounts then
    match w.bank.bankAccounts id with
    | some a => .ok (a, w)
    | none => .error (.nullDeref id)
  else .error (.outOfBounds id)

def bankAccountLock (me : ι) (id : UInt32) : BankM ι Unit := fun w =>
  if id < maxBankAccounts then
    match w.bank.mutex id with
    | none => .ok ((), { w with bank := w.bank.setMutex id (some me) })
    | some _ => .error (.blocked id)
  else .error (.outOfBounds id)

def bankAccountUnlock (id : UInt32) : BankM ι Unit := fun w =>
  if id < maxBankAccounts then .ok ((), { w with bank := w.bank.setMutex id none })
  else .error (.outOfBounds id)

def activeOfficesLock (me : ι) : BankM ι Unit := fun w =>
  match w.bank.activeMutex with
  | none => .ok ((), { w with bank.activeMutex := some me })
  | some _ => .error .activeBlocked

def activeOfficesUnlock : BankM ι Unit := modifyBank fun b => { b with activeMutex := none }

def accountExists (id : UInt32) : BankM ι Bool := do
  return (← entry id).isSome

variable (sha256sum : CString → CString) (me : ι) (salt : CString) (req : TlvRequest)

def createBankAccount (id balance : UInt32) (password : CString) : BankM ι Unit := do
  if id < maxBankAccounts then
    modifyBank fun b => b.setAccount id (newAccount sha256sum salt id balance password)
  else throw (.outOfBounds id)

def validateLogin : BankM ι Bool := do
  let id := req.headerId
  if !(← accountExists id) then return false
  return passwordMatches sha256sum req.value.header.password (← account id)

def checkBalance : BankM ι UInt32 := do
  return (← account req.headerId).balance

def addBalance : BankM ι ℤ := do
  let id := req.transferId
  let newBalance := addedBalance (← account id).balance req.amount
  if maxBalance < newBalance then return -1
  modifyBank fun b => b.setBalance id newBalance.toUInt32
  return 0

def subtractBalance : BankM ι ℤ := do
  let id := req.headerId
  let newBalance := subtractedBalance (← account id).balance req.amount
  if newBalance < minBalance then return -1
  modifyBank fun b => b.setBalance id newBalance.toUInt32
  return 0

def lockAccount (id : UInt32) : BankM ι Unit := bankAccountLock me id

def lockAccountsTranfer : BankM ι Unit := do
  let subtractId := req.headerId
  let addId := req.transferId
  if subtractsFirst subtractId addId then
    lockAccount me subtractId
    lockAccount me addId
  else
    lockAccount me addId
    lockAccount me subtractId

def unlockAccountsTranfer : BankM ι Unit := do
  let subtractId := req.headerId
  let addId := req.transferId
  bankAccountUnlock subtractId
  bankAccountUnlock addId

/-- Both error exits return with the two mutexes still locked. -/
def transference : BankM ι ℤ := do
  lockAccountsTranfer me req
  if (← subtractBalance req) < 0 then
    modifyReply fun r => r.setRetCode .noFunds
    return -1
  if (← addBalance req) < 0 then
    modifyReply fun r => r.setRetCode .tooHigh
    return -1
  unlockAccountsTranfer req
  return 0

def checkAdminOperation : Bool := req.headerId = 0

def validateCreateAccount : BankM ι ℤ := do
  modifyReply fun r => r.setRetCode .ok
  if !checkAdminOperation req then
    modifyReply fun r => r.setRetCode .opNAllow
    return -1
  if ← accountExists req.createId then
    modifyReply fun r => r.setRetCode .idInUse
    return -2
  return 0

def validateOPBalance : BankM ι ℤ := do
  modifyReply fun r => r.setRetCode .ok
  if checkAdminOperation req then
    modifyReply fun r => r.setRetCode .opNAllow
    return -1
  return 0

def validateOPTransfer : BankM ι ℤ := do
  modifyReply fun r => r.setRetCode .ok
  if checkAdminOperation req then
    modifyReply fun r => r.setRetCode .opNAllow
    return -1
  if !(← accountExists req.transferId) then
    modifyReply fun r => r.setRetCode .idNotFound
    return -2
  if req.transferId = req.headerId then
    modifyReply fun r => r.setRetCode .sameId
    return -3
  return 0

def validateShutDown : BankM ι ℤ := do
  modifyReply fun r => r.setRetCode .ok
  if !checkAdminOperation req then
    modifyReply fun r => r.setRetCode .opNAllow
    return -1
  return 0

def opCreateAccount : BankM ι Unit := do
  if (← validateCreateAccount req) ≠ 0 then return
  let create := req.value.create
  lockAccount me create.accountId
  createBankAccount sha256sum salt create.accountId create.balance create.password
  bankAccountUnlock create.accountId
  modifyReply fun r => r.setAccountId req.headerId

def opBalance : BankM ι Unit := do
  if (← validateOPBalance req) ≠ 0 then return
  modifyReply fun r => r.setAccountId req.headerId
  lockAccount me req.headerId
  let balance ← checkBalance req
  modifyReply fun r => r.setInfo balance
  bankAccountUnlock req.headerId
  modifyReply fun r => r.addInfo

/-- What `OPTransfer` stores in the reply before the validation. -/
def transferReply (r : TlvReply) : TlvReply :=
  (r.addInfo.setAccountId req.headerId).setInfo req.amount

def opTransfer : BankM ι Unit := do
  modifyReply fun r => r.addInfo
  let id := req.headerId
  modifyReply fun r => r.setAccountId id
  modifyReply fun r => r.setInfo req.amount
  if (← validateOPTransfer req) ≠ 0 then return
  if (← transference me req) = 0 then
    let balance := (← account id).balance
    modifyReply fun r => r.setInfo balance

def opShutDown : BankM ι Unit := do
  if (← validateShutDown req) ≠ 0 then return
  modifyReply fun r => r.setAccountId req.headerId
  modifyBank fun b => { b with fifoReadOnly := true }
  let active := (← get).bank.activeBankOffices
  modifyReply fun r => r.setInfo (UInt32.ofInt (active - 1))
  modifyReply fun r => r.addInfo
  modifyBank fun b => { b with serverDown := true }

def loginClient : BankM ι ℤ := do
  if !(← validateLogin sha256sum req) then
    modifyReply fun r => r.setRetCode .loginFail
    return -1
  return 0

/-- The switch of `processRequest`. -/
def operation : BankM ι Unit :=
  match req.type with
  | .createAccount => opCreateAccount sha256sum me salt req
  | .balance => opBalance me req
  | .transfer => opTransfer me req
  | .shutdown => opShutDown req
  | .undefined _ => pure ()

/-- A failed login returns before the counter is decremented. -/
def processRequest : BankM ι Unit := do
  activeOfficesLock me
  modifyBank fun b => { b with activeBankOffices := b.activeBankOffices + 1 }
  activeOfficesUnlock
  modifyReply fun r => r.start req.type
  if (← loginClient sha256sum req) < 0 then return
  operation sha256sum me salt req
  activeOfficesLock me
  modifyBank fun b => { b with activeBankOffices := b.activeBankOffices - 1 }
  activeOfficesUnlock

/-- The table that `initServer` and `createAdminAccount` leave. -/
def adminTable (adminPassword : CString) : Table :=
  Function.update (fun _ => none) adminAccountId
    (some (newAccount sha256sum salt adminAccountId adminAccountBallance adminPassword))

/-- A bank with the given accounts, no mutex taken and no office active. -/
def Bank.idle (t : Table) : Bank ι where
  bankAccounts := t
  mutex := fun _ => none
  activeMutex := none
  activeBankOffices := 0
  serverDown := false
  fifoReadOnly := false

end HomeBanking
