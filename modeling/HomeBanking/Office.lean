import HomeBanking.Bank

/-!
# One bank office, step by step

The loop body of `runBankOffice` after the request has been taken: one
`processRequest` and one `sendReply`. A step makes at most one access to the
state the offices share and runs the office's own code up to the next one, so
a value that the code keeps in a local variable across accesses is stored in
the program point. The request is read again at every step that reads it.

## Implementation notes

`officeStep` computes the step, `OfficeStep` lists its branches for the case
analyses of the proofs. A step that leaves the account array or follows a NULL
entry ends at `fault`; a mutex that is taken blocks in `Bank.apply`. Nothing
else blocks: the coprocess of `generateHash` is taken to answer and the open and
the write of the reply FIFO to return, although two offices that fork at the
same time can keep each other's pipes open, `open` waits for a client that reads,
and a `write` to a client that has left ends the server.
-/

namespace HomeBanking

/-- The two updates of `activeBankOffices` in `processRequest`. -/
inductive Count
  | enter
  | leave
  deriving DecidableEq, Repr

def Count.apply : Count → ℤ → ℤ
  | .enter, v => v + 1
  | .leave, v => v - 1

/-- The next step of an office. -/
inductive Pc
  | idle
  | activeLock (c : Count)
  | activeLoad (c : Count)
  | activeStore (c : Count) (value : ℤ)
  | activeUnlock (c : Count)
  | login
  | loginHash (id : UInt32)
  | loginCompare (id : UInt32) (hash : CString)
  | dispatch
  | createCheck
  | createLock (create : ReqCreateAccount)
  | createWrite (create : ReqCreateAccount)
  | createUnlock (create : ReqCreateAccount)
  | balanceCheck
  | balanceLock (id : UInt32)
  | balanceRead
  | balanceUnlock
  | transferCheck
  | transferLock₁ (id addId : UInt32)
  | transferLock₂ (id addId : UInt32)
  | subtractRead (id : UInt32)
  | subtractWrite (id subtractId : UInt32) (newBalance : Int32)
  | addRead (id : UInt32)
  | addWrite (id addId : UInt32) (newBalance : Int32)
  | transferUnlock₁ (id : UInt32)
  | transferUnlock₂ (id addId : UInt32)
  | transferReport (id : UInt32)
  | shutdownCheck
  | shutdownChmod
  | shutdownCount
  | shutdownSet
  | ret
  | replyOpen
  | replyWrite (pid : Option UInt32)
  | fault
  deriving DecidableEq, Repr

/-- An office between two steps. -/
structure Office where
  pc : Pc
  reply : TlvReply
  deriving DecidableEq, Repr

/-- What a step does to the shared state, or shows to the outside. -/
inductive Action
  | skip
  | lock (id : UInt32)
  | unlock (id : UInt32)
  | setBalance (id balance : UInt32)
  | setAccount (id : UInt32) (account : BankAccount)
  | lockActive
  | unlockActive
  | setActive (value : ℤ)
  | chmod
  | setServerDown
  | refuse (rc : RetCode)
  | returned (req : TlvRequest) (reply : TlvReply)
  | sent (pid : UInt32) (req : TlvRequest) (reply : TlvReply)
  deriving DecidableEq, Repr

/-- What a step takes from outside: the salt drawn by `generateSalt`, and
whether the reply FIFO can be opened. -/
structure Choice where
  salt : CString
  fifoOpens : Bool

/-- The effect of an action of the office `me`; no result when it has to wait. -/
def Bank.apply {ι : Type} (b : Bank ι) (me : ι) : Action → Option (Bank ι)
  | .skip | .refuse _ | .returned .. | .sent .. => some b
  | .lock id => if (b.mutex id).isNone then some (b.setMutex id (some me)) else none
  | .unlock id => some (b.setMutex id none)
  | .setBalance id x => some (b.setBalance id x)
  | .setAccount id a => some (b.setAccount id a)
  | .lockActive => if b.activeMutex.isNone then some { b with activeMutex := some me } else none
  | .unlockActive => some { b with activeMutex := none }
  | .setActive v => some { b with activeBankOffices := v }
  | .chmod => some { b with fifoReadOnly := true }
  | .setServerDown => some { b with serverDown := true }

namespace Office

def goto (o : Office) (pc : Pc) : Office := { o with pc := pc }

/-- Store an error code and go on. -/
def refuse (o : Office) (rc : RetCode) (pc : Pc) : Action × Office :=
  (.refuse rc, ⟨pc, o.reply.setRetCode rc⟩)

/-- Read `bankAccounts[id]`. -/
def withEntry (o : Office) (t : Table) (id : UInt32)
    (k : Option BankAccount → Action × Office) : Action × Office :=
  if id < maxBankAccounts then k (t id) else (.skip, o.goto .fault)

/-- Dereference `bankAccounts[id]`. -/
def withAccount (o : Office) (t : Table) (id : UInt32) (k : BankAccount → Action × Office) :
    Action × Office :=
  o.withEntry t id fun e => e.elim (.skip, o.goto .fault) k

/-- Access `bankAccounts_mutex[id]`. -/
def withMutex (o : Office) (id : UInt32) (k : Action × Office) : Action × Office :=
  if id < maxBankAccounts then k else (.skip, o.goto .fault)

end Office

/-- Where the switch of `processRequest` goes. -/
def operationPc : OpType → Pc
  | .createAccount => .createCheck
  | .balance => .balanceCheck
  | .transfer => .transferCheck
  | .shutdown => .shutdownCheck
  | .undefined _ => .activeLock .leave

/-- The mutex that `lockAccountsTranfer` takes first. -/
def firstLock (subtractId addId : UInt32) : UInt32 :=
  if subtractsFirst subtractId addId then subtractId else addId

/-- The mutex that `lockAccountsTranfer` takes second. -/
def secondLock (subtractId addId : UInt32) : UInt32 :=
  if subtractsFirst subtractId addId then addId else subtractId

/-- `validateCreateAccount`, up to the lock. -/
def validateCreate (req : TlvRequest) (t : Table) (o : Office) : Action × Office :=
  if req.headerId ≠ 0 then o.refuse .opNAllow (.activeLock .leave)
  else o.withEntry t req.createId fun
    | some _ => o.refuse .idInUse (.activeLock .leave)
    | none => (.skip, ⟨.createLock req.value.create, o.reply.setRetCode .ok⟩)

/-- `validateOPBalance`, up to the lock. -/
def validateBalance (req : TlvRequest) (o : Office) : Action × Office :=
  if req.headerId = 0 then o.refuse .opNAllow (.activeLock .leave)
  else (.skip, ⟨.balanceLock req.headerId,
    (o.reply.setRetCode .ok).setAccountId req.headerId⟩)

/-- `OPTransfer` up to the first lock of `lockAccountsTranfer`. -/
def validateTransfer (req : TlvRequest) (t : Table) (o : Office) : Action × Office :=
  let o : Office := ⟨o.pc, transferReply req o.reply⟩
  if req.headerId = 0 then o.refuse .opNAllow (.activeLock .leave)
  else o.withEntry t req.transferId fun
    | none => o.refuse .idNotFound (.activeLock .leave)
    | some _ =>
      if req.transferId = req.headerId then o.refuse .sameId (.activeLock .leave)
      else (.skip, ⟨.transferLock₁ req.headerId req.transferId, o.reply.setRetCode .ok⟩)

/-- `subtractBalance` up to its write. -/
def subtractFrom (req : TlvRequest) (id : UInt32) (o : Office) (a : BankAccount) :
    Action × Office :=
  let newBalance := subtractedBalance a.balance req.amount
  if newBalance < minBalance then o.refuse .noFunds (.activeLock .leave)
  else (.skip, o.goto (.subtractWrite id req.headerId newBalance))

/-- `addBalance` up to its write. -/
def addTo (req : TlvRequest) (id : UInt32) (o : Office) (a : BankAccount) : Action × Office :=
  let newBalance := addedBalance a.balance req.amount
  if maxBalance < newBalance then o.refuse .tooHigh (.activeLock .leave)
  else (.skip, o.goto (.addWrite id req.transferId newBalance))

section Step

variable {ι : Type} (sha256sum : CString → CString) (choice : Choice) (req : TlvRequest)
  (b : Bank ι)

/-- The step of an office on the request `req`; an idle office waits for one. -/
def officeStep (o : Office) : Option (Action × Office) :=
  match o.pc with
  | .idle | .fault => none
  | .activeLock c => some (.lockActive, o.goto (.activeLoad c))
  | .activeLoad c => some (.skip, o.goto (.activeStore c b.activeBankOffices))
  | .activeStore c v => some (.setActive (c.apply v), o.goto (.activeUnlock c))
  | .activeUnlock .enter => some (.unlockActive, ⟨.login, o.reply.start req.type⟩)
  | .activeUnlock .leave => some (.unlockActive, o.goto .ret)
  | .login => some (o.withEntry b.bankAccounts req.headerId fun
      | none => o.refuse .loginFail .ret
      | some _ => (.skip, o.goto (.loginHash req.headerId)))
  | .loginHash id => some (o.withAccount b.bankAccounts id fun a =>
      (.skip, o.goto (.loginCompare id
        (generateHash sha256sum (req.value.header.password ++ a.salt)))))
  | .loginCompare id hash => some (o.withAccount b.bankAccounts id fun a =>
      if hash = a.hash then (.skip, o.goto .dispatch) else o.refuse .loginFail .ret)
  | .dispatch => some (.skip, o.goto (operationPc req.type))
  | .createCheck => some (validateCreate req b.bankAccounts o)
  | .createLock c => some (o.withMutex c.accountId
      (.lock c.accountId, o.goto (.createWrite c)))
  | .createWrite c => some (o.withMutex c.accountId
      (.setAccount c.accountId
        (newAccount sha256sum choice.salt c.accountId c.balance c.password),
        o.goto (.createUnlock c)))
  | .createUnlock c => some (o.withMutex c.accountId
      (.unlock c.accountId, ⟨.activeLock .leave, o.reply.setAccountId req.headerId⟩))
  | .balanceCheck => some (validateBalance req o)
  | .balanceLock id => some (o.withMutex id (.lock id, o.goto .balanceRead))
  | .balanceRead => some (o.withAccount b.bankAccounts req.headerId fun a =>
      (.skip, ⟨.balanceUnlock, o.reply.setInfo a.balance⟩))
  | .balanceUnlock => some (o.withMutex req.headerId
      (.unlock req.headerId, ⟨.activeLock .leave, o.reply.addInfo⟩))
  | .transferCheck => some (validateTransfer req b.bankAccounts o)
  | .transferLock₁ id addId => some (o.withMutex (firstLock id addId)
      (.lock (firstLock id addId), o.goto (.transferLock₂ id addId)))
  | .transferLock₂ id addId => some (o.withMutex (secondLock id addId)
      (.lock (secondLock id addId), o.goto (.subtractRead id)))
  | .subtractRead id => some (o.withAccount b.bankAccounts req.headerId (subtractFrom req id o))
  | .subtractWrite id subtractId newBalance =>
      some (o.withAccount b.bankAccounts subtractId fun _ =>
        (.setBalance subtractId newBalance.toUInt32, o.goto (.addRead id)))
  | .addRead id => some (o.withAccount b.bankAccounts req.transferId (addTo req id o))
  | .addWrite id addId newBalance => some (o.withAccount b.bankAccounts addId fun _ =>
      (.setBalance addId newBalance.toUInt32, o.goto (.transferUnlock₁ id)))
  | .transferUnlock₁ id => some (o.withMutex req.headerId
      (.unlock req.headerId, o.goto (.transferUnlock₂ id req.transferId)))
  | .transferUnlock₂ id addId => some (o.withMutex addId
      (.unlock addId, o.goto (.transferReport id)))
  | .transferReport id => some (o.withAccount b.bankAccounts id fun a =>
      (.skip, ⟨.activeLock .leave, o.reply.setInfo a.balance⟩))
  | .shutdownCheck => some
      (if req.headerId ≠ 0 then
        ⟨.refuse .opNAllow, ⟨.activeLock .leave, o.reply.setRetCode .opNAllow⟩⟩
      else (.skip, ⟨.shutdownChmod, (o.reply.setRetCode .ok).setAccountId req.headerId⟩))
  | .shutdownChmod => some (.chmod, o.goto .shutdownCount)
  | .shutdownCount => some (.skip, ⟨.shutdownSet,
      (o.reply.setInfo (UInt32.ofInt (b.activeBankOffices - 1))).addInfo⟩)
  | .shutdownSet => some (.setServerDown, o.goto (.activeLock .leave))
  | .ret => some (.returned req o.reply, o.goto .replyOpen)
  | .replyOpen => some (.skip,
      if choice.fifoOpens then o.goto (.replyWrite (some req.value.header.pid))
      else ⟨.replyWrite none, o.reply.setRetCode .usrDown⟩)
  | .replyWrite none => some (.skip, o.goto .idle)
  | .replyWrite (some pid) => some (.sent pid req o.reply, o.goto .idle)

/-- The steps at which an office leaves the memory it may access: an id
outside the array, or an entry that is NULL. -/
def Faults (t : Table) : Pc → Prop
  | .login => ¬ req.headerId < maxBankAccounts
  | .loginHash id | .loginCompare id _ | .subtractWrite _ id _ | .addWrite _ id _
  | .transferReport id => ¬ (id < maxBankAccounts ∧ (t id).isSome)
  | .createCheck => req.headerId = 0 ∧ ¬ req.createId < maxBankAccounts
  | .createLock c | .createWrite c | .createUnlock c => ¬ c.accountId < maxBankAccounts
  | .balanceLock id | .transferUnlock₂ _ id => ¬ id < maxBankAccounts
  | .balanceRead | .subtractRead _ =>
      ¬ (req.headerId < maxBankAccounts ∧ (t req.headerId).isSome)
  | .balanceUnlock | .transferUnlock₁ _ => ¬ req.headerId < maxBankAccounts
  | .transferCheck => req.headerId ≠ 0 ∧ ¬ req.transferId < maxBankAccounts
  | .transferLock₁ id addId => ¬ firstLock id addId < maxBankAccounts
  | .transferLock₂ id addId => ¬ secondLock id addId < maxBankAccounts
  | .addRead _ => ¬ (req.transferId < maxBankAccounts ∧ (t req.transferId).isSome)
  | _ => False

/-- The branches of `officeStep`. -/
inductive OfficeStep : Office → Action → Office → Prop
  | activeLock (c r) : OfficeStep ⟨.activeLock c, r⟩ .lockActive ⟨.activeLoad c, r⟩
  | activeLoad (c r) :
      OfficeStep ⟨.activeLoad c, r⟩ .skip ⟨.activeStore c b.activeBankOffices, r⟩
  | activeStore (c v r) :
      OfficeStep ⟨.activeStore c v, r⟩ (.setActive (c.apply v)) ⟨.activeUnlock c, r⟩
  | activeEntered (r) :
      OfficeStep ⟨.activeUnlock .enter, r⟩ .unlockActive ⟨.login, r.start req.type⟩
  | activeLeft (r) : OfficeStep ⟨.activeUnlock .leave, r⟩ .unlockActive ⟨.ret, r⟩
  | loginUnknown (r) (hid : req.headerId < maxBankAccounts)
      (hnone : b.bankAccounts req.headerId = none) :
      OfficeStep ⟨.login, r⟩ (.refuse .loginFail) ⟨.ret, r.setRetCode .loginFail⟩
  | login (r a) (hid : req.headerId < maxBankAccounts)
      (ha : b.bankAccounts req.headerId = some a) :
      OfficeStep ⟨.login, r⟩ .skip ⟨.loginHash req.headerId, r⟩
  | loginHash (id r a) (ha : b.bankAccounts id = some a) :
      OfficeStep ⟨.loginHash id, r⟩ .skip
        ⟨.loginCompare id (generateHash sha256sum (req.value.header.password ++ a.salt)), r⟩
  | loginPassed (id hash r a) (ha : b.bankAccounts id = some a) (hhash : hash = a.hash) :
      OfficeStep ⟨.loginCompare id hash, r⟩ .skip ⟨.dispatch, r⟩
  | loginFailed (id hash r a) (ha : b.bankAccounts id = some a) (hhash : hash ≠ a.hash) :
      OfficeStep ⟨.loginCompare id hash, r⟩ (.refuse .loginFail)
        ⟨.ret, r.setRetCode .loginFail⟩
  | dispatch (r) : OfficeStep ⟨.dispatch, r⟩ .skip ⟨operationPc req.type, r⟩
  | createNotAllowed (r) (hadmin : req.headerId ≠ 0) :
      OfficeStep ⟨.createCheck, r⟩ (.refuse .opNAllow)
        ⟨.activeLock .leave, r.setRetCode .opNAllow⟩
  | createInUse (r a) (hadmin : req.headerId = 0) (ha : b.bankAccounts req.createId = some a) :
      OfficeStep ⟨.createCheck, r⟩ (.refuse .idInUse)
        ⟨.activeLock .leave, r.setRetCode .idInUse⟩
  | createCheck (r) (hadmin : req.headerId = 0) (hid : req.createId < maxBankAccounts)
      (hnone : b.bankAccounts req.createId = none) :
      OfficeStep ⟨.createCheck, r⟩ .skip ⟨.createLock req.value.create, r.setRetCode .ok⟩
  | createLock (c r) (hid : c.accountId < maxBankAccounts) :
      OfficeStep ⟨.createLock c, r⟩ (.lock c.accountId) ⟨.createWrite c, r⟩
  | createWrite (c r) (hid : c.accountId < maxBankAccounts) :
      OfficeStep ⟨.createWrite c, r⟩
        (.setAccount c.accountId
          (newAccount sha256sum choice.salt c.accountId c.balance c.password))
        ⟨.createUnlock c, r⟩
  | createUnlock (c r) :
      OfficeStep ⟨.createUnlock c, r⟩ (.unlock c.accountId)
        ⟨.activeLock .leave, r.setAccountId req.headerId⟩
  | balanceNotAllowed (r) (hadmin : req.headerId = 0) :
      OfficeStep ⟨.balanceCheck, r⟩ (.refuse .opNAllow)
        ⟨.activeLock .leave, r.setRetCode .opNAllow⟩
  | balanceCheck (r) (hadmin : req.headerId ≠ 0) :
      OfficeStep ⟨.balanceCheck, r⟩ .skip
        ⟨.balanceLock req.headerId, (r.setRetCode .ok).setAccountId req.headerId⟩
  | balanceLock (id r) (hid : id < maxBankAccounts) :
      OfficeStep ⟨.balanceLock id, r⟩ (.lock id) ⟨.balanceRead, r⟩
  | balanceRead (r a) (ha : b.bankAccounts req.headerId = some a) :
      OfficeStep ⟨.balanceRead, r⟩ .skip ⟨.balanceUnlock, r.setInfo a.balance⟩
  | balanceUnlock (r) :
      OfficeStep ⟨.balanceUnlock, r⟩ (.unlock req.headerId) ⟨.activeLock .leave, r.addInfo⟩
  | transferNotAllowed (r) (hadmin : req.headerId = 0) :
      OfficeStep ⟨.transferCheck, r⟩ (.refuse .opNAllow)
        ⟨.activeLock .leave, (transferReply req r).setRetCode .opNAllow⟩
  | transferNotFound (r) (hadmin : req.headerId ≠ 0)
      (hid : req.transferId < maxBankAccounts) (hnone : b.bankAccounts req.transferId = none) :
      OfficeStep ⟨.transferCheck, r⟩ (.refuse .idNotFound)
        ⟨.activeLock .leave, (transferReply req r).setRetCode .idNotFound⟩
  | transferSameId (r a) (hadmin : req.headerId ≠ 0) (hid : req.transferId < maxBankAccounts)
      (ha : b.bankAccounts req.transferId = some a) (hsame : req.transferId = req.headerId) :
      OfficeStep ⟨.transferCheck, r⟩ (.refuse .sameId)
        ⟨.activeLock .leave, (transferReply req r).setRetCode .sameId⟩
  | transferCheck (r a) (hadmin : req.headerId ≠ 0) (hid : req.transferId < maxBankAccounts)
      (ha : b.bankAccounts req.transferId = some a) (hne : req.transferId ≠ req.headerId) :
      OfficeStep ⟨.transferCheck, r⟩ .skip
        ⟨.transferLock₁ req.headerId req.transferId, (transferReply req r).setRetCode .ok⟩
  | transferLock₁ (id addId r) (hid : firstLock id addId < maxBankAccounts) :
      OfficeStep ⟨.transferLock₁ id addId, r⟩ (.lock (firstLock id addId))
        ⟨.transferLock₂ id addId, r⟩
  | transferLock₂ (id addId r) (hid : secondLock id addId < maxBankAccounts) :
      OfficeStep ⟨.transferLock₂ id addId, r⟩ (.lock (secondLock id addId))
        ⟨.subtractRead id, r⟩
  | noFunds (id r a) (ha : b.bankAccounts req.headerId = some a)
      (hlow : subtractedBalance a.balance req.amount < minBalance) :
      OfficeStep ⟨.subtractRead id, r⟩ (.refuse .noFunds)
        ⟨.activeLock .leave, r.setRetCode .noFunds⟩
  | subtractRead (id r a) (ha : b.bankAccounts req.headerId = some a)
      (hfunds : ¬ subtractedBalance a.balance req.amount < minBalance) :
      OfficeStep ⟨.subtractRead id, r⟩ .skip
        ⟨.subtractWrite id req.headerId (subtractedBalance a.balance req.amount), r⟩
  | subtractWrite (id subtractId x r) :
      OfficeStep ⟨.subtractWrite id subtractId x, r⟩ (.setBalance subtractId x.toUInt32)
        ⟨.addRead id, r⟩
  | tooHigh (id r a) (ha : b.bankAccounts req.transferId = some a)
      (hhigh : maxBalance < addedBalance a.balance req.amount) :
      OfficeStep ⟨.addRead id, r⟩ (.refuse .tooHigh)
        ⟨.activeLock .leave, r.setRetCode .tooHigh⟩
  | addRead (id r a) (ha : b.bankAccounts req.transferId = some a)
      (hroom : ¬ maxBalance < addedBalance a.balance req.amount) :
      OfficeStep ⟨.addRead id, r⟩ .skip
        ⟨.addWrite id req.transferId (addedBalance a.balance req.amount), r⟩
  | addWrite (id addId x r) :
      OfficeStep ⟨.addWrite id addId x, r⟩ (.setBalance addId x.toUInt32)
        ⟨.transferUnlock₁ id, r⟩
  | transferUnlock₁ (id r) :
      OfficeStep ⟨.transferUnlock₁ id, r⟩ (.unlock req.headerId)
        ⟨.transferUnlock₂ id req.transferId, r⟩
  | transferUnlock₂ (id addId r) :
      OfficeStep ⟨.transferUnlock₂ id addId, r⟩ (.unlock addId) ⟨.transferReport id, r⟩
  | transferReport (id r a) (ha : b.bankAccounts id = some a) :
      OfficeStep ⟨.transferReport id, r⟩ .skip ⟨.activeLock .leave, r.setInfo a.balance⟩
  | shutdownNotAllowed (r) (hadmin : req.headerId ≠ 0) :
      OfficeStep ⟨.shutdownCheck, r⟩ (.refuse .opNAllow)
        ⟨.activeLock .leave, r.setRetCode .opNAllow⟩
  | shutdownCheck (r) (hadmin : req.headerId = 0) :
      OfficeStep ⟨.shutdownCheck, r⟩ .skip
        ⟨.shutdownChmod, (r.setRetCode .ok).setAccountId req.headerId⟩
  | shutdownChmod (r) : OfficeStep ⟨.shutdownChmod, r⟩ .chmod ⟨.shutdownCount, r⟩
  | shutdownCount (r) :
      OfficeStep ⟨.shutdownCount, r⟩ .skip
        ⟨.shutdownSet, (r.setInfo (UInt32.ofInt (b.activeBankOffices - 1))).addInfo⟩
  | shutdownSet (r) : OfficeStep ⟨.shutdownSet, r⟩ .setServerDown ⟨.activeLock .leave, r⟩
  | ret (r) : OfficeStep ⟨.ret, r⟩ (.returned req r) ⟨.replyOpen, r⟩
  | replyOpen (r) (hopen : choice.fifoOpens = true) :
      OfficeStep ⟨.replyOpen, r⟩ .skip ⟨.replyWrite (some req.value.header.pid), r⟩
  | replyUserDown (r) (hopen : choice.fifoOpens = false) :
      OfficeStep ⟨.replyOpen, r⟩ .skip ⟨.replyWrite none, r.setRetCode .usrDown⟩
  | replySkip (r) : OfficeStep ⟨.replyWrite none, r⟩ .skip ⟨.idle, r⟩
  | replyWrite (pid r) :
      OfficeStep ⟨.replyWrite (some pid), r⟩ (.sent pid req r) ⟨.idle, r⟩
  | fault (pc r r') (h : Faults req b.bankAccounts pc) :
      OfficeStep ⟨pc, r⟩ .skip ⟨.fault, r'⟩

/-- Reading an entry either continues with it or faults. -/
theorem withEntry_cases {o : Office} {t : Table} {id : UInt32}
    {k : Option BankAccount → Action × Office} {p : Action × Office}
    (h : o.withEntry t id k = p) :
    (id < maxBankAccounts ∧ k (t id) = p) ∨
      (¬ id < maxBankAccounts ∧ p = (.skip, o.goto .fault)) := by
  unfold Office.withEntry at h
  split at h
  · exact .inl ⟨‹_›, h⟩
  · exact .inr ⟨‹_›, h.symm⟩

/-- Following a pointer either continues with the account or faults. -/
theorem withAccount_cases {o : Office} {t : Table} {id : UInt32}
    {k : BankAccount → Action × Office} {p : Action × Office}
    (h : o.withAccount t id k = p) :
    (∃ a, id < maxBankAccounts ∧ t id = some a ∧ k a = p) ∨
      (¬ (id < maxBankAccounts ∧ (t id).isSome) ∧ p = (.skip, o.goto .fault)) := by
  rcases withEntry_cases h with ⟨hid, hk⟩ | ⟨hid, hp⟩
  · cases ht : t id with
    | none => exact .inr ⟨by simp, by rw [← hk, ht]; rfl⟩
    | some a => exact .inl ⟨a, hid, rfl, by rw [← hk, ht]; rfl⟩
  · exact .inr ⟨fun hc => hid hc.1, hp⟩

theorem withMutex_cases {o : Office} {id : UInt32} {k p : Action × Office}
    (h : o.withMutex id k = p) :
    (id < maxBankAccounts ∧ k = p) ∨
      (¬ id < maxBankAccounts ∧ p = (.skip, o.goto .fault)) := by
  unfold Office.withMutex at h
  split at h
  · exact .inl ⟨‹_›, h⟩
  · exact .inr ⟨‹_›, h.symm⟩

/-- A step through `withAccount` is the step of its continuation or a fault. -/
theorem OfficeStep.of_withAccount {pc : Pc} {r : TlvReply} {id : UInt32}
    {k : BankAccount → Action × Office} {act : Action} {o' : Office}
    (h : (⟨pc, r⟩ : Office).withAccount b.bankAccounts id k = (act, o'))
    (hfault : ¬ (id < maxBankAccounts ∧ (b.bankAccounts id).isSome) →
      Faults req b.bankAccounts pc)
    (hk : ∀ a, b.bankAccounts id = some a →
      OfficeStep sha256sum choice req b ⟨pc, r⟩ (k a).1 (k a).2) :
    OfficeStep sha256sum choice req b ⟨pc, r⟩ act o' := by
  rcases withAccount_cases h with ⟨a, _, ha, hka⟩ | ⟨hf, hp⟩
  · have := hk a ha
    rwa [hka] at this
  · cases hp
    exact .fault pc r r (hfault hf)

theorem OfficeStep.of_withMutex {pc : Pc} {r : TlvReply} {id : UInt32}
    {k : Action × Office} {act : Action} {o' : Office}
    (h : (⟨pc, r⟩ : Office).withMutex id k = (act, o'))
    (hfault : ¬ id < maxBankAccounts → Faults req b.bankAccounts pc)
    (hk : id < maxBankAccounts → OfficeStep sha256sum choice req b ⟨pc, r⟩ k.1 k.2) :
    OfficeStep sha256sum choice req b ⟨pc, r⟩ act o' := by
  rcases withMutex_cases h with ⟨hid, rfl⟩ | ⟨hid, hp⟩
  · exact hk hid
  · cases hp
    exact .fault pc r r (hfault hid)

theorem OfficeStep.of_login {r : TlvReply} {act : Action} {o' : Office}
    (h : officeStep sha256sum choice req b ⟨.login, r⟩ = some (act, o')) :
    OfficeStep sha256sum choice req b ⟨.login, r⟩ act o' := by
  simp only [officeStep, Option.some.injEq] at h
  rcases withEntry_cases h with ⟨hid, hk⟩ | ⟨hid, hp⟩
  · cases ht : b.bankAccounts req.headerId with
    | none =>
        rw [ht] at hk
        cases hk
        exact .loginUnknown r hid ht
    | some a =>
        rw [ht] at hk
        cases hk
        exact .login r a hid ht
  · cases hp
    exact .fault _ _ _ hid

theorem OfficeStep.of_createCheck {r : TlvReply} {act : Action} {o' : Office}
    (h : officeStep sha256sum choice req b ⟨.createCheck, r⟩ = some (act, o')) :
    OfficeStep sha256sum choice req b ⟨.createCheck, r⟩ act o' := by
  simp only [officeStep, Option.some.injEq, validateCreate] at h
  split at h
  · rename_i hadmin
    cases h
    exact .createNotAllowed r hadmin
  · rename_i hadmin
    rcases withEntry_cases h with ⟨hid, hk⟩ | ⟨hid, hp⟩
    · cases ht : b.bankAccounts req.createId with
      | none =>
          rw [ht] at hk
          cases hk
          exact .createCheck r (not_not.mp hadmin) hid ht
      | some a =>
          rw [ht] at hk
          cases hk
          exact .createInUse r a (not_not.mp hadmin) ht
    · cases hp
      exact .fault _ _ _ ⟨not_not.mp hadmin, hid⟩

theorem OfficeStep.of_transferCheck {r : TlvReply} {act : Action} {o' : Office}
    (h : officeStep sha256sum choice req b ⟨.transferCheck, r⟩ = some (act, o')) :
    OfficeStep sha256sum choice req b ⟨.transferCheck, r⟩ act o' := by
  simp only [officeStep, Option.some.injEq, validateTransfer] at h
  split at h
  · rename_i hadmin
    cases h
    exact .transferNotAllowed r hadmin
  · rename_i hadmin
    rcases withEntry_cases h with ⟨hid, hk⟩ | ⟨hid, hp⟩
    · cases ht : b.bankAccounts req.transferId with
      | none =>
          rw [ht] at hk
          cases hk
          exact .transferNotFound r hadmin hid ht
      | some a =>
          rw [ht] at hk
          simp only at hk
          split at hk
          · rename_i hsame
            cases hk
            exact .transferSameId r a hadmin hid ht hsame
          · rename_i hne
            cases hk
            exact .transferCheck r a hadmin hid ht hne
    · cases hp
      exact .fault _ _ _ ⟨hadmin, hid⟩

/-- Every step of an office is one of the listed branches. -/
theorem officeStep_cases {o : Office} {act : Action} {o' : Office}
    (h : officeStep sha256sum choice req b o = some (act, o')) :
    OfficeStep sha256sum choice req b o act o' := by
  obtain ⟨pc, r⟩ := o
  cases pc with
  | idle | fault => cases h
  | activeLock c => cases h; exact .activeLock c r
  | activeLoad c => cases h; exact .activeLoad c r
  | activeStore c v => cases h; exact .activeStore c v r
  | activeUnlock c =>
      cases c with
      | enter => cases h; exact .activeEntered r
      | leave => cases h; exact .activeLeft r
  | login => exact .of_login _ _ _ _ h
  | loginHash id =>
      exact .of_withAccount _ _ _ _ (Option.some.inj h) (fun hf => hf) fun a ha =>
        .loginHash id r a ha
  | loginCompare id hash =>
      refine .of_withAccount _ _ _ _ (Option.some.inj h) (fun hf => hf) ?_
      intro a ha
      split
      · exact .loginPassed id hash r a ha ‹_›
      · exact .loginFailed id hash r a ha ‹_›
  | dispatch => cases h; exact .dispatch r
  | createCheck => exact .of_createCheck _ _ _ _ h
  | createLock c =>
      exact .of_withMutex _ _ _ _ (Option.some.inj h) (fun hf => hf) fun hid =>
        .createLock c r hid
  | createWrite c =>
      exact .of_withMutex _ _ _ _ (Option.some.inj h) (fun hf => hf) fun hid =>
        .createWrite c r hid
  | createUnlock c =>
      exact .of_withMutex _ _ _ _ (Option.some.inj h) (fun hf => hf) fun _ =>
        .createUnlock c r
  | balanceCheck =>
      simp only [officeStep, Option.some.injEq, validateBalance] at h
      split at h
      · rename_i hadmin
        cases h
        exact .balanceNotAllowed r hadmin
      · rename_i hadmin
        cases h
        exact .balanceCheck r hadmin
  | balanceLock id =>
      exact .of_withMutex _ _ _ _ (Option.some.inj h) (fun hf => hf) fun hid =>
        .balanceLock id r hid
  | balanceRead =>
      exact .of_withAccount _ _ _ _ (Option.some.inj h) (fun hf => hf) fun a ha =>
        .balanceRead r a ha
  | balanceUnlock =>
      exact .of_withMutex _ _ _ _ (Option.some.inj h) (fun hf => hf) fun _ =>
        .balanceUnlock r
  | transferCheck => exact .of_transferCheck _ _ _ _ h
  | transferLock₁ id addId =>
      exact .of_withMutex _ _ _ _ (Option.some.inj h) (fun hf => hf) fun hid =>
        .transferLock₁ id addId r hid
  | transferLock₂ id addId =>
      exact .of_withMutex _ _ _ _ (Option.some.inj h) (fun hf => hf) fun hid =>
        .transferLock₂ id addId r hid
  | subtractRead id =>
      refine .of_withAccount _ _ _ _ (Option.some.inj h) (fun hf => hf) ?_
      intro a ha
      simp only [subtractFrom]
      split
      · exact .noFunds id r a ha ‹_›
      · exact .subtractRead id r a ha ‹_›
  | subtractWrite id subtractId x =>
      exact .of_withAccount _ _ _ _ (Option.some.inj h) (fun hf => hf) fun _ _ =>
        .subtractWrite id subtractId x r
  | addRead id =>
      refine .of_withAccount _ _ _ _ (Option.some.inj h) (fun hf => hf) ?_
      intro a ha
      simp only [addTo]
      split
      · exact .tooHigh id r a ha ‹_›
      · exact .addRead id r a ha ‹_›
  | addWrite id addId x =>
      exact .of_withAccount _ _ _ _ (Option.some.inj h) (fun hf => hf) fun _ _ =>
        .addWrite id addId x r
  | transferUnlock₁ id =>
      exact .of_withMutex _ _ _ _ (Option.some.inj h) (fun hf => hf) fun _ =>
        .transferUnlock₁ id r
  | transferUnlock₂ id addId =>
      exact .of_withMutex _ _ _ _ (Option.some.inj h) (fun hf => hf) fun _ =>
        .transferUnlock₂ id addId r
  | transferReport id =>
      exact .of_withAccount _ _ _ _ (Option.some.inj h) (fun hf => hf) fun a ha =>
        .transferReport id r a ha
  | shutdownCheck =>
      simp only [officeStep, Option.some.injEq] at h
      split at h
      · rename_i hadmin
        cases h
        exact .shutdownNotAllowed r hadmin
      · rename_i hadmin
        cases h
        exact .shutdownCheck r (not_not.mp hadmin)
  | shutdownChmod => cases h; exact .shutdownChmod r
  | shutdownCount => cases h; exact .shutdownCount r
  | shutdownSet => cases h; exact .shutdownSet r
  | ret => cases h; exact .ret r
  | replyOpen =>
      cases hopen : choice.fifoOpens with
      | true =>
          simp only [officeStep, hopen, if_true] at h
          cases h
          exact .replyOpen r hopen
      | false =>
          simp only [officeStep, hopen] at h
          cases h
          exact .replyUserDown r hopen
  | replyWrite dest =>
      cases dest with
      | none => cases h; exact .replySkip r
      | some pid => cases h; exact .replyWrite pid r

/-- An office that is neither idle nor at a fault has a next step, which may
have to wait. -/
theorem officeStep_isSome {o : Office} (hidle : o.pc ≠ .idle) (hfault : o.pc ≠ .fault) :
    (officeStep sha256sum choice req b o).isSome := by
  obtain ⟨pc, r⟩ := o
  cases pc with
  | idle => exact absurd rfl hidle
  | fault => exact absurd rfl hfault
  | activeUnlock c => cases c <;> rfl
  | replyWrite dest => cases dest <;> rfl
  | _ => rfl

end Step

end HomeBanking
