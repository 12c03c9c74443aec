import Mathlib

/-!
# Constants and messages

The limits of `constants.h` and the request, reply and account records of
`types.h`. A C string is the list of its bytes before the terminating NUL.
The union of a request's arguments is stored as its larger member; the other
member is a prefix of the same bytes.
-/

namespace HomeBanking

abbrev CString := List UInt8

def maxBankAccounts : UInt32 := 4096
def minBalance : Int32 := 1
def maxBalance : Int32 := 1000000000
def adminAccountId : UInt32 := 0
def adminAccountBallance : UInt32 := 0
def hashLen : ℕ := 64
def saltLen : ℕ := 64
def maxPasswordLen : ℕ := 20

/-- `op_type_t`. The 4-byte field can also hold a value that names no operation. -/
inductive OpType
  | createAccount
  | balance
  | transfer
  | shutdown
  | undefined (code : UInt32)
  deriving DecidableEq, Repr

/-- `ret_code_t`, in the order of the header. -/
inductive RetCode
  | ok
  | srvDown
  | srvTimeout
  | usrDown
  | loginFail
  | opNAllow
  | idInUse
  | idNotFound
  | sameId
  | noFunds
  | tooHigh
  | other
  deriving DecidableEq, Repr

/-- `bank_account_t`. -/
structure BankAccount where
  accountId : UInt32
  hash : CString
  salt : CString
  balance : UInt32
  deriving DecidableEq, Repr

/-- `req_header_t`. -/
structure ReqHeader where
  pid : UInt32
  accountId : UInt32
  password : CString
  opDelayMs : UInt32
  deriving DecidableEq, Repr

/-- `req_create_account_t`. -/
structure ReqCreateAccount where
  accountId : UInt32
  balance : UInt32
  password : CString
  deriving DecidableEq, Repr

/-- `req_transfer_t`. -/
structure ReqTransfer where
  accountId : UInt32
  amount : UInt32
  deriving DecidableEq, Repr

/-- `req_value_t`: the header and the union of `create` and `transfer`. -/
structure ReqValue where
  header : ReqHeader
  create : ReqCreateAccount
  deriving DecidableEq, Repr

/-- The union read as a transfer: its two words are the first two of `create`. -/
def ReqValue.transfer (v : ReqValue) : ReqTransfer :=
  ⟨v.create.accountId, v.create.balance⟩

/-- `tlv_request_t`. -/
structure TlvRequest where
  type : OpType
  length : UInt32
  value : ReqValue
  deriving DecidableEq, Repr

/-- `rep_header_t`. -/
structure RepHeader where
  accountId : UInt32
  retCode : RetCode
  deriving DecidableEq, Repr

/-- `rep_value_t`. The three members of the union are one 4-byte word each:
`balance.balance`, `transfer.balance` and `shutdown.active_offices` are all
stored in `info`. -/
structure RepValue where
  header : RepHeader
  info : UInt32
  deriving DecidableEq, Repr

/-- `tlv_reply_t`. -/
structure TlvReply where
  type : OpType
  length : UInt32
  value : RepValue
  deriving DecidableEq, Repr

/-- `sizeof(rep_header_t)`. -/
def sizeofRepHeader : UInt32 := 8

/-- `sizeof` of `rep_balance_t`, `rep_transfer_t` and `rep_shutdown_t`. -/
def sizeofRepInfo : UInt32 := 4

namespace TlvReply

def setRetCode (r : TlvReply) (rc : RetCode) : TlvReply :=
  { r with value.header.retCode := rc }

def setAccountId (r : TlvReply) (id : UInt32) : TlvReply :=
  { r with value.header.accountId := id }

def setInfo (r : TlvReply) (x : UInt32) : TlvReply := { r with value.info := x }

/-- `reply->length += sizeof(...)`, for any of the three payloads. -/
def addInfo (r : TlvReply) : TlvReply := { r with length := r.length + sizeofRepInfo }

/-- What `processRequest` stores in the reply before anything else. -/
def start (r : TlvReply) (t : OpType) : TlvReply :=
  { r with type := t, length := sizeofRepHeader }

abbrev retCode (r : TlvReply) : RetCode := r.value.header.retCode
abbrev accountId (r : TlvReply) : UInt32 := r.value.header.accountId
abbrev info (r : TlvReply) : UInt32 := r.value.info

end TlvReply

namespace TlvRequest

/-- The account a request logs in with, and operates on for balances and debits. -/
abbrev headerId (r : TlvRequest) : UInt32 := r.value.header.accountId

/-- The account a creation fills. -/
abbrev createId (r : TlvRequest) : UInt32 := r.value.create.accountId

/-- The account a transfer credits. -/
abbrev transferId (r : TlvRequest) : UInt32 := r.value.transfer.accountId

/-- The amount a transfer moves. -/
abbrev amount (r : TlvRequest) : UInt32 := r.value.transfer.amount

/-- The ids the server uses as an index for this type of request are inside
the account array. -/
def InArray (r : TlvRequest) : Prop :=
  r.headerId < maxBankAccounts ∧
    (r.type = .createAccount → r.createId < maxBankAccounts) ∧
    (r.type = .transfer → r.transferId < maxBankAccounts)

instance (r : TlvRequest) : Decidable r.InArray := by
  unfold InArray
  infer_instance

end TlvRequest

/-- The range the user program enforces on a creation. -/
def CreateInRange (req : TlvRequest) : Prop :=
  (1 ≤ req.value.create.balance.toNat ∧ req.value.create.balance.toNat ≤ 1000000000) ∧
    1 ≤ req.createId ∧ req.createId < maxBankAccounts

/-- The range the user program enforces on a transfer. -/
def TransferInRange (req : TlvRequest) : Prop :=
  (1 ≤ req.amount.toNat ∧ req.amount.toNat ≤ 1000000000) ∧
    1 ≤ req.transferId ∧ req.transferId < maxBankAccounts

/-- The requests that pass the checks of the user program and whose account id is
in the array; the checks let id 4096 through. -/
def InUserRange (req : TlvRequest) : Prop :=
  req.headerId < maxBankAccounts ∧ (req.type = .createAccount → CreateInRange req) ∧
    (req.type = .transfer → TransferInRange req)

theorem InUserRange.inArray {req : TlvRequest} (h : InUserRange req) : req.InArray :=
  ⟨h.1, fun ht => (h.2.1 ht).2.2, fun ht => (h.2.2 ht).2.2⟩

instance (req : TlvRequest) : Decidable (CreateInRange req) := by
  unfold CreateInRange
  infer_instance

instance (req : TlvRequest) : Decidable (TransferInRange req) := by
  unfold TransferInRange
  infer_instance

instance (req : TlvRequest) : Decidable (InUserRange req) := by
  unfold InUserRange
  infer_instance

end HomeBanking
