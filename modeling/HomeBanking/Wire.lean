import HomeBanking.Bank
import HomeBanking.Lib.Bytes

/-!
# Requests in memory

The packed layout of `tlv_request_t`, and which of its bytes are read when a
request is logged and processed. Memory that is only partly assigned keeps what
was there before, so a request in memory is its bytes and not its fields.

## Implementation notes

The value of a request has 62 bytes: `header` at 0 with `pid` at 0, `account_id`
at 4, `password` at 8 and `op_delay_ms` at 29; `create` at 33 with `account_id`
at 33, `balance` at 37 and `password` at 41; and `transfer` at 33 with
`account_id` at 33 and `amount` at 37. A string is read up to its first zero
byte, also where this lies behind the field; the model stops at the end of the
value.
-/

namespace HomeBanking

open Bytes

/-- `sizeof(req_header_t)`. -/
def sizeofReqHeader : UInt32 := 33

/-- `sizeof(req_create_account_t)`. -/
def sizeofReqCreateAccount : UInt32 := 29

/-- `sizeof(req_transfer_t)`. -/
def sizeofReqTransfer : UInt32 := 8

/-- The value of an `op_type_t`. -/
def OpType.code : OpType → UInt32
  | .createAccount => 0
  | .balance => 1
  | .transfer => 2
  | .shutdown => 3
  | .undefined code => code

/-- The operation that the switches of both programs select. -/
def OpType.ofCode (code : UInt32) : OpType :=
  if code = 0 then .createAccount
  else if code = 1 then .balance
  else if code = 2 then .transfer
  else if code = 3 then .shutdown
  else .undefined code

/-- `tlv_request_t` in memory. -/
structure RawRequest where
  type : Block 4
  length : Block 4
  value : Block 62
  deriving DecidableEq

/-- The fields of a `req_value_t`. -/
def ReqValue.ofBlock (v : Block 62) : ReqValue where
  header := ⟨v.word 0, v.word 4, v.string 8, v.word 29⟩
  create := ⟨v.word 33, v.word 37, v.string 41⟩

namespace RawRequest

/-- The fields of a request in memory. -/
def decode (r : RawRequest) : TlvRequest where
  type := .ofCode (r.type.word 0)
  length := r.length.word 0
  value := .ofBlock r.value

/-- The first `length` bytes of the value. -/
def sentValue (r : RawRequest) : List UInt8 := r.value.1.take r.decode.length.toNat

/-- The bytes that `sendRequest` writes at once. -/
def message (r : RawRequest) : List UInt8 := r.type.1 ++ (r.length.1 ++ r.sentValue)

theorem length_sentValue {r : RawRequest} (h : r.decode.length.toNat ≤ 62) :
    r.sentValue.length = r.decode.length.toNat := by
  rw [sentValue, List.length_take, r.value.2, Nat.min_eq_left h]

def setType (r : RawRequest) (code : UInt32) : RawRequest :=
  { r with type := r.type.store 0 (ofWord code) }

def setLength (r : RawRequest) (length : UInt32) : RawRequest :=
  { r with length := r.length.store 0 (ofWord length) }

/-- Assign a field of the value. -/
def setField (r : RawRequest) (offset : ℕ) (bytes : List UInt8) : RawRequest :=
  { r with value := r.value.store offset bytes }

/-- How many bytes of the value are read for a request of the given type: the
header, the password in it up to its zero byte, and the arguments of the
operation. -/
def readExtent (type : OpType) (v : Block 62) : ℕ :=
  max (max 33 (8 + (v.string 8).length + 1)) <|
    match type with
    | .createAccount => 41 + (v.string 41).length + 1
    | .transfer => 41
    | _ => 0

end RawRequest

/-- The fields of a request that `logRequest` prints. -/
structure RequestLine where
  type : OpType
  length : UInt32
  header : ReqHeader
  create : Option ReqCreateAccount
  transfer : Option ReqTransfer
  deriving DecidableEq, Repr

/-- A type that names no operation is not logged. -/
def logRequest (req : TlvRequest) : Option RequestLine :=
  match req.type with
  | .createAccount =>
      some ⟨req.type, req.length, req.value.header, some req.value.create, none⟩
  | .transfer => some ⟨req.type, req.length, req.value.header, none, some req.value.transfer⟩
  | .balance | .shutdown => some ⟨req.type, req.length, req.value.header, none, none⟩
  | .undefined _ => none

/-- Two requests with the same type, length and header, and the same arguments
where the operation has arguments. -/
structure SameFields (req req' : TlvRequest) : Prop where
  type : req'.type = req.type
  length : req'.length = req.length
  header : req'.value.header = req.value.header
  create : req.type = .createAccount → req'.value.create = req.value.create
  transfer : req.type = .transfer → req'.value.transfer = req.value.transfer

theorem SameFields.logRequest {req req' : TlvRequest} (h : SameFields req req') :
    logRequest req' = logRequest req := by
  unfold HomeBanking.logRequest
  rw [h.type, h.length, h.header]
  cases ht : req.type with
  | createAccount => rw [h.create ht]
  | transfer => rw [h.transfer ht]
  | _ => rfl

/-- Processing reads no other field. -/
theorem SameFields.processRequest {ι : Type} {req req' : TlvRequest} (h : SameFields req req')
    (sha256sum : CString → CString) (me : ι) (salt : CString) :
    processRequest sha256sum me salt req' = processRequest sha256sum me salt req := by
  obtain ⟨type, length, header, create⟩ := req
  obtain ⟨type', length', header', create'⟩ := req'
  obtain ⟨rfl, rfl, rfl, hcreate, htransfer⟩ := h
  cases type' with
  | createAccount =>
      obtain rfl : create' = create := hcreate rfl
      rfl
  | transfer =>
      obtain ⟨hid, hamount⟩ := ReqTransfer.mk.inj (htransfer rfl)
      obtain ⟨id, amount, password⟩ := create
      obtain ⟨id', amount', password'⟩ := create'
      obtain rfl : id' = id := hid
      obtain rfl : amount' = amount := hamount
      rfl
  | _ => rfl

/-- The bytes up to the extent determine every field that is read. -/
theorem sameFields_of_take {r r' : RawRequest} (htype : r'.type = r.type)
    (hlength : r'.length = r.length) {k : ℕ} (hk : RawRequest.readExtent r.decode.type r.value ≤ k)
    (h : r.value.1.take k = r'.value.1.take k) : SameFields r.decode r'.decode := by
  unfold RawRequest.readExtent at hk
  have hword : ∀ i, i + 4 ≤ k → r'.value.word i = r.value.word i := fun i hi =>
    Block.word_eq_of_take h hi
  have hpassword : r'.value.string 8 = r.value.string 8 :=
    Block.string_eq_of_take h (by omega)
  refine ⟨?_, ?_, ?_, ?_, ?_⟩
  · simp only [RawRequest.decode, htype]
  · simp only [RawRequest.decode, hlength]
  · simp only [RawRequest.decode, ReqValue.ofBlock]
    rw [hword 0 (by omega), hword 4 (by omega), hpassword, hword 29 (by omega)]
  · intro ht
    rw [ht] at hk
    have hcreate : r'.value.string 41 = r.value.string 41 :=
      Block.string_eq_of_take h (by dsimp only at hk; omega)
    simp only [RawRequest.decode, ReqValue.ofBlock]
    rw [hword 33 (by dsimp only at hk; omega), hword 37 (by dsimp only at hk; omega), hcreate]
  · intro ht
    rw [ht] at hk
    simp only [RawRequest.decode, ReqValue.ofBlock, ReqValue.transfer]
    rw [hword 33 (by dsimp only at hk; omega), hword 37 (by dsimp only at hk; omega)]

/-- The bytes up to the extent determine the extent. -/
theorem readExtent_eq_of_take {type : OpType} {v v' : Block 62} {k : ℕ}
    (hk : RawRequest.readExtent type v ≤ k) (h : v.1.take k = v'.1.take k) :
    RawRequest.readExtent type v' = RawRequest.readExtent type v := by
  unfold RawRequest.readExtent at hk ⊢
  rw [Block.string_eq_of_take (i := 8) h (by omega)]
  cases type with
  | createAccount =>
      dsimp only at hk ⊢
      rw [Block.string_eq_of_take (i := 41) h (by omega)]
  | _ => rfl

end HomeBanking
