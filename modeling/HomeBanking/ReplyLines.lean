import HomeBanking.Replies
import HomeBanking.Lib.Fifo

/-!
# Replies that are read and logged

`sendReply` writes the type, the length and as many bytes of the value as the
length says; `readReply` of the user program reads them into the reply it has
allocated, and `logReply` prints the fields that belong to the type. An error
reply is a header alone, and what is printed behind the header is then what the
memory of the user program held.

## Implementation notes

The value of a reply has 12 bytes: `account_id` at 0, `ret_code` at 4 and one
word at 8, which is the balance or the number of active offices.
-/

namespace HomeBanking

open Bytes

/-- `tlv_reply_t` in the memory of the user program. -/
structure RawReply where
  type : Block 4
  length : Block 4
  value : Block 12
  deriving DecidableEq

namespace RawReply

/-- One pass of the loop of `readReply`: whether the value read was not empty,
the memory, and the FIFO; none when a read has to wait. -/
def readPass (reply : RawReply) (fifo : Fifo) : Option (Bool × RawReply × Fifo) := do
  let (bytes, fifo) ← fifo.read 4
  let reply := { reply with type := reply.type.store 0 bytes }
  let (bytes, fifo) ← fifo.read 4
  let reply := { reply with length := reply.length.store 0 bytes }
  let (bytes, fifo) ← fifo.read (reply.length.word 0).toNat
  return (bytes ≠ [], { reply with value := reply.value.store 0 bytes }, fifo)

/-- `readReply`, up to the given number of passes. -/
def readReply : ℕ → RawReply → Fifo → Option (RawReply × Fifo)
  | 0, _, _ => none
  | passes + 1, reply, fifo =>
      (readPass reply fifo).bind fun (done, reply, fifo) =>
        if done then some (reply, fifo) else readReply passes reply fifo

end RawReply

/-- The fields of a reply that `logReply` prints. -/
structure ReplyLine where
  type : OpType
  length : UInt32
  accountId : UInt32
  retCode : UInt32
  info : Option UInt32
  deriving DecidableEq, Repr

/-- A type that names no operation is not logged. -/
def logReply (reply : RawReply) : Option ReplyLine :=
  let type := OpType.ofCode (reply.type.word 0)
  let length := reply.length.word 0
  match type with
  | .createAccount => some ⟨type, length, reply.value.word 0, reply.value.word 4, none⟩
  | .balance | .transfer | .shutdown =>
      some ⟨type, length, reply.value.word 0, reply.value.word 4, some (reply.value.word 8)⟩
  | .undefined _ => none

/-- How many bytes of the value `logReply` reads. -/
def logExtent : OpType → ℕ
  | .createAccount => 8
  | .balance | .transfer | .shutdown => 12
  | .undefined _ => 0

namespace TlvReply

/-- The value of a reply in memory. -/
def valueBytes (r : TlvReply) : Block 12 :=
  ⟨ofWord r.accountId ++ (ofWord r.retCode.code ++ ofWord r.info), rfl⟩

theorem shown_eq (r : TlvReply) : r.shown =
    ofWord r.type.code ++ (ofWord r.length ++ r.valueBytes.1.take r.length.toNat) := by
  have hbytes : r.bytes = ofWord r.type.code ++ (ofWord r.length ++ r.valueBytes.1) := by
    simp only [bytes, valueBytes, List.append_assoc]
  have htake : ∀ (word bytes : List UInt8), word.length = 4 → ∀ k,
      (word ++ bytes).take (4 + k) = word ++ bytes.take k := by
    intro word bytes hword k
    rw [← hword]
    exact List.take_length_add_append k
  rw [shown, hbytes, Nat.add_assoc, htake _ _ rfl, htake _ _ rfl]

theorem length_take_valueBytes {r : TlvReply} (hmax : r.length.toNat ≤ 12) :
    (r.valueBytes.1.take r.length.toNat).length = r.length.toNat := by
  rw [List.length_take, r.valueBytes.2, Nat.min_eq_left hmax]

/-- The memory of the user program after it has read the reply. -/
def received (r : TlvReply) (buffer : RawReply) : RawReply where
  type := buffer.type.store 0 (ofWord r.type.code)
  length := buffer.length.store 0 (ofWord r.length)
  value := buffer.value.store 0 (r.valueBytes.1.take r.length.toNat)

/-- A reply that was sent is read in one pass. -/
theorem readReply_shown (r : TlvReply) (hpos : 0 < r.length.toNat) (hmax : r.length.toNat ≤ 12)
    (passes : ℕ) (buffer : RawReply) (writers : ℕ) :
    RawReply.readReply (passes + 1) buffer ⟨r.shown, writers⟩ =
      some (r.received buffer, ⟨[], writers⟩) := by
  let value := r.valueBytes.1.take r.length.toNat
  have hvalue : value.length = r.length.toNat := length_take_valueBytes hmax
  have htype : (Fifo.mk r.shown writers).read 4 =
      some (ofWord r.type.code, ⟨ofWord r.length ++ value, writers⟩) :=
    Fifo.read_append r.shown_eq rfl (by decide)
  have hlength : (Fifo.mk (ofWord r.length ++ value) writers).read 4 =
      some (ofWord r.length, ⟨value, writers⟩) :=
    Fifo.read_append rfl rfl (by decide)
  have hrest : (Fifo.mk value writers).read r.length.toNat = some (value, ⟨[], writers⟩) :=
    Fifo.read_append (List.append_nil _).symm hvalue hpos
  have hne : value ≠ [] := List.ne_nil_of_length_pos (hvalue ▸ hpos)
  have hword : (buffer.length.store 0 (ofWord r.length)).word 0 = r.length :=
    Block.word_store _ _ (by decide)
  have hpass : RawReply.readPass buffer ⟨r.shown, writers⟩ =
      some (true, r.received buffer, ⟨[], writers⟩) := by
    simp only [RawReply.readPass, htype, hlength, hword, hrest, Option.bind_eq_bind,
      Option.bind_some, Option.pure_def, decide_true, ne_eq, hne, not_false_eq_true]
    rfl
  rw [RawReply.readReply, hpass]
  rfl

variable (r : TlvReply) (buffer : RawReply)

@[simp] theorem received_type : (r.received buffer).type.word 0 = r.type.code :=
  Block.word_store _ _ (by decide)

@[simp] theorem received_length : (r.received buffer).length.word 0 = r.length :=
  Block.word_store _ _ (by decide)

/-- The bytes received are those of the value. -/
theorem received_value (hmax : r.length.toNat ≤ 12) :
    (r.received buffer).value.1.take r.length.toNat =
      r.valueBytes.1.take r.length.toNat := by
  have hvalue := length_take_valueBytes hmax
  have htake := buffer.value.take_store_zero hvalue.ge (hvalue.trans_le hmax)
  rwa [List.take_take, Nat.min_self] at htake

variable {r}

/-- A word within the bytes received is that of the value. -/
theorem received_word (hmax : r.length.toNat ≤ 12) {i : ℕ} (hi : i + 4 ≤ r.length.toNat) :
    (r.received buffer).value.word i = r.valueBytes.word i :=
  Block.word_eq_of_take (r.received_value buffer hmax).symm hi

end TlvReply

theorem ofCode_code {type : OpType} (h : ∀ code, type ≠ .undefined code) :
    OpType.ofCode type.code = type := by
  cases type with
  | undefined code => exact absurd rfl (h code)
  | _ => rfl

/-- The line that is printed for a reply that was received: behind the header
it shows the word in memory. -/
theorem logReply_received {r : TlvReply} (hop : ∀ code, r.type ≠ .undefined code)
    (hmin : 8 ≤ r.length.toNat) (hmax : r.length.toNat ≤ 12) (buffer : RawReply) :
    logReply (r.received buffer) = some ⟨r.type, r.length, r.valueBytes.word 0,
      r.valueBytes.word 4,
      if r.type = .createAccount then none else some ((r.received buffer).value.word 8)⟩ := by
  unfold logReply
  rw [r.received_type, ofCode_code hop, r.received_length,
    TlvReply.received_word buffer hmax (by omega), TlvReply.received_word buffer hmax (by omega)]
  cases ht : r.type with
  | undefined code => exact absurd ht (hop code)
  | _ => rfl

/-- The reply is read back as it was sent, every field printed for its type is
within the bytes received, and the line printed is the same over any memory of
the user program. -/
structure Delivered (r : TlvReply) : Prop where
  reads : ∀ (passes : ℕ) (buffer : RawReply) (writers : ℕ), ∃ received : RawReply,
    RawReply.readReply (passes + 1) buffer ⟨(sendReply true r).2, writers⟩ =
      some (received, ⟨[], writers⟩) ∧
    received.type.word 0 = r.type.code ∧ received.length.word 0 = r.length ∧
    received.value.1.take r.length.toNat = (sendReply true r).2.drop 8
  within : logExtent r.type ≤ r.length.toNat
  line : ∀ (passes : ℕ) (buffer buffer' : RawReply) (writers : ℕ),
    (RawReply.readReply (passes + 1) buffer ⟨(sendReply true r).2, writers⟩).map
        (fun p => logReply p.1) =
      (RawReply.readReply (passes + 1) buffer' ⟨(sendReply true r).2, writers⟩).map
        (fun p => logReply p.1)

theorem sendReply_true (r : TlvReply) : (sendReply true r).2 = r.shown := rfl

section Delivery

variable {r : TlvReply} (hmin : 8 ≤ r.length.toNat) (hmax : r.length.toNat ≤ 12)
include hmin hmax

/-- Whatever its length, a reply is read back as it was sent. -/
theorem reads_back (passes : ℕ) (buffer : RawReply) (writers : ℕ) : ∃ received : RawReply,
    RawReply.readReply (passes + 1) buffer ⟨(sendReply true r).2, writers⟩ =
      some (received, ⟨[], writers⟩) ∧
    received.type.word 0 = r.type.code ∧ received.length.word 0 = r.length ∧
    received.value.1.take r.length.toNat = (sendReply true r).2.drop 8 := by
  refine ⟨r.received buffer, r.readReply_shown (by omega) hmax passes buffer writers,
    r.received_type buffer, r.received_length buffer, ?_⟩
  rw [r.received_value buffer hmax, sendReply_true, r.shown_eq]
  rfl

/-- A reply is delivered exactly when it carries the word that is printed. -/
theorem delivered_iff (hop : ∀ code, r.type ≠ .undefined code) :
    Delivered r ↔ r.type = .createAccount ∨ r.length.toNat = 12 := by
  constructor
  · intro h
    have hwithin := h.within
    cases ht : r.type with
    | createAccount => exact .inl rfl
    | balance | transfer | shutdown =>
        rw [ht] at hwithin
        exact .inr (Nat.le_antisymm hmax hwithin)
    | undefined code => exact absurd ht (hop code)
  · intro h
    refine ⟨reads_back hmin hmax, ?_, ?_⟩
    · cases ht : r.type with
      | createAccount => exact hmin
      | balance | transfer | shutdown =>
          rcases h with hcreate | hlength
          · rw [ht] at hcreate
            cases hcreate
          · exact hlength.ge
      | undefined code => exact absurd ht (hop code)
    · intro passes buffer buffer' writers
      have hread := fun b => r.readReply_shown (by omega) hmax passes b writers
      rw [sendReply_true, hread buffer, hread buffer', Option.map_some, Option.map_some,
        logReply_received hop hmin hmax, logReply_received hop hmin hmax]
      rcases h with hcreate | hlength
      · rw [if_pos hcreate, if_pos hcreate]
      · rw [TlvReply.received_word buffer hmax (by omega),
          TlvReply.received_word buffer' hmax (by omega)]

end Delivery

section Processed

variable {ι : Type} {sha256sum : CString → CString} {me : ι} {salt : CString} {req : TlvRequest}

/-- The login passes, and the operation appends its word to the header. -/
def HasPayload (sha256sum : CString → CString) (req : TlvRequest) (t : Table) : Prop :=
  loginOk sha256sum req t = true ∧
    match req.type with
    | .balance => req.headerId ≠ 0
    | .transfer => True
    | .shutdown => req.headerId = 0
    | .createAccount | .undefined _ => False

/-- The type of the reply is that of the request, and its length that of the
header, and of the payload where there is one. -/
structure Sized (payload : Prop) (type : OpType) (r : TlvReply) : Prop where
  type : r.type = type
  length : (payload ∧ r.length.toNat = 12) ∨ (¬ payload ∧ r.length.toNat = 8)

theorem OpExit.sized {w w' : World ι}
    (hlogin : loginOk sha256sum req w.bank.bankAccounts = true)
    (h : OpExit sha256sum me salt req (begun req w) w') :
    Sized (HasPayload sha256sum req w.bank.bankAccounts) req.type w'.reply := by
  cases h with
  | create ht h =>
      have hpayload : ¬ HasPayload sha256sum req w.bank.bankAccounts := by
        simp [HasPayload, ht]
      cases h <;> exact ⟨rfl, .inr ⟨hpayload, rfl⟩⟩
  | balance ht h =>
      have hpayload : HasPayload sha256sum req w.bank.bankAccounts ↔ req.headerId ≠ 0 := by
        simp [HasPayload, ht, hlogin]
      cases h with
      | notAllowed hadmin => exact ⟨rfl, .inr ⟨fun hp => hpayload.mp hp hadmin, rfl⟩⟩
      | done src hadmin hsrc hf => exact ⟨rfl, .inl ⟨hpayload.mpr hadmin, rfl⟩⟩
  | transfer ht h =>
      have hpayload : HasPayload sha256sum req w.bank.bankAccounts := by
        simp [HasPayload, ht, hlogin]
      cases h <;> exact ⟨rfl, .inl ⟨hpayload, rfl⟩⟩
  | shutdown ht h =>
      have hpayload : HasPayload sha256sum req w.bank.bankAccounts ↔ req.headerId = 0 := by
        simp [HasPayload, ht, hlogin]
      cases h with
      | notAllowed hadmin => exact ⟨rfl, .inr ⟨fun hp => hadmin (hpayload.mp hp), rfl⟩⟩
      | done hadmin => exact ⟨rfl, .inl ⟨hpayload.mpr hadmin, rfl⟩⟩
  | undefined code ht h =>
      have hpayload : ¬ HasPayload sha256sum req w.bank.bankAccounts := by
        simp [HasPayload, ht]
      exact ⟨by rw [h]; rfl, .inr ⟨hpayload, by rw [h]; rfl⟩⟩

theorem Exit.sized {w w' : World ι} (h : Exit sha256sum me salt req w w') :
    Sized (HasPayload sha256sum req w.bank.bankAccounts) req.type w'.reply := by
  cases h with
  | loginFail hlogin =>
      refine ⟨rfl, .inr ⟨fun hpayload => ?_, rfl⟩⟩
      rw [hpayload.1] at hlogin
      cases hlogin
  | op w₁ hlogin hop =>
      have hsized : Sized (HasPayload sha256sum req w.bank.bankAccounts) req.type w₁.reply :=
        hop.sized hlogin
      exact hsized

variable (sha256sum me salt req)

/-- A reply reaches the log of the user program as it was sent exactly when the
request is a creation or its reply has a payload: the line for a failed login,
for the balance of the administrator and for the shutdown by a client ends with
a number from the memory of the user program. -/
theorem delivered_iff_hasPayload (hop : ∀ code, req.type ≠ .undefined code) (w : World ι) :
    (∀ w', processRequest sha256sum me salt req w = .ok ((), w') →
      (Delivered w'.reply ↔
        req.type = .createAccount ∨ HasPayload sha256sum req w.bank.bankAccounts)) ∧
    (req.InArray → w.bank.Unlocked →
      ∃ w', processRequest sha256sum me salt req w = .ok ((), w')) := by
  refine ⟨fun w' h => ?_, fun hin => processRequest_returns sha256sum me salt req hin⟩
  have hsized := ((processRequest_eq_ok sha256sum me salt req).mp h).2.2.sized
  have hlength := hsized.length
  rw [delivered_iff (by omega) (by omega) (by rwa [hsized.type]), hsized.type]
  apply or_congr_right
  constructor
  · intro htwelve
    rcases hlength with hpayload | height
    · exact hpayload.1
    · omega
  · intro hpayload
    rcases hlength with htwelve | height
    · exact htwelve.2
    · exact absurd hpayload height.1

end Processed

/-- The balance of account 1 is logged as it was sent. -/
theorem delivered_balance : ∃ w',
    processRequest Sample.sha256sum () Sample.salt (Sample.balance 9)
      ⟨Bank.idle (Sample.twoAccounts 100 200), Sample.emptyReply⟩ = .ok ((), w') ∧
    Delivered w'.reply := by
  have hdelivered := delivered_iff_hasPayload Sample.sha256sum () Sample.salt (Sample.balance 9)
    (fun _ h => by cases h) ⟨Bank.idle (Sample.twoAccounts 100 200), Sample.emptyReply⟩
  obtain ⟨w', hw⟩ := hdelivered.2 (by decide) ⟨fun _ => rfl, rfl⟩
  have hlogin := Sample.loginOk_transfer (x := 100) (y := 200) 0 0
  exact ⟨w', hw, (hdelivered.1 w' hw).mpr (.inr ⟨hlogin, (by decide : (1 : UInt32) ≠ 0)⟩)⟩

/-- A balance check of account 1 with the wrong password is answered with a
header alone, and the balance in the log is the one in the memory of the user
program: 7 or 0. -/
theorem loginFail_not_delivered : ∃ (w' : World Unit) (buffer buffer' : RawReply),
    processRequest Sample.sha256sum () Sample.salt
      { Sample.balance 9 with value.header.password := Sample.password₂ }
      ⟨Bank.idle (Sample.twoAccounts 100 200), Sample.emptyReply⟩ = .ok ((), w') ∧
    (sendReply true w'.reply).2 = [1, 0, 0, 0, 8, 0, 0, 0, 0, 0, 0, 0, 4, 0, 0, 0] ∧
    (RawReply.readReply 1 buffer ⟨(sendReply true w'.reply).2, 0⟩).map
      (fun p => logReply p.1) = some (some ⟨.balance, 8, 0, 4, some 7⟩) ∧
    (RawReply.readReply 1 buffer' ⟨(sendReply true w'.reply).2, 0⟩).map
      (fun p => logReply p.1) = some (some ⟨.balance, 8, 0, 4, some 0⟩) ∧
    ¬ Delivered w'.reply := by
  have hlogin : loginOk Sample.sha256sum
      { Sample.balance 9 with value.header.password := Sample.password₂ }
      (Sample.twoAccounts 100 200) = false := by decide +kernel
  let zero : RawReply := ⟨.replicate 4 0, .replicate 4 0, .replicate 12 0⟩
  refine ⟨_, { zero with value := zero.value.store 8 (ofWord 7) }, zero,
    (processRequest_eq_ok _ _ _ _).mpr ⟨rfl, (by decide : (1 : UInt32) < 4096),
      .loginFail hlogin⟩, by decide +kernel, by decide +kernel, by decide +kernel,
    fun h => ?_⟩
  exact absurd h.within (by decide +kernel)

end HomeBanking
