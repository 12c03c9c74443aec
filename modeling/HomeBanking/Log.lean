import HomeBanking.Login
import HomeBanking.ReplyLines
import HomeBanking.Lib.Printf

/-!
# The log files

The lines that both programs append to their log files with the functions of
`log.c`, byte by byte, and what a log file tells: it determines its entries, in
their order. Passwords are printed as they are, so this has to hold for
passwords that contain blanks, quotes and line feeds.

## Implementation notes

Fields of type `uint32_t` that are printed with `%d` appear as the `int` with
the same bits. An entry holds the values that one call prints; the letter in
front of a message tells whether the program received it, which `log.c` finds
out by comparing the id with `getpid()`.
-/

namespace HomeBanking

open Printf Code

def pipeBuf : ℕ := 4096
def widthId : ℕ := 5
def widthDelay : ℕ := 5
def widthAccount : ℕ := 4
def widthBalance : ℕ := 10
def widthOp : ℕ := 8
def widthRc : ℕ := 12
def widthHash : ℕ := 5
def widthTlvLen : ℕ := 3
def widthStartEnd : ℕ := 5

/-- `sync_mech_op_t`. -/
inductive SyncMechOp
  | mutexLock
  | mutexUnlock
  | mutexTryLock
  | condSignal
  | condWait
  | semInit
  | semPost
  | semWait
  deriving DecidableEq, Repr

/-- `sync_role_t`. -/
inductive SyncRole
  | producer
  | consumer
  | account
  deriving DecidableEq, Repr

/-- `OP_TYPE_STR`. -/
def opTypeStr : OpType → CString
  | .createAccount => text "CREATE"
  | .balance => text "BALANCE"
  | .transfer => text "TRANSFER"
  | .shutdown => text "SHUTDOWN"
  | .undefined _ => []

def rcStrs : List CString :=
  [text "OK", text "SRV_DOWN", text "SRV_TIMEOUT", text "USR_DOWN", text "LOGIN_FAIL",
    text "OP_NALLOW", text "ID_IN_USE", text "ID_NOT_FOUND", text "SAME_ID", text "NO_FUNDS",
    text "TOO_HIGH", text "OTHER"]

/-- `RC_STR`. -/
def rcStr (code : UInt32) : CString := rcStrs[code.toNat]?.getD []

/-- `SYNC_MECH_STR`. -/
def syncMechStr : SyncMechOp → CString
  | .mutexLock => text "MUTEX_LOCK"
  | .mutexUnlock => text "MUTEX_UNLOCK"
  | .mutexTryLock => text "MUTEX_TRYLOCK"
  | .condSignal => text "COND_SIGNAL"
  | .condWait => text "COND_WAIT"
  | .semInit => text "SEM_INIT"
  | .semPost => text "SEM_POST"
  | .semWait => text "SEM_WAIT"

/-- The first characters of `SYNC_ROLE_STR`. -/
def syncRoleChar : SyncRole → CString
  | .producer => text "P"
  | .consumer => text "C"
  | .account => text "A"

/-- What one call prints. -/
inductive LogEntry
  | request (received : Bool) (id : Int32) (line : RequestLine)
  | reply (received : Bool) (id : Int32) (line : ReplyLine)
  | bankOffice (id : Int32) (opens : Bool) (tid : UInt64)
  | accountCreation (id : Int32) (accountId : UInt32) (salt hashEnd : CString)
  | syncMech (id : Int32) (smo : SyncMechOp) (role : SyncRole) (sid : Int32) (val : Option Int32)
  | delay (id : Int32) (sid : Option Int32) (delayMs : UInt32)
  deriving DecidableEq

section Calls

variable (self id : Int32)

/-- `logRequest` of the program with pid `self`. -/
def logRequestEntry (req : TlvRequest) : Option LogEntry :=
  (logRequest req).map (.request (id ≠ self) id)

/-- `logReply` of the program with pid `self`. -/
def logReplyEntry (reply : RawReply) : Option LogEntry :=
  (logReply reply).map (.reply (id = self) id)

def logBankOfficeOpen (tid : UInt64) : LogEntry := .bankOffice id true tid

def logBankOfficeClose (tid : UInt64) : LogEntry := .bankOffice id false tid

def logAccountCreation (account : BankAccount) : LogEntry :=
  .accountCreation id account.accountId account.salt (account.hash.drop (hashLen - widthHash))

def logSyncMech (smo : SyncMechOp) (role : SyncRole) (sid : Int32) : LogEntry :=
  .syncMech id smo role sid none

def logSyncMechSem (smo : SyncMechOp) (role : SyncRole) (sid val : Int32) : LogEntry :=
  .syncMech id smo role sid (some val)

def logDelay (delayMs : UInt32) : LogEntry := .delay id none delayMs

def logSyncDelay (sid : Int32) (delayMs : UInt32) : LogEntry := .delay id (some sid) delayMs

end Calls

/-- An unsigned field that is printed with `%d`. -/
def asInt (x : UInt32) : ℤ := x.toInt32.toInt

/-- `"%c - %0*d - "`, with which all lines start. -/
def lineStart (letter : CString) (id : Int32) : List UInt8 :=
  letter ++ text " - " ++ zeroPadded widthId id.toInt ++ text " - "

/-- `"[%*d bytes] %0*d (%0*d, \"%s\")%*s [%*u ms] %-*s"`, the rest of
`logBaseRequestInfo`. A field width below zero pads on the other side. -/
def requestInfo (l : RequestLine) : List UInt8 :=
  text "[" ++ padLeft widthTlvLen (number (asInt l.length)) ++ text " bytes] " ++
    zeroPadded widthId (asInt l.header.pid) ++ text " (" ++
    zeroPadded widthAccount (asInt l.header.accountId) ++ text ", \"" ++
    l.header.password ++ text "\")" ++
    padLeft ((maxPasswordLen : ℤ) - l.header.password.length).natAbs [] ++ text " [" ++
    padLeft widthDelay (number l.header.opDelayMs.toNat) ++ text " ms] " ++
    padRight widthOp (opTypeStr l.type)

/-- What `logRequest` prints behind the text that all requests have. -/
def requestRest (l : RequestLine) : List UInt8 :=
  match l.create, l.transfer with
  | some c, _ => text " " ++ zeroPadded widthAccount (asInt c.accountId) ++ text " " ++
      padLeft widthBalance (number c.balance.toNat) ++ text "€ \"" ++ c.password ++ text "\"\n"
  | none, some t => text " " ++ zeroPadded widthAccount (asInt t.accountId) ++ text " " ++
      padLeft widthBalance (number t.amount.toNat) ++ text "€\n"
  | none, none => text "\n"

/-- `"[%*d bytes] %0*d %*s %*s"`, the rest of `logBaseReplyInfo`. -/
def replyInfo (l : ReplyLine) : List UInt8 :=
  text "[" ++ padLeft widthTlvLen (number (asInt l.length)) ++ text " bytes] " ++
    zeroPadded widthAccount (asInt l.accountId) ++ text " " ++
    padLeft widthOp (opTypeStr l.type) ++ text " " ++ padLeft widthRc (rcStr l.retCode)

/-- What `logReply` prints behind the text that all replies have. -/
def replyRest (l : ReplyLine) : List UInt8 :=
  match l.info with
  | none => text "\n"
  | some x =>
      if l.type = .shutdown then text " " ++ number (asInt x) ++ text "\n"
      else text " " ++ padLeft widthBalance (number (asInt x)) ++ text "€\n"

def messageLetter (received : Bool) : CString := if received then text "R" else text "E"

/-- `logSyncMechSem` prints the value of the semaphore as well. -/
def syncMechRest : Option Int32 → List UInt8
  | none => text "\n"
  | some val => text " [val=" ++ number val.toInt ++ text "]\n"

namespace LogEntry

def letter : LogEntry → CString
  | .request received .. | .reply received .. => messageLetter received
  | .bankOffice .. | .accountCreation .. => text "I"
  | .syncMech .. => text "S"
  | .delay .. => text "A"

def id : LogEntry → Int32
  | .request _ id _ | .reply _ id _ | .bankOffice id .. | .accountCreation id ..
  | .syncMech id .. | .delay id .. => id

/-- What stands behind the start of the line. -/
def body : LogEntry → List UInt8
  | .request _ _ l => requestInfo l ++ requestRest l
  | .reply _ _ l => replyInfo l ++ replyRest l
  | .bankOffice _ opens tid =>
      padRight widthStartEnd (if opens then text "OPEN" else text "CLOSE") ++ text " " ++
      number tid.toNat ++ text "\n"
  | .accountCreation _ accountId salt hashEnd =>
      zeroPadded widthAccount (asInt accountId) ++ text " " ++ padLeft saltLen salt ++
      text " ..." ++ padLeft widthHash hashEnd ++ text "\n"
  | .syncMech _ smo role sid val =>
      syncRoleChar role ++ zeroPadded widthId sid.toInt ++ text " " ++ syncMechStr smo ++
      syncMechRest val
  | .delay _ none delayMs =>
      text "[" ++ padLeft widthDelay (number delayMs.toNat) ++ text " ms]\n"
  | .delay _ (some sid) delayMs =>
      syncRoleChar .account ++ zeroPadded widthId sid.toInt ++ text " [" ++
      padLeft widthDelay (number delayMs.toNat) ++ text " ms]\n"

/-- The whole format with its values. -/
def format (e : LogEntry) : List UInt8 := lineStart e.letter e.id ++ e.body

/-- What `atomicPrintf` writes. The first part of a message goes through a buffer
of its own. -/
def line (e : LogEntry) : List UInt8 :=
  match e with
  | .request _ _ l =>
      snprintf pipeBuf (snprintf pipeBuf (lineStart e.letter e.id ++ requestInfo l) ++
        requestRest l)
  | .reply _ _ l =>
      snprintf pipeBuf (snprintf pipeBuf (lineStart e.letter e.id ++ replyInfo l) ++ replyRest l)
  | e => snprintf pipeBuf e.format

end LogEntry

/-- The contents of a log file. -/
def logFile (es : List LogEntry) : List UInt8 := es.flatMap LogEntry.line

example : (logRequestEntry 5801 5801 { Sample.create 5801 1 100 Sample.password₁ with
      value.header.opDelayMs := 500 }).map LogEntry.line =
    some (text "E - 05801 - [ 62 bytes] 05801 (0000, \"foobar123\")            " ++
      text "[  500 ms] CREATE   0001        100€ \"secret_pass\"\n") := by
  decide +kernel

/-- A password as the user program accepts it. -/
structure IsPassword (p : CString) : Prop where
  length_le : p.length ≤ maxPasswordLen
  noZero : 0 ∉ p

namespace LogEntry

/-- The entries that calls print, on passwords of up to 20 bytes, codes of
`ret_code_t`, and accounts with hexadecimal salts and digests. -/
def WellFormed : LogEntry → Prop
  | .request _ _ l => (∃ req, logRequest req = some l) ∧ IsPassword l.header.password ∧
      ∀ c ∈ l.create, IsPassword c.password
  | .reply _ _ l => (∃ reply, logReply reply = some l) ∧ l.retCode.toNat < rcStrs.length
  | .accountCreation _ _ salt hashEnd => HexString saltLen salt ∧ HexString widthHash hashEnd
  | _ => True

end LogEntry

theorem asInt_injective : Function.Injective asInt := by
  intro x y h
  exact congrArg Int32.toUInt32 (Int32.toInt_inj.mp h)

theorem toNat_injective {x y : UInt32} (h : (x.toNat : ℤ) = y.toNat) : x = y :=
  UInt32.toNat_inj.mp (Int.ofNat_inj.mp h)

/-- What a request prints depends on its type. -/
theorem logRequest_cases {req : TlvRequest} {l : RequestLine} (h : logRequest req = some l) :
    (l.type = .createAccount ∧ l.create = some req.value.create ∧ l.transfer = none) ∨
    (l.type = .transfer ∧ l.create = none ∧ l.transfer = some req.value.transfer) ∨
    ((l.type = .balance ∨ l.type = .shutdown) ∧ l.create = none ∧ l.transfer = none) := by
  unfold logRequest at h
  split at h
  · rename_i ht
    cases h
    exact .inl ⟨ht, rfl, rfl⟩
  · rename_i ht
    cases h
    exact .inr (.inl ⟨ht, rfl, rfl⟩)
  · rename_i ht
    cases h
    exact .inr (.inr ⟨.inl ht, rfl, rfl⟩)
  · rename_i ht
    cases h
    exact .inr (.inr ⟨.inr ht, rfl, rfl⟩)
  · cases h

theorem logReply_cases {reply : RawReply} {l : ReplyLine} (h : logReply reply = some l) :
    (l.type = .createAccount ∧ l.info = none) ∨
    ((l.type = .balance ∨ l.type = .transfer ∨ l.type = .shutdown) ∧ ∃ x, l.info = some x) := by
  simp only [logReply] at h
  split at h
  · rename_i ht
    cases h
    exact .inl ⟨ht, rfl⟩
  · rename_i ht
    cases h
    exact .inr ⟨.inl ht, _, rfl⟩
  · rename_i ht
    cases h
    exact .inr ⟨.inr (.inl ht), _, rfl⟩
  · rename_i ht
    cases h
    exact .inr ⟨.inr (.inr ht), _, rfl⟩
  · cases h

section Reading

variable {s t : List UInt8}

theorem read_lineStart {c c' : CString} {id id' : Int32} (hc : c.length = c'.length)
    (h : lineStart c id ++ s = lineStart c' id' ++ t) : c = c' ∧ id = id' ∧ s = t := by
  simp only [lineStart, List.append_assoc] at h
  obtain ⟨rfl, hrest⟩ := List.append_inj h hc
  obtain ⟨hid, hrest⟩ := read_zeroPadded (by decide) (List.append_cancel_left hrest)
  exact ⟨rfl, Int32.toInt_inj.mp hid, hrest⟩

/-- The padding is counted from the password, so the field has 22 bytes in all. -/
theorem passwordField_eq {p : CString} (hp : p.length ≤ maxPasswordLen) :
    p ++ (text "\")" ++ padLeft ((maxPasswordLen : ℤ) - p.length).natAbs []) =
      padRight (maxPasswordLen + 2) (p ++ text "\")") := by
  have hwidth : ((maxPasswordLen : ℤ) - p.length).natAbs - ([] : List UInt8).length =
      maxPasswordLen + 2 - (p ++ text "\")").length := by
    have htext : (text "\")").length = 2 := by decide
    rw [List.length_append, htext, List.length_nil]
    omega
  rw [padLeft, padRight, hwidth, List.append_nil, List.append_assoc]

/-- Blanks and quotes in a password do not matter. -/
theorem read_password {p p' : CString} (hp : p.length ≤ maxPasswordLen)
    (hp' : p'.length ≤ maxPasswordLen)
    (h : p ++ (text "\")" ++ (padLeft ((maxPasswordLen : ℤ) - p.length).natAbs [] ++ s)) =
      p' ++ (text "\")" ++ (padLeft ((maxPasswordLen : ℤ) - p'.length).natAbs [] ++ t))) :
    p = p' ∧ s = t := by
  have hread : Readable Set.univ {p : CString | p.length ≤ maxPasswordLen} fun p =>
      padRight (maxPasswordLen + 2) (p ++ text "\")") := by
    apply readable_padRight
    · intro p hp
      have htext : (text "\")").length = 2 := by decide
      have hle : p.length ≤ maxPasswordLen := hp
      rw [List.length_append, htext]
      omega
    · intro p _
      rw [show text "\")" = [34] ++ [41] by decide, ← List.append_assoc, List.getLast?_concat]
      decide
    · intro p _ q _ hpq
      exact List.append_cancel_right hpq
  simp only [← List.append_assoc] at h
  simp only [List.append_assoc p, List.append_assoc p', passwordField_eq hp,
    passwordField_eq hp'] at h
  exact hread.read hp hp' h

/-- The types with an entry in `OP_TYPE_STR`. -/
def operations : List OpType := [.createAccount, .balance, .transfer, .shutdown]

def syncMechOps : List SyncMechOp :=
  [.mutexLock, .mutexUnlock, .mutexTryLock, .condSignal, .condWait, .semInit, .semPost, .semWait]

theorem mem_syncMechOps (smo : SyncMechOp) : smo ∈ syncMechOps := by
  cases smo <;> decide

theorem opTypeStr_injOn : Set.InjOn opTypeStr {type | type ∈ operations} := by
  have h : ∀ type ∈ operations, ∀ type' ∈ operations,
      opTypeStr type = opTypeStr type' → type = type' := by decide
  exact fun type ht type' ht' => h type ht type' ht'

/-- The names fit in their fields. -/
theorem opTypeStr_fits : ∀ type ∈ operations, (opTypeStr type).length ≤ widthOp ∧
    (opTypeStr type).head? ≠ some 32 ∧ (opTypeStr type).getLast? ≠ some 32 := by
  decide

theorem readable_opLeft : Readable Set.univ {type | type ∈ operations} fun type =>
    padLeft widthOp (opTypeStr type) :=
  readable_padLeft (fun type h => (opTypeStr_fits type h).1)
    (fun type h => (opTypeStr_fits type h).2.1) opTypeStr_injOn

theorem readable_opRight : Readable Set.univ {type | type ∈ operations} fun type =>
    padRight widthOp (opTypeStr type) :=
  readable_padRight (fun type h => (opTypeStr_fits type h).1)
    (fun type h => (opTypeStr_fits type h).2.2) opTypeStr_injOn

theorem readable_rc : Readable Set.univ {code : UInt32 | code.toNat < rcStrs.length} fun code =>
    padLeft widthRc (rcStr code) := by
  have hwords : ∀ w ∈ rcStrs, w.length ≤ widthRc ∧ w.head? ≠ some 32 := by decide
  have hstr : ∀ code : UInt32, ∀ h : code.toNat < rcStrs.length, rcStr code = rcStrs[code.toNat] :=
    fun code h => by rw [rcStr, List.getElem?_eq_getElem h, Option.getD_some]
  apply readable_padLeft
  · intro code h
    rw [hstr code h]
    exact (hwords _ (List.getElem_mem h)).1
  · intro code h
    rw [hstr code h]
    exact (hwords _ (List.getElem_mem h)).2
  · intro code h code' h' heq
    rw [hstr code h, hstr code' h'] at heq
    exact UInt32.toNat_inj.mp (((by decide : rcStrs.Nodup).getElem_inj_iff).mp heq)

theorem readable_syncMech : Readable Set.univ Set.univ syncMechStr := by
  have h : ∀ a ∈ syncMechOps, ∀ b ∈ syncMechOps, syncMechStr a <+: syncMechStr b → a = b := by
    decide +kernel
  exact .of_prefixFree fun a _ b _ => h a (mem_syncMechOps a) b (mem_syncMechOps b)

theorem readable_role : Readable Set.univ Set.univ syncRoleChar := by
  apply Readable.of_length (k := 1)
  · intro role _
    cases role <;> decide
  · intro role _ role' _ h
    cases role <;> cases role' <;> first | rfl | exact absurd h (by decide)

/-- The last password ends with its line. -/
theorem read_createRest {l l' : RequestLine} {c c' : ReqCreateAccount} (hc : l.create = some c)
    (hc' : l'.create = some c') (hp : IsPassword c.password) (hp' : IsPassword c'.password)
    (hs : 34 ∉ s.take 19) (ht : 34 ∉ t.take 19) (h : requestRest l ++ s = requestRest l' ++ t) :
    c = c' ∧ s = t := by
  have hquoted : Readable {s | 34 ∉ s.take (maxPasswordLen - 1)}
      {p : CString | p.length ≤ maxPasswordLen} fun p => p ++ text "\"\n" :=
    Readable.quoted (by decide)
  obtain ⟨id, balance, password⟩ := c
  obtain ⟨id', balance', password'⟩ := c'
  rw [requestRest, requestRest, hc, hc'] at h
  simp only [List.append_assoc] at h
  obtain ⟨hid, h⟩ := read_zeroPadded (by decide) (List.append_cancel_left h)
  obtain ⟨hbalance, h⟩ := read_padLeft_number (by decide) h
  rw [← List.append_assoc, ← List.append_assoc] at h
  obtain ⟨rfl, hrest⟩ := hquoted hp.length_le hp'.length_le hs ht h
  exact ⟨by rw [asInt_injective hid, toNat_injective hbalance], hrest⟩

theorem read_transferRest {l l' : RequestLine} {a a' : ReqTransfer} (hc : l.create = none)
    (hc' : l'.create = none) (ha : l.transfer = some a) (ha' : l'.transfer = some a')
    (h : requestRest l ++ s = requestRest l' ++ t) : a = a' ∧ s = t := by
  obtain ⟨id, amount⟩ := a
  obtain ⟨id', amount'⟩ := a'
  rw [requestRest, requestRest, hc, hc', ha, ha'] at h
  simp only [List.append_assoc] at h
  obtain ⟨hid, h⟩ := read_zeroPadded (by decide) (List.append_cancel_left h)
  obtain ⟨hamount, h⟩ := read_padLeft_number (by decide) h
  exact ⟨by rw [asInt_injective hid, toNat_injective hamount], h⟩

/-- Requests of one type have arguments of one kind. -/
theorem read_requestRest {l l' : RequestLine} (htype : l.type = l'.type)
    (hl : (LogEntry.request true 0 l).WellFormed) (hl' : (LogEntry.request true 0 l').WellFormed)
    (hs : 34 ∉ s.take 19) (ht : 34 ∉ t.take 19) (h : requestRest l ++ s = requestRest l' ++ t) :
    l.create = l'.create ∧ l.transfer = l'.transfer ∧ s = t := by
  obtain ⟨⟨req, hreq⟩, -, hp⟩ := hl
  obtain ⟨⟨req', hreq'⟩, -, hp'⟩ := hl'
  rcases logRequest_cases hreq with ⟨hk, hc, ha⟩ | ⟨hk, hc, ha⟩ | ⟨hk, hc, ha⟩
  · rcases logRequest_cases hreq' with ⟨-, hc', ha'⟩ | ⟨hk', -⟩ | ⟨hk', -⟩
    · obtain ⟨hsame, hrest⟩ := read_createRest hc hc' (hp _ hc) (hp' _ hc') hs ht h
      exact ⟨by rw [hc, hc', hsame], ha.trans ha'.symm, hrest⟩
    · simp [hk, hk'] at htype
    · rcases hk' with hk' | hk' <;> simp [hk, hk'] at htype
  · rcases logRequest_cases hreq' with ⟨hk', -⟩ | ⟨-, hc', ha'⟩ | ⟨hk', -⟩
    · simp [hk, hk'] at htype
    · obtain ⟨hsame, hrest⟩ := read_transferRest hc hc' ha ha' h
      exact ⟨hc.trans hc'.symm, by rw [ha, ha', hsame], hrest⟩
    · rcases hk' with hk' | hk' <;> simp [hk, hk'] at htype
  · rcases logRequest_cases hreq' with ⟨hk', -⟩ | ⟨hk', -⟩ | ⟨-, hc', ha'⟩
    · rcases hk with hk | hk <;> simp [hk, hk'] at htype
    · rcases hk with hk | hk <;> simp [hk, hk'] at htype
    · rw [requestRest, requestRest, hc, hc', ha, ha'] at h
      exact ⟨hc.trans hc'.symm, ha.trans ha'.symm, List.append_cancel_left h⟩

theorem LogEntry.WellFormed.requestType {received : Bool} {id : Int32} {l : RequestLine}
    (h : (LogEntry.request received id l).WellFormed) : l.type ∈ operations := by
  obtain ⟨⟨req, hreq⟩, -⟩ := h
  rcases logRequest_cases hreq with ⟨hk, -⟩ | ⟨hk, -⟩ | ⟨hk | hk, -⟩ <;> rw [hk] <;> decide

theorem LogEntry.WellFormed.replyType {received : Bool} {id : Int32} {l : ReplyLine}
    (h : (LogEntry.reply received id l).WellFormed) : l.type ∈ operations := by
  obtain ⟨⟨reply, hreply⟩, -⟩ := h
  rcases logReply_cases hreply with ⟨hk, -⟩ | ⟨hk | hk | hk, -⟩ <;> rw [hk] <;> decide

theorem read_request {l l' : RequestLine} (hl : (LogEntry.request true 0 l).WellFormed)
    (hl' : (LogEntry.request true 0 l').WellFormed) (hs : 34 ∉ s.take 19) (ht : 34 ∉ t.take 19)
    (h : requestInfo l ++ requestRest l ++ s = requestInfo l' ++ requestRest l' ++ t) :
    l = l' ∧ s = t := by
  simp only [requestInfo, List.append_assoc] at h
  obtain ⟨hlength, h⟩ := read_padLeft_number (by decide) (List.append_cancel_left h)
  obtain ⟨hpid, h⟩ := read_zeroPadded (by decide) h
  obtain ⟨hid, h⟩ := read_zeroPadded (by decide) h
  obtain ⟨hpassword, h⟩ := read_password hl.2.1.length_le hl'.2.1.length_le h
  obtain ⟨hdelay, h⟩ := read_padLeft_number (by decide) (List.append_cancel_left h)
  obtain ⟨htype, h⟩ := readable_opRight.read hl.requestType hl'.requestType h
  obtain ⟨hcreate, htransfer, hrest⟩ := read_requestRest htype hl hl' hs ht h
  obtain ⟨type, length, ⟨pid, id, password, delay⟩, create, transfer⟩ := l
  obtain ⟨type', length', ⟨pid', id', password', delay'⟩, create', transfer'⟩ := l'
  obtain rfl : length = length' := asInt_injective hlength
  obtain rfl : pid = pid' := asInt_injective hpid
  obtain rfl : id = id' := asInt_injective hid
  obtain rfl : password = password' := hpassword
  obtain rfl : delay = delay' := toNat_injective hdelay
  obtain rfl : type = type' := htype
  obtain rfl : create = create' := hcreate
  obtain rfl : transfer = transfer' := htransfer
  exact ⟨rfl, hrest⟩

theorem read_replyRest {l l' : ReplyLine} (htype : l.type = l'.type)
    (hl : (LogEntry.reply true 0 l).WellFormed) (hl' : (LogEntry.reply true 0 l').WellFormed)
    (h : replyRest l ++ s = replyRest l' ++ t) : l.info = l'.info ∧ s = t := by
  obtain ⟨⟨reply, hreply⟩, -⟩ := hl
  obtain ⟨⟨reply', hreply'⟩, -⟩ := hl'
  rcases logReply_cases hreply with ⟨hk, hi⟩ | ⟨hk, x, hi⟩
  · rcases logReply_cases hreply' with ⟨-, hi'⟩ | ⟨hk', -⟩
    · rw [replyRest, replyRest, hi, hi'] at h
      exact ⟨hi.trans hi'.symm, List.append_cancel_left h⟩
    · rcases hk' with hk' | hk' | hk' <;> simp [hk, hk'] at htype
  · rcases logReply_cases hreply' with ⟨hk', -⟩ | ⟨-, x', hi'⟩
    · rcases hk with hk | hk | hk <;> simp [hk, hk'] at htype
    · rw [replyRest, replyRest, hi, hi', ← htype] at h
      have hread : x = x' ∧ s = t := by
        by_cases hshutdown : l.type = .shutdown
        · simp only [if_pos hshutdown, List.append_assoc] at h
          obtain ⟨hx, hrest⟩ := read_number (by decide) (List.append_cancel_left h)
          exact ⟨asInt_injective hx, hrest⟩
        · simp only [if_neg hshutdown, List.append_assoc] at h
          obtain ⟨hx, hrest⟩ := read_padLeft_number (by decide) (List.append_cancel_left h)
          exact ⟨asInt_injective hx, hrest⟩
      exact ⟨by rw [hi, hi', hread.1], hread.2⟩

theorem read_reply {l l' : ReplyLine} (hl : (LogEntry.reply true 0 l).WellFormed)
    (hl' : (LogEntry.reply true 0 l').WellFormed)
    (h : replyInfo l ++ replyRest l ++ s = replyInfo l' ++ replyRest l' ++ t) :
    l = l' ∧ s = t := by
  simp only [replyInfo, List.append_assoc] at h
  obtain ⟨hlength, h⟩ := read_padLeft_number (by decide) (List.append_cancel_left h)
  obtain ⟨hid, h⟩ := read_zeroPadded (by decide) h
  obtain ⟨htype, h⟩ := readable_opLeft.read hl.replyType hl'.replyType h
  obtain ⟨hcode, h⟩ := readable_rc.read hl.2 hl'.2 (List.append_cancel_left h)
  obtain ⟨hinfo, hrest⟩ := read_replyRest htype hl hl' h
  obtain ⟨type, length, id, code, info⟩ := l
  obtain ⟨type', length', id', code', info'⟩ := l'
  obtain rfl : length = length' := asInt_injective hlength
  obtain rfl : id = id' := asInt_injective hid
  obtain rfl : type = type' := htype
  obtain rfl : code = code' := hcode
  obtain rfl : info = info' := hinfo
  exact ⟨rfl, hrest⟩

/-- A request shows its account in brackets, a reply does not. -/
theorem request_ne_reply {l : RequestLine} {l' : ReplyLine}
    (hl' : (LogEntry.reply true 0 l').WellFormed) :
    requestInfo l ++ requestRest l ++ s ≠ replyInfo l' ++ replyRest l' ++ t := by
  intro h
  simp only [requestInfo, replyInfo, List.append_assoc] at h
  obtain ⟨-, h⟩ := read_padLeft_number (by decide) (List.append_cancel_left h)
  have hspace : ∀ w x, 32 ∉ zeroPadded w x := fun w x hmem => by
    rcases mem_zeroPadded hmem with hdigit | hminus
    · exact absurd hdigit (by decide)
    · exact absurd hminus (by decide)
  have hread : Readable Set.univ {w : List UInt8 | 32 ∉ w} fun w => w ++ [32] :=
    Readable.of_notMem (fun _ hw => hw) fun _ _ _ _ heq => heq
  rw [show text " (" = [32] ++ [40] by decide, show text " " = [32] by decide,
    List.append_assoc, ← List.append_assoc _ [32], ← List.append_assoc _ [32]] at h
  obtain ⟨-, h⟩ := hread.read (hspace _ _) (hspace _ _) h
  have hop : ∀ type ∈ operations, (padLeft widthOp (opTypeStr type)).head?.getD 0 ≠ 40 ∧
      padLeft widthOp (opTypeStr type) ≠ [] := by decide
  obtain ⟨hhead, hne⟩ := hop _ hl'.replyType
  have hfirst := congrArg List.head? h
  rw [List.head?_append_of_ne_nil _ hne] at hfirst
  exact hhead (by rw [← hfirst]; rfl)

theorem read_bankOffice {opens opens' : Bool} {tid tid' : UInt64}
    (h : (LogEntry.bankOffice 0 opens tid).body ++ s =
      (LogEntry.bankOffice 0 opens' tid').body ++ t) : opens = opens' ∧ tid = tid' ∧ s = t := by
  have hread : Readable Set.univ {opens : Bool | True} fun opens =>
      padRight widthStartEnd (if opens then text "OPEN" else text "CLOSE") := by
    have hword : ∀ opens : Bool, (if opens then text "OPEN" else text "CLOSE").length ≤
        widthStartEnd ∧ (if opens then text "OPEN" else text "CLOSE").getLast? ≠ some 32 := by
      decide
    have hinj : ∀ opens opens' : Bool, (if opens then text "OPEN" else text "CLOSE") =
        (if opens' then text "OPEN" else text "CLOSE") → opens = opens' := by
      decide
    exact readable_padRight (fun b _ => (hword b).1) (fun b _ => (hword b).2)
      fun b _ b' _ => hinj b b'
  simp only [LogEntry.body, List.append_assoc] at h
  obtain ⟨hopens, h⟩ := hread.read trivial trivial h
  obtain ⟨htid, h⟩ := read_number (by decide) (List.append_cancel_left h)
  exact ⟨hopens, UInt64.toNat_inj.mp (Int.ofNat_inj.mp htid), h⟩

theorem hexDigit_notMem {k : ℕ} {w : CString} (h : HexString k w) {b : UInt8}
    (hb : ∀ d < 16, b ≠ hexDigit d) : b ∉ w := by
  intro hmem
  obtain ⟨d, hd, heq⟩ := h.2 b hmem
  exact hb d hd heq

theorem readable_hex {k : ℕ} : Readable Set.univ {w | HexString k w} (padLeft k) := by
  refine readable_padLeft (f := fun w => w) (fun w hw => hw.1.le) (fun w hw hhead => ?_)
    fun _ _ _ _ h => h
  exact hexDigit_notMem hw (by decide) (List.mem_of_mem_head? hhead)

theorem read_accountCreation {accountId accountId' : UInt32} {salt salt' hashEnd hashEnd' : CString}
    (hl : (LogEntry.accountCreation 0 accountId salt hashEnd).WellFormed)
    (hl' : (LogEntry.accountCreation 0 accountId' salt' hashEnd').WellFormed)
    (h : (LogEntry.accountCreation 0 accountId salt hashEnd).body ++ s =
      (LogEntry.accountCreation 0 accountId' salt' hashEnd').body ++ t) :
    accountId = accountId' ∧ salt = salt' ∧ hashEnd = hashEnd' ∧ s = t := by
  simp only [LogEntry.body, List.append_assoc] at h
  obtain ⟨hid, h⟩ := read_zeroPadded (by decide) h
  obtain ⟨hsalt, h⟩ := readable_hex.read hl.1 hl'.1 h
  obtain ⟨hhash, h⟩ := readable_hex.read hl.2 hl'.2 (List.append_cancel_left h)
  exact ⟨asInt_injective hid, hsalt, hhash, List.append_cancel_left h⟩

theorem bankOffice_ne_accountCreation {opens : Bool} {tid : UInt64} {accountId : UInt32}
    {salt hashEnd : CString} : (LogEntry.bankOffice 0 opens tid).body ++ s ≠
      (LogEntry.accountCreation 0 accountId salt hashEnd).body ++ t := by
  intro h
  simp only [LogEntry.body, List.append_assoc] at h
  have hfirst := congrArg List.head? h.symm
  cases opens with
  | true =>
      rcases head?_zeroPadded_append hfirst with hdigit | hminus
      · exact absurd hdigit (by decide)
      · exact absurd hminus (by decide)
  | false =>
      rcases head?_zeroPadded_append hfirst with hdigit | hminus
      · exact absurd hdigit (by decide)
      · exact absurd hminus (by decide)

theorem read_syncMechRest {val val' : Option Int32}
    (h : syncMechRest val ++ s = syncMechRest val' ++ t) : val = val' ∧ s = t := by
  have hfirst : ∀ {v : Int32} {s t : List UInt8}, text "\n" ++ s ≠ syncMechRest (some v) ++ t := by
    intro v s t heq
    simp only [syncMechRest, List.append_assoc] at heq
    have hhead := congrArg List.head? heq
    rw [List.head?_append_of_ne_nil _ (by decide),
      List.head?_append_of_ne_nil _ (by decide)] at hhead
    exact absurd hhead (by decide)
  cases val with
  | none =>
      cases val' with
      | none => exact ⟨rfl, List.append_cancel_left h⟩
      | some v' => exact absurd h hfirst
  | some v =>
      cases val' with
      | none => exact absurd h.symm hfirst
      | some v' =>
          simp only [syncMechRest, List.append_assoc] at h
          obtain ⟨hval, hrest⟩ := read_number (by decide) (List.append_cancel_left h)
          exact ⟨congrArg some (Int32.toInt_inj.mp hval), hrest⟩

theorem read_syncMech {smo smo' : SyncMechOp} {role role' : SyncRole} {sid sid' : Int32}
    {val val' : Option Int32} (h : (LogEntry.syncMech 0 smo role sid val).body ++ s =
      (LogEntry.syncMech 0 smo' role' sid' val').body ++ t) :
    smo = smo' ∧ role = role' ∧ sid = sid' ∧ val = val' ∧ s = t := by
  simp only [LogEntry.body, List.append_assoc] at h
  obtain ⟨hrole, h⟩ := readable_role.read trivial trivial h
  obtain ⟨hsid, h⟩ := read_zeroPadded (by decide) h
  obtain ⟨hsmo, h⟩ := readable_syncMech.read trivial trivial h
  obtain ⟨hval, hrest⟩ := read_syncMechRest h
  exact ⟨hsmo, hrole, Int32.toInt_inj.mp hsid, hval, hrest⟩

theorem read_delay {id id' : Int32} {sid sid' : Option Int32} {delayMs delayMs' : UInt32}
    (h : (LogEntry.delay id sid delayMs).body ++ s = (LogEntry.delay id' sid' delayMs').body ++ t) :
    sid = sid' ∧ delayMs = delayMs' ∧ s = t := by
  have hfirst : ∀ s t : List UInt8, text "[" ++ s ≠ syncRoleChar .account ++ t := by
    intro s t heq
    have hhead := congrArg List.head? heq
    rw [List.head?_append_of_ne_nil _ (by decide),
      List.head?_append_of_ne_nil _ (by decide)] at hhead
    exact absurd hhead (by decide)
  cases sid with
  | none =>
      cases sid' with
      | none =>
          simp only [LogEntry.body, List.append_assoc] at h
          obtain ⟨hdelay, hrest⟩ := read_padLeft_number (by decide) (List.append_cancel_left h)
          exact ⟨rfl, toNat_injective hdelay, hrest⟩
      | some sid' =>
          simp only [LogEntry.body, List.append_assoc] at h
          exact absurd h (hfirst _ _)
  | some sid =>
      cases sid' with
      | none =>
          simp only [LogEntry.body, List.append_assoc] at h
          exact absurd h.symm (hfirst _ _)
      | some sid' =>
          simp only [LogEntry.body, List.append_assoc] at h
          obtain ⟨hsid, h⟩ := read_zeroPadded (by decide) (List.append_cancel_left h)
          obtain ⟨hdelay, hrest⟩ := read_padLeft_number (by decide) h
          exact ⟨congrArg some (Int32.toInt_inj.mp hsid), toNat_injective hdelay, hrest⟩

/-- The rests of a log show no quote among the first 19 bytes. -/
def quietRests : Set (List UInt8) := {s | 34 ∉ s.take 19}

/-- The letters that lines start with. -/
def letters : List CString := [text "R", text "E", text "I", text "S", text "A"]

theorem LogEntry.letter_mem (e : LogEntry) : e.letter ∈ letters := by
  cases e with
  | request received | reply received => cases received <;> simp [letters, letter, messageLetter]
  | _ => simp [letters, letter]

theorem LogEntry.length_letter (e : LogEntry) : e.letter.length = 1 := by
  have h : ∀ c ∈ letters, c.length = 1 := by decide
  exact h _ e.letter_mem

theorem messageLetter_injective : Function.Injective messageLetter := by
  have h : ∀ b b', messageLetter b = messageLetter b' → b = b' := by decide
  exact fun b b' => h b b'

theorem messageLetter_notMem (received : Bool) :
    messageLetter received ∉ [text "I", text "S", text "A"] := by
  cases received <;> decide

/-- The letter tells which of the formats with this letter are in question. -/
theorem readable_body {e e' : LogEntry} (he : e.WellFormed) (he' : e'.WellFormed)
    (hs : s ∈ quietRests) (ht : t ∈ quietRests) (hletter : e.letter = e'.letter)
    (hid : e.id = e'.id) (h : e.body ++ s = e'.body ++ t) : e = e' ∧ s = t := by
  have hinfo : text "I" ≠ text "S" ∧ text "I" ≠ text "A" ∧ text "S" ≠ text "A" := by decide
  have hmessage : ∀ {received c}, messageLetter received = c →
      c ∉ [text "I", text "S", text "A"] := fun heq => heq ▸ messageLetter_notMem _
  cases e with
  | request received id l =>
      cases e' with
      | request received' id' l' =>
          obtain ⟨rfl, hrest⟩ := read_request he he' hs ht h
          obtain rfl := messageLetter_injective hletter
          exact ⟨congrArg (LogEntry.request received · l) hid, hrest⟩
      | reply => exact absurd h (request_ne_reply he')
      | _ => exact absurd (by simp [LogEntry.letter]) (hmessage hletter)
  | reply received id l =>
      cases e' with
      | reply received' id' l' =>
          obtain ⟨rfl, hrest⟩ := read_reply he he' h
          obtain rfl := messageLetter_injective hletter
          exact ⟨congrArg (LogEntry.reply received · l) hid, hrest⟩
      | request => exact absurd h.symm (request_ne_reply he)
      | _ => exact absurd (by simp [LogEntry.letter]) (hmessage hletter)
  | bankOffice id opens tid =>
      cases e' with
      | bankOffice id' opens' tid' =>
          obtain ⟨rfl, rfl, hrest⟩ := read_bankOffice h
          exact ⟨congrArg (LogEntry.bankOffice · opens tid) hid, hrest⟩
      | accountCreation => exact absurd h bankOffice_ne_accountCreation
      | syncMech => exact absurd hletter hinfo.1
      | delay => exact absurd hletter hinfo.2.1
      | _ => exact absurd (by simp [LogEntry.letter]) (hmessage hletter.symm)
  | accountCreation id accountId salt hashEnd =>
      cases e' with
      | accountCreation id' accountId' salt' hashEnd' =>
          obtain ⟨rfl, rfl, rfl, hrest⟩ := read_accountCreation he he' h
          exact ⟨congrArg (LogEntry.accountCreation · accountId salt hashEnd) hid, hrest⟩
      | bankOffice => exact absurd h.symm bankOffice_ne_accountCreation
      | syncMech => exact absurd hletter hinfo.1
      | delay => exact absurd hletter hinfo.2.1
      | _ => exact absurd (by simp [LogEntry.letter]) (hmessage hletter.symm)
  | syncMech id smo role sid val =>
      cases e' with
      | syncMech id' smo' role' sid' val' =>
          obtain ⟨rfl, rfl, rfl, rfl, hrest⟩ := read_syncMech h
          exact ⟨congrArg (LogEntry.syncMech · smo role sid val) hid, hrest⟩
      | bankOffice | accountCreation => exact absurd hletter.symm hinfo.1
      | delay => exact absurd hletter hinfo.2.2
      | _ => exact absurd (by simp [LogEntry.letter]) (hmessage hletter.symm)
  | delay id sid delayMs =>
      cases e' with
      | delay id' sid' delayMs' =>
          obtain ⟨rfl, rfl, hrest⟩ := read_delay h
          exact ⟨congrArg (LogEntry.delay · sid delayMs) hid, hrest⟩
      | bankOffice | accountCreation => exact absurd hletter.symm hinfo.2.1
      | syncMech => exact absurd hletter.symm hinfo.2.2
      | _ => exact absurd (by simp [LogEntry.letter]) (hmessage hletter.symm)

/-- One line in front of the rest of the file. -/
theorem readable_format : Readable quietRests {e | e.WellFormed} LogEntry.format := by
  intro e he e' he' s hs t ht h
  simp only [LogEntry.format, List.append_assoc] at h
  obtain ⟨hletter, hid, hbody⟩ :=
    read_lineStart (e.length_letter.trans e'.length_letter.symm) h
  exact readable_body he he' hs ht hletter hid hbody

end Reading

section Sizes

theorem natAbs_asInt_lt (x : UInt32) : (asInt x).natAbs < 10 ^ 20 := by
  have hlt := x.toInt32.toInt_lt
  have hle := x.toInt32.le_toInt
  unfold asInt
  omega

theorem natAbs_toInt_lt (x : Int32) : x.toInt.natAbs < 10 ^ 20 := by
  have hlt := x.toInt_lt
  have hle := x.le_toInt
  omega

theorem natAbs_toNat_lt (x : UInt32) : (x.toNat : ℤ).natAbs < 10 ^ 20 := by
  have hlt := x.toNat_lt
  omega

/-- The start of a line has 12 bytes or more. -/
theorem fits_lineStart {b : UInt8} (hb : Text.isDigit b = false ∧ b ≠ 45)
    (htext : b ∉ text " - ") (hletters : ∀ c ∈ letters, b ∉ c) (e : LogEntry) :
    Fits b 12 28 (lineStart e.letter e.id) := by
  have hsep : Fits b 3 3 (text " - ") := fits_text ⟨htext, by decide, by decide⟩
  have hletter : Fits b 1 1 e.letter :=
    ⟨hletters _ e.letter_mem, e.length_letter.ge, e.length_letter.le⟩
  have hid : Fits b 5 21 (zeroPadded widthId e.id.toInt) :=
    fits_zeroPadded hb (natAbs_toInt_lt e.id) (by decide)
  exact ((hletter.append hsep).append hid).append hsep

/-- The words between the fields. -/
theorem fits_words {str : String} (h : 0 ∉ text str ∧ (text str).length ≤ 8) :
    Fits 0 0 8 (text str) :=
  fits_text ⟨h.1, Nat.zero_le _, h.2⟩

theorem IsPassword.fits {p : CString} (hp : IsPassword p) : Fits 0 0 20 p :=
  ⟨hp.noZero, Nat.zero_le _, hp.length_le⟩

theorem zero_notNumeral : Text.isDigit 0 = false ∧ (0 : UInt8) ≠ 45 := by decide

variable {width : ℕ}

theorem fits_zeroPadded_asInt (x : UInt32) (hwidth : width ≤ 21) :
    Fits 0 width 21 (zeroPadded width (asInt x)) :=
  fits_zeroPadded zero_notNumeral (natAbs_asInt_lt x) hwidth

theorem fits_padLeft_asInt (x : UInt32) (hwidth : width ≤ 21) :
    Fits 0 width 21 (padLeft width (number (asInt x))) :=
  (fits_number zero_notNumeral (natAbs_asInt_lt x)).padLeft (by decide) hwidth

theorem fits_padLeft_toNat (x : UInt32) (hwidth : width ≤ 21) :
    Fits 0 width 21 (padLeft width (number x.toNat)) :=
  (fits_number zero_notNumeral (natAbs_toNat_lt x)).padLeft (by decide) hwidth

theorem fits_toInt (x : Int32) : Fits 0 0 21 (number x.toInt) :=
  fits_number zero_notNumeral (natAbs_toInt_lt x)

theorem fits_op {type : OpType} (h : type ∈ operations) : Fits 0 0 8 (opTypeStr type) := by
  have hop : ∀ type ∈ operations, 0 ∉ opTypeStr type ∧ (opTypeStr type).length ≤ 8 := by decide
  exact ⟨(hop type h).1, Nat.zero_le _, (hop type h).2⟩

theorem fits_rc (code : UInt32) : Fits 0 0 12 (rcStr code) := by
  have hwords : ∀ w ∈ rcStrs, 0 ∉ w ∧ w.length ≤ 12 := by decide
  unfold rcStr
  cases h : rcStrs[code.toNat]? with
  | none => exact ⟨by decide, Nat.zero_le _, Nat.zero_le _⟩
  | some w =>
      obtain ⟨hzero, hlength⟩ := hwords w (List.mem_of_getElem? h)
      exact ⟨hzero, Nat.zero_le _, hlength⟩

theorem fits_hex {k : ℕ} {w : CString} (h : HexString k w) : Fits 0 0 k w :=
  ⟨hexDigit_notMem h (by decide), Nat.zero_le _, h.1.le⟩

theorem fits_requestInfo {l : RequestLine} (hl : (LogEntry.request true 0 l).WellFormed) :
    Fits 0 0 300 (requestInfo l) := by
  have hnil : Fits 0 0 20 ([] : List UInt8) := ⟨by decide, Nat.zero_le _, Nat.zero_le _⟩
  have hwidth : ((maxPasswordLen : ℤ) - l.header.password.length).natAbs ≤ 20 := by
    have hle := hl.2.1.length_le
    simp only [maxPasswordLen] at hle ⊢
    omega
  unfold requestInfo
  exact (fits_words (by decide)
    |>.append (fits_padLeft_asInt _ (by decide)) |>.append (fits_words (by decide))
    |>.append (fits_zeroPadded_asInt _ (by decide)) |>.append (fits_words (by decide))
    |>.append (fits_zeroPadded_asInt _ (by decide)) |>.append (fits_words (by decide))
    |>.append hl.2.1.fits |>.append (fits_words (by decide))
    |>.append (hnil.padLeft (by decide) hwidth) |>.append (fits_words (by decide))
    |>.append (fits_padLeft_toNat _ (by decide)) |>.append (fits_words (by decide))
    |>.append ((fits_op hl.requestType).padRight (by decide) (by decide))).weaken
    (Nat.zero_le _) (by decide)

theorem fits_requestRest {l : RequestLine} (hl : (LogEntry.request true 0 l).WellFormed) :
    Fits 0 0 300 (requestRest l) := by
  unfold requestRest
  split
  · rename_i c hc
    exact (fits_words (by decide)
      |>.append (fits_zeroPadded_asInt _ (by decide)) |>.append (fits_words (by decide))
      |>.append (fits_padLeft_toNat _ (by decide)) |>.append (fits_words (by decide))
      |>.append (hl.2.2 c hc).fits |>.append (fits_words (by decide))).weaken
      (Nat.zero_le _) (by decide)
  · exact (fits_words (by decide)
      |>.append (fits_zeroPadded_asInt _ (by decide)) |>.append (fits_words (by decide))
      |>.append (fits_padLeft_toNat _ (by decide)) |>.append (fits_words (by decide))).weaken
      (Nat.zero_le _) (by decide)
  · exact (fits_words (by decide)).weaken (Nat.le_refl _) (by decide)

theorem fits_replyInfo {l : ReplyLine} (hl : (LogEntry.reply true 0 l).WellFormed) :
    Fits 0 0 300 (replyInfo l) := by
  unfold replyInfo
  exact (fits_words (by decide)
    |>.append (fits_padLeft_asInt _ (by decide)) |>.append (fits_words (by decide))
    |>.append (fits_zeroPadded_asInt _ (by decide)) |>.append (fits_words (by decide))
    |>.append ((fits_op hl.replyType).padLeft (by decide) (by decide))
    |>.append (fits_words (by decide))
    |>.append ((fits_rc _).padLeft (by decide) (by decide))).weaken (Nat.zero_le _) (by decide)

theorem fits_replyRest (l : ReplyLine) : Fits 0 0 300 (replyRest l) := by
  unfold replyRest
  split
  · exact (fits_words (by decide)).weaken (Nat.le_refl _) (by decide)
  · split
    · exact (fits_words (by decide)
        |>.append (fits_number zero_notNumeral (natAbs_asInt_lt _))
        |>.append (fits_words (by decide))).weaken (Nat.zero_le _) (by decide)
    · exact (fits_words (by decide)
        |>.append (fits_padLeft_asInt _ (by decide))
        |>.append (fits_words (by decide))).weaken (Nat.zero_le _) (by decide)

theorem fits_syncMech (smo : SyncMechOp) (role : SyncRole) (sid : Int32) (val : Option Int32) :
    Fits 0 0 600 (LogEntry.syncMech 0 smo role sid val).body := by
  have hwords : ∀ smo ∈ syncMechOps, 0 ∉ syncMechStr smo ∧ (syncMechStr smo).length ≤ 16 := by
    decide
  have hsmo : Fits 0 0 16 (syncMechStr smo) :=
    ⟨(hwords smo (mem_syncMechOps smo)).1, Nat.zero_le _, (hwords smo (mem_syncMechOps smo)).2⟩
  have hrole : Fits 0 0 1 (syncRoleChar role) := by
    cases role <;> exact fits_text (by decide)
  have hval : Fits 0 0 37 (syncMechRest val) := by
    cases val with
    | none => exact (fits_words (by decide)).weaken (Nat.le_refl _) (by decide)
    | some v =>
        exact (fits_words (by decide) |>.append (fits_toInt v)
          |>.append (fits_words (by decide))).weaken (Nat.zero_le _) (by decide)
  exact (hrole
    |>.append (fits_zeroPadded zero_notNumeral (natAbs_toInt_lt sid) (by decide))
    |>.append (fits_words (by decide)) |>.append hsmo |>.append hval).weaken
    (Nat.zero_le _) (by decide)

/-- No line has a zero byte, or more than 628 bytes. -/
theorem LogEntry.WellFormed.fits_body {e : LogEntry} (he : e.WellFormed) :
    Fits 0 0 600 e.body := by
  cases e with
  | request => exact (fits_requestInfo he).append (fits_requestRest he)
  | reply => exact (fits_replyInfo he).append (fits_replyRest _)
  | bankOffice id opens tid =>
      have hword : Fits 0 0 5 (if opens then text "OPEN" else text "CLOSE") := by
        cases opens <;> exact fits_text (by decide)
      have htid : Fits 0 0 21 (number tid.toNat) := by
        have hlt := tid.toNat_lt
        exact fits_number zero_notNumeral (by omega)
      exact (hword.padRight (by decide) (by decide)
        |>.append (fits_words (by decide)) |>.append htid
        |>.append (fits_words (by decide))).weaken (Nat.zero_le _) (by decide)
  | accountCreation id accountId salt hashEnd =>
      exact (fits_zeroPadded_asInt accountId (by decide)
        |>.append (fits_words (by decide))
        |>.append ((fits_hex he.1).padLeft (by decide) (by decide))
        |>.append (fits_words (by decide))
        |>.append ((fits_hex he.2).padLeft (by decide) (by decide))
        |>.append (fits_words (by decide))).weaken (Nat.zero_le _) (by decide)
  | syncMech id smo role sid val => exact fits_syncMech smo role sid val
  | delay id sid delayMs =>
      cases sid with
      | none =>
          exact (fits_words (by decide)
            |>.append (fits_padLeft_toNat delayMs (by decide))
            |>.append (fits_words (by decide))).weaken (Nat.zero_le _) (by decide)
      | some sid =>
          exact (fits_words (by decide)
            |>.append (fits_zeroPadded zero_notNumeral (natAbs_toInt_lt sid) (by decide))
            |>.append (fits_words (by decide))
            |>.append (fits_padLeft_toNat delayMs (by decide))
            |>.append (fits_words (by decide))).weaken (Nat.zero_le _) (by decide)

theorem LogEntry.WellFormed.fits_format {e : LogEntry} (he : e.WellFormed) :
    Fits 0 12 628 e.format :=
  (fits_lineStart zero_notNumeral (by decide) (by decide) e).append he.fits_body

end Sizes

section Quotes

theorem quote_notNumeral : Text.isDigit 34 = false ∧ (34 : UInt8) ≠ 45 := by decide

/-- What the start of the line and seven bytes more show is enough. -/
theorem quiet_of_prefix {e : LogEntry} {u : List UInt8} {k l : ℕ} (hu : Fits 34 k l u)
    (hk : 7 ≤ k) (hbody : u <+: e.body) (s : List UInt8) : e.format ++ s ∈ quietRests := by
  obtain ⟨v, hv⟩ := hbody
  have hstart := fits_lineStart quote_notNumeral (by decide) (by decide) e
  have hlead := hstart.append hu
  have hformat : e.format ++ s = (lineStart e.letter e.id ++ u) ++ (v ++ s) := by
    rw [LogEntry.format, ← hv]
    simp only [List.append_assoc]
  have hlength : 19 ≤ (lineStart e.letter e.id ++ u).length :=
    (by omega : 19 ≤ 12 + k).trans hlead.least_le
  rw [hformat]
  change 34 ∉ List.take 19 _
  rw [List.take_append_of_le_length hlength]
  exact fun hmem => hlead.notMem (List.mem_of_mem_take hmem)

/-- How both messages start. -/
theorem fits_length (x : UInt32) : Fits 34 12 30
    (text "[" ++ padLeft widthTlvLen (number (asInt x)) ++ text " bytes] ") := by
  have hopen : Fits 34 1 1 (text "[") := fits_text (by decide)
  have hnumber : Fits 34 3 21 (padLeft widthTlvLen (number (asInt x))) :=
    (fits_number quote_notNumeral (natAbs_asInt_lt x)).padLeft (by decide) (by decide)
  have hclose : Fits 34 8 8 (text " bytes] ") := fits_text (by decide)
  exact (hopen.append hnumber).append hclose

/-- The passwords of a request stand behind more than 19 bytes without quotes. -/
theorem LogEntry.WellFormed.format_quiet {e : LogEntry} (he : e.WellFormed) (s : List UInt8) :
    e.format ++ s ∈ quietRests := by
  have hblank : Fits 34 1 1 (text " ") := fits_text (by decide)
  have hsid : ∀ sid : Int32, Fits 34 5 21 (zeroPadded widthId sid.toInt) := fun sid =>
    fits_zeroPadded quote_notNumeral (natAbs_toInt_lt sid) (by decide)
  cases e with
  | request received id l =>
      refine quiet_of_prefix (fits_length l.length) (by decide) ?_ s
      simp only [body, requestInfo, List.append_assoc, List.prefix_append_right_inj,
        List.prefix_append]
  | reply received id l =>
      refine quiet_of_prefix (fits_length l.length) (by decide) ?_ s
      simp only [body, replyInfo, List.append_assoc, List.prefix_append_right_inj,
        List.prefix_append]
  | bankOffice id opens tid =>
      have hword : Fits 34 0 5 (if opens then text "OPEN" else text "CLOSE") := by
        cases opens <;> exact fits_text (by decide)
      have htid : Fits 34 0 21 (number tid.toNat) := by
        have hlt := tid.toNat_lt
        exact fits_number quote_notNumeral (by omega)
      have hend : Fits 34 1 1 (text "\n") := fits_text (by decide)
      exact quiet_of_prefix ((hword.padRight (by decide) (by decide)
        |>.append hblank |>.append htid |>.append hend)) (by decide) (List.prefix_refl _) s
  | accountCreation id accountId salt hashEnd =>
      have hid : Fits 34 4 21 (zeroPadded widthAccount (asInt accountId)) :=
        fits_zeroPadded quote_notNumeral (natAbs_asInt_lt accountId) (by decide)
      have hsalt : Fits 34 64 64 (padLeft saltLen salt) :=
        (Fits.mk (hexDigit_notMem he.1 (by decide)) (Nat.zero_le _) he.1.1.le).padLeft
          (by decide) (by decide)
      refine quiet_of_prefix (hid.append hblank |>.append hsalt) (by decide) ?_ s
      simp only [body, List.append_assoc, List.prefix_append_right_inj, List.prefix_append]
  | syncMech id smo role sid val =>
      have hrole : Fits 34 1 1 (syncRoleChar role) := by
        cases role <;> exact fits_text (by decide)
      refine quiet_of_prefix (hrole.append (hsid sid) |>.append hblank) (by decide) ?_ s
      simp only [body, List.append_assoc, List.prefix_append_right_inj, List.prefix_append]
  | delay id sid delayMs =>
      cases sid with
      | none =>
          have hopen : Fits 34 1 1 (text "[") := fits_text (by decide)
          have hdelay : Fits 34 5 21 (padLeft widthDelay (number delayMs.toNat)) :=
            (fits_number quote_notNumeral (natAbs_toNat_lt delayMs)).padLeft (by decide) (by decide)
          have hend : Fits 34 5 5 (text " ms]\n") := fits_text (by decide)
          exact quiet_of_prefix (hopen.append hdelay |>.append hend) (by decide)
            (List.prefix_refl _) s
      | some sid =>
          have hrole : Fits 34 1 1 (syncRoleChar .account) := fits_text (by decide)
          have hopen : Fits 34 2 2 (text " [") := fits_text (by decide)
          refine quiet_of_prefix (hrole.append (hsid sid) |>.append hopen) (by decide) ?_ s
          simp only [body, List.append_assoc, List.prefix_append_right_inj, List.prefix_append]

end Quotes

/-- No line is cut or ended early. -/
theorem LogEntry.WellFormed.line_eq {e : LogEntry} (he : e.WellFormed) : e.line = e.format := by
  have hlength : e.format.length < pipeBuf := he.fits_format.le_most.trans_lt (by decide)
  have hzero := he.fits_format.notMem
  have hstart : ∀ {info rest : List UInt8}, e.body = info ++ rest →
      snprintf pipeBuf (snprintf pipeBuf (lineStart e.letter e.id ++ info) ++ rest) = e.format := by
    intro info rest hbody
    have hformat : e.format = (lineStart e.letter e.id ++ info) ++ rest := by
      rw [format, hbody, List.append_assoc]
    rw [hformat, List.length_append] at hlength
    rw [hformat] at hzero ⊢
    rw [snprintf_eq (by omega) fun h => hzero (List.mem_append_left _ h), snprintf_eq _ hzero]
    rw [List.length_append]
    exact hlength
  cases e with
  | request received id l => exact hstart rfl
  | reply received id l => exact hstart rfl
  | _ => exact snprintf_eq hlength hzero

/-- The lines of a file can be told apart. -/
theorem logFile_injOn : Set.InjOn logFile {es | ∀ e ∈ es, e.WellFormed} := by
  have hline : Readable quietRests {e | e.WellFormed} LogEntry.line := by
    intro e he e' he' s hs t ht h
    have hwf : e.WellFormed := he
    have hwf' : e'.WellFormed := he'
    rw [hwf.line_eq, hwf'.line_eq] at h
    exact readable_format he he' hs ht h
  refine hline.flatMap_injOn ?_ ?_ ?_
  · exact List.not_mem_nil
  · intro e he hnil
    have hwf : e.WellFormed := he
    have hlength := hwf.fits_format.least_le
    rw [← hwf.line_eq, hnil] at hlength
    exact absurd hlength (by decide)
  · intro e he s _
    have hwf : e.WellFormed := he
    rw [hwf.line_eq]
    exact hwf.format_quiet s

/-- A log file determines its entries and their order, whatever the passwords
contain, and no line is cut to the size of the buffer. -/
theorem log_readable :
    (∀ e : LogEntry, e.WellFormed → e.line = e.format ∧ e.line.length < pipeBuf) ∧
    Set.InjOn logFile {es | ∀ e ∈ es, e.WellFormed} := by
  refine ⟨fun e he => ⟨he.line_eq, ?_⟩, logFile_injOn⟩
  rw [he.line_eq]
  exact he.fits_format.le_most.trans_lt (by decide)

namespace Sample

/-- A creation whose password looks like the end of its line and the start of
another one. -/
def forged : LogEntry :=
  .request false 5801 ⟨.createAccount, 62, ⟨5801, 0, adminPassword, 500⟩,
    some ⟨1, 100, text "secret_p\"\nS - 0"⟩, none⟩

/-- The creation that the forged line shows. -/
def shown : LogEntry :=
  .request false 5801 ⟨.createAccount, 62, ⟨5801, 0, adminPassword, 500⟩,
    some ⟨1, 100, text "secret_p"⟩, none⟩

theorem wellFormed_create {id pid delay accountId balance : UInt32} {password password' : CString}
    (hp : IsPassword password) (hp' : IsPassword password') :
    (LogEntry.request false 5801 ⟨.createAccount, 62, ⟨pid, id, password, delay⟩,
      some ⟨accountId, balance, password'⟩, none⟩).WellFormed :=
  ⟨⟨⟨.createAccount, 62, ⟨pid, id, password, delay⟩, ⟨accountId, balance, password'⟩⟩, rfl⟩, hp,
    fun _ hc => Option.some.inj hc ▸ hp'⟩

end Sample

/-- No entries behind it make the shown line the forged one. -/
theorem log_readable_forged : Sample.forged.line = Sample.forged.format ∧
    logFile [Sample.forged] ≠ logFile [Sample.shown, logSyncMech 0 .mutexLock .producer 0] := by
  have hforged : Sample.forged.WellFormed :=
    Sample.wellFormed_create ⟨by decide, by decide⟩ ⟨by decide, by decide⟩
  have hshown : Sample.shown.WellFormed :=
    Sample.wellFormed_create ⟨by decide, by decide⟩ ⟨by decide, by decide⟩
  refine ⟨(log_readable.1 _ hforged).1, fun h => ?_⟩
  have heq := log_readable.2 (by simpa using hforged) (by
    rintro e he
    rcases List.mem_cons.mp he with rfl | he
    · exact hshown
    · obtain rfl := List.mem_singleton.mp he
      trivial) h
  simp at heq

end HomeBanking
