import HomeBanking.Wire
import HomeBanking.Indices
import HomeBanking.Lib.Checks
import HomeBanking.Lib.Text

/-!
# The user program

From the command line to the request that is sent: `parse_args` and
`validateArgs` of the user's `options.c`, and the functions of `user.c` that
build the four requests in memory that was just allocated.

## Implementation notes

A run of the program up to `sendRequest` either leaves with an exit status,
follows a NULL pointer, or has built its request. Messages on the terminal are
left out. The store of a password that does not fit its field is cut at the
end of the request; the program exits on its length before it is sent.
`parse_int` does not clear `errno`, so an `ERANGE` of one argument makes it
reject the next ones; `print_badpositional`, which reports a rejected argument in
between, is taken to leave `errno` as it is.
-/

namespace HomeBanking

open Bytes Text

/-- Why the program does not send a request. -/
inductive UserExit
  | exit (status : ℕ)
  | nullPointer
  deriving DecidableEq, Repr

def exitFailure : ℕ := 1
def passwordError : ℕ := 1
def idError : ℕ := 2
def opCodeError : ℕ := 3
def delayError : ℕ := 4
def balanceError : ℕ := 8
def argNumError : ℕ := 9

def minPasswordLen : ℕ := 8
def maxOpDelayMs : UInt32 := 99999

abbrev UserM := Except UserExit

/-- `option_t` of the user program. -/
structure UserOptions where
  accountId : UInt32
  password : CString
  opDelayMs : UInt32
  type : UInt32
  operationArguments : CString
  deriving DecidableEq, Repr

/-- `parse_int`: the number stored, none when the argument is rejected, and
whether `errno` is `ERANGE` afterwards. -/
def parseInt (erange : Bool) (str : CString) : Option UInt32 × Bool :=
  let result := strtol str
  let erange := erange || result.outOfRange
  if !result.found || erange || 2147483647 ≤ result.value || result.value < 0 then (none, erange)
  else (some (UInt32.ofInt result.value), erange)

/-- The arguments after the options, as `getopt_long` finds them; none when the
program shows its usage and leaves. It does so for `--help` too: the option
only sets a flag, for which the switch has no case. -/
def positionals : List CString → Option (List CString)
  | [] => some []
  | arg :: args =>
      match arg with
      | [45, 45] => some args
      | 45 :: 45 :: _ => none
      | 45 :: flag :: flags => if (flag :: flags).all (· = 104) then positionals args else none
      | _ => some (arg :: args)

def validateArgs (options : UserOptions) : UserM Unit := do
  if maxBankAccounts < options.accountId then throw (.exit idError)
  if options.password.length < minPasswordLen ∨ maxPasswordLen < options.password.length then
    throw (.exit passwordError)
  if maxOpDelayMs < options.opDelayMs then throw (.exit delayError)

/-- The five positional arguments. An argument that `parse_int` rejects leaves
its option as it was. -/
def parsePositionals (options : UserOptions) (a₁ a₂ a₃ a₄ a₅ : CString) : UserOptions :=
  let (accountId, erange) := parseInt false a₁
  let (opDelayMs, erange) := parseInt erange a₃
  let (type, _) := parseInt erange a₄
  { accountId := accountId.getD options.accountId
    password := a₂
    opDelayMs := opDelayMs.getD options.opDelayMs
    type := type.getD options.type
    operationArguments := a₅ }

/-- `options` is the memory just allocated, `argv` the arguments after the name
of the program. -/
def parseArgs (options : UserOptions) (argv : List CString) : UserM UserOptions := do
  if argv = [] then throw (.exit exitFailure)
  match positionals argv with
  | some [a₁, a₂, a₃, a₄, a₅] =>
      let options := parsePositionals options a₁ a₂ a₃ a₄ a₅
      validateArgs options
      return options
  | some _ => throw (.exit argNumError)
  | none => throw (.exit exitFailure)

/-- The number of spaces. -/
def checkArgumentsSpacesNo (arguments : CString) : ℕ := arguments.count 32

/-- The next token of the arguments, which is read through the pointer that
`strtok` returns. -/
def nextToken (args : CString) : UserM (CString × CString) :=
  match strtok 32 args with
  | some p => return p
  | none => throw .nullPointer

def createClient (pid : UInt32) (memory : RawRequest) : RawRequest :=
  memory.setField 0 (ofWord pid)

/-- An id among the arguments of an operation. -/
def parseAccountId (request : RawRequest) (token : CString) : UserM RawRequest := do
  let id := atoi token
  if id < 1 ∨ maxBankAccounts ≤ id then throw (.exit idError)
  return request.setField 33 (ofWord id)

/-- A balance or an amount among the arguments of an operation. -/
def parseAmount (request : RawRequest) (token : CString) : UserM RawRequest := do
  let amount := atoi token
  if amount < 1 ∨ 1000000000 < amount then throw (.exit balanceError)
  return request.setField 37 (ofWord amount)

def parseCreateAccountArgs (request : RawRequest) (args : CString) : UserM RawRequest := do
  let (token, args) ← nextToken args
  let request ← parseAccountId request token
  let (token, args) ← nextToken args
  let request ← parseAmount request token
  let (token, _) ← nextToken args
  let request := request.setField 41 (stored token)
  if token.length < minPasswordLen ∨ maxPasswordLen < token.length then
    throw (.exit passwordError)
  return request

def parseTransferArgs (request : RawRequest) (args : CString) : UserM RawRequest := do
  let (token, args) ← nextToken args
  let request ← parseAccountId request token
  let (token, _) ← nextToken args
  parseAmount request token

/-- What all four functions assign first: the type and the header. -/
def assignHeader (request : RawRequest) (options : UserOptions) : RawRequest :=
  (((request.setType options.type).setField 4 (ofWord options.accountId)).setField 29
    (ofWord options.opDelayMs)).setField 8 (stored options.password)

def createAccountRequest (request : RawRequest) (options : UserOptions) : UserM RawRequest := do
  let request := assignHeader request options
  if checkArgumentsSpacesNo options.operationArguments ≠ 2 then throw (.exit argNumError)
  let request ← parseCreateAccountArgs request options.operationArguments
  return request.setLength (sizeofReqHeader + sizeofReqCreateAccount)

def createBalanceRequest (request : RawRequest) (options : UserOptions) : UserM RawRequest := do
  let request := assignHeader request options
  if checkArgumentsSpacesNo options.operationArguments ≠ 0 then throw (.exit argNumError)
  return request.setLength sizeofReqHeader

def createTransferRequest (request : RawRequest) (options : UserOptions) : UserM RawRequest := do
  let request := assignHeader request options
  if checkArgumentsSpacesNo options.operationArguments ≠ 1 then throw (.exit argNumError)
  let request ← parseTransferArgs request options.operationArguments
  return request.setLength (sizeofReqHeader + sizeofReqTransfer)

def createShutDownRequest (request : RawRequest) (options : UserOptions) : UserM RawRequest := do
  let request := assignHeader request options
  if checkArgumentsSpacesNo options.operationArguments ≠ 0 then throw (.exit argNumError)
  return request.setLength sizeofReqHeader

/-- The switch of `main`. -/
def buildRequest (request : RawRequest) (options : UserOptions) : UserM RawRequest :=
  match OpType.ofCode options.type with
  | .createAccount => createAccountRequest request options
  | .balance => createBalanceRequest request options
  | .transfer => createTransferRequest request options
  | .shutdown => createShutDownRequest request options
  | .undefined _ => throw (.exit opCodeError)

/-- The program up to `sendRequest`, on allocated memory with any contents. -/
def userMain (pid : UInt32) (memory : RawRequest) (options : UserOptions)
    (argv : List CString) : UserM RawRequest := do
  let request := createClient pid memory
  let options ← parseArgs options argv
  buildRequest request options

section Requests

variable {request request' : RawRequest} {token args : CString} {options : UserOptions}

theorem nextToken_eq_ok {rest : CString} (h : nextToken args = .ok (token, rest)) :
    strtok 32 args = some (token, rest) := by
  unfold nextToken at h
  split at h
  · rename_i p hp
    rw [hp, Except.ok.inj h]
  · cases h

theorem parseAccountId_eq_ok (h : parseAccountId request token = .ok request') :
    (1 ≤ atoi token ∧ atoi token < maxBankAccounts) ∧
      request' = request.setField 33 (ofWord (atoi token)) := by
  obtain ⟨hid, he⟩ := Checks.check_eq_ok.mp h
  rw [not_or, UInt32.not_lt, UInt32.not_le] at hid
  exact ⟨hid, (Except.ok.inj he).symm⟩

theorem parseAmount_eq_ok (h : parseAmount request token = .ok request') :
    (1 ≤ (atoi token).toNat ∧ (atoi token).toNat ≤ 1000000000) ∧
      request' = request.setField 37 (ofWord (atoi token)) := by
  obtain ⟨hamount, he⟩ := Checks.check_eq_ok.mp h
  rw [not_or, UInt32.not_lt, UInt32.not_lt] at hamount
  exact ⟨⟨UInt32.le_iff_toNat_le.mp hamount.1, UInt32.le_iff_toNat_le.mp hamount.2⟩,
    (Except.ok.inj he).symm⟩

/-- Two tokens become the arguments of a transfer. -/
theorem parseTransferArgs_eq_ok (h : parseTransferArgs request args = .ok request') :
    ∃ t₁ args₁ t₂ args₂, strtok 32 args = some (t₁, args₁) ∧ strtok 32 args₁ = some (t₂, args₂) ∧
      (1 ≤ atoi t₁ ∧ atoi t₁ < maxBankAccounts) ∧
      (1 ≤ (atoi t₂).toNat ∧ (atoi t₂).toNat ≤ 1000000000) ∧
      request' = (request.setField 33 (ofWord (atoi t₁))).setField 37 (ofWord (atoi t₂)) := by
  obtain ⟨⟨t₁, args₁⟩, ht₁, h⟩ := Checks.bind_eq_ok.mp h
  obtain ⟨request₁, h₁, h⟩ := Checks.bind_eq_ok.mp h
  obtain ⟨⟨t₂, args₂⟩, ht₂, h⟩ := Checks.bind_eq_ok.mp h
  obtain ⟨hid, rfl⟩ := parseAccountId_eq_ok h₁
  obtain ⟨hamount, rfl⟩ := parseAmount_eq_ok h
  exact ⟨t₁, args₁, t₂, args₂, nextToken_eq_ok ht₁, nextToken_eq_ok ht₂, hid, hamount, rfl⟩

/-- Three tokens become the arguments of a creation. -/
theorem parseCreateAccountArgs_eq_ok (h : parseCreateAccountArgs request args = .ok request') :
    ∃ t₁ args₁ t₂ args₂ t₃ args₃, strtok 32 args = some (t₁, args₁) ∧
      strtok 32 args₁ = some (t₂, args₂) ∧ strtok 32 args₂ = some (t₃, args₃) ∧
      (1 ≤ atoi t₁ ∧ atoi t₁ < maxBankAccounts) ∧
      (1 ≤ (atoi t₂).toNat ∧ (atoi t₂).toNat ≤ 1000000000) ∧
      (minPasswordLen ≤ t₃.length ∧ t₃.length ≤ maxPasswordLen) ∧
      request' = ((request.setField 33 (ofWord (atoi t₁))).setField 37
        (ofWord (atoi t₂))).setField 41 (stored t₃) := by
  obtain ⟨⟨t₁, args₁⟩, ht₁, h⟩ := Checks.bind_eq_ok.mp h
  obtain ⟨request₁, h₁, h⟩ := Checks.bind_eq_ok.mp h
  obtain ⟨⟨t₂, args₂⟩, ht₂, h⟩ := Checks.bind_eq_ok.mp h
  obtain ⟨request₂, h₂, h⟩ := Checks.bind_eq_ok.mp h
  obtain ⟨⟨t₃, args₃⟩, ht₃, h⟩ := Checks.bind_eq_ok.mp h
  obtain ⟨hlength, he⟩ := Checks.check_eq_ok.mp h
  rw [not_or, Nat.not_lt, Nat.not_lt] at hlength
  obtain ⟨hid, rfl⟩ := parseAccountId_eq_ok h₁
  obtain ⟨hamount, rfl⟩ := parseAmount_eq_ok h₂
  exact ⟨t₁, args₁, t₂, args₂, t₃, args₃, nextToken_eq_ok ht₁, nextToken_eq_ok ht₂,
    nextToken_eq_ok ht₃, hid, hamount, hlength, (Except.ok.inj he).symm⟩

/-- What the user program promises of the requests it sends: they carry the
account id of the command line and arguments in their ranges, and everything
that is read of them lies inside the bytes that are sent. -/
structure UserRequest (options : UserOptions) (r : RawRequest) : Prop where
  type : r.decode.type = .ofCode options.type
  headerId : r.decode.headerId = options.accountId
  create : r.decode.type = .createAccount → CreateInRange r.decode
  transfer : r.decode.type = .transfer → TransferInRange r.decode
  extent : RawRequest.readExtent r.decode.type r.value ≤ r.decode.length.toNat
  fits : r.decode.length.toNat ≤ 62

/-- The header stays as `assignHeader` leaves it as long as only arguments are
assigned. -/
theorem header_of_take (hpassword : options.password.length ≤ maxPasswordLen) {v : Block 62}
    (h : (assignHeader request options).value.1.take 33 = v.1.take 33) :
    v.word 4 = options.accountId ∧ (v.string 8).length ≤ 20 := by
  change options.password.length ≤ 20 at hpassword
  let m := request.value.store 4 (ofWord options.accountId)
  let m' := m.store 29 (ofWord options.opDelayMs)
  have hvalue : (assignHeader request options).value = m'.store 8 (stored options.password) := rfl
  rw [hvalue] at h
  have hid : (m'.store 8 (stored options.password)).word 4 = options.accountId := by
    have htake : m.1.take 8 = (m'.store 8 (stored options.password)).1.take 8 :=
      ((m'.take_store_of_le _ (by omega)).trans (m.take_store_of_le _ (by omega))).symm
    rw [Block.word_eq_of_take htake (by omega)]
    exact Block.word_store _ _ (by omega)
  have hstring : ((m'.store 8 (stored options.password)).string 8).length ≤ 20 :=
    (m'.length_string_store_le (by omega)).trans hpassword
  have hsame : v.string 8 = (m'.store 8 (stored options.password)).string 8 :=
    Block.string_eq_of_take h (by omega)
  exact ⟨(Block.word_eq_of_take h (by omega)).trans hid, hsame ▸ hstring⟩

/-- The two words that `create` and `transfer` start with. -/
theorem arguments_of_take {m v : Block 62} (id amount : UInt32)
    (h : ((m.store 33 (ofWord id)).store 37 (ofWord amount)).1.take 41 = v.1.take 41) :
    m.1.take 33 = v.1.take 33 ∧ v.word 33 = id ∧ v.word 37 = amount := by
  have hbefore : ∀ {j}, j ≤ 37 → (m.store 33 (ofWord id)).1.take j = v.1.take j := by
    intro j hj
    have htake := congrArg (List.take j) h
    rw [List.take_take, List.take_take, Nat.min_eq_left (by omega)] at htake
    rw [← htake, Block.take_store_of_le _ _ hj]
  refine ⟨(m.take_store_of_le _ le_rfl).symm.trans (hbefore (by omega)), ?_, ?_⟩
  · rw [Block.word_eq_of_take (hbefore (j := 37) le_rfl) (by omega)]
    exact Block.word_store _ _ (by omega)
  · rw [Block.word_eq_of_take h (by omega)]
    exact Block.word_store _ _ (by omega)

variable (request) in
/-- A request with the header that `assignHeader` leaves. -/
theorem userRequest_of (hpassword : options.password.length ≤ maxPasswordLen) {v : Block 62}
    {length : UInt32} (h : (assignHeader request options).value.1.take 33 = v.1.take 33)
    (hlow : 33 ≤ length.toNat) (hfits : length.toNat ≤ 62)
    (hcreate : OpType.ofCode options.type = .createAccount →
      (1 ≤ v.word 33 ∧ v.word 33 < maxBankAccounts) ∧
      (1 ≤ (v.word 37).toNat ∧ (v.word 37).toNat ≤ 1000000000) ∧
      41 + (v.string 41).length + 1 ≤ length.toNat)
    (htransfer : OpType.ofCode options.type = .transfer →
      (1 ≤ v.word 33 ∧ v.word 33 < maxBankAccounts) ∧
      (1 ≤ (v.word 37).toNat ∧ (v.word 37).toNat ≤ 1000000000) ∧ 41 ≤ length.toNat) :
    UserRequest options ⟨request.type.store 0 (ofWord options.type),
      request.length.store 0 (ofWord length), v⟩ := by
  obtain ⟨hid, hstring⟩ := header_of_take hpassword h
  have htype : (request.type.store 0 (ofWord options.type)).word 0 = options.type :=
    Block.word_store _ _ (by omega)
  have hlength : (request.length.store 0 (ofWord length)).word 0 = length :=
    Block.word_store _ _ (by omega)
  refine ⟨?_, hid, ?_, ?_, ?_, ?_⟩
  · simp only [RawRequest.decode, htype]
  · simp only [RawRequest.decode, htype]
    intro ht
    exact ⟨(hcreate ht).2.1, (hcreate ht).1⟩
  · simp only [RawRequest.decode, htype]
    intro ht
    exact ⟨(htransfer ht).2.1, (htransfer ht).1⟩
  · simp only [RawRequest.decode, htype, hlength, RawRequest.readExtent]
    cases ht : OpType.ofCode options.type with
    | createAccount =>
        have := (hcreate ht).2.2
        dsimp only
        omega
    | transfer =>
        have := (htransfer ht).2.2
        dsimp only
        omega
    | _ =>
        dsimp only
        omega
  · simp only [RawRequest.decode, hlength]
    exact hfits

theorem createBalanceRequest_eq_ok (hpassword : options.password.length ≤ maxPasswordLen)
    (hcreate : OpType.ofCode options.type ≠ .createAccount)
    (htransfer : OpType.ofCode options.type ≠ .transfer)
    (h : createBalanceRequest request options = .ok request') :
    UserRequest options request' := by
  obtain ⟨_, he⟩ := Checks.check_eq_ok.mp h
  obtain rfl := Except.ok.inj he
  exact userRequest_of request hpassword rfl (by decide) (by decide)
    (fun ht => absurd ht hcreate) (fun ht => absurd ht htransfer)

theorem createTransferRequest_eq_ok (hpassword : options.password.length ≤ maxPasswordLen)
    (htransfer : OpType.ofCode options.type = .transfer)
    (h : createTransferRequest request options = .ok request') :
    UserRequest options request' := by
  obtain ⟨_, h⟩ := Checks.check_eq_ok.mp h
  obtain ⟨request₁, h₁, he⟩ := Checks.bind_eq_ok.mp h
  obtain rfl := Except.ok.inj he
  obtain ⟨t₁, _, t₂, _, -, -, hid, hamount, rfl⟩ := parseTransferArgs_eq_ok h₁
  obtain ⟨htake, hword33, hword37⟩ :=
    arguments_of_take (m := (assignHeader request options).value) (atoi t₁) (atoi t₂) rfl
  refine userRequest_of request hpassword htake (by decide) (by decide)
    (fun ht => ?_) (fun _ => ⟨hword33.symm ▸ hid, hword37.symm ▸ hamount, by decide⟩)
  rw [htransfer] at ht
  cases ht

theorem createAccountRequest_eq_ok (hpassword : options.password.length ≤ maxPasswordLen)
    (hcreate : OpType.ofCode options.type = .createAccount)
    (h : createAccountRequest request options = .ok request') :
    UserRequest options request' := by
  obtain ⟨_, h⟩ := Checks.check_eq_ok.mp h
  obtain ⟨request₁, h₁, he⟩ := Checks.bind_eq_ok.mp h
  obtain rfl := Except.ok.inj he
  obtain ⟨t₁, _, t₂, _, password, _, -, -, -, hid, hamount, hlength, rfl⟩ :=
    parseCreateAccountArgs_eq_ok h₁
  have hfits : password.length ≤ 20 := hlength.2
  let m := ((assignHeader request options).value.store 33 (ofWord (atoi t₁))).store 37
    (ofWord (atoi t₂))
  obtain ⟨htake, hword33, hword37⟩ := arguments_of_take (atoi t₁) (atoi t₂)
    (m.take_store_of_le (stored password) le_rfl).symm
  have hstring := m.length_string_store_le (i := 41) (s := password) (by omega)
  have hextent : 41 + ((m.store 41 (stored password)).string 41).length + 1 ≤ 62 := by omega
  refine userRequest_of request hpassword htake (by decide) (by decide)
    (fun _ => ⟨hword33.symm ▸ hid, hword37.symm ▸ hamount, hextent⟩) (fun ht => ?_)
  rw [hcreate] at ht
  cases ht

/-- Every request that the program builds keeps the promises. -/
theorem buildRequest_eq_ok (hpassword : options.password.length ≤ maxPasswordLen)
    (h : buildRequest request options = .ok request') :
    UserRequest options request' ∧ ∀ code, OpType.ofCode options.type ≠ .undefined code := by
  unfold buildRequest at h
  cases ht : OpType.ofCode options.type with
  | createAccount =>
      rw [ht] at h
      exact ⟨createAccountRequest_eq_ok hpassword ht h, nofun⟩
  | transfer =>
      rw [ht] at h
      exact ⟨createTransferRequest_eq_ok hpassword ht h, nofun⟩
  | balance | shutdown =>
      rw [ht] at h
      exact ⟨createBalanceRequest_eq_ok hpassword (by simp [ht]) (by simp [ht]) h, nofun⟩
  | undefined code =>
      rw [ht] at h
      cases h

end Requests

theorem validateArgs_eq_ok {options : UserOptions} (h : validateArgs options = .ok ()) :
    options.accountId ≤ maxBankAccounts ∧ minPasswordLen ≤ options.password.length ∧
      options.password.length ≤ maxPasswordLen ∧ options.opDelayMs ≤ maxOpDelayMs := by
  obtain ⟨hid, h⟩ := Checks.check_eq_ok.mp h
  obtain ⟨hpassword, h⟩ := Checks.check_eq_ok.mp h
  obtain ⟨hdelay, _⟩ := Checks.last_check_eq_ok.mp h
  rw [not_or, Nat.not_lt, Nat.not_lt] at hpassword
  exact ⟨UInt32.not_lt.mp hid, hpassword.1, hpassword.2, UInt32.not_lt.mp hdelay⟩

theorem parseArgs_eq_ok {options options' : UserOptions} {argv : List CString}
    (h : parseArgs options argv = .ok options') : ∃ a₁ a₂ a₃ a₄ a₅,
      positionals argv = some [a₁, a₂, a₃, a₄, a₅] ∧
      options' = parsePositionals options a₁ a₂ a₃ a₄ a₅ ∧ validateArgs options' = .ok () := by
  obtain ⟨_, h⟩ := Checks.check_eq_ok.mp h
  split at h
  · rename_i a₁ a₂ a₃ a₄ a₅ hargs
    obtain ⟨_, hvalid, he⟩ := Checks.bind_eq_ok.mp h
    obtain rfl := Except.ok.inj he
    exact ⟨a₁, a₂, a₃, a₄, a₅, hargs, rfl, hvalid⟩
  · cases h
  · cases h

/-- The program sends no request that breaks the promises. -/
theorem userRequest_of_userMain {pid : UInt32} {memory request : RawRequest}
    {options : UserOptions} {argv : List CString}
    (h : userMain pid memory options argv = .ok request) :
    ∃ options', UserRequest options' request := by
  obtain ⟨options', hparse, h⟩ := Checks.bind_eq_ok.mp h
  obtain ⟨_, _, _, _, _, -, -, hvalid⟩ := parseArgs_eq_ok hparse
  exact ⟨options', (buildRequest_eq_ok (validateArgs_eq_ok hvalid).2.2.1 h).1⟩

/-- `parse_int` accepts the first positional argument, as the given account id. -/
def AccountAccepted (argv : List CString) (account : UInt32) : Prop :=
  ∃ a₁ args, positionals argv = some (a₁ :: args) ∧ (parseInt false a₁).1 = some account

theorem userMain_eq_ok {pid account : UInt32} {memory request : RawRequest}
    {options : UserOptions} {argv : List CString} (haccount : AccountAccepted argv account)
    (h : userMain pid memory options argv = .ok request) :
    ∃ options', options'.accountId = account ∧ account ≤ maxBankAccounts ∧
      options'.password.length ≤ maxPasswordLen ∧ UserRequest options' request ∧
      ∀ code, request.decode.type ≠ .undefined code := by
  obtain ⟨options', hparse, h⟩ := Checks.bind_eq_ok.mp h
  obtain ⟨a₁, a₂, a₃, a₄, a₅, hargs, rfl, hvalid⟩ := parseArgs_eq_ok hparse
  obtain ⟨hid, -, hpassword, -⟩ := validateArgs_eq_ok hvalid
  obtain ⟨a, args, hargs', ha⟩ := haccount
  obtain ⟨rfl, -⟩ := List.cons.inj (Option.some.inj (hargs.symm.trans hargs'))
  have haccount : (parsePositionals options a₁ a₂ a₃ a₄ a₅).accountId = account := by
    simp only [parsePositionals, ha, Option.getD_some]
  obtain ⟨huser, hdefined⟩ := buildRequest_eq_ok hpassword h
  exact ⟨_, haccount, haccount ▸ hid, hpassword, huser, fun code => huser.type ▸ hdefined code⟩

section Indices

variable {ι : Type} (sha256sum : CString → CString) (me : ι) (salt : CString)

/-- The ids in a request of the user program are inside the account array, and
so is every index that is used for it in any state of the server, if and only
if the account id of the command line is not 4096: `validateArgs` allows this
id, one more than the array has. -/
theorem userMain_inArray_iff {pid account : UInt32} {memory request : RawRequest}
    {options : UserOptions} {argv : List CString} (haccount : AccountAccepted argv account)
    (h : userMain pid memory options argv = .ok request) :
    (request.decode.InArray ↔ account ≠ 4096) ∧
    ((∀ w id, processRequest sha256sum me salt request.decode w ≠ .error (.outOfBounds id)) ↔
      account ≠ 4096) := by
  obtain ⟨options', rfl, hid, -, huser, -⟩ := userMain_eq_ok haccount h
  have hin : request.decode.InArray ↔ options'.accountId ≠ 4096 := by
    constructor
    · rintro hin hmax
      have hlt := hin.1
      rw [huser.headerId, hmax] at hlt
      exact absurd hlt (by decide)
    · intro hne
      have hlt : options'.accountId < maxBankAccounts := by
        apply UInt32.lt_iff_toNat_lt.mpr
        have hle := UInt32.le_iff_toNat_le.mp hid
        have hne' : options'.accountId.toNat ≠ maxBankAccounts.toNat :=
          fun heq => hne (UInt32.toNat_inj.mp heq)
        omega
      exact ⟨huser.headerId ▸ hlt, fun ht => (huser.create ht).2.2,
        fun ht => (huser.transfer ht).2.2⟩
  refine ⟨hin, fun hbounds => ?_, fun hne => processRequest_inBounds (hin.mpr hne)⟩
  rintro hmax
  have hout : ¬ request.decode.headerId < maxBankAccounts := by
    rw [huser.headerId, hmax]
    decide
  exact hbounds ⟨Bank.idle fun _ => none, Sample.emptyReply⟩ _ (processRequest_outOfBounds hout rfl)

end Indices

namespace Sample

/-- Memory that was never used. -/
def memory : RawRequest := ⟨.replicate 4 0, .replicate 4 0, .replicate 62 0⟩

def options : UserOptions := ⟨0, [], 0, 0, []⟩

/-- The command line of a balance check. -/
def balanceArgv (account : String) : List CString :=
  [bytes account, password₁, bytes "0", bytes "1", []]

end Sample

/-- A balance check of account 3 stays inside the array. -/
theorem userMain_inArray_three : ∃ request,
    userMain 9 Sample.memory Sample.options (Sample.balanceArgv "3") = .ok request ∧
    request.decode.InArray ∧ ∀ w id, processRequest Sample.sha256sum () Sample.salt
      request.decode w ≠ .error (.outOfBounds id) := by
  have hsent : (userMain 9 Sample.memory Sample.options (Sample.balanceArgv "3")).map
      (fun r => r.decode.headerId) = .ok 3 := by
    decide +kernel
  obtain ⟨request, h, -⟩ := Checks.map_eq_ok.mp hsent
  have haccount : AccountAccepted (Sample.balanceArgv "3") 3 :=
    ⟨_, _, rfl, by decide +kernel⟩
  have hiff := userMain_inArray_iff Sample.sha256sum () Sample.salt haccount h
  exact ⟨request, h, hiff.1.mpr (by decide), hiff.2.mpr (by decide)⟩

/-- A balance check of account 4096 is sent, and the server looks at the entry
behind the last one. -/
theorem userMain_outOfBounds : ∃ request,
    userMain 9 Sample.memory Sample.options (Sample.balanceArgv "4096") = .ok request ∧
    (parseInt false (Sample.bytes "4096")).1 = some 4096 ∧ request.decode.headerId = 4096 ∧
    processRequest Sample.sha256sum () Sample.salt request.decode
      ⟨Bank.idle Sample.adminOnly, Sample.emptyReply⟩ = .error (.outOfBounds 4096) := by
  have hsent : (userMain 9 Sample.memory Sample.options (Sample.balanceArgv "4096")).map
      (fun r => r.decode.headerId) = .ok 4096 := by
    decide +kernel
  obtain ⟨request, h, hid⟩ := Checks.map_eq_ok.mp hsent
  have hout : ¬ request.decode.headerId < maxBankAccounts := by
    rw [hid]
    decide
  refine ⟨request, h, by decide +kernel, hid, ?_⟩
  rw [← hid]
  exact processRequest_outOfBounds hout rfl

end HomeBanking
