import HomeBanking.User

/-!
# The arguments of an operation

The last positional argument of the user program is a list of words. It is
scanned twice: `checkArgumentsSpacesNo` counts its spaces, and `strtok` takes
the words off, for which spaces at the ends do not count and several in a row
count once. `atoi` reads a number from a word: it skips white space in front,
stops at the first character that is no digit, and keeps 32 bits of the result.
-/

namespace HomeBanking

open Bytes Text

section Tokens

variable {request request' : RawRequest} {options : UserOptions} {args token : CString}

theorem nextToken_eq_error {e : UserExit} (h : nextToken args = .error e) :
    tokens 32 args = [] := by
  unfold nextToken at h
  split at h
  · cases h
  · exact strtok_eq_none.mp ‹_›

theorem parseAccountId_ne_nullPointer : parseAccountId request token ≠ .error .nullPointer := by
  intro h
  rcases Checks.check_eq_error h with he | he <;> cases he

theorem parseAmount_ne_nullPointer : parseAmount request token ≠ .error .nullPointer := by
  intro h
  rcases Checks.check_eq_error h with he | he <;> cases he

/-- Where the second word is missing, or both are, `atoi` is called with NULL. -/
theorem length_tokens_of_parseTransferArgs
    (h : parseTransferArgs request args = .error .nullPointer) :
    (tokens 32 args).length < 2 := by
  rcases Checks.bind_eq_error.mp h with h | ⟨⟨t₁, args₁⟩, ht₁, h⟩
  · rw [nextToken_eq_error h]
    decide
  have htokens := tokens_of_strtok (nextToken_eq_ok ht₁)
  rcases Checks.bind_eq_error.mp h with h | ⟨request₁, _, h⟩
  · exact absurd h parseAccountId_ne_nullPointer
  rcases Checks.bind_eq_error.mp h with h | ⟨⟨t₂, args₂⟩, _, h⟩
  · rw [htokens, nextToken_eq_error h]
    exact Nat.lt_succ_self 1
  · exact absurd h parseAmount_ne_nullPointer

theorem length_tokens_of_parseCreateAccountArgs
    (h : parseCreateAccountArgs request args = .error .nullPointer) :
    (tokens 32 args).length < 3 := by
  rcases Checks.bind_eq_error.mp h with h | ⟨⟨t₁, args₁⟩, ht₁, h⟩
  · rw [nextToken_eq_error h]
    exact Nat.succ_pos 2
  have htokens₁ := tokens_of_strtok (nextToken_eq_ok ht₁)
  rcases Checks.bind_eq_error.mp h with h | ⟨request₁, _, h⟩
  · exact absurd h parseAccountId_ne_nullPointer
  rcases Checks.bind_eq_error.mp h with h | ⟨⟨t₂, args₂⟩, ht₂, h⟩
  · rw [htokens₁, nextToken_eq_error h]
    exact Nat.lt_succ_of_lt (Nat.lt_succ_self 1)
  have htokens₂ := tokens_of_strtok (nextToken_eq_ok ht₂)
  rcases Checks.bind_eq_error.mp h with h | ⟨request₂, _, h⟩
  · exact absurd h parseAmount_ne_nullPointer
  rcases Checks.bind_eq_error.mp h with h | ⟨⟨t₃, args₃⟩, _, h⟩
  · rw [htokens₁, htokens₂, nextToken_eq_error h]
    exact Nat.lt_succ_self 2
  · rcases Checks.check_eq_error h with he | he <;> cases he

theorem length_tokens_of_createTransferRequest
    (h : createTransferRequest request options = .error .nullPointer) :
    (tokens 32 options.operationArguments).length < 2 := by
  rcases Checks.check_eq_error h with he | he
  · cases he
  · rcases Checks.bind_eq_error.mp he with he | ⟨_, _, he⟩
    · exact length_tokens_of_parseTransferArgs he
    · cases he

theorem length_tokens_of_createAccountRequest
    (h : createAccountRequest request options = .error .nullPointer) :
    (tokens 32 options.operationArguments).length < 3 := by
  rcases Checks.check_eq_error h with he | he
  · cases he
  · rcases Checks.bind_eq_error.mp he with he | ⟨_, _, he⟩
    · exact length_tokens_of_parseCreateAccountArgs he
    · cases he

end Tokens

/-- The number of spaces that an operation demands is one less than the number
of tokens, so that none of them is NULL. -/
def SpacesSuffice (spaces : ℕ) (create : RawRequest → UserOptions → UserM RawRequest)
    (args : CString) : Prop :=
  checkArgumentsSpacesNo args = spaces →
    (tokens 32 args).length = spaces + 1 ∧
    ∀ request options, options.operationArguments = args →
      create request options ≠ .error .nullPointer

theorem spacesSuffice_iff {spaces : ℕ} (hspaces : 0 < spaces)
    {create : RawRequest → UserOptions → UserM RawRequest}
    (hcreate : ∀ request options, create request options = .error .nullPointer →
      (tokens 32 options.operationArguments).length < spaces + 1) (args : CString) :
    SpacesSuffice spaces create args ↔
      (checkArgumentsSpacesNo args = spaces → Separated 32 args) := by
  have hcount : checkArgumentsSpacesNo args = spaces →
      ((tokens 32 args).length = spaces + 1 ↔ Separated 32 args) := by
    intro h
    have hne : args ≠ [] := by
      rintro rfl
      exact absurd h (Nat.ne_of_lt hspaces)
    rw [← h]
    exact length_tokens_iff hne
  constructor
  · intro h hargs
    exact (hcount hargs).mp (h hargs).1
  · intro h hargs
    have hlength := (hcount hargs).mpr (h hargs)
    refine ⟨hlength, ?_⟩
    rintro request options rfl hnull
    exact absurd hlength (Nat.ne_of_lt (hcreate request options hnull))

/-- The space counts of `createAccountRequest` and `createTransferRequest` find
all their tokens exactly when the spaces stand between words only. -/
theorem spaces_suffice_iff (args : CString) :
    (SpacesSuffice 2 createAccountRequest args ∧ SpacesSuffice 1 createTransferRequest args) ↔
      (checkArgumentsSpacesNo args = 1 ∨ checkArgumentsSpacesNo args = 2 →
        Separated 32 args) := by
  rw [spacesSuffice_iff (by decide) (fun _ _ => length_tokens_of_createAccountRequest),
    spacesSuffice_iff (by decide) (fun _ _ => length_tokens_of_createTransferRequest),
    or_imp, and_comm]

/-- With a space at the end, two spaces make two tokens, and the password is
copied from NULL. -/
theorem createAccountRequest_nullPointer :
    checkArgumentsSpacesNo (Sample.bytes "5 10 ") = 2 ∧
    tokens 32 (Sample.bytes "5 10 ") = [Sample.bytes "5", Sample.bytes "10"] ∧
    userMain 9 Sample.memory Sample.options
      [Sample.bytes "0", Sample.adminPassword, Sample.bytes "0", Sample.bytes "0",
        Sample.bytes "5 10 "] = .error .nullPointer ∧
    ¬ SpacesSuffice 2 createAccountRequest (Sample.bytes "5 10 ") := by
  have hcount : checkArgumentsSpacesNo (Sample.bytes "5 10 ") = 2 := by decide +kernel
  have htokens : tokens 32 (Sample.bytes "5 10 ") = [Sample.bytes "5", Sample.bytes "10"] := by
    decide +kernel
  refine ⟨hcount, htokens, by decide +kernel, fun h => ?_⟩
  have hlength := (h hcount).1
  rw [htokens] at hlength
  exact absurd hlength (by decide)

/-- The word is a numeral, and its number has 32 bits. -/
def Fits (token : CString) : Prop := ∃ n, numeral token = some n ∧ 0 ≤ n ∧ n < 2 ^ 32

/-- A creation for what was typed: the account id and the balance are the
numbers of the first two words and in their ranges, and the password is the
third word. -/
structure TypedCreate (t₁ t₂ t₃ : CString) (req : TlvRequest) : Prop where
  accountId : numeral t₁ = some (req.createId.toNat : ℤ)
  balance : numeral t₂ = some (req.value.create.balance.toNat : ℤ)
  range : CreateInRange req
  password : req.value.create.password = t₃
  passwordLength : minPasswordLen ≤ t₃.length ∧ t₃.length ≤ maxPasswordLen

/-- A transfer for what was typed. -/
structure TypedTransfer (t₁ t₂ : CString) (req : TlvRequest) : Prop where
  accountId : numeral t₁ = some (req.transferId.toNat : ℤ)
  amount : numeral t₂ = some (req.amount.toNat : ℤ)
  range : TransferInRange req

section Typed

variable {request request' : RawRequest} {args t₁ t₂ t₃ : CString}

/-- A transfer that is built is the one that was typed exactly when both words
fit. -/
theorem parseTransferArgs_typed_iff (htokens : tokens 32 args = [t₁, t₂])
    (h : parseTransferArgs request args = .ok request') :
    TypedTransfer t₁ t₂ request'.decode ↔ Fits t₁ ∧ Fits t₂ := by
  obtain ⟨s₁, args₁, s₂, args₂, hs₁, hs₂, hid, hamount, hbuilt⟩ := parseTransferArgs_eq_ok h
  rw [tokens_of_strtok hs₁, tokens_of_strtok hs₂] at htokens
  obtain ⟨rfl, htokens₂⟩ := List.cons.inj htokens
  obtain ⟨rfl, -⟩ := List.cons.inj htokens₂
  obtain ⟨-, hword33, hword37⟩ :=
    arguments_of_take (m := request.value) (atoi s₁) (atoi s₂) rfl
  have hvalue : request'.value =
      (request.value.store 33 (ofWord (atoi s₁))).store 37 (ofWord (atoi s₂)) :=
    congrArg RawRequest.value hbuilt
  rw [← hvalue] at hword33 hword37
  have htransferId : request'.decode.transferId = atoi s₁ := hword33
  have htransferAmount : request'.decode.amount = atoi s₂ := hword37
  constructor
  · intro htyped
    have hid := htyped.accountId
    have hamount := htyped.amount
    rw [htransferId] at hid
    rw [htransferAmount] at hamount
    exact ⟨numeral_eq_atoi_iff.mp hid, numeral_eq_atoi_iff.mp hamount⟩
  · rintro ⟨hfits₁, hfits₂⟩
    refine ⟨?_, ?_, ?_⟩
    · rw [htransferId]
      exact numeral_eq_atoi_iff.mpr hfits₁
    · rw [htransferAmount]
      exact numeral_eq_atoi_iff.mpr hfits₂
    · rw [TransferInRange, htransferId, htransferAmount]
      exact ⟨hamount, hid⟩

/-- A creation that is built is the one that was typed exactly when the first
two words fit. -/
theorem parseCreateAccountArgs_typed_iff (hargs : 0 ∉ args)
    (htokens : tokens 32 args = [t₁, t₂, t₃])
    (h : parseCreateAccountArgs request args = .ok request') :
    TypedCreate t₁ t₂ t₃ request'.decode ↔ Fits t₁ ∧ Fits t₂ := by
  obtain ⟨s₁, args₁, s₂, args₂, s₃, args₃, hs₁, hs₂, hs₃, hid, hbalance, hlength, hbuilt⟩ :=
    parseCreateAccountArgs_eq_ok h
  rw [tokens_of_strtok hs₁, tokens_of_strtok hs₂, tokens_of_strtok hs₃] at htokens
  obtain ⟨rfl, htokens₂⟩ := List.cons.inj htokens
  obtain ⟨rfl, htokens₃⟩ := List.cons.inj htokens₂
  obtain ⟨rfl, -⟩ := List.cons.inj htokens₃
  let m := (request.value.store 33 (ofWord (atoi s₁))).store 37 (ofWord (atoi s₂))
  obtain ⟨-, hword33, hword37⟩ := arguments_of_take (atoi s₁) (atoi s₂)
    (m.take_store_of_le (stored s₃) le_rfl).symm
  have hvalue : request'.value = m.store 41 (stored s₃) := congrArg RawRequest.value hbuilt
  rw [← hvalue] at hword33 hword37
  have hcreateId : request'.decode.createId = atoi s₁ := hword33
  have hcreateBalance : request'.decode.value.create.balance = atoi s₂ := hword37
  have hpassword : request'.decode.value.create.password = s₃ := by
    have hzero : 0 ∉ s₃ := by
      intro hmem
      exact hargs ((subset_of_strtok hs₁).2 ((subset_of_strtok hs₂).2
        ((subset_of_strtok hs₃).1 hmem)))
    have hfits : s₃.length ≤ 20 := hlength.2
    change request'.value.string 41 = s₃
    rw [hvalue]
    exact m.string_store hzero (by omega)
  constructor
  · intro htyped
    have hid := htyped.accountId
    have hbalance := htyped.balance
    rw [hcreateId] at hid
    rw [hcreateBalance] at hbalance
    exact ⟨numeral_eq_atoi_iff.mp hid, numeral_eq_atoi_iff.mp hbalance⟩
  · rintro ⟨hfits₁, hfits₂⟩
    refine ⟨?_, ?_, ?_, hpassword, hlength⟩
    · rw [hcreateId]
      exact numeral_eq_atoi_iff.mpr hfits₁
    · rw [hcreateBalance]
      exact numeral_eq_atoi_iff.mpr hfits₂
    · rw [CreateInRange, hcreateId, hcreateBalance]
      exact ⟨hbalance, hid⟩

end Typed

/-- What the two parsers build is what was typed exactly when every number
typed is a numeral of 32 bits, whatever was in the memory of the request. -/
theorem parse_typed_iff {args : CString} (hargs : 0 ∉ args) (request request' : RawRequest) :
    (∀ t₁ t₂ t₃, tokens 32 args = [t₁, t₂, t₃] →
      parseCreateAccountArgs request args = .ok request' →
      (TypedCreate t₁ t₂ t₃ request'.decode ↔ Fits t₁ ∧ Fits t₂)) ∧
    (∀ t₁ t₂, tokens 32 args = [t₁, t₂] → parseTransferArgs request args = .ok request' →
      (TypedTransfer t₁ t₂ request'.decode ↔ Fits t₁ ∧ Fits t₂)) :=
  ⟨fun _ _ _ htokens h => parseCreateAccountArgs_typed_iff hargs htokens h,
    fun _ _ htokens h => parseTransferArgs_typed_iff htokens h⟩

/-- The transfer of 50 to account 2 is built as it was typed. -/
theorem parse_typed_fifty : ∃ request',
    parseTransferArgs Sample.memory (Sample.bytes "2 50") = .ok request' ∧
    TypedTransfer (Sample.bytes "2") (Sample.bytes "50") request'.decode := by
  have hbuilt : (parseTransferArgs Sample.memory (Sample.bytes "2 50")).map
      (fun r => r.decode.amount) = .ok 50 := by decide +kernel
  obtain ⟨request', h, -⟩ := Checks.map_eq_ok.mp hbuilt
  have hargs : 0 ∉ Sample.bytes "2 50" := by decide +kernel
  have htokens : tokens 32 (Sample.bytes "2 50") = [Sample.bytes "2", Sample.bytes "50"] := by
    decide +kernel
  have hfits₁ : Fits (Sample.bytes "2") := ⟨2, by decide +kernel⟩
  have hfits₂ : Fits (Sample.bytes "50") := ⟨50, by decide +kernel⟩
  have htyped := (parse_typed_iff hargs Sample.memory request').2 _ _ htokens h
  exact ⟨request', h, htyped.mpr ⟨hfits₁, hfits₂⟩⟩

/-- A transfer of 10 to account 4294967298 goes to account 2, and one of
`50euro` moves 50. -/
theorem parseTransferArgs_not_typed : ∃ request₁ request₂,
    parseTransferArgs Sample.memory (Sample.bytes "4294967298 10") = .ok request₁ ∧
    request₁.decode.transferId = 2 ∧
    ¬ TypedTransfer (Sample.bytes "4294967298") (Sample.bytes "10") request₁.decode ∧
    parseTransferArgs Sample.memory (Sample.bytes "2 50euro") = .ok request₂ ∧
    request₂.decode.amount = 50 ∧
    ¬ TypedTransfer (Sample.bytes "2") (Sample.bytes "50euro") request₂.decode := by
  have hbuilt₁ : (parseTransferArgs Sample.memory (Sample.bytes "4294967298 10")).map
      (fun r => r.decode.transferId) = .ok 2 := by decide +kernel
  have hbuilt₂ : (parseTransferArgs Sample.memory (Sample.bytes "2 50euro")).map
      (fun r => r.decode.amount) = .ok 50 := by decide +kernel
  obtain ⟨request₁, h₁, hid⟩ := Checks.map_eq_ok.mp hbuilt₁
  obtain ⟨request₂, h₂, hamount⟩ := Checks.map_eq_ok.mp hbuilt₂
  refine ⟨request₁, request₂, h₁, hid, fun htyped => ?_, h₂, hamount, fun htyped => ?_⟩
  · have hnumeral := htyped.accountId
    rw [hid] at hnumeral
    exact absurd hnumeral (by decide +kernel)
  · have hnumeral := htyped.amount
    rw [hamount] at hnumeral
    exact absurd hnumeral (by decide +kernel)

end HomeBanking
