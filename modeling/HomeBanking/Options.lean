import HomeBanking.Arguments
import HomeBanking.CreateQueue

/-!
# The options of both programs

`parse_args` fills an `option_t` that was just allocated, in the server from
two positional arguments and in the user program from five. Where `parse_int`
rejects an argument, `print_badpositional` reports it and returns, so that the
option keeps what the memory held; `validateArgs` looks at upper limits only.
-/

namespace HomeBanking

open Text

/-- `option_t` of the server. -/
structure ServerOptions where
  bankOfficesNo : Int32
  password : CString
  deriving DecidableEq, Repr

def maxBankOffices : Int32 := 99
def threadsNoError : ℕ := 5

namespace ServerOptions

/-- The server's `parse_int`, which has no number below 1. -/
def parseInt (str : CString) : Option Int32 :=
  let result := strtol str
  if !result.found || result.outOfRange || 2147483647 ≤ result.value || result.value ≤ 0 then none
  else some (Int32.ofInt result.value)

/-- The number of spaces. -/
def checkPasswordSpaces (password : CString) : ℕ := password.count 32

/-- Leaves the program with an exit status, or returns. -/
def validateArgs (options : ServerOptions) : Except ℕ Unit := do
  if maxBankOffices < options.bankOfficesNo then throw threadsNoError
  if checkPasswordSpaces options.password ≠ 0 then throw passwordError
  if options.password.length < minPasswordLen ∨ maxPasswordLen < options.password.length then
    throw passwordError

/-- `memory` is the memory just allocated. -/
def parseArgs (memory : ServerOptions) (argv : List CString) : Except ℕ ServerOptions :=
  match positionals argv with
  | some [a₁, a₂] => do
      let options := ⟨(parseInt a₁).getD memory.bankOfficesNo, a₂⟩
      validateArgs options
      return options
  | some _ => throw argNumError
  | none => throw exitFailure

/-- The options that `validateArgs` lets pass. -/
structure Valid (options : ServerOptions) : Prop where
  bankOfficesNo : options.bankOfficesNo ≤ maxBankOffices
  noSpaces : checkPasswordSpaces options.password = 0
  passwordLength :
    minPasswordLen ≤ options.password.length ∧ options.password.length ≤ maxPasswordLen

theorem validateArgs_eq_ok {options : ServerOptions} :
    validateArgs options = .ok () ↔ options.Valid := by
  constructor
  · intro h
    obtain ⟨hoffices, h⟩ := Checks.check_eq_ok.mp h
    obtain ⟨hspaces, h⟩ := Checks.check_eq_ok.mp h
    obtain ⟨hlength, -⟩ := Checks.last_check_eq_ok.mp h
    rw [not_or, Nat.not_lt, Nat.not_lt] at hlength
    exact ⟨Int32.not_lt.mp hoffices, not_not.mp hspaces, hlength⟩
  · intro h
    have hlength := h.passwordLength
    apply Checks.check_eq_ok.mpr
    refine ⟨Int32.not_lt.mpr h.bankOfficesNo, Checks.check_eq_ok.mpr ⟨not_not.mpr h.noSpaces,
      Checks.last_check_eq_ok.mpr ⟨?_, rfl⟩⟩⟩
    rw [not_or, Nat.not_lt, Nat.not_lt]
    exact hlength

/-- What `parse_args` returns: the number of its argument or else the one in the
memory, and the password. -/
theorem parseArgs_eq_ok {memory options : ServerOptions} {argv : List CString} :
    parseArgs memory argv = .ok options ↔ ∃ a₁ a₂, positionals argv = some [a₁, a₂] ∧
      options = ⟨(parseInt a₁).getD memory.bankOfficesNo, a₂⟩ ∧ options.Valid := by
  unfold parseArgs
  split
  · rename_i a₁ a₂ hargs
    constructor
    · intro h
      obtain ⟨_, hvalid, he⟩ := Checks.bind_eq_ok.mp h
      obtain rfl := Except.ok.inj he
      exact ⟨a₁, a₂, hargs, rfl, validateArgs_eq_ok.mp hvalid⟩
    · rintro ⟨b₁, b₂, hargs', rfl, hvalid⟩
      rw [hargs] at hargs'
      cases hargs'
      exact Checks.bind_eq_ok.mpr ⟨(), validateArgs_eq_ok.mpr hvalid, rfl⟩
  · rename_i args hne hargs
    constructor
    · intro h
      cases h
    · rintro ⟨a₁, a₂, hargs', -⟩
      exact absurd (Option.some.inj (hargs.symm.trans hargs')) (hne a₁ a₂)
  · rename_i hargs
    constructor
    · intro h
      cases h
    · rintro ⟨a₁, a₂, hargs', -⟩
      rw [hargs] at hargs'
      cases hargs'

theorem parseInt_pos {str : CString} {k : Int32} (h : parseInt str = some k) :
    1 ≤ k.toInt := by
  simp only [parseInt] at h
  split at h
  · cases h
  · rename_i hrange
    cases h
    simp only [Bool.or_eq_true, decide_eq_true_eq, not_or, not_le] at hrange
    rw [Int32.toInt_ofInt_of_le (by omega) (by omega)]
    omega

/-- The options hold what was read from the argument, and the number of offices
is one that the queue can have. -/
structure Read (a₁ : CString) (options : ServerOptions) : Prop where
  bankOfficesNo : parseInt a₁ = some options.bankOfficesNo
  range : 1 ≤ options.bankOfficesNo.toInt ∧ options.bankOfficesNo.toInt ≤ 99

theorem read_iff {memory options : ServerOptions} {argv : List CString} {a₁ a₂ : CString}
    (hargs : positionals argv = some [a₁, a₂]) (h : parseArgs memory argv = .ok options) :
    options.Read a₁ ↔ (parseInt a₁).isSome := by
  obtain ⟨b₁, b₂, hargs', rfl, hvalid⟩ := parseArgs_eq_ok.mp h
  rw [hargs] at hargs'
  cases hargs'
  constructor
  · intro hread
    rw [hread.bankOfficesNo]
    rfl
  · intro hsome
    obtain ⟨k, hk⟩ := Option.isSome_iff_exists.mp hsome
    have hmax := Int32.le_iff_toInt_le.mp hvalid.bankOfficesNo
    simp only [hk, Option.getD_some] at hmax ⊢
    exact ⟨hk, parseInt_pos hk, hmax⟩

/-- Behind a rejected number the server starts with the one in the memory, 0 and
negative numbers included. -/
theorem parseArgs_of_rejected {argv : List CString} {a₁ a₂ : CString} {k : Int32}
    (hargs : positionals argv = some [a₁, a₂]) (hnone : parseInt a₁ = none)
    (hvalid : Valid ⟨k, a₂⟩) (password : CString) :
    parseArgs ⟨k, password⟩ argv = .ok ⟨k, a₂⟩ :=
  parseArgs_eq_ok.mpr ⟨a₁, a₂, hargs, by rw [hnone, Option.getD_none], hvalid⟩

end ServerOptions

/-- The numbers that `parse_int` reads from the first, third and fourth
argument, in this order: once `errno` is set it stays set. -/
def readNumbers (a₁ a₃ a₄ : CString) : Option UInt32 × Option UInt32 × Option UInt32 :=
  let (accountId, erange) := parseInt false a₁
  let (opDelayMs, erange) := parseInt erange a₃
  (accountId, opDelayMs, (parseInt erange a₄).1)

/-- `parse_int` accepts all three numbers. -/
def Accepted (a₁ a₃ a₄ : CString) : Prop :=
  (readNumbers a₁ a₃ a₄).1.isSome ∧ (readNumbers a₁ a₃ a₄).2.1.isSome ∧
    (readNumbers a₁ a₃ a₄).2.2.isSome

namespace UserOptions

/-- Each option holds what was read from its argument. -/
structure Read (a₁ a₃ a₄ : CString) (options : UserOptions) : Prop where
  accountId : (readNumbers a₁ a₃ a₄).1 = some options.accountId
  opDelayMs : (readNumbers a₁ a₃ a₄).2.1 = some options.opDelayMs
  type : (readNumbers a₁ a₃ a₄).2.2 = some options.type

theorem parsePositionals_eq (memory : UserOptions) (a₁ a₂ a₃ a₄ a₅ : CString) :
    parsePositionals memory a₁ a₂ a₃ a₄ a₅ =
      ⟨(readNumbers a₁ a₃ a₄).1.getD memory.accountId, a₂,
        (readNumbers a₁ a₃ a₄).2.1.getD memory.opDelayMs,
        (readNumbers a₁ a₃ a₄).2.2.getD memory.type, a₅⟩ := rfl

theorem read_iff {memory options : UserOptions} {argv : List CString}
    {a₁ a₂ a₃ a₄ a₅ : CString} (hargs : positionals argv = some [a₁, a₂, a₃, a₄, a₅])
    (h : parseArgs memory argv = .ok options) :
    options.Read a₁ a₃ a₄ ↔ Accepted a₁ a₃ a₄ := by
  obtain ⟨b₁, b₂, b₃, b₄, b₅, hargs', rfl, -⟩ := parseArgs_eq_ok h
  rw [hargs] at hargs'
  cases hargs'
  rw [parsePositionals_eq]
  constructor
  · intro hread
    exact ⟨Option.isSome_iff_exists.mpr ⟨_, hread.accountId⟩,
      Option.isSome_iff_exists.mpr ⟨_, hread.opDelayMs⟩,
      Option.isSome_iff_exists.mpr ⟨_, hread.type⟩⟩
  · rintro ⟨haccount, hdelay, htype⟩
    obtain ⟨accountId, haccount⟩ := Option.isSome_iff_exists.mp haccount
    obtain ⟨opDelayMs, hdelay⟩ := Option.isSome_iff_exists.mp hdelay
    obtain ⟨type, htype⟩ := Option.isSome_iff_exists.mp htype
    rw [haccount, hdelay, htype]
    exact ⟨haccount, hdelay, htype⟩

end UserOptions

/-- When `parse_args` returns, the options of both programs hold what was read
from the command line, and the number of bank offices is one that the queue can
have, exactly when `parse_int` accepted every number. -/
theorem parseArgs_read_iff (argv : List CString) :
    (∀ (memory options : ServerOptions) (a₁ a₂ : CString),
      positionals argv = some [a₁, a₂] → ServerOptions.parseArgs memory argv = .ok options →
      (options.Read a₁ ↔ (ServerOptions.parseInt a₁).isSome)) ∧
    (∀ (memory options : UserOptions) (a₁ a₂ a₃ a₄ a₅ : CString),
      positionals argv = some [a₁, a₂, a₃, a₄, a₅] → parseArgs memory argv = .ok options →
      (options.Read a₁ a₃ a₄ ↔ Accepted a₁ a₃ a₄)) :=
  ⟨fun _ _ _ _ hargs h => ServerOptions.read_iff hargs h,
    fun _ _ _ _ _ _ _ hargs h => UserOptions.read_iff hargs h⟩

/-- The number of offices is read as 4, and the account of a balance check as 3. -/
theorem parseArgs_read_four : ∃ server user,
    ServerOptions.parseArgs ⟨0, []⟩ [Sample.bytes "4", Sample.adminPassword] = .ok server ∧
    server.Read (Sample.bytes "4") ∧
    parseArgs Sample.options (Sample.balanceArgv "3") = .ok user ∧
    user.Read (Sample.bytes "3") (Sample.bytes "0") (Sample.bytes "1") := by
  have hserver : ServerOptions.parseArgs ⟨0, []⟩ [Sample.bytes "4", Sample.adminPassword] =
      .ok ⟨4, Sample.adminPassword⟩ := by decide +kernel
  have huser : parseArgs Sample.options (Sample.balanceArgv "3") =
      .ok ⟨3, Sample.password₁, 0, 1, []⟩ := by decide +kernel
  have hserverArgs : positionals [Sample.bytes "4", Sample.adminPassword] =
      some [Sample.bytes "4", Sample.adminPassword] := by decide +kernel
  have huserArgs : positionals (Sample.balanceArgv "3") =
      some [Sample.bytes "3", Sample.password₁, Sample.bytes "0", Sample.bytes "1", []] := by
    decide +kernel
  exact ⟨_, _, hserver,
    ((parseArgs_read_iff _).1 _ _ _ _ hserverArgs hserver).mpr (by decide +kernel), huser,
    ((parseArgs_read_iff _).2 _ _ _ _ _ _ _ huserArgs huser).mpr
      ⟨by decide +kernel, by decide +kernel, by decide +kernel⟩⟩

/-- With `many` for the number of offices, memory that holds 0 gives a server
without offices and a queue of size 0; with `me` for the account, memory that
holds 3 gives a request for account 3. -/
theorem parseArgs_not_read : ∃ server request,
    ServerOptions.parseArgs ⟨0, []⟩ [Sample.bytes "many", Sample.adminPassword] = .ok server ∧
    ServerOptions.parseInt (Sample.bytes "many") = none ∧ server.bankOfficesNo = 0 ∧
    ¬ server.Read (Sample.bytes "many") ∧
    (Queue.createQueue server.bankOfficesNo.toInt
      (⟨fun _ => 0, 7, 0, 0, 7⟩ : Queue ℕ)).size = 0 ∧
    userMain 9 Sample.memory { Sample.options with accountId := 3 } (Sample.balanceArgv "me") =
      .ok request ∧
    (parseInt false (Sample.bytes "me")).1 = none ∧ request.decode.headerId = 3 := by
  have hvalid : ServerOptions.Valid ⟨0, Sample.adminPassword⟩ :=
    ⟨by decide, by decide +kernel, by decide +kernel⟩
  have hargs : positionals [Sample.bytes "many", Sample.adminPassword] =
      some [Sample.bytes "many", Sample.adminPassword] := by decide +kernel
  have hserver := ServerOptions.parseArgs_of_rejected hargs (by decide +kernel) hvalid []
  have hsent : (userMain 9 Sample.memory { Sample.options with accountId := 3 }
      (Sample.balanceArgv "me")).map (fun r => r.decode.headerId) = .ok 3 := by
    decide +kernel
  obtain ⟨request, hrequest, hid⟩ := Checks.map_eq_ok.mp hsent
  refine ⟨_, request, hserver, by decide +kernel, rfl, fun hread => ?_, rfl, hrequest,
    by decide +kernel, hid⟩
  exact absurd hread.range.1 (by decide)

end HomeBanking
