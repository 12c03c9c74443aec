import HomeBanking.Isolation
import HomeBanking.Lib.Transition

/-!
# Passwords

Which passwords the login accepts. `createBankAccount` and `validateLogin`
build their hash inputs by different code, and the digest passes through
`generateHash` both times.

## Implementation notes

The server hashes passwords with salts. No function is injective on all of
these strings into 64 digits, so the digest program is asked to be injective
on the passwords and salts in use, which are parameters: the sets `passwords`
and `salts`.
-/

namespace HomeBanking

/-- The character that `%x` prints for a number below 16. -/
def hexDigit (k : ℕ) : UInt8 := if k < 10 then (48 + k).toUInt8 else (87 + k).toUInt8

/-- A string of `k` hexadecimal digits. -/
def HexString (k : ℕ) (s : CString) : Prop :=
  s.length = k ∧ ∀ c ∈ s, ∃ d < 16, c = hexDigit d

/-- `rand` gives the results of the successive calls of `rand()`. -/
def generateSalt (rand : ℕ → ℕ) : CString :=
  (List.range saltLen).map fun i => hexDigit (rand i % 16)

theorem hexString_map {α : Type} (f : α → ℕ) (l : List α) :
    HexString l.length (l.map fun a => hexDigit (f a % 16)) := by
  refine ⟨List.length_map .., ?_⟩
  intro c hc
  obtain ⟨a, -, rfl⟩ := List.mem_map.mp hc
  exact ⟨f a % 16, Nat.mod_lt _ (by decide), rfl⟩

theorem generateSalt_hexString (rand : ℕ → ℕ) : HexString saltLen (generateSalt rand) := by
  have h := hexString_map rand (List.range saltLen)
  rwa [List.length_range] at h

/-- What the server reads of the output of `sha256sum`. -/
def digest (sha256sum : CString → CString) (input : CString) : CString :=
  (sha256sum input).take hashLen

/-- On these inputs the output starts with `HASH_LEN` digits, and two inputs
never have the same digest. -/
structure Sha256On (sha256sum : CString → CString) (inputs : Set CString) : Prop where
  hex : ∀ x ∈ inputs, HexString hashLen (digest sha256sum x)
  injective : Set.InjOn (digest sha256sum) inputs

/-- The strings that are hashed. -/
def hashInputs (passwords salts : Set CString) : Set CString :=
  Set.image2 (fun password salt => password ++ salt) passwords salts

theorem hexDigit_ne_blank {d : ℕ} (hd : d < 16) : hexDigit d ≠ 32 := by
  interval_cases d <;> decide

/-- The first token of a string without blanks is the whole string. -/
theorem firstToken_eq_self {s : CString} (h : ∀ c ∈ s, c ≠ 32) : firstToken s = s := by
  have hdrop : s.dropWhile (· = 32) = s := by
    cases s with
    | nil => rfl
    | cons c s => simp [h c List.mem_cons_self]
  rw [firstToken, hdrop, List.takeWhile_eq_self_iff]
  intro c hc
  simpa using h c hc

/-- The digest survives `strtok` and `copyString`. -/
theorem generateHash_eq_digest {sha256sum : CString → CString} {inputs : Set CString}
    (hsha : Sha256On sha256sum inputs) {input : CString} (hinput : input ∈ inputs) :
    generateHash sha256sum input = digest sha256sum input := by
  apply firstToken_eq_self
  intro c hc
  obtain ⟨d, hd, rfl⟩ := (hsha.hex input hinput).2 c hc
  exact hexDigit_ne_blank hd

/-- The buffer of `createBankAccount` holds every password with its salt. -/
theorem createHashInput_eq {password salt : CString} (hpassword : password.length ≤ maxPasswordLen)
    (hsalt : salt.length = saltLen) : createHashInput password salt = password ++ salt := by
  apply List.take_of_length_le
  simp only [List.length_append, hsalt, saltLen, hashLen]
  omega

/-- The bank, and for each account the password it was created with. -/
structure Registry (ι : Type) where
  bank : Bank ι
  created : UInt32 → Option CString

/-- A request with the office that serves it, the numbers `rand()` returns and
what the reply memory held. -/
structure Call (ι : Type) where
  office : ι
  req : TlvRequest
  rand : ℕ → ℕ
  reply : TlvReply

/-- The passwords after a request that returned with the given code. -/
def recordCreation (created : UInt32 → Option CString) (req : TlvRequest) (rc : RetCode) :
    UInt32 → Option CString :=
  if req.type = .createAccount ∧ rc = .ok then
    Function.update created req.createId (some req.value.create.password)
  else created

/-- The server from `initServer` on, serving one request after the other. -/
def serialServer (ι : Type) (sha256sum : CString → CString) (passwords salts : Set CString)
    (adminPassword : CString) : LTS (Registry ι) (Call ι) where
  init s := ∃ rand, generateSalt rand ∈ salts ∧ adminPassword ∈ passwords ∧
    s.bank = Bank.idle (adminTable sha256sum (generateSalt rand) adminPassword) ∧
    s.created = Function.update (fun _ => none) adminAccountId (some adminPassword)
  step s c s' := generateSalt c.rand ∈ salts ∧
    (c.req.type = .createAccount → c.req.value.create.password ∈ passwords) ∧
    ∃ w', processRequest sha256sum c.office (generateSalt c.rand) c.req ⟨s.bank, c.reply⟩ =
        .ok ((), w') ∧
      s' = ⟨w'.bank, recordCreation s.created c.req w'.reply.retCode⟩

section Runs

variable {ι : Type} {sha256sum : CString → CString} {passwords salts : Set CString}
  {adminPassword : CString}

/-- Every entry holds the digest of the password it was created with. -/
def Recorded (sha256sum : CString → CString) (passwords salts : Set CString) (t : Table)
    (created : UInt32 → Option CString) : Prop :=
  ∀ id, (t id = none ∧ created id = none) ∨
    ∃ a password, t id = some a ∧ created id = some password ∧ password ∈ passwords ∧
      a.salt ∈ salts ∧ a.hash = digest sha256sum (password ++ a.salt)

theorem Recorded.setBalance {b : Bank ι} {created : UInt32 → Option CString}
    (h : Recorded sha256sum passwords salts b.bankAccounts created) (id x : UInt32) :
    Recorded sha256sum passwords salts (b.setBalance id x).bankAccounts created := by
  intro j
  by_cases hj : j = id
  · subst j
    rw [Bank.setBalance_bankAccounts_self]
    rcases h id with ⟨hnone, hcreated⟩ | ⟨a, password, ha, hcreated, hrest⟩
    · exact .inl ⟨by rw [hnone]; rfl, hcreated⟩
    · exact .inr ⟨{ a with balance := x }, password, by rw [ha]; rfl, hcreated, hrest⟩
  · rw [Bank.setBalance_bankAccounts_of_ne _ _ hj]
    exact h j

/-- A new entry holds the digest of its password. -/
theorem Recorded.newAccount {t : Table} {created : UInt32 → Option CString}
    (h : Recorded sha256sum passwords salts t created)
    (hsha : Sha256On sha256sum (hashInputs passwords salts))
    (hlen : ∀ p ∈ passwords, p.length ≤ maxPasswordLen) {rand : ℕ → ℕ}
    (hsalt : generateSalt rand ∈ salts) {password : CString} (hpassword : password ∈ passwords)
    (id x : UInt32) :
    Recorded sha256sum passwords salts
      (Function.update t id (some (newAccount sha256sum (generateSalt rand) id x password)))
      (Function.update created id (some password)) := by
  intro j
  by_cases hj : j = id
  · subst j
    have hinput := createHashInput_eq (hlen _ hpassword) (generateSalt_hexString rand).1
    refine .inr ⟨_, password, Function.update_self .., Function.update_self .., hpassword,
      hsalt, ?_⟩
    change generateHash sha256sum (createHashInput password (generateSalt rand)) = _
    rw [hinput]
    exact generateHash_eq_digest hsha (Set.mem_image2_of_mem hpassword hsalt)
  · rw [Function.update_of_ne hj, Function.update_of_ne hj]
    exact h j

/-- Only an answered creation records a password. -/
theorem recordCreation_of_ne {created : UInt32 → Option CString} {req : TlvRequest} {rc : RetCode}
    (h : req.type ≠ .createAccount ∨ rc ≠ .ok) : recordCreation created req rc = created :=
  if_neg fun hc => h.elim (fun ht => ht hc.1) fun hrc => hrc hc.2

/-- What one request does to the recorded passwords. -/
theorem Recorded.exit {created : UInt32 → Option CString} {me : ι} {rand : ℕ → ℕ}
    {req : TlvRequest} {w w' : World ι}
    (h : Recorded sha256sum passwords salts w.bank.bankAccounts created)
    (hsha : Sha256On sha256sum (hashInputs passwords salts))
    (hlen : ∀ p ∈ passwords, p.length ≤ maxPasswordLen) (hsalt : generateSalt rand ∈ salts)
    (hpassword : req.type = .createAccount → req.value.create.password ∈ passwords)
    (hexit : Exit sha256sum me (generateSalt rand) req w w') :
    Recorded sha256sum passwords salts w'.bank.bankAccounts
      (recordCreation created req w'.reply.retCode) := by
  cases hexit with
  | loginFail hlogin =>
      rw [recordCreation_of_ne (.inr (by simp [TlvReply.setRetCode]))]
      exact h
  | op w₁ hlogin hop =>
      rcases hop with ⟨ht, hc⟩ | ⟨ht, hb⟩ | ⟨ht, htr⟩ | ⟨ht, hs⟩ | ⟨code, ht, rfl⟩
      · cases hc with
        | notAllowed | inUse =>
            rw [recordCreation_of_ne (.inr (by simp [TlvReply.setRetCode]))]
            exact h
        | done hadmin hin hnone hf =>
            have hok : recordCreation created req .ok =
                Function.update created req.createId (some req.value.create.password) :=
              if_pos ⟨ht, rfl⟩
            change Recorded _ _ _ _ (recordCreation created req .ok)
            rw [hok]
            exact h.newAccount hsha hlen hsalt (hpassword ht) req.createId _
      · rw [recordCreation_of_ne (.inl (by simp [ht]))]
        cases hb <;> exact h
      · rw [recordCreation_of_ne (.inl (by simp [ht]))]
        cases htr with
        | notAllowed | notFound | sameId | noFunds => exact h
        | tooHigh src dst =>
            exact Recorded.setBalance
              (b := (begun req w).bank.lockBoth me req.headerId req.transferId) h _ _
        | done src dst => exact (Recorded.setBalance (b := (begun req w).bank) h _ _).setBalance _ _
      · rw [recordCreation_of_ne (.inl (by simp [ht]))]
        cases hs <;> exact h
      · rw [recordCreation_of_ne (.inl (by simp [ht]))]
        exact h

theorem recorded (hsha : Sha256On sha256sum (hashInputs passwords salts))
    (hlen : ∀ p ∈ passwords, p.length ≤ maxPasswordLen) {s : Registry ι}
    (h : (serialServer ι sha256sum passwords salts adminPassword).Reachable s) :
    Recorded sha256sum passwords salts s.bank.bankAccounts s.created := by
  apply h.invariant
    (I := fun s => Recorded sha256sum passwords salts s.bank.bankAccounts s.created)
  · rintro s ⟨rand, hsalt, hadmin, hbank, hcreated⟩
    rw [hbank, hcreated]
    exact Recorded.newAccount (t := fun _ => none) (fun _ => .inl ⟨rfl, rfl⟩) hsha hlen hsalt
      hadmin adminAccountId adminAccountBallance
  · rintro s c s' - ih ⟨hsalt, hpassword, w', hw, rfl⟩
    exact Recorded.exit (w := ⟨s.bank, c.reply⟩) ih hsha hlen hsalt hpassword
      ((processRequest_eq_ok sha256sum c.office _ c.req).mp hw).2.2

/-- In every run of one request after the other, a login passes exactly when the
account exists and the password is the one it was created with. -/
theorem validateLogin_iff (hsha : Sha256On sha256sum (hashInputs passwords salts))
    (hlen : ∀ p ∈ passwords, p.length ≤ maxPasswordLen) {s : Registry ι}
    (h : (serialServer ι sha256sum passwords salts adminPassword).Reachable s)
    {req : TlvRequest} (hid : req.headerId < maxBankAccounts)
    (hpassword : req.value.header.password ∈ passwords) (reply : TlvReply) :
    ∃ passed, validateLogin sha256sum req ⟨s.bank, reply⟩ = .ok (passed, ⟨s.bank, reply⟩) ∧
      (passed = true ↔ (∃ a, s.bank.bankAccounts req.headerId = some a) ∧
        s.created req.headerId = some req.value.header.password) := by
  refine ⟨_, (validateLogin_eq_ok sha256sum req).mpr ⟨hid, rfl⟩, ?_⟩
  change loginOk sha256sum req s.bank.bankAccounts = true ↔ _
  rcases recorded hsha hlen h req.headerId with ⟨hnone, -⟩ |
    ⟨a, password, ha, hcreated, hmem, hsalt, hhash⟩
  · simp [loginOk, hnone]
  have hlogin : req.value.header.password ++ a.salt ∈ hashInputs passwords salts :=
    Set.mem_image2_of_mem hpassword hsalt
  simp only [loginOk, ha, passwordMatches, decide_eq_true_eq, hhash,
    generateHash_eq_digest hsha hlogin]
  constructor
  · intro heq
    have happend := hsha.injective hlogin (Set.mem_image2_of_mem hmem hsalt) heq
    rw [List.append_cancel_right happend]
    exact ⟨⟨a, rfl⟩, hcreated⟩
  · rintro ⟨-, hsame⟩
    obtain rfl : password = _ := Option.some.inj (hcreated.symm.trans hsame)
    rfl

end Runs

namespace Sample

/-- The passwords of the small bank. -/
def passwords : Set CString := {adminPassword, password₁, password₂}

/-- A balance check of any account with any password. -/
def login (id : UInt32) (password : CString) : TlvRequest :=
  ⟨.balance, 33, ⟨⟨9, id, password, 0⟩, ⟨0, 0, []⟩⟩⟩

theorem mem_hashInputs {x : CString} (h : x ∈ hashInputs passwords {salt}) :
    x = adminPassword ++ salt ∨ x = password₁ ++ salt ∨ x = password₂ ++ salt := by
  obtain ⟨password, hpassword, s, rfl, rfl⟩ := h
  rcases hpassword with rfl | rfl | rfl
  · exact .inl rfl
  · exact .inr (.inl rfl)
  · exact .inr (.inr rfl)

/-- The number that a hexadecimal digit stands for. -/
def digitValue (c : Char) : ℕ := if c.toNat < 58 then c.toNat - 48 else c.toNat - 87

def hexDigits (s : String) : CString := s.toList.map fun c => hexDigit (digitValue c % 16)

theorem digest_admin : digest sha256sum (adminPassword ++ salt) =
    hexDigits "815ae0a08f3597ea03874ec4ac2274b9b6557a234f9f6168927f4535e735a151" := by
  decide +kernel

theorem digest_password₁ : digest sha256sum (password₁ ++ salt) =
    hexDigits "9d41a565cc432af9f088cf798ca1585d6b5165ae094aab299f875e93b11ec629" := by
  decide +kernel

theorem digest_password₂ : digest sha256sum (password₂ ++ salt) =
    hexDigits "594f645d8c6546f0b8e301c1649b6119177cd4fe7251416a59b8252f4c35edd5" := by
  decide +kernel

theorem digest_ne :
    digest sha256sum (adminPassword ++ salt) ≠ digest sha256sum (password₁ ++ salt) ∧
    digest sha256sum (adminPassword ++ salt) ≠ digest sha256sum (password₂ ++ salt) ∧
    digest sha256sum (password₁ ++ salt) ≠ digest sha256sum (password₂ ++ salt) := by
  rw [digest_admin, digest_password₁, digest_password₂]
  exact ⟨by decide +kernel, by decide +kernel, by decide +kernel⟩

theorem sha256On : Sha256On sha256sum (hashInputs passwords {salt}) where
  hex x hx := by
    rcases mem_hashInputs hx with rfl | rfl | rfl
    · rw [digest_admin]
      exact hexString_map digitValue _
    · rw [digest_password₁]
      exact hexString_map digitValue _
    · rw [digest_password₂]
      exact hexString_map digitValue _
  injective x hx y hy h := by
    obtain ⟨hadmin₁, hadmin₂, hpasswords⟩ := digest_ne
    rcases mem_hashInputs hx with rfl | rfl | rfl
    · rcases mem_hashInputs hy with rfl | rfl | rfl
      · rfl
      · exact absurd h hadmin₁
      · exact absurd h hadmin₂
    · rcases mem_hashInputs hy with rfl | rfl | rfl
      · exact absurd h.symm hadmin₁
      · rfl
      · exact absurd h hpasswords
    · rcases mem_hashInputs hy with rfl | rfl | rfl
      · exact absurd h.symm hadmin₂
      · exact absurd h.symm hpasswords
      · rfl

end Sample

/-- After the creation of account 1 its owner's password passes, and the password
of account 2 does not. -/
theorem validateLogin_iff_create : ∃ s : Registry Unit,
    (serialServer Unit Sample.sha256sum Sample.passwords {Sample.salt}
      Sample.adminPassword).Reachable s ∧
    validateLogin Sample.sha256sum (Sample.login 1 Sample.password₁) ⟨s.bank, Sample.emptyReply⟩ =
      .ok (true, ⟨s.bank, Sample.emptyReply⟩) ∧
    validateLogin Sample.sha256sum (Sample.login 1 Sample.password₂) ⟨s.bank, Sample.emptyReply⟩ =
      .ok (false, ⟨s.bank, Sample.emptyReply⟩) := by
  have hsalt : generateSalt (fun _ => 0) = Sample.salt := by decide
  obtain ⟨w', hw, hrc, -, htable⟩ := Sample.create_answered (b := Bank.idle Sample.adminOnly)
    ⟨fun _ => rfl, rfl⟩ rfl (by decide : (1 : UInt32) < 4096) rfl 7 100 Sample.password₁
  have hinit : (serialServer Unit Sample.sha256sum Sample.passwords {Sample.salt}
      Sample.adminPassword).Reachable ⟨Bank.idle Sample.adminOnly,
        Function.update (fun _ => none) adminAccountId (some Sample.adminPassword)⟩ :=
    .init ⟨fun _ => 0, hsalt, .inl rfl, by rw [hsalt]; rfl, rfl⟩
  let call : Call Unit :=
    ⟨(), Sample.create 7 1 100 Sample.password₁, fun _ => 0, Sample.emptyReply⟩
  have hs := hinit.step (l := call) ⟨hsalt, fun _ => .inr (.inl rfl), w', by
    change processRequest _ _ (generateSalt fun _ => 0) _ _ = _
    rw [hsalt]
    exact hw, rfl⟩
  have hlen : ∀ p ∈ Sample.passwords, p.length ≤ maxPasswordLen := by
    rintro p (rfl | rfl | rfl) <;> decide
  have hexists : ∃ a, w'.bank.bankAccounts 1 = some a := ⟨_, by rw [htable]; rfl⟩
  have hcreated : recordCreation (Function.update (fun _ => none) adminAccountId
      (some Sample.adminPassword)) (Sample.create 7 1 100 Sample.password₁) w'.reply.retCode 1 =
      some Sample.password₁ := by
    rw [hrc]
    rfl
  refine ⟨_, hs, ?_, ?_⟩
  · obtain ⟨passed, hlogin, hiff⟩ := validateLogin_iff Sample.sha256On hlen hs
      (by decide : (Sample.login 1 Sample.password₁).headerId < maxBankAccounts) (.inr (.inl rfl))
      Sample.emptyReply
    rwa [hiff.mpr ⟨hexists, hcreated⟩] at hlogin
  · obtain ⟨passed, hlogin, hiff⟩ := validateLogin_iff Sample.sha256On hlen hs
      (by decide : (Sample.login 1 Sample.password₂).headerId < maxBankAccounts) (.inr (.inr rfl))
      Sample.emptyReply
    have hfails : passed = false := by
      rw [← Bool.not_eq_true, hiff]
      rintro ⟨-, hsame⟩
      have heq := Option.some.inj (hcreated.symm.trans hsame)
      exact absurd heq (by decide)
    rwa [hfails] at hlogin

end HomeBanking
