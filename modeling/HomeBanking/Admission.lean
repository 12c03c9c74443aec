import HomeBanking.Creation
import HomeBanking.Processing

/-!
# What a login establishes

An office past the login works for a client that knows the password of the
account in the header. The account may be written by other offices meanwhile,
but none of them changes its digest or its salt, so the login stays valid until
the operation has ended.
-/

namespace HomeBanking

variable {n : ℕ} {sha256sum : CString → CString} {ok : TlvRequest → Prop} {t₀ : Table}

/-- The client of the request gives the id and the password of the account. -/
structure Authentic (sha256sum : CString → CString) (id : UInt32) (a : BankAccount)
    (req : TlvRequest) : Prop where
  headerId : req.headerId = id
  password : passwordMatches sha256sum req.value.header.password a = true

/-- The entry of `id`, if there is one, differs in its balance at most. -/
def KeepsAccount (id : UInt32) (t t' : Table) : Prop :=
  ∀ a, t id = some a → ∃ x, t' id = some { a with balance := x }

theorem KeepsAccount.of_eq {t t' : Table} {id : UInt32} (h : t' id = t id) :
    KeepsAccount id t t' :=
  fun a ha => ⟨a.balance, h.trans ha⟩

/-- An action that fills no slot of its own keeps the account. -/
theorem keepsAccount_of_apply {b b' : Bank (Fin n)} {i : Fin n} {act : Action} {id : UInt32}
    (hb : b.apply i act = some b') (hset : ∀ a, act ≠ .setAccount id a) :
    KeepsAccount id b.bankAccounts b'.bankAccounts := by
  by_cases hw : id ∈ act.writes
  · cases act with
    | setBalance j x =>
        cases hb
        obtain rfl : id = j := by simpa [Action.writes] using hw
        intro a ha
        exact ⟨x, by simp [Bank.setBalance, ha]⟩
    | setAccount j a =>
        obtain rfl : id = j := by simpa [Action.writes] using hw
        exact absurd rfl (hset a)
    | _ => simp [Action.writes] at hw
  · exact .of_eq (apply_eq_of_notMem_writes hb hw)

theorem loginOk_eq_true {req : TlvRequest} {t : Table} :
    loginOk sha256sum req t = true ↔ ∃ a, t req.headerId = some a ∧
      passwordMatches sha256sum req.value.header.password a = true := by
  unfold loginOk
  cases t req.headerId <;> simp

theorem KeepsAccount.loginOk {req : TlvRequest} {t t' : Table}
    (h : KeepsAccount req.headerId t t') (hlogin : loginOk sha256sum req t = true) :
    HomeBanking.loginOk sha256sum req t' = true := by
  obtain ⟨a, ha, hmatch⟩ := loginOk_eq_true.mp hlogin
  obtain ⟨x, hx⟩ := h a ha
  exact loginOk_eq_true.mpr ⟨_, hx, hmatch⟩

/-- The login has passed and the operation has not ended. -/
def Pc.admitted (pc : Pc) : Bool := pc = .dispatch ∨ pc.inOperation

/-- What the login has found out at a program point. -/
def Admitted (sha256sum : CString → CString) (t : Table) (req : TlvRequest) : Pc → Prop
  | .loginCompare _ hash => ∃ a, t req.headerId = some a ∧
      hash = generateHash sha256sum (req.value.header.password ++ a.salt)
  | pc => pc.admitted = true → req.headerId < maxBankAccounts ∧ loginOk sha256sum req t = true

theorem Admitted.passed {t : Table} {req : TlvRequest} {pc : Pc}
    (h : Admitted sha256sum t req pc) (hpc : pc.admitted = true) :
    req.headerId < maxBankAccounts ∧ loginOk sha256sum req t = true := by
  cases pc with
  | loginCompare => cases hpc
  | _ => exact h hpc

theorem Admitted.kept {t t' : Table} {req : TlvRequest} {pc : Pc}
    (h : Admitted sha256sum t req pc) (hk : KeepsAccount req.headerId t t') :
    Admitted sha256sum t' req pc := by
  cases pc with
  | loginCompare =>
      obtain ⟨a, ha, hhash⟩ := h
      obtain ⟨x, hx⟩ := hk a ha
      exact ⟨_, hx, hhash⟩
  | _ => exact fun hpc => ⟨(h hpc).1, hk.loginOk (h hpc).2⟩

/-- A step that goes on behind the login has it behind it; only the comparison
of the digests gets past it. -/
theorem OfficeStep.admitted {choice : Choice} {req : TlvRequest} {b : Bank (Fin n)}
    {o o' : Office} {act : Action} (h : OfficeStep sha256sum choice req b o act o')
    (hv : Valid b.bankAccounts req o.pc) (hadm : Admitted sha256sum b.bankAccounts req o.pc) :
    Admitted sha256sum b.bankAccounts req o'.pc := by
  cases h with
  | loginHash id r a ha =>
      obtain ⟨rfl, -⟩ := hv
      exact ⟨a, ha, rfl⟩
  | loginPassed id hash r a ha hhash =>
      obtain ⟨rfl, hknown⟩ := hv
      obtain ⟨a', ha', rfl⟩ := hadm
      obtain rfl : a = a' := Option.some.inj (ha.symm.trans ha')
      exact fun _ => ⟨hknown.1, loginOk_eq_true.mpr ⟨a, ha, decide_eq_true hhash⟩⟩
  | dispatch =>
      have hpassed := hadm rfl
      cases ht : req.type <;> exact fun _ => hpassed
  | createCheck | createLock | createWrite | balanceCheck | balanceLock | balanceRead
  | transferCheck | transferLock₁ | transferLock₂ | subtractRead | subtractWrite | addRead
  | addWrite | transferUnlock₁ | transferUnlock₂ | shutdownCheck | shutdownChmod
  | shutdownCount => exact fun _ => hadm rfl
  | _ => exact nofun

/-- A step keeps what the logins of all offices have found out, as long as it
keeps their accounts. -/
theorem admitted_perform {s : System n} {i j : Fin n} {choice : Choice} {act : Action}
    {b : Bank (Fin n)} {o : Office}
    (hstep : OfficeStep sha256sum choice (s.requests i) s.bank (s.offices i) act o)
    (hv : Valid s.table (s.requests i) (s.pc i))
    (hadm : Admitted sha256sum s.table (s.requests j) (s.pc j))
    (hk : KeepsAccount (s.requests j).headerId s.table b.bankAccounts) :
    Admitted sha256sum b.bankAccounts ((s.perform i act b o).requests j)
      ((s.perform i act b o).pc j) := by
  by_cases hj : j = i
  · subst j
    rw [System.perform_pc_self]
    exact (hstep.admitted hv hadm).kept hk
  · rw [System.perform_pc_of_ne _ _ _ _ hj]
    exact hadm.kept hk

section Runs

variable {s : System n}

/-- Without overlapping creations every step keeps every account. -/
theorem keepsAccount_of_step (h : (withoutOverlaps sha256sum ok t₀ n).Reachable s) {i : Fin n}
    {choice : Choice} {act : Action} {b : Bank (Fin n)} {o : Office}
    (hstep : OfficeStep sha256sum choice (s.requests i) s.bank (s.offices i) act o)
    (hb : s.bank.apply i act = some b) (id : UInt32) :
    KeepsAccount id s.table b.bankAccounts := by
  by_cases hset : ∃ a, act = .setAccount id a
  · obtain ⟨a, rfl⟩ := hset
    intro a' ha'
    rw [empty_of_setAccount h hstep] at ha'
    cases ha'
  · push Not at hset
    exact keepsAccount_of_apply hb hset

/-- What an office has found out about its client stays true. -/
theorem admitted (h : (withoutOverlaps sha256sum ok t₀ n).Reachable s) (i : Fin n) :
    Admitted sha256sum s.table (s.requests i) (s.pc i) := by
  refine h.invariant
    (I := fun s => ∀ i, Admitted sha256sum s.table (s.requests i) (s.pc i)) ?_ ?_ i
  · intro s hs i
    rw [hs.2.1 i]
    exact nofun
  · intro s l s' hr ih hs j
    rcases bankOffices_step_cases hs.1 with ⟨i, req, -, -, -, rfl⟩ |
      ⟨i, choice, act, b, o, -, hstep, hb, rfl⟩
    · by_cases hj : j = i
      · subst j
        rw [System.give_pc_self]
        exact nofun
      · simpa [hj] using ih j
    · exact admitted_perform hstep (valid hr.of_guard i) (ih j)
        (keepsAccount_of_step hr hstep hb _)

end Runs

end HomeBanking
