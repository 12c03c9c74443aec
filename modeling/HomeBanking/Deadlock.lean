import HomeBanking.Locks
import HomeBanking.Balance

/-!
# No circular waits

An office waits for at most one account mutex at a time, and when it holds
another one it waits for the mutex of the larger id. As long as no transfer has
failed its checks, every locked mutex is held inside an operation, so the
offices inside operations never all wait.
-/

namespace HomeBanking

variable {n : ℕ} {sha256sum : CString → CString} {ok : TlvRequest → Prop} {t₀ : Table}

/-- The account mutex that the next step takes. -/
def wanted : Pc → Option UInt32
  | .createLock c => some c.accountId
  | .balanceLock id => some id
  | .transferLock₁ id addId => some (firstLock id addId)
  | .transferLock₂ id addId => some (secondLock id addId)
  | _ => none

/-- The office is inside `OPCreateAccount`, `OPBalance` or `OPTransfer`. -/
def Pc.inAccountOperation (pc : Pc) : Bool :=
  pc.inOperation && !(pc ∈ [.shutdownCheck, .shutdownChmod, .shutdownCount, .shutdownSet])

theorem OfficeStep.wanted_of_lock {choice : Choice} {req : TlvRequest} {b : Bank (Fin n)}
    {o o' : Office} {id : UInt32} (h : OfficeStep sha256sum choice req b o (.lock id) o') :
    wanted o.pc = some id := by
  cases h <;> rfl

theorem OfficeStep.not_lockActive {choice : Choice} {req : TlvRequest} {b : Bank (Fin n)}
    {o o' : Office} {act : Action} (h : OfficeStep sha256sum choice req b o act o')
    (hin : o.pc.inAccountOperation) : act ≠ .lockActive := by
  rintro rfl
  cases h
  cases hin

/-- An action waits for a mutex or is done at once. -/
theorem apply_isSome {b : Bank (Fin n)} (i : Fin n) {act : Action}
    (hlock : ∀ id, act = .lock id → b.mutex id = none) (hactive : act ≠ .lockActive) :
    (b.apply i act).isSome := by
  cases act with
  | lock id => simp [Bank.apply, hlock id rfl]
  | lockActive => exact absurd rfl hactive
  | _ => rfl

/-- An office inside an operation takes its next step unless the mutex it
wants is taken. -/
theorem next_isSome {s : System n} {i : Fin n} (hin : (s.pc i).inAccountOperation)
    (hfree : ∀ id, wanted (s.pc i) = some id → s.bank.mutex id = none) (choice : Choice) :
    (s.next sha256sum (.act i choice)).isSome := by
  have hsome : (officeStep sha256sum choice (s.requests i) s.bank (s.offices i)).isSome :=
    officeStep_isSome _ _ _ _ (fun hpc => absurd hin (by rw [System.pc, hpc]; decide))
      fun hpc => absurd hin (by rw [System.pc, hpc]; decide)
  obtain ⟨⟨act, o⟩, hstep⟩ := Option.isSome_iff_exists.mp hsome
  have hs := officeStep_cases _ _ _ _ hstep
  have happly : (s.bank.apply i act).isSome := by
    refine apply_isSome i ?_ (hs.not_lockActive hin)
    intro id hact
    subst hact
    exact hfree id hs.wanted_of_lock
  simpa [System.next, hstep] using happly

/-- Account mutexes are held only inside account operations. -/
theorem inAccountOperation_of_mem_held {req : TlvRequest} {pc : Pc} {id : UInt32}
    (hid : id ∈ held req pc) : pc.inAccountOperation := by
  cases pc with
  | createWrite | createUnlock | balanceRead | balanceUnlock | transferLock₂ | subtractRead
  | subtractWrite | addRead | addWrite | transferUnlock₁ | transferUnlock₂ => rfl
  | _ => exact absurd hid (Finset.notMem_empty id)

theorem lt_of_subtractsFirst {id addId : UInt32} (hid : id < maxBankAccounts)
    (haddId : addId < maxBankAccounts) (hne : addId ≠ id) :
    firstLock id addId < secondLock id addId := by
  have hsmall : ∀ x : UInt32, x < maxBankAccounts → x.toInt32.toInt = x.toNat := by
    intro x hx
    have : x.toNat < 4096 := UInt32.lt_iff_toNat_lt.mp hx
    rw [toInt_toInt32, if_pos (by omega)]
  have hnat : addId.toNat ≠ id.toNat := fun h => hne (UInt32.toNat_inj.mp h)
  have hiff : subtractsFirst id addId = decide (id.toNat < addId.toNat) := by
    unfold subtractsFirst
    congr 1
    rw [Int32.lt_iff_toInt_lt, hsmall id hid, hsmall addId haddId, Int.ofNat_lt]
  unfold firstLock secondLock
  rw [hiff, UInt32.lt_iff_toNat_lt]
  by_cases h : id.toNat < addId.toNat
  · simp [h]
  · simp only [h, decide_false, Bool.false_eq_true, if_false]
    omega

/-- Every mutex an office waits for is above the one it holds. -/
theorem Valid.wanted_gt {t : Table} {req : TlvRequest} {pc : Pc} (hv : Valid t req pc)
    {v w : UInt32} (hheld : v ∈ held req pc) (hw : wanted pc = some w) : v < w := by
  cases pc with
  | transferLock₂ =>
      obtain ⟨hp, rfl, rfl⟩ := hv
      simp only [held, Finset.mem_singleton] at hheld
      simp only [wanted, Option.some.injEq] at hw
      subst v w
      exact lt_of_subtractsFirst hp.source.1 hp.dest.1 hp.distinct
  | createLock | balanceLock | transferLock₁ => simp [held] at hheld
  | _ => cases hw

theorem wellFounded_gt_uint32 : WellFounded fun v w : UInt32 => w < v :=
  Subrelation.wf (fun {v w} (h : w < v) => by
    have := UInt32.lt_iff_toNat_lt.mp h
    have := v.toNat_lt
    change 2 ^ 32 - v.toNat < 2 ^ 32 - w.toNat
    omega) (measure fun v : UInt32 => 2 ^ 32 - v.toNat).wf

/-- No transfer so far has been answered `RC_NO_FUNDS` or `RC_TOO_HIGH`. -/
def NoFailedTransfer (trace : List (Fin n × Action)) : Prop :=
  ∀ i, (i, .refuse .noFunds) ∉ trace ∧ (i, .refuse .tooHigh) ∉ trace

instance (trace : List (Fin n × Action)) : Decidable (NoFailedTransfer trace) := by
  unfold NoFailedTransfer
  infer_instance

/-- A run without failed transfers never took a step that fails its check. -/
theorem reachable_withoutFailedTransfers {s : System n}
    (h : (bankOffices sha256sum ok t₀ n).Reachable s) (hnone : NoFailedTransfer s.trace) :
    (withoutFailedTransfers sha256sum ok t₀ n).Reachable s := by
  refine LTS.Reachable.invariant (T := bankOffices sha256sum ok t₀ n)
    (I := fun s => NoFailedTransfer s.trace →
      (withoutFailedTransfers sha256sum ok t₀ n).Reachable s)
    (fun s hs _ => .init hs) ?_ h hnone
  intro s l s' hr ih hs hnone'
  rcases bankOffices_step_cases hs with ⟨i, req, rfl, -, -, rfl⟩ |
    ⟨i, choice, act, b, o, rfl, hstep, hb, rfl⟩
  · exact (ih hnone').step ⟨hs, rfl⟩
  · have hnone : NoFailedTransfer s.trace := fun j =>
      ⟨fun hj => (hnone' j).1 (List.mem_cons_of_mem _ hj),
        fun hj => (hnone' j).2 (List.mem_cons_of_mem _ hj)⟩
    refine (ih hnone).step ⟨hs, ?_⟩
    by_contra hfails
    rw [Bool.not_eq_false] at hfails
    obtain ⟨-, hact, -⟩ := hstep.of_checkFails (valid hr i) hfails
    rcases hact with rfl | rfl
    · exact (hnone' i).1 List.mem_cons_self
    · exact (hnone' i).2 List.mem_cons_self

/-- With all ids inside the array and no failed transfer so far, no office has
faulted, and when some office is inside an account operation, one of those
inside can take its next step. -/
theorem some_office_steps {s : System n}
    (h : (bankOffices sha256sum TlvRequest.InArray t₀ n).Reachable s)
    (hnone : NoFailedTransfer s.trace) :
    (∀ i, s.pc i ≠ .fault) ∧
    ((∃ i, (s.pc i).inAccountOperation) → ∃ i, (s.pc i).inAccountOperation ∧
      ∀ choice, (s.next sha256sum (.act i choice)).isSome) := by
  refine ⟨no_fault (fun _ => id) h, fun ⟨i, hi⟩ => ?_⟩
  by_contra hstuck
  refine Threads.not_all_waiting wellFounded_gt_uint32
    (fun i => (s.pc i).inAccountOperation) (fun i v => v ∈ s.held i)
    (fun i w => wanted (s.pc i) = some w)
    (fun i v w _ hv hw => (valid h i).wanted_gt hv hw) ?_ i hi
  intro i hi
  have hblocked : ¬ ∀ id, wanted (s.pc i) = some id → s.bank.mutex id = none := fun hfree =>
    hstuck ⟨i, hi, next_isSome hi hfree⟩
  push Not at hblocked
  obtain ⟨id, hid, hmutex⟩ := hblocked
  obtain ⟨j, hj⟩ := Option.ne_none_iff_exists'.mp hmutex
  have hheld := noLeak (reachable_withoutFailedTransfers h hnone) j id hj
  exact ⟨id, j, hid, inAccountOperation_of_mem_held hheld, hheld⟩

/-- A transfer holds the mutex of account 1 and a balance check waits for it:
one of the two can go on. -/
theorem some_office_steps_two : ∃ s : System 2,
    s.pc 0 = .transferLock₂ 1 2 ∧ s.pc 1 = .balanceLock 1 ∧ s.bank.mutex 1 = some 0 ∧
    ∃ i, (s.pc i).inAccountOperation ∧
      ∀ choice, (s.next Sample.sha256sum (.act i choice)).isSome := by
  obtain ⟨s, hs, hf⟩ : ∃ s : System 2,
      (bankOffices Sample.sha256sum TlvRequest.InArray Sample.adminOnly 2).Reachable s ∧
      (s.pc 0, s.pc 1, s.bank.mutex 1, decide (NoFailedTransfer s.trace)) =
        (.transferLock₂ 1 2, .balanceLock 1, some 0, true) :=
    execute_reachable Sample.emptyReply (Sample.shutdown 0)
      (Sample.serve 0 (Sample.create 7 1 100 Sample.password₁) 19 ++
        Sample.serve 1 (Sample.create 8 2 200 Sample.password₂) 19 ++
        Sample.serve 0 (Sample.transfer 9 50) 10 ++ Sample.serve 1 (Sample.balance 10) 9)
      (by decide +kernel)
  simp only [Prod.mk.injEq, decide_eq_true_eq] at hf
  obtain ⟨h₀, h₁, hmutex, hnone⟩ := hf
  exact ⟨s, h₀, h₁, hmutex, (some_office_steps hs hnone).2 ⟨0, by rw [h₀]; rfl⟩⟩

end HomeBanking
