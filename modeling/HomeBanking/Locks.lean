import HomeBanking.Offices

/-!
# Account mutexes

Which account mutexes an office holds at each program point, that it is their
only holder, and that it writes only to accounts whose mutex it holds. The two
error exits of `transference` leave their mutexes locked; in the runs that
never take them no mutex is left behind.
-/

namespace HomeBanking

variable {n : ℕ} {sha256sum : CString → CString} {ok : TlvRequest → Prop} {t₀ : Table}

theorem firstLock_lt {id addId : UInt32} (h : id < maxBankAccounts)
    (h' : addId < maxBankAccounts) : firstLock id addId < maxBankAccounts := by
  unfold firstLock
  split <;> assumption

theorem secondLock_lt {id addId : UInt32} (h : id < maxBankAccounts)
    (h' : addId < maxBankAccounts) : secondLock id addId < maxBankAccounts := by
  unfold secondLock
  split <;> assumption

/-- An office can only fault where it looks up an id of its request for the
first time. -/
theorem Valid.faults {t : Table} {req : TlvRequest} {pc : Pc} (hv : Valid t req pc)
    (hf : Faults req t pc) :
    (pc = .login ∧ ¬ req.headerId < maxBankAccounts) ∨
    (pc = .createCheck ∧ req.type = .createAccount ∧ ¬ req.createId < maxBankAccounts) ∨
    (pc = .transferCheck ∧ req.type = .transfer ∧ ¬ req.transferId < maxBankAccounts) := by
  cases pc with
  | login => exact .inl ⟨rfl, hf⟩
  | createCheck => exact .inr (.inl ⟨rfl, hv, hf.2⟩)
  | transferCheck => exact .inr (.inr ⟨rfl, hv.1, hf.2⟩)
  | loginHash | loginCompare =>
      obtain ⟨rfl, hk⟩ := hv
      exact absurd hk hf
  | createLock | createWrite | createUnlock =>
      obtain ⟨-, rfl, -, hid⟩ := hv
      exact absurd hid hf
  | balanceLock =>
      obtain ⟨-, hk, rfl, -⟩ := hv
      exact absurd hk.1 hf
  | balanceRead => exact absurd hv.2.1 hf
  | balanceUnlock => exact absurd hv.2.1.1 hf
  | transferLock₁ =>
      obtain ⟨hp, rfl, rfl⟩ := hv
      exact absurd (firstLock_lt hp.source.1 hp.dest.1) hf
  | transferLock₂ =>
      obtain ⟨hp, rfl, rfl⟩ := hv
      exact absurd (secondLock_lt hp.source.1 hp.dest.1) hf
  | subtractRead => exact absurd hv.1.source hf
  | subtractWrite =>
      obtain ⟨hp, -, rfl⟩ := hv
      exact absurd hp.source hf
  | addRead => exact absurd hv.1.dest hf
  | addWrite =>
      obtain ⟨hp, -, rfl⟩ := hv
      exact absurd hp.dest hf
  | transferUnlock₁ => exact absurd hv.1.source.1 hf
  | transferUnlock₂ =>
      obtain ⟨hp, -, rfl⟩ := hv
      exact absurd hp.dest.1 hf
  | transferReport =>
      obtain ⟨hp, rfl⟩ := hv
      exact absurd hp.source hf
  | _ => exact hf.elim

/-- With its ids inside the array, a request never faults. -/
theorem no_fault (hok : ∀ req, ok req → req.InArray) {s : System n}
    (h : (bankOffices sha256sum ok t₀ n).Reachable s) (i : Fin n) : s.pc i ≠ .fault := by
  refine (office_invariant
    (I := fun t req o => o.pc ≠ .fault ∧ Valid t req o.pc ∧ (o.pc = .idle ∨ ok req))
    (fun _ _ _ => ⟨nofun, trivial, .inl rfl⟩) (fun _ _ _ hr => ⟨nofun, trivial, .inr hr⟩)
    (fun _ _ _ _ hg hi => ⟨hi.1, hi.2.1.grows hg, hi.2.2⟩) ?_ h i).1
  rintro choice req b o act o' ⟨hne, hv, hworks⟩ hs
  have hreq := hworks.resolve_left hs.pc_ne_idle
  refine ⟨?_, hs.valid hv, .inr hreq⟩
  cases hs with
  | dispatch => cases req.type <;> exact nofun
  | fault pc r r' hf =>
      obtain ⟨hh, hc, ht⟩ := hok _ hreq
      rcases hv.faults hf with ⟨-, hid⟩ | ⟨-, hty, hid⟩ | ⟨-, hty, hid⟩
      · exact absurd hh hid
      · exact absurd (hc hty) hid
      · exact absurd (ht hty) hid
  | _ => exact nofun

/-- The account mutexes held at a program point. -/
def held (req : TlvRequest) : Pc → Finset UInt32
  | .createWrite c | .createUnlock c => {c.accountId}
  | .balanceRead | .balanceUnlock => {req.headerId}
  | .transferLock₂ id addId => {firstLock id addId}
  | .subtractRead _ | .subtractWrite .. | .addRead _ | .addWrite .. | .transferUnlock₁ _ =>
      {req.headerId, req.transferId}
  | .transferUnlock₂ _ addId => {addId}
  | _ => ∅

/-- The mutexes an office holds after an action: the failed checks of
`transference` drop theirs without unlocking. -/
def heldAfter (H : Finset UInt32) : Action → Finset UInt32
  | .lock id => insert id H
  | .unlock id => H.erase id
  | .refuse rc => if rc = .noFunds ∨ rc = .tooHigh then ∅ else H
  | _ => H

theorem secondLock_firstLock (id addId : UInt32) :
    ({secondLock id addId, firstLock id addId} : Finset UInt32) = {id, addId} := by
  unfold firstLock secondLock
  split
  · exact Finset.pair_comm _ _
  · rfl

@[simp] theorem held_operationPc (req : TlvRequest) (t : OpType) :
    held req (operationPc t) = ∅ := by
  cases t <;> rfl

theorem Valid.held_of_faults {t : Table} {req : TlvRequest} {pc : Pc} (hv : Valid t req pc)
    (hf : Faults req t pc) : held req pc = ∅ := by
  rcases hv.faults hf with ⟨rfl, _⟩ | ⟨rfl, _⟩ | ⟨rfl, _⟩ <;> rfl

/-- How a step changes the mutexes of its office. -/
theorem OfficeStep.held {choice : Choice} {req : TlvRequest} {b : Bank (Fin n)}
    {o o' : Office} {act : Action} (h : OfficeStep sha256sum choice req b o act o')
    (hv : Valid b.bankAccounts req o.pc) :
    held req o'.pc = heldAfter (held req o.pc) act := by
  cases h with
  | dispatch => exact held_operationPc req req.type
  | createUnlock | balanceUnlock | transferUnlock₂ =>
      simp [HomeBanking.held, heldAfter]
  | balanceLock =>
      obtain ⟨-, -, rfl, -⟩ := hv
      rfl
  | transferLock₂ id addId r =>
      obtain ⟨-, rfl, rfl⟩ := hv
      exact (secondLock_firstLock _ _).symm
  | transferUnlock₁ id r =>
      have hne : req.headerId ∉ ({req.transferId} : Finset UInt32) := by
        simpa using hv.1.distinct.symm
      exact (Finset.erase_insert hne).symm
  | fault pc r r' hf => exact (hv.held_of_faults hf).symm
  | _ => rfl

theorem OfficeStep.unlock_mem {choice : Choice} {req : TlvRequest} {b : Bank (Fin n)}
    {o o' : Office} {id : UInt32} (h : OfficeStep sha256sum choice req b o (.unlock id) o') :
    id ∈ HomeBanking.held req o.pc := by
  cases h <;> simp [HomeBanking.held]

/-- An office writes only to accounts whose mutex it holds. -/
theorem OfficeStep.writes_subset {choice : Choice} {req : TlvRequest} {b : Bank (Fin n)}
    {o o' : Office} {act : Action} (h : OfficeStep sha256sum choice req b o act o')
    (hv : Valid b.bankAccounts req o.pc) : act.writes ⊆ HomeBanking.held req o.pc := by
  cases h with
  | createWrite => exact Finset.Subset.refl _
  | subtractWrite =>
      obtain ⟨-, -, rfl⟩ := hv
      simp [Action.writes, HomeBanking.held]
  | addWrite =>
      obtain ⟨-, -, rfl⟩ := hv
      simp [Action.writes, HomeBanking.held]
  | _ => exact Finset.empty_subset _

/-- The account mutexes after an action. -/
def mutexAfter (i : Fin n) (m : UInt32 → Option (Fin n)) : Action → UInt32 → Option (Fin n)
  | .lock id => Function.update m id (some i)
  | .unlock id => Function.update m id none
  | _ => m

theorem apply_mutex {b b' : Bank (Fin n)} {i : Fin n} {act : Action}
    (h : b.apply i act = some b') : b'.mutex = mutexAfter i b.mutex act := by
  cases act with
  | lock | lockActive =>
      simp only [Bank.apply] at h
      split at h
      · cases h; rfl
      · cases h
  | _ => cases h; rfl

theorem apply_lock_free {b b' : Bank (Fin n)} {i : Fin n} {id : UInt32}
    (h : b.apply i (.lock id) = some b') : b.mutex id = none := by
  simp only [Bank.apply] at h
  split at h
  · exact Option.isNone_iff_eq_none.mp ‹_›
  · cases h

namespace System

/-- The account mutexes an office holds. -/
def held (s : System n) (i : Fin n) : Finset UInt32 :=
  HomeBanking.held (s.requests i) (s.pc i)

theorem held_give {s : System n} {i : Fin n} (hidle : s.pc i = .idle) (req : TlvRequest) :
    (s.give i req).held = s.held := by
  funext j
  by_cases hj : j = i
  · subst j
    simp [held, hidle, HomeBanking.held]
  · simp [held, hj]

theorem held_perform_self {s : System n} {i : Fin n} {choice : Choice} {act : Action}
    {b : Bank (Fin n)} {o : Office}
    (h : OfficeStep sha256sum choice (s.requests i) s.bank (s.offices i) act o)
    (hv : Valid s.table (s.requests i) (s.pc i)) :
    (s.perform i act b o).held i = heldAfter (s.held i) act := by
  have := h.held hv
  simpa only [held, perform_requests, perform_pc_self] using this

theorem held_perform_of_ne {s : System n} {i j : Fin n} (act : Action) (b : Bank (Fin n))
    (o : Office) (hj : j ≠ i) : (s.perform i act b o).held j = s.held j := by
  simp [held, hj]

end System

/-- In every run, an office that holds an account mutex is its registered owner. -/
theorem owned {s : System n} (h : (bankOffices sha256sum ok t₀ n).Reachable s) :
    Threads.Owned s.bank.mutex s.held := by
  apply h.invariant (I := fun s => Threads.Owned s.bank.mutex s.held)
  · intro s hs i id hid
    simp [System.held, hs.2.1 i, held] at hid
  · intro s l s' hr ih hs
    rcases bankOffices_step_cases hs with ⟨i, req, -, hidle, -, rfl⟩ |
      ⟨i, choice, act, b, o, -, hstep, hb, rfl⟩
    · rw [System.held_give hidle]
      exact ih
    · have hself := System.held_perform_self (b := b) hstep (valid hr i)
      have hother := fun j => System.held_perform_of_ne (s := s) (i := i) (j := j) act b o
      rw [System.perform_bank, apply_mutex hb]
      cases act with
      | lock id => exact ih.acquire (apply_lock_free hb) hself.subset hother
      | unlock id => exact ih.release hstep.unlock_mem hself.subset hother
      | refuse rc =>
          refine ih.mono ?_ hother
          rw [hself]
          cases rc <;> simp [heldAfter]
      | _ => exact ih.mono hself.subset hother

/-- What one office writes, no other office holds. -/
theorem notMem_held_of_writes {s : System n} (h : (bankOffices sha256sum ok t₀ n).Reachable s)
    {i j : Fin n} (hij : j ≠ i) {choice : Choice} {act : Action} {o : Office}
    (hstep : OfficeStep sha256sum choice (s.requests i) s.bank (s.offices i) act o)
    {id : UInt32} (hid : id ∈ s.held j) : id ∉ act.writes := fun hw =>
  hij ((owned h).eq_of_mem hid (hstep.writes_subset (valid h i) hw))

/-- A fact about each office and the accounts whose mutex it holds: other
offices keep it if it looks at nothing else but which accounts exist. -/
theorem exclusive_invariant {I : Table → TlvRequest → Office → Prop}
    (hidle : ∀ t req r, I t req ⟨.idle, r⟩)
    (hgive : ∀ t req r, ok req → I t req ⟨.activeLock .enter, r⟩)
    (hrely : ∀ t t' req o, Grows t t' → (∀ id ∈ held req o.pc, t' id = t id) →
      I t req o → I t' req o)
    (hstep : ∀ choice req (b b' : Bank (Fin n)) i o act o', Valid b.bankAccounts req o.pc →
      ok req → I b.bankAccounts req o → OfficeStep sha256sum choice req b o act o' →
      b.apply i act = some b' → I b'.bankAccounts req o')
    {s : System n} (h : (bankOffices sha256sum ok t₀ n).Reachable s) (i : Fin n) :
    I s.table (s.requests i) (s.offices i) := by
  refine h.invariant (I := fun s => ∀ i, I s.table (s.requests i) (s.offices i)) ?_ ?_ i
  · intro s hs i
    have := hidle s.table (s.requests i) (s.offices i).reply
    rwa [← hs.2.1 i] at this
  · intro s l s' hr ih hs i
    rcases bankOffices_step_cases hs with ⟨j, req, -, -, hreq, rfl⟩ |
      ⟨j, choice, act, b, o, -, hstep', hb, rfl⟩
    · by_cases hij : i = j
      · subst i
        simpa using hgive s.table req (s.offices j).reply hreq
      · simpa [hij] using ih i
    · by_cases hij : i = j
      · subst i
        have hok := (ok_request hr j).resolve_left hstep'.pc_ne_idle
        simpa using hstep _ _ _ _ _ _ _ _ (valid hr j) hok (ih j) hstep' hb
      · rw [System.perform_offices_of_ne _ _ _ _ hij]
        exact hrely s.table _ _ _ (apply_grows hb)
          (fun id hid => apply_eq_of_notMem_writes hb (notMem_held_of_writes hr hij hstep' hid))
          (ih i)

/-- The office is inside one of the four operations. -/
def Pc.inOperation : Pc → Bool
  | .createCheck | .createLock _ | .createWrite _ | .createUnlock _
  | .balanceCheck | .balanceLock _ | .balanceRead | .balanceUnlock
  | .transferCheck | .transferLock₁ .. | .transferLock₂ .. | .subtractRead _
  | .subtractWrite .. | .addRead _ | .addWrite .. | .transferUnlock₁ _ | .transferUnlock₂ ..
  | .transferReport _ | .shutdownCheck | .shutdownChmod | .shutdownCount | .shutdownSet => true
  | _ => false

/-- The office is inside `processRequest`. -/
def Pc.inProcessRequest : Pc → Bool
  | .idle | .ret | .replyOpen | .replyWrite _ => false
  | _ => true

/-- The accounts an operation works on. -/
def operationAccounts (req : TlvRequest) : Finset UInt32 :=
  match req.type with
  | .createAccount => {req.createId}
  | .balance => {req.headerId}
  | .transfer => {req.headerId, req.transferId}
  | _ => ∅

theorem Valid.held_operation {t : Table} {req : TlvRequest} {pc : Pc} (hv : Valid t req pc)
    {id : UInt32} (hid : id ∈ held req pc) :
    pc.inOperation ∧ id ∈ operationAccounts req := by
  cases pc with
  | createWrite | createUnlock =>
      obtain ⟨ht, rfl, -⟩ := hv
      exact ⟨rfl, by simpa only [operationAccounts, ht, held] using hid⟩
  | balanceRead | balanceUnlock =>
      exact ⟨rfl, by simpa only [operationAccounts, hv.1, held] using hid⟩
  | transferLock₂ =>
      obtain ⟨hp, rfl, rfl⟩ := hv
      refine ⟨rfl, ?_⟩
      rw [held, Finset.mem_singleton] at hid
      subst hid
      unfold firstLock
      simp only [operationAccounts, hp.type]
      split <;> simp
  | subtractRead | subtractWrite | addRead | addWrite | transferUnlock₁ =>
      exact ⟨rfl, by simpa only [operationAccounts, hv.1.type, held] using hid⟩
  | transferUnlock₂ =>
      obtain ⟨hp, -, rfl⟩ := hv
      rw [held, Finset.mem_singleton] at hid
      exact ⟨rfl, by simp [operationAccounts, hp.type, hid]⟩
  | _ => simp [held] at hid

theorem Pc.inProcessRequest_of_inOperation {pc : Pc} (h : pc.inOperation) :
    pc.inProcessRequest := by
  cases pc <;> first | rfl | cases h

/-- The next step is a check of `subtractBalance` or `addBalance` that fails. -/
def checkFails (t : Table) (req : TlvRequest) : Pc → Bool
  | .subtractRead _ => (t req.headerId).any fun a =>
      subtractedBalance a.balance req.amount < minBalance
  | .addRead _ => (t req.transferId).any fun a =>
      maxBalance < addedBalance a.balance req.amount
  | _ => false

/-- The step takes an error exit of `transference`. -/
def System.transferFails (s : System n) : Label n → Bool
  | .act i _ => checkFails s.table (s.requests i) (s.pc i)
  | .give .. => false

/-- The runs in which every debit and every credit passes its check. -/
abbrev withoutFailedTransfers (sha256sum : CString → CString) (ok : TlvRequest → Prop)
    (t₀ : Table) (n : ℕ) : LTS (System n) (Label n) :=
  (bankOffices sha256sum ok t₀ n).guard fun s l => s.transferFails l = false

/-- Only a failed check drops mutexes. -/
theorem OfficeStep.heldAfter_eq {choice : Choice} {req : TlvRequest} {b : Bank (Fin n)}
    {o o' : Office} {rc : RetCode} (h : OfficeStep sha256sum choice req b o (.refuse rc) o')
    (hc : checkFails b.bankAccounts req o.pc = false) :
    heldAfter (HomeBanking.held req o.pc) (.refuse rc) = HomeBanking.held req o.pc := by
  cases h with
  | noFunds id r a ha hlow => simp [checkFails, ha, hlow] at hc
  | tooHigh id r a ha hhigh => simp [checkFails, ha, hhigh] at hc
  | _ => rfl

/-- Without failed transfers, a locked mutex is held. -/
theorem noLeak {s : System n}
    (h : (withoutFailedTransfers sha256sum ok t₀ n).Reachable s) :
    Threads.NoLeak s.bank.mutex s.held := by
  apply h.invariant (I := fun s => Threads.NoLeak s.bank.mutex s.held)
  · intro s hs i id hid
    simp [hs.1, Bank.idle] at hid
  · intro s l s' hr ih hs
    obtain ⟨hs, hfails⟩ := hs
    rcases bankOffices_step_cases hs with ⟨i, req, -, hidle, -, rfl⟩ |
      ⟨i, choice, act, b, o, rfl, hstep, hb, rfl⟩
    · rw [System.held_give hidle]
      exact ih
    · have hself := System.held_perform_self (b := b) hstep (valid hr.of_guard i)
      have hother := fun j => System.held_perform_of_ne (s := s) (i := i) (j := j) act b o
      rw [System.perform_bank, apply_mutex hb]
      cases act with
      | lock id => exact ih.acquire hself.symm.subset hother
      | unlock id => exact ih.release hself.symm.subset hother
      | refuse rc => exact ih.mono (hself.trans (hstep.heldAfter_eq hfails)).symm.subset hother
      | _ => exact ih.mono hself.symm.subset hother

/-- A failed check leaves the operation with both mutexes of the transfer held. -/
theorem OfficeStep.of_checkFails {choice : Choice} {req : TlvRequest} {b : Bank (Fin n)}
    {o o' : Office} {act : Action} (h : OfficeStep sha256sum choice req b o act o')
    (hv : Valid b.bankAccounts req o.pc) (hc : checkFails b.bankAccounts req o.pc = true) :
    o'.pc = .activeLock .leave ∧ (act = .refuse .noFunds ∨ act = .refuse .tooHigh) ∧
      HomeBanking.held req o.pc = {req.headerId, req.transferId} := by
  cases h with
  | noFunds => exact ⟨rfl, .inl rfl, rfl⟩
  | tooHigh => exact ⟨rfl, .inr rfl, rfl⟩
  | subtractRead id r a ha hfunds => simp [checkFails, ha, hfunds] at hc
  | addRead id r a ha hroom => simp [checkFails, ha, hroom] at hc
  | fault pc r r' hf =>
      rcases hv.faults hf with ⟨rfl, _⟩ | ⟨rfl, _⟩ | ⟨rfl, _⟩ <;> simp [checkFails] at hc
  | _ => simp [checkFails] at hc

/-- As long as no debit and no credit has failed its check, an account mutex is
held inside an operation on that account only. -/
theorem operates_of_mutex {s : System n}
    (h : (withoutFailedTransfers sha256sum ok t₀ n).Reachable s) {i : Fin n} {id : UInt32}
    (hid : s.bank.mutex id = some i) :
    (s.pc i).inOperation ∧ id ∈ operationAccounts (s.requests i) :=
  (valid h.of_guard i).held_operation (noLeak h i id hid)

/-- A check that fails leaves both mutexes of its transfer locked. -/
theorem mutexes_of_checkFails {s s' : System n}
    (h : (bankOffices sha256sum ok t₀ n).Reachable s) {i : Fin n} {choice : Choice}
    (hfails : s.transferFails (.act i choice) = true)
    (hs : (bankOffices sha256sum ok t₀ n).step s (.act i choice) s') :
    ¬ (s'.pc i).inOperation ∧ s'.bank.mutex (s.requests i).headerId = some i ∧
      s'.bank.mutex (s.requests i).transferId = some i := by
  rcases bankOffices_step_cases hs with ⟨_, _, hl, _⟩ |
    ⟨j, _, act, b, o, hl, hstep, hb, rfl⟩
  · cases hl
  · cases hl
    obtain ⟨hpc, hact, hheld⟩ := hstep.of_checkFails (valid h i) hfails
    have hmutex : b.mutex = s.bank.mutex := by
      rcases hact with rfl | rfl <;> exact apply_mutex hb
    have hown : ∀ id ∈ ({(s.requests i).headerId, (s.requests i).transferId} : Finset UInt32),
        s.bank.mutex id = some i := fun id hid => owned h i id (hheld.symm.subset hid)
    rw [System.perform_pc_self, System.perform_bank, hpc, hmutex]
    exact ⟨by decide, hown _ (by simp), hown _ (by simp)⟩

end HomeBanking
