import HomeBanking.Server

/-!
# The counter of active offices

`processRequest` counts itself in `activeBankOffices`, under a lock, and the
reply to a shutdown reports the counter. A failed login returns before the
decrement, so the counter exceeds the number of active offices by the failed
logins so far; it is exact in the runs in which every login passes. None of this
depends on the requests, so it holds of offices with requests of their own and
of the server, whose `request` may change at any time.

## Implementation notes

The counter is an `int` in the source and an integer here. It is at most the
number of offices plus the number of failed logins, so it takes 2^31 failed
logins to leave the range of `int`.
-/

namespace HomeBanking

variable {n : ℕ} {sha256sum : CString → CString} {ok : TlvRequest → Prop} {t₀ : Table}

/-- Between taking and releasing the lock of the counter. -/
def Pc.holdsActive : Pc → Bool
  | .activeLoad _ | .activeStore .. | .activeUnlock _ => true
  | _ => false

@[simp] theorem holdsActive_operationPc (t : OpType) : (operationPc t).holdsActive = false := by
  cases t <;> rfl

section Step

variable {choice : Choice} {req : TlvRequest} {b b' : Bank (Fin n)} {i : Fin n} {o o' : Office}
  {act : Action}

/-- Only `activeOfficesLock` enters the lock. -/
theorem OfficeStep.holdsActive (h : OfficeStep sha256sum choice req b o act o')
    (hact : act ≠ .lockActive) (ho : o'.pc.holdsActive = true) : o.pc.holdsActive = true := by
  cases h with
  | activeLock => exact absurd rfl hact
  | dispatch =>
      rw [holdsActive_operationPc] at ho
      cases ho
  | activeLoad | activeStore => rfl
  | _ => cases ho

theorem OfficeStep.holdsActive_of_unlock
    (h : OfficeStep sha256sum choice req b o .unlockActive o') :
    o.pc.holdsActive = true ∧ o'.pc.holdsActive = false := by
  cases h <;> exact ⟨rfl, rfl⟩

theorem OfficeStep.holdsActive_of_set {v : ℤ}
    (h : OfficeStep sha256sum choice req b o (.setActive v) o') : o.pc.holdsActive = true := by
  cases h
  rfl

/-- The value to be stored was loaded in the step before. -/
theorem OfficeStep.loaded (h : OfficeStep sha256sum choice req b o act o') {c : Count} {v : ℤ}
    (ho : o'.pc = .activeStore c v) : act = .skip ∧ v = b.activeBankOffices := by
  cases h with
  | activeLoad =>
      cases ho
      exact ⟨rfl, rfl⟩
  | dispatch => cases htype : req.type <;> simp [operationPc, htype] at ho
  | _ => cases ho

/-- What an action does to the lock of the counter. -/
theorem apply_activeMutex (h : b.apply i act = some b') :
    (act = .lockActive ∧ b.activeMutex = none ∧ b'.activeMutex = some i) ∨
      (act = .unlockActive ∧ b'.activeMutex = none) ∨
      (act ≠ .lockActive ∧ act ≠ .unlockActive ∧ b'.activeMutex = b.activeMutex) := by
  cases act with
  | lockActive =>
      simp only [Bank.apply] at h
      split at h
      · cases h
        exact .inl ⟨rfl, Option.isNone_iff_eq_none.mp ‹_›, rfl⟩
      · cases h
  | unlockActive =>
      cases h
      exact .inr (.inl ⟨rfl, rfl⟩)
  | lock id =>
      simp only [Bank.apply] at h
      split at h
      · cases h
        exact .inr (.inr ⟨by simp, by simp, rfl⟩)
      · cases h
  | _ =>
      cases h
      exact .inr (.inr ⟨by simp, by simp, rfl⟩)

/-- Only a store changes the counter. -/
theorem apply_activeBankOffices (h : b.apply i act = some b') :
    (∃ v, act = .setActive v ∧ b'.activeBankOffices = v) ∨
      ((∀ v, act ≠ .setActive v) ∧ b'.activeBankOffices = b.activeBankOffices) := by
  cases act with
  | setActive v =>
      cases h
      exact .inl ⟨v, rfl, rfl⟩
  | lock | lockActive =>
      simp only [Bank.apply] at h
      split at h
      · cases h
        exact .inr ⟨by simp, rfl⟩
      · cases h
  | _ =>
      cases h
      exact .inr ⟨by simp, rfl⟩

end Step

/-- Past the increment of `processRequest` and before its decrement. -/
def Pc.active : Pc → Bool
  | .idle | .activeLock .enter | .activeLoad .enter | .activeStore .enter _
  | .activeUnlock .leave | .ret | .replyOpen | .replyWrite _ => false
  | _ => true

/-- The offices that have executed the increment of `processRequest` and not yet
the decrement. -/
def activeOffices (offices : Fin n → Office) : Finset (Fin n) :=
  Finset.univ.filter fun i => (offices i).pc.active

theorem card_activeOffices (offices : Fin n → Office) :
    (activeOffices offices).card = ∑ i, (offices i).pc.active.toNat := by
  rw [activeOffices, Finset.card_filter]
  apply Finset.sum_congr rfl
  intro i _
  cases (offices i).pc.active <;> rfl

/-- The lock has at most one holder, the value that was loaded under it is still
that of the counter, and the counter is the number of active offices and of the
logins that have failed. -/
structure Counted (bank : Bank (Fin n)) (offices : Fin n → Office) (failed : ℕ) : Prop where
  owner : ∀ i, (offices i).pc.holdsActive = true → bank.activeMutex = some i
  loaded : ∀ i c v, (offices i).pc = .activeStore c v → v = bank.activeBankOffices
  count : bank.activeBankOffices = (activeOffices offices).card + failed

/-- Every step keeps the balance of the counter, the active offices and the
failed logins. -/
theorem OfficeStep.active {choice : Choice} {req : TlvRequest} {b b' : Bank (Fin n)} {i : Fin n}
    {o o' : Office} {act : Action} (h : OfficeStep sha256sum choice req b o act o')
    (hloaded : ∀ c v, o.pc = .activeStore c v → v = b.activeBankOffices)
    (hb : b.apply i act = some b') :
    b'.activeBankOffices + o.pc.active.toNat = b.activeBankOffices + o'.pc.active.toNat +
      if act = .refuse .loginFail then 1 else 0 := by
  rcases apply_activeBankOffices hb with ⟨v, rfl, hv⟩ | ⟨hact, hsame⟩
  · cases h with
    | activeStore c v =>
        rw [hv, hloaded c v rfl]
        cases c <;> simp [Count.apply, Pc.active]
  · rw [hsame]
    cases h with
    | activeStore => exact absurd rfl (hact _)
    | activeLock c | activeLoad c => cases c <;> simp [Pc.active]
    | dispatch => cases htype : req.type <;> simp [Pc.active, operationPc]
    | fault pc r r' hf =>
        cases pc with
        | idle | activeLock | activeLoad | activeStore | activeUnlock | ret | replyOpen
        | replyWrite => exact hf.elim
        | _ => simp [Pc.active]
    | _ => simp [Pc.active]

/-- The reply to a shutdown takes its number from the counter. -/
theorem OfficeStep.info_of_shutdownCount {choice : Choice} {req : TlvRequest} {b : Bank (Fin n)}
    {o o' : Office} {act : Action} (h : OfficeStep sha256sum choice req b o act o')
    (ho : o.pc = .shutdownCount) :
    o'.reply.info = UInt32.ofInt (b.activeBankOffices - 1) := by
  cases h with
  | shutdownCount => rfl
  | fault pc r r' hf =>
      cases ho
      exact hf.elim
  | _ => cases ho

theorem ofInt_natCast (k : ℕ) : UInt32.ofInt k = UInt32.ofNat k := by
  have hmod : ((k : ℤ) % 2 ^ 32).toNat = k % UInt32.size := by
    simp only [UInt32.size]
    omega
  rw [UInt32.ofInt, hmod]
  exact UInt32.ofNat_mod_size

namespace Counted

variable {bank : Bank (Fin n)} {offices : Fin n → Office} {failed : ℕ}

theorem start (hidle : ∀ i, (offices i).pc = .idle) (hbank : bank = Bank.idle t₀) :
    Counted bank offices 0 := by
  constructor
  · intro i hi
    rw [hidle i] at hi
    cases hi
  · intro i c v hi
    rw [hidle i] at hi
    cases hi
  · have hnone : activeOffices offices = ∅ := Finset.filter_eq_empty_iff.mpr fun i _ => by
      rw [hidle i]
      decide
    rw [hnone, hbank]
    rfl

/-- With one office past the lock, no other office is. -/
theorem eq_of_holdsActive (h : Counted bank offices failed) {i j : Fin n}
    (hi : (offices i).pc.holdsActive = true) (hj : (offices j).pc.holdsActive = true) : i = j :=
  Option.some.inj ((h.owner i hi).symm.trans (h.owner j hj))

/-- An idle office that is about to take the lock. -/
theorem begin (h : Counted bank offices failed) {i : Fin n} (hidle : (offices i).pc = .idle)
    (r : TlvReply) :
    Counted bank (Function.update offices i ⟨.activeLock .enter, r⟩) failed := by
  constructor
  · intro j hj
    by_cases hji : j = i
    · subst j
      rw [Function.update_self] at hj
      cases hj
    · rw [Function.update_of_ne hji] at hj
      exact h.owner j hj
  · intro j c v hj
    by_cases hji : j = i
    · subst j
      rw [Function.update_self] at hj
      cases hj
    · rw [Function.update_of_ne hji] at hj
      exact h.loaded j c v hj
  · rw [h.count, card_activeOffices, card_activeOffices]
    rw [Threads.sum_update_of_eq offices (fun _ o => o.pc.active.toNat) i _ (by rw [hidle]; rfl)]

section Perform

variable {choice : Choice} {req : TlvRequest} {b : Bank (Fin n)} {i : Fin n} {o : Office}
  {act : Action} (h : Counted bank offices failed)
  (hstep : OfficeStep sha256sum choice req bank (offices i) act o)
  (hb : bank.apply i act = some b)
include h hstep hb

theorem owner_perform {j : Fin n}
    (hj : (Function.update offices i o j).pc.holdsActive = true) : b.activeMutex = some j := by
  rcases apply_activeMutex hb with ⟨rfl, hfree, htaken⟩ | ⟨rfl, hfree⟩ | ⟨hlock, hunlock, hsame⟩
  · by_cases hji : j = i
    · rw [hji, htaken]
    · rw [Function.update_of_ne hji] at hj
      rw [h.owner j hj] at hfree
      cases hfree
  · obtain ⟨hheld, hleft⟩ := hstep.holdsActive_of_unlock
    by_cases hji : j = i
    · subst j
      rw [Function.update_self, hleft] at hj
      cases hj
    · rw [Function.update_of_ne hji] at hj
      exact absurd (h.eq_of_holdsActive hj hheld) hji
  · rw [hsame]
    by_cases hji : j = i
    · subst j
      rw [Function.update_self] at hj
      exact h.owner i (hstep.holdsActive hlock hj)
    · rw [Function.update_of_ne hji] at hj
      exact h.owner j hj

theorem loaded_perform {j : Fin n} {c : Count} {v : ℤ}
    (hj : (Function.update offices i o j).pc = .activeStore c v) : v = b.activeBankOffices := by
  by_cases hji : j = i
  · subst j
    rw [Function.update_self] at hj
    obtain ⟨rfl, hv⟩ := hstep.loaded hj
    cases hb
    exact hv
  · rw [Function.update_of_ne hji] at hj
    rcases apply_activeBankOffices hb with ⟨v', rfl, -⟩ | ⟨-, hsame⟩
    · exact absurd (h.eq_of_holdsActive (by rw [hj]; rfl) hstep.holdsActive_of_set) hji
    · rw [hsame]
      exact h.loaded j c v hj

theorem perform : Counted b (Function.update offices i o)
    (failed + if act = .refuse .loginFail then 1 else 0) := by
  refine ⟨fun _ hj => owner_perform h hstep hb hj, fun _ _ _ hj => loaded_perform h hstep hb hj, ?_⟩
  have hsum : ∑ j, (Function.update offices i o j).pc.active.toNat + (offices i).pc.active.toNat =
      ∑ j, (offices j).pc.active.toNat + o.pc.active.toNat :=
    Threads.sum_update offices (fun _ o => o.pc.active.toNat) i o
  have hkept := hstep.active (fun c v => h.loaded i c v) hb
  have hcount := h.count
  rw [card_activeOffices] at hcount ⊢
  simp only [Nat.cast_add, Nat.cast_ite, Nat.cast_one, Nat.cast_zero]
  omega

end Perform

variable (h : Counted bank offices 0)
include h

/-- Without failed logins the counter is the number of active offices. -/
theorem eq_card : bank.activeBankOffices = (activeOffices offices).card := by
  rw [h.count, Nat.cast_zero, add_zero]

theorem eq_zero (hidle : ∀ i, (offices i).pc = .idle) : bank.activeBankOffices = 0 := by
  have hnone : activeOffices offices = ∅ := Finset.filter_eq_empty_iff.mpr fun i _ => by
    rw [hidle i]
    decide
  rw [h.eq_card, hnone]
  rfl

/-- An accepted shutdown reports the other active offices. -/
theorem info {choice : Choice} {req : TlvRequest} {i : Fin n} {o : Office} {act : Action}
    (hstep : OfficeStep sha256sum choice req bank (offices i) act o)
    (hpc : (offices i).pc = .shutdownCount) :
    o.reply.info = UInt32.ofNat ((activeOffices offices).erase i).card := by
  have hmem : i ∈ activeOffices offices :=
    Finset.mem_filter.mpr ⟨Finset.mem_univ i, by rw [hpc]; rfl⟩
  rw [hstep.info_of_shutdownCount hpc, h.eq_card, ← Finset.card_erase_add_one hmem]
  push_cast
  rw [add_sub_cancel_right]
  exact ofInt_natCast _

end Counted

theorem card_activeOffices_le (offices : Fin n → Office) : (activeOffices offices).card ≤ n :=
  (Finset.card_le_univ _).trans_eq (Fintype.card_fin n)

/-- The offices that count themselves as active. -/
abbrev System.active (s : System n) : Finset (Fin n) := activeOffices s.offices

/-- The login checks that failed so far. -/
def failedLogins (trace : List (Fin n × Action)) : ℕ :=
  trace.countP fun e => e.2 = .refuse .loginFail

/-- In every run the counter is the number of active offices plus the number of
failed logins. -/
theorem counted {s : System n} (h : (bankOffices sha256sum ok t₀ n).Reachable s) :
    Counted s.bank s.offices (failedLogins s.trace) := by
  apply h.invariant (I := fun s : System n => Counted s.bank s.offices (failedLogins s.trace))
  · intro s hs
    rw [hs.2.2]
    exact .start hs.2.1 hs.1
  · intro s l s' _ ih hs
    rcases bankOffices_step_cases hs with ⟨i, req, -, hidle, -, rfl⟩ |
      ⟨i, choice, act, b, o, -, hstep, hb, rfl⟩
    · exact ih.begin hidle _
    · have htrace : failedLogins (s.perform i act b o).trace =
          failedLogins s.trace + if act = .refuse .loginFail then 1 else 0 := by
        simp [failedLogins, List.countP_cons]
      rw [htrace]
      exact ih.perform hstep hb

/-- The next step is a login check that fails. -/
def loginFails (t : Table) (req : TlvRequest) : Pc → Bool
  | .login => req.headerId < maxBankAccounts && (t req.headerId).isNone
  | .loginCompare id hash => (t id).any fun a => hash ≠ a.hash
  | _ => false

/-- The step refuses a login. -/
def System.loginFails (s : System n) : Label n → Bool
  | .act i _ => HomeBanking.loginFails s.table (s.requests i) (s.pc i)
  | .give .. => false

/-- The runs in which every login passes. -/
abbrev withoutFailedLogins (sha256sum : CString → CString) (ok : TlvRequest → Prop) (t₀ : Table)
    (n : ℕ) : LTS (System n) (Label n) :=
  (bankOffices sha256sum ok t₀ n).guard fun s l => s.loginFails l = false

/-- `RC_LOGIN_FAIL` is given by failed checks of the login only. -/
theorem OfficeStep.loginFails {choice : Choice} {req : TlvRequest} {b : Bank (Fin n)}
    {o o' : Office} (h : OfficeStep sha256sum choice req b o (.refuse .loginFail) o') :
    HomeBanking.loginFails b.bankAccounts req o.pc = true := by
  cases h with
  | loginUnknown r hid hnone => simp [HomeBanking.loginFails, hid, hnone]
  | loginFailed id hash r a ha hhash => simp [HomeBanking.loginFails, ha, hhash]

theorem failedLogins_eq_zero {s : System n}
    (h : (withoutFailedLogins sha256sum ok t₀ n).Reachable s) : failedLogins s.trace = 0 := by
  apply h.invariant (I := fun s : System n => failedLogins s.trace = 0)
  · intro s hs
    rw [hs.2.2]
    rfl
  · rintro s l s' - ih ⟨hs, hpasses⟩
    rcases bankOffices_step_cases hs with ⟨i, req, -, -, -, rfl⟩ |
      ⟨i, choice, act, b, o, rfl, hstep, -, rfl⟩
    · exact ih
    · have hact : act ≠ .refuse .loginFail := by
        rintro rfl
        have hfails := hstep.loginFails
        rw [System.loginFails] at hpasses
        exact absurd (hpasses.symm.trans hfails) (by decide)
      rw [System.perform_trace, failedLogins, List.countP_cons, if_neg (by simpa using hact)]
      exact ih

namespace Server

/-- The offices of the server that count themselves as active. -/
abbrev active (s : Server n) : Finset (Fin n) := activeOffices s.offices

/-- The login checks that failed so far. -/
def failedLogins (s : Server n) : ℕ := s.trace.countP fun e => e.action = .refuse .loginFail

/-- The step refuses a login. -/
def loginFails (s : Server n) : ServerLabel n → Bool
  | .act i _ => HomeBanking.loginFails s.bank.bankAccounts s.request (s.offices i).pc
  | _ => false

/-- The runs of the server in which every login passes. -/
abbrev withoutFailedLogins (sha256sum : CString → CString) (ok : TlvRequest → Prop) (t₀ : Table)
    (n : ℕ) : LTS (Server n) (ServerLabel n) :=
  (server sha256sum ok t₀ n).guard fun s l => s.loginFails l = false

variable {s : Server n}

theorem failedLogins_perform (s : Server n) (i : Fin n) (act : Action) (b : Bank (Fin n))
    (o : Office) : (s.perform i act b o).failedLogins =
      s.failedLogins + if act = .refuse .loginFail then 1 else 0 := by
  simp [failedLogins, perform, List.countP_cons]

theorem counted (h : (server sha256sum ok t₀ n).Reachable s) :
    Counted s.bank s.offices s.failedLogins := by
  apply h.invariant (I := fun s : Server n => Counted s.bank s.offices s.failedLogins)
  · intro s hs
    rw [failedLogins, hs.trace]
    exact .start hs.offices hs.bank
  · intro s l s' hr ih hs
    cases step_cases hs.1 with
    | store | submit | leave | main | loop | take => exact ih
    | begin i k hi =>
        exact ih.begin (resting hr i fun k' hk => by rw [hi] at hk; cases hk) _
    | act i k choice act b o hi hstep hb =>
        rw [failedLogins_perform]
        exact ih.perform (officeStep_cases _ _ _ _ hstep) hb

theorem failedLogins_eq_zero (h : (withoutFailedLogins sha256sum ok t₀ n).Reachable s) :
    s.failedLogins = 0 := by
  apply h.invariant (I := fun s : Server n => s.failedLogins = 0)
  · intro s hs
    rw [failedLogins, hs.trace]
    rfl
  · rintro s l s' - ih ⟨hs, hpasses⟩
    cases step_cases hs.1 with
    | store | submit | leave | main | loop | take | begin => exact ih
    | act i k choice act b o hi hstep hb =>
        have hact : act ≠ .refuse .loginFail := by
          rintro rfl
          have hfails := (officeStep_cases _ _ _ _ hstep).loginFails
          rw [loginFails] at hpasses
          exact absurd (hpasses.symm.trans hfails) (by decide)
        rw [failedLogins_perform, if_neg hact]
        exact ih

end Server

/-- As long as every login passes, the counter is the number of active offices:
at most the number of offices, 0 when all are idle, and the number reported to
an accepted shutdown is that of the other active offices. In all runs the
counter exceeds the active offices by the number of failed logins. Both hold of
offices on requests of their own and of the server. -/
theorem active_counted {s : System n} {r : Server n} :
    ((withoutFailedLogins sha256sum ok t₀ n).Reachable s →
      s.bank.activeBankOffices = s.active.card ∧ s.active.card ≤ n ∧
      ((∀ i, s.pc i = .idle) → s.bank.activeBankOffices = 0) ∧
      ∀ i choice s', s.pc i = .shutdownCount → s.next sha256sum (.act i choice) = some s' →
        (s'.offices i).reply.info = UInt32.ofNat (s.active.erase i).card) ∧
    ((bankOffices sha256sum ok t₀ n).Reachable s →
      s.bank.activeBankOffices = s.active.card + failedLogins s.trace) ∧
    ((Server.withoutFailedLogins sha256sum ok t₀ n).Reachable r →
      r.bank.activeBankOffices = r.active.card ∧ r.active.card ≤ n ∧
      ((∀ i, (r.offices i).pc = .idle) → r.bank.activeBankOffices = 0) ∧
      ∀ i choice r', (r.offices i).pc = .shutdownCount →
        r.next sha256sum (.act i choice) = some r' →
        (r'.offices i).reply.info = UInt32.ofNat (r.active.erase i).card) ∧
    ((server sha256sum ok t₀ n).Reachable r →
      r.bank.activeBankOffices = r.active.card + r.failedLogins) := by
  refine ⟨fun h => ?_, fun h => (counted h).count, fun h => ?_, fun h => (Server.counted h).count⟩
  · have hcounted := counted h.of_guard
    rw [failedLogins_eq_zero h] at hcounted
    refine ⟨hcounted.eq_card, card_activeOffices_le _, hcounted.eq_zero, ?_⟩
    intro i choice s' hpc hs
    simp only [System.next, Option.bind_eq_some_iff, Option.map_eq_some_iff] at hs
    obtain ⟨⟨act, o⟩, hstep, b, -, rfl⟩ := hs
    rw [System.perform_offices_self]
    exact hcounted.info (officeStep_cases _ _ _ _ hstep) hpc
  · have hcounted := Server.counted h.of_guard
    rw [Server.failedLogins_eq_zero h] at hcounted
    refine ⟨hcounted.eq_card, card_activeOffices_le _, hcounted.eq_zero, ?_⟩
    intro i choice r' hpc hs
    obtain ⟨k, act, b, o, -, hstep, -, rfl⟩ := Server.act_cases hs
    change (Function.update r.offices i o i).reply.info = _
    rw [Function.update_self]
    exact hcounted.info (officeStep_cases _ _ _ _ hstep) hpc

namespace Server

/-- Office `i` has passed the login of a balance check when the message of the
administrator replaces it; office `j` works on the shutdown. -/
def shutdownDuringBalance (i j : Fin n) : List (ServerLabel n) :=
  receive (Sample.balance 7) ++ enqueue ++ serve i 10 ++ receive (Sample.shutdown 8) ++ enqueue ++
    serve j 10

end Server

set_option synthInstance.maxSize 256 in
/-- One office works on a balance check and another one on a shutdown, on requests
of their own or on the one of the server: the shutdown counts one other office. -/
theorem active_counted_shutdown : ∃ (s : System 2) (r : Server 2),
    (withoutFailedLogins Sample.sha256sum (fun _ => True) (Sample.twoAccounts 100 200) 2).Reachable
      s ∧
    s.pc 1 = .shutdownCount ∧ s.bank.activeBankOffices = 2 ∧ s.active.erase 1 = {0} ∧
    (Server.withoutFailedLogins Sample.sha256sum (fun _ => True)
      (Sample.twoAccounts 100 200) 2).Reachable r ∧
    (r.offices 1).pc = .shutdownCount ∧ r.bank.activeBankOffices = 2 ∧ r.active.erase 1 = {0} := by
  obtain ⟨s, hs, hf⟩ : ∃ s : System 2,
      (withoutFailedLogins Sample.sha256sum (fun _ => True)
        (Sample.twoAccounts 100 200) 2).Reachable s ∧
      (s.pc 1, s.active) = (.shutdownCount, {0, 1}) :=
    guarded_execute (C := fun s l => !s.loginFails l)
      (fun s l h => ⟨by simpa using h, fun _ _ _ => trivial⟩) Sample.emptyReply
      (Sample.shutdown 0)
      (Sample.serve 0 (Sample.balance 7) 10 ++ Sample.serve 1 (Sample.shutdown 8) 10)
      (by decide +kernel)
  obtain ⟨r, hr, hg⟩ : ∃ r : Server 2,
      (Server.withoutFailedLogins Sample.sha256sum (fun _ => True)
        (Sample.twoAccounts 100 200) 2).Reachable r ∧
      ((r.offices 1).pc, r.active) = (.shutdownCount, {0, 1}) :=
    Server.execute_guarded (by decide) (fun _ _ htest => of_decide_eq_true htest)
      (Server.shutdownDuringBalance 0 1) (by decide +kernel)
  obtain ⟨hpc, hactive⟩ := Prod.mk.inj hf
  obtain ⟨hpc', hactive'⟩ := Prod.mk.inj hg
  refine ⟨s, r, hs, hpc, ?_, by rw [hactive]; decide, hr, hpc', ?_, by rw [hactive']; decide⟩
  · rw [((active_counted (r := r)).1 hs).1, hactive]
    rfl
  · rw [((active_counted (s := s)).2.2.1 hr).1, hactive']
    rfl

/-- After a balance check of an account that does not exist the only office is
idle and the counter is 1; the shutdown that follows reports one other office. -/
theorem active_not_counted : ∃ s s' : System 1,
    (bankOffices Sample.sha256sum (fun _ => True) Sample.adminOnly 1).Reachable s ∧
    (bankOffices Sample.sha256sum (fun _ => True) Sample.adminOnly 1).Reaches s s' ∧
    s.pc 0 = .idle ∧ s.bank.activeBankOffices = 1 ∧ s.active.card = 0 ∧
    s'.pc 0 = .idle ∧ (s'.offices 0).reply.retCode = .ok ∧ (s'.offices 0).reply.info = 1 := by
  obtain ⟨s, s', hs, hr, hf, hg⟩ :
      ∃ s s', (bankOffices Sample.sha256sum (fun _ => True) Sample.adminOnly 1).Reachable s ∧
        (bankOffices Sample.sha256sum (fun _ => True) Sample.adminOnly 1).Reaches s s' ∧
        (s.pc 0, s.bank.activeBankOffices, s.active.card) = (.idle, 1, 0) ∧
        (s'.pc 0, (s'.offices 0).reply.retCode, (s'.offices 0).reply.info) = (.idle, .ok, 1) :=
    execute_reaches Sample.emptyReply (Sample.shutdown 0)
      (Sample.serve 0 (Sample.balance 6) 8) (Sample.serve 0 (Sample.shutdown 7) 19)
      (by decide +kernel)
  simp only [Prod.mk.injEq] at hf hg
  exact ⟨s, s', hs, hr, hf.1, hf.2.1, hf.2.2, hg.1, hg.2.1, hg.2.2⟩

end HomeBanking
