import HomeBanking.Locks

/-!
# Accounts are created once

`OPCreateAccount` looks whether the slot is free before it takes the mutex, so
two creations of one id can both pass. In the runs in which no creation passes
the check while another one of the same id is between its check and its write,
an entry is never replaced and at most one creation of each id succeeds.
-/

namespace HomeBanking

variable {n : ℕ} {sha256sum : CString → CString} {ok : TlvRequest → Prop} {t₀ : Table}

/-- The office has passed the check for `id` and has not written the account. -/
def creationPending (id : UInt32) : Pc → Bool
  | .createLock c | .createWrite c => c.accountId = id
  | _ => false

/-- The office has created `id` and has not sent its reply. -/
def creationDone (id : UInt32) (req : TlvRequest) (o : Office) : Bool :=
  match o.pc with
  | .createUnlock c => c.accountId = id
  | .activeLock .leave | .activeLoad .leave | .activeStore .leave _ | .activeUnlock .leave
  | .ret | .replyOpen | .replyWrite _ =>
      req.type = .createAccount ∧ req.createId = id ∧ o.reply.retCode = .ok
  | _ => false

/-- A reply `RC_OK` to a request to create `id`. -/
def creationAnswered (id : UInt32) : Action → Bool
  | .sent _ req reply =>
      req.type = .createAccount ∧ req.createId = id ∧ reply.retCode = .ok
  | _ => false

/-- The step passes the check of a creation while another office is between
its own check for the same id and the write. -/
def System.creationOverlaps (s : System n) : Label n → Bool
  | .act i _ => s.pc i = .createCheck ∧ (s.requests i).headerId = 0 ∧
      s.table (s.requests i).createId = none ∧
      ∃ j, creationPending (s.requests i).createId (s.pc j)
  | .give .. => false

/-- The runs in which creations of one id do not overlap. -/
abbrev withoutOverlaps (sha256sum : CString → CString) (ok : TlvRequest → Prop)
    (t₀ : Table) (n : ℕ) : LTS (System n) (Label n) :=
  (bankOffices sha256sum ok t₀ n).guard fun s l => s.creationOverlaps l = false

/-- The number of creations of `id` under way. -/
def System.pending (s : System n) (id : UInt32) : ℕ :=
  s.sum fun _ o => (creationPending id o.pc).toNat

/-- The number of creations of `id` that succeeded. -/
def System.created (s : System n) (id : UInt32) : ℕ :=
  (s.sum fun req o => (creationDone id req o).toNat) +
    s.trace.countP fun e => creationAnswered id e.2

theorem creationPending_operationPc (id : UInt32) (t : OpType) :
    creationPending id (operationPc t) = false := by
  cases t <;> rfl

section Steps

variable {choice : Choice} {req : TlvRequest} {b b' : Bank (Fin n)} {o o' : Office}
  {act : Action}

/-- Balances are stored only by transfers. -/
theorem OfficeStep.type_of_setBalance {id x : UInt32}
    (h : OfficeStep sha256sum choice req b o (.setBalance id x) o')
    (hv : Valid b.bankAccounts req o.pc) : req.type = .transfer := by
  cases h with
  | subtractWrite => exact hv.1.type
  | addWrite => exact hv.1.type

/-- Only `createBankAccount` fills a slot. -/
theorem apply_isSome_eq {i : Fin n} (h : b.apply i act = some b')
    (hact : ∀ j a, act ≠ .setAccount j a) (id : UInt32) :
    (b'.bankAccounts id).isSome = (b.bankAccounts id).isSome := by
  by_cases hw : id ∈ act.writes
  · cases act with
    | setBalance j x =>
        cases h
        exact Bank.setBalance_isSome b j x id
    | setAccount j a => exact absurd rfl (hact j a)
    | _ => simp [Action.writes] at hw
  · rw [apply_eq_of_notMem_writes h hw]

/-- A creation gets under way by passing its check. -/
theorem OfficeStep.creationPending {id : UInt32}
    (h : OfficeStep sha256sum choice req b o act o')
    (hp : HomeBanking.creationPending id o'.pc = true) :
    HomeBanking.creationPending id o.pc = true ∨
      (o.pc = .createCheck ∧ req.headerId = 0 ∧ b.bankAccounts req.createId = none ∧
        req.createId = id) := by
  cases h with
  | dispatch => simp [creationPending_operationPc] at hp
  | createCheck r hadmin hid hnone =>
      exact .inr ⟨rfl, hadmin, hnone, of_decide_eq_true hp⟩
  | createLock => exact .inl hp
  | _ => cases hp

/-- A creation that writes its account is no longer under way, and has succeeded. -/
theorem OfficeStep.of_setAccount {j : UInt32} {a : BankAccount}
    (h : OfficeStep sha256sum choice req b o (.setAccount j a) o') (id : UInt32) :
    HomeBanking.creationPending id o.pc = decide (j = id) ∧
      HomeBanking.creationPending id o'.pc = false ∧
      creationDone id req o = false ∧ creationDone id req o' = decide (j = id) := by
  cases h
  exact ⟨rfl, rfl, rfl, rfl⟩

/-- No other step makes a creation succeed, and a reply is sent once. -/
theorem OfficeStep.creationDone_le (h : OfficeStep sha256sum choice req b o act o') (id : UInt32)
    (hv : Valid b.bankAccounts req o.pc)
    (hact : ∀ j a, act ≠ .setAccount j a) :
    (creationDone id req o').toNat + (creationAnswered id act).toNat ≤
      (creationDone id req o).toNat := by
  cases h with
  | createWrite => exact absurd rfl (hact _ _)
  | activeLock c | activeLoad c | activeStore c => cases c <;> exact le_rfl
  | activeLeft | ret | replyOpen => exact le_rfl
  | dispatch =>
      cases ht : req.type <;> simp [operationPc, creationDone, creationAnswered, ht]
  | loginUnknown | loginFailed | createNotAllowed | createInUse | replyUserDown =>
      simp [creationDone, creationAnswered, TlvReply.setRetCode]
  | createUnlock c r =>
      obtain ⟨-, rfl, -⟩ := hv
      simp only [creationDone, creationAnswered, Bool.toNat_false, add_zero]
      apply Bool.toNat_le_toNat
      intro hdone
      exact decide_eq_true (of_decide_eq_true hdone).2.1
  | balanceNotAllowed | balanceUnlock | transferNotAllowed | transferNotFound
  | transferSameId | shutdownSet => simp [creationDone, creationAnswered, hv.1]
  | noFunds | tooHigh | transferReport => simp [creationDone, creationAnswered, hv.1.type]
  | shutdownNotAllowed => simp [creationDone, creationAnswered, show req.type = _ from hv]
  | replyWrite pid r => simp [creationDone, creationAnswered]
  | _ => simp [creationDone, creationAnswered]

end Steps

section Runs

variable {s : System n}

theorem System.created_perform (i : Fin n) (act : Action) (b : Bank (Fin n)) (o : Office)
    (id : UInt32) :
    (s.perform i act b o).created id + (creationDone id (s.requests i) (s.offices i)).toNat =
      s.created id + (creationDone id (s.requests i) o).toNat +
        (creationAnswered id act).toNat := by
  have hsum := s.sum_perform i act b o fun req o => (creationDone id req o).toNat
  have hcount : (s.perform i act b o).trace.countP (fun e => creationAnswered id e.2) =
      s.trace.countP (fun e => creationAnswered id e.2) + (creationAnswered id act).toNat := by
    rw [System.perform_trace, List.countP_cons, Bool.toNat]
    cases creationAnswered id act <;> rfl
  simp only [System.created, hcount]
  omega

theorem System.pending_perform (i : Fin n) (act : Action) (b : Bank (Fin n)) (o : Office)
    (id : UInt32) :
    (s.perform i act b o).pending id + (creationPending id (s.pc i)).toNat =
      s.pending id + (creationPending id o.pc).toNat :=
  s.sum_perform i act b o _

section Step

variable {i : Fin n} {choice : Choice} {b : Bank (Fin n)} {o : Office} {id : UInt32}

/-- The write of an account ends the creation that was under way. -/
theorem pending_le_setAccount {j : UInt32} {a : BankAccount}
    (hstep : OfficeStep sha256sum choice (s.requests i) s.bank (s.offices i)
      (.setAccount j a) o) (hb : s.bank.apply i (.setAccount j a) = some b)
    (hle : s.pending id + (s.table id).isSome.toNat ≤ 1) :
    (s.perform i (.setAccount j a) b o).pending id + (b.bankAccounts id).isSome.toNat ≤ 1 := by
  have hsum := s.pending_perform i (.setAccount j a) b o id
  obtain ⟨hbefore, hafter, -⟩ := hstep.of_setAccount id
  rw [show creationPending id (s.pc i) = _ from hbefore, hafter, Bool.toNat_false] at hsum
  by_cases hj : j = id
  · have := Bool.toNat_le (b.bankAccounts id).isSome
    simp only [hj, decide_true, Bool.toNat_true] at hsum ⊢
    omega
  · have hsame : b.bankAccounts id = s.table id :=
      apply_eq_of_notMem_writes hb (by simpa [Action.writes] using Ne.symm hj)
    simp only [hj, decide_false, Bool.toNat_false] at hsum
    rw [hsame]
    omega

/-- No other step fills a slot, and a creation that begins finds no other. -/
theorem pending_le_of_isSome_eq {act : Action}
    (hstep : OfficeStep sha256sum choice (s.requests i) s.bank (s.offices i) act o)
    (hfree : s.creationOverlaps (.act i choice) = false)
    (hsame : (b.bankAccounts id).isSome = (s.table id).isSome)
    (hle : s.pending id + (s.table id).isSome.toNat ≤ 1) :
    (s.perform i act b o).pending id + (b.bankAccounts id).isSome.toNat ≤ 1 := by
  have hsum := s.pending_perform i act b o id
  rw [hsame]
  cases hp : creationPending id o.pc with
  | false =>
      rw [hp, Bool.toNat_false] at hsum
      omega
  | true =>
      rcases hstep.creationPending hp with hbefore | ⟨hpc, hadmin, hnone, hid⟩
      · rw [hp, show creationPending id (s.pc i) = _ from hbefore] at hsum
        omega
      · subst hid
        have hnot : ∀ j, creationPending (s.requests i).createId (s.pc j) = false := by
          simpa [System.creationOverlaps, System.pc, hpc, hadmin, hnone] using hfree
        have hzero : s.pending (s.requests i).createId = 0 :=
          s.sum_eq_zero _ fun j => by rw [hnot j, Bool.toNat_false]
        have hempty : (s.table (s.requests i).createId).isSome = false := by
          simp [hnone]
        rw [hp, hzero, Bool.toNat_true] at hsum
        rw [hempty, Bool.toNat_false]
        omega

end Step

/-- A free slot is being filled by one office at most, a filled one by none. -/
theorem pending_le (h : (withoutOverlaps sha256sum ok t₀ n).Reachable s) (id : UInt32) :
    s.pending id + (s.table id).isSome.toNat ≤ 1 := by
  apply h.invariant (I := fun s => s.pending id + (s.table id).isSome.toNat ≤ 1)
  · intro s hs
    have hzero : s.pending id = 0 := s.sum_eq_zero _ fun i => by
      rw [show (s.offices i).pc = _ from hs.2.1 i]
      rfl
    rw [hzero, zero_add]
    exact Bool.toNat_le _
  · intro s l s' hr ih hs
    obtain ⟨hs, hfree⟩ := hs
    rcases bankOffices_step_cases hs with ⟨i, req, -, hidle, -, rfl⟩ |
      ⟨i, choice, act, b, o, rfl, hstep, hb, rfl⟩
    · have hsum : (s.give i req).pending id = s.pending id := s.sum_give i req _ (by
        rw [show (s.offices i).pc = _ from hidle]
        rfl)
      rwa [hsum]
    · rw [System.perform_table]
      by_cases hact : ∃ j a, act = .setAccount j a
      · obtain ⟨j, a, rfl⟩ := hact
        exact pending_le_setAccount hstep hb ih
      · push Not at hact
        exact pending_le_of_isSome_eq hstep hfree (apply_isSome_eq hb hact id) ih

/-- An entry is written only while it is empty. -/
theorem empty_of_setAccount (h : (withoutOverlaps sha256sum ok t₀ n).Reachable s)
    {i : Fin n} {choice : Choice} {id : UInt32} {a : BankAccount} {o : Office}
    (hstep : OfficeStep sha256sum choice (s.requests i) s.bank (s.offices i)
      (.setAccount id a) o) : s.table id = none := by
  have hbefore := (hstep.of_setAccount id).1
  have hone : 1 ≤ s.pending id := by
    have hle := Finset.single_le_sum (s := Finset.univ)
      (f := fun j => (creationPending id (s.pc j)).toNat) (fun j _ => Nat.zero_le _)
      (Finset.mem_univ i)
    rwa [show creationPending id (s.pc i) = _ from hbefore, decide_eq_true rfl] at hle
  have hle := pending_le h id
  cases ht : s.table id with
  | none => rfl
  | some a' =>
      rw [ht, Option.isSome_some, Bool.toNat_true] at hle
      omega

/-- A creation that succeeded has left its account, and no other one succeeds. -/
theorem created_le (h : (withoutOverlaps sha256sum ok t₀ n).Reachable s) (id : UInt32) :
    s.created id ≤ (s.table id).isSome.toNat := by
  apply h.invariant (I := fun s => s.created id ≤ (s.table id).isSome.toNat)
  · intro s hs
    have hzero : s.created id = 0 := by
      simp only [System.created, hs.2.2, List.countP_nil, add_zero]
      exact s.sum_eq_zero _ fun i => by simp [creationDone, show (s.offices i).pc = _ from hs.2.1 i]
    rw [hzero]
    exact Nat.zero_le _
  · intro s l s' hr ih hs
    rcases bankOffices_step_cases hs.1 with ⟨i, req, -, hidle, -, rfl⟩ |
      ⟨i, choice, act, b, o, rfl, hstep, hb, rfl⟩
    · have hsum : (s.give i req).created id = s.created id := by
        simp only [System.created, System.give_trace]
        rw [s.sum_give i req]
        simp [creationDone, show (s.offices i).pc = _ from hidle]
      rwa [hsum]
    · have hsum := s.created_perform i act b o id
      rw [System.perform_table]
      by_cases hact : ∃ j a, act = .setAccount j a
      · obtain ⟨j, a, rfl⟩ := hact
        obtain ⟨-, -, hdone, hdone'⟩ := hstep.of_setAccount id
        rw [hdone, hdone'] at hsum
        simp only [creationAnswered, Bool.toNat_false] at hsum
        by_cases hj : j = id
        · subst j
          have hempty := empty_of_setAccount hr hstep
          cases hb
          rw [hempty] at ih
          simpa [Bank.setAccount] using hsum.trans_le (by simpa using ih)
        · have hsame : b.bankAccounts id = s.table id :=
            apply_eq_of_notMem_writes hb (by simpa [Action.writes] using Ne.symm hj)
          simp only [hj, decide_false, Bool.toNat_false] at hsum
          rw [hsame]
          omega
      · push Not at hact
        have hle := hstep.creationDone_le id (valid hr.of_guard i) hact
        have hsame : (b.bankAccounts id).isSome = (s.table id).isSome :=
          apply_isSome_eq hb hact id
        rw [hsame]
        omega

/-- One step keeps every account; its balance changes only by the step of a
transfer from or to it. -/
theorem account_step (h : (withoutOverlaps sha256sum ok t₀ n).Reachable s) {l : Label n}
    {s' : System n} (hs : (withoutOverlaps sha256sum ok t₀ n).step s l s') {id : UInt32}
    {a : BankAccount} (ha : s.table id = some a) :
    ∃ x, s'.table id = some { a with balance := x } ∧ (x = a.balance ∨ ∃ i choice,
      l = .act i choice ∧ (s.requests i).type = .transfer ∧
        id ∈ operationAccounts (s.requests i)) := by
  rcases bankOffices_step_cases hs.1 with ⟨i, req, -, -, -, rfl⟩ |
    ⟨i, choice, act, b, o, rfl, hstep, hb, rfl⟩
  · exact ⟨a.balance, ha, .inl rfl⟩
  by_cases hw : id ∈ act.writes
  · have hop := (valid h.of_guard i).held_operation
      (hstep.writes_subset (valid h.of_guard i) hw)
    cases act with
    | setBalance j x =>
        cases hb
        obtain rfl : id = j := by simpa [Action.writes] using hw
        refine ⟨x, ?_, .inr ⟨i, choice, rfl, hstep.type_of_setBalance (valid h.of_guard i),
          hop.2⟩⟩
        simp [Bank.setBalance, ha]
    | setAccount j a' =>
        obtain rfl : id = j := by simpa [Action.writes] using hw
        rw [empty_of_setAccount h hstep] at ha
        cases ha
    | _ => simp [Action.writes] at hw
  · have hsame : b.bankAccounts id = s.table id := apply_eq_of_notMem_writes hb hw
    exact ⟨a.balance, hsame.trans ha, .inl rfl⟩

/-- Without overlapping creations of one id, at most one request to create an
id is answered `RC_OK`, an existing account keeps its id, hash and salt for
ever, and its balance changes only by the steps of transfers from or to it. -/
theorem accounts_kept (h : (withoutOverlaps sha256sum ok t₀ n).Reachable s) (id : UInt32) :
    s.trace.countP (fun e => creationAnswered id e.2) ≤ 1 ∧
    ∀ a, s.table id = some a →
      (∀ s', (withoutOverlaps sha256sum ok t₀ n).Reaches s s' →
        ∃ x, s'.table id = some { a with balance := x }) ∧
      (∀ l s', (withoutOverlaps sha256sum ok t₀ n).step s l s' →
        s'.table id = some a ∨ ∃ i choice, l = .act i choice ∧
          (s.requests i).type = .transfer ∧ id ∈ operationAccounts (s.requests i)) := by
  refine ⟨?_, fun a ha => ⟨?_, ?_⟩⟩
  · have hcreated := (created_le h id).trans (Bool.toNat_le _)
    unfold System.created at hcreated
    omega
  · intro s' hr
    exact LTS.Reaches.relates (R := fun s s' => ∀ a, s.table id = some a →
      ∃ x, s'.table id = some { a with balance := x }) (fun _ a ha => ⟨a.balance, ha⟩)
      (fun s t u hst htu a ha => by
        obtain ⟨x, hx⟩ := hst a ha
        obtain ⟨y, hy⟩ := htu _ hx
        exact ⟨y, hy⟩)
      (fun s l s' hr hs a ha => by
        obtain ⟨x, hx, -⟩ := account_step hr hs ha
        exact ⟨x, hx⟩) h hr a ha
  · intro l s' hs
    obtain ⟨x, hx, rfl | htransfer⟩ := account_step h hs ha
    · exact .inl hx
    · exact .inr htransfer

end Runs

namespace Sample

/-- Office 1 creates account 2 while office 0 has checked account 1 and not yet
written it. The second creation of account 1 comes after the first. -/
def twoCreations : List (Label 2) :=
  serve 0 (create 7 1 100 password₁) 9 ++ serve 1 (create 8 2 200 password₂) 19 ++
    steps 0 10 ++ serve 1 (create 9 1 500 password₂) 16 ++ serve 0 (transfer 7 50) 25

end Sample

/-- Two offices create accounts at the same time: account 1 was created once,
and keeps its hash in every later state. -/
theorem accounts_kept_two : ∃ (s : System 2) (a : BankAccount),
    s.trace.countP (fun e => creationAnswered 1 e.2) = 1 ∧ s.table 1 = some a ∧
    ∀ s', (withoutOverlaps Sample.sha256sum (fun _ => True) Sample.adminOnly 2).Reaches s s' →
      ∃ x, s'.table 1 = some { a with balance := x } := by
  obtain ⟨s, hs, hf⟩ : ∃ s : System 2,
      (withoutOverlaps Sample.sha256sum (fun _ => True) Sample.adminOnly 2).Reachable s ∧
      (s.table 1, s.trace.countP fun e => creationAnswered 1 e.2) =
        (some (newAccount Sample.sha256sum Sample.salt 1 50 Sample.password₁), 1) :=
    guarded_execute (C := fun s l => !s.creationOverlaps l)
      (fun s l h => ⟨by simpa using h, fun _ _ _ => trivial⟩) Sample.emptyReply
      (Sample.shutdown 0) Sample.twoCreations (by decide +kernel)
  obtain ⟨ha, hcount⟩ := Prod.mk.inj hf
  exact ⟨s, _, hcount, ha, ((accounts_kept hs 1).2 _ ha).1⟩

namespace Sample

/-- Two offices pass the check for account 1 before either writes it. -/
def overlap : List (Label 2) :=
  serve 0 (create 7 1 100 password₁) 9 ++ serve 1 (create 8 1 500 password₂) 9 ++ steps 0 10

end Sample

/-- Both overlapping creations of account 1 are answered `RC_OK`, and the
second one replaces the entry of the first: its digest and its balance change. -/
theorem account_replaced : ∃ s s' : System 2,
    (bankOffices Sample.sha256sum (fun _ => True) Sample.adminOnly 2).Reachable s ∧
    (bankOffices Sample.sha256sum (fun _ => True) Sample.adminOnly 2).Reaches s s' ∧
    s.table 1 = some (newAccount Sample.sha256sum Sample.salt 1 100 Sample.password₁) ∧
    s'.table 1 = some (newAccount Sample.sha256sum Sample.salt 1 500 Sample.password₂) ∧
    (newAccount Sample.sha256sum Sample.salt 1 100 Sample.password₁).hash ≠
      (newAccount Sample.sha256sum Sample.salt 1 500 Sample.password₂).hash ∧
    s'.trace.countP (fun e => creationAnswered 1 e.2) = 2 := by
  obtain ⟨s, s', hs, hr, ha, hb⟩ : ∃ s s' : System 2,
      (bankOffices Sample.sha256sum (fun _ => True) Sample.adminOnly 2).Reachable s ∧
      (bankOffices Sample.sha256sum (fun _ => True) Sample.adminOnly 2).Reaches s s' ∧
      s.table 1 = some (newAccount Sample.sha256sum Sample.salt 1 100 Sample.password₁) ∧
      (s'.table 1, s'.trace.countP fun e => creationAnswered 1 e.2) =
        (some (newAccount Sample.sha256sum Sample.salt 1 500 Sample.password₂), 2) :=
    execute_reaches Sample.emptyReply (Sample.shutdown 0) Sample.overlap (Sample.steps 1 10)
      (by decide +kernel)
  obtain ⟨hb, hcount⟩ := Prod.mk.inj hb
  exact ⟨s, s', hs, hr, ha, hb, by decide +kernel, hcount⟩

end HomeBanking
