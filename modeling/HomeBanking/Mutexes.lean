import HomeBanking.Locks
import HomeBanking.Server

/-!
# The account mutexes of the server

All offices of the server read the one variable `request`, and an operation
reads the ids of its accounts again when it unlocks them. As long as the main
thread changes `request` only while no office is inside `processRequest`, each
office goes through `processRequest` as it does on a request of its own, and
what holds of the mutexes there holds in the server.

## Implementation notes

A change of `request` may still reach an office that opens the reply FIFO, so
the pids that replies are sent to differ from those of the offices alone.
-/

namespace HomeBanking

variable {n : ℕ} {sha256sum : CString → CString} {ok : TlvRequest → Prop} {t₀ : Table}

/-- Two offices that differ at most in the pid a reply is about to be sent to. -/
inductive Office.Alike : Office → Office → Prop
  | refl (o) : Alike o o
  | replyWrite (pid pid' r) : Alike ⟨.replyWrite (some pid), r⟩ ⟨.replyWrite (some pid'), r⟩

namespace Office.Alike

variable {o u : Office}

theorem eq_of_inProcessRequest (h : o.Alike u) (hin : o.pc.inProcessRequest = true) : u = o := by
  cases h with
  | refl => rfl
  | replyWrite => cases hin

theorem eq_of_idle (h : o.Alike u) (hidle : o.pc = .idle) : u = o := by
  cases h with
  | refl => rfl
  | replyWrite => cases hidle

theorem inProcessRequest (h : o.Alike u) : u.pc.inProcessRequest = o.pc.inProcessRequest := by
  cases h <;> rfl

/-- Outside `processRequest` the request decides no more than where a reply goes. -/
theorem officeStep (h : o.Alike u) (hout : o.pc.inProcessRequest = false) {choice : Choice}
    {req : TlvRequest} {bank b : Bank (Fin n)} {i : Fin n} {act : Action} {o' : Office}
    (hstep : OfficeStep sha256sum choice req bank o act o') (hb : bank.apply i act = some b)
    (req' : TlvRequest) :
    b = bank ∧ o'.pc.inProcessRequest = false ∧
      ∃ act' u', HomeBanking.officeStep sha256sum choice req' bank u = some (act', u') ∧
        bank.apply i act' = some bank ∧ o'.Alike u' := by
  cases hstep with
  | ret r =>
      cases hb
      cases h
      exact ⟨rfl, rfl, _, _, rfl, rfl, .refl _⟩
  | replyOpen r hopen =>
      cases hb
      cases h
      refine ⟨rfl, rfl, .skip, ⟨.replyWrite (some req'.value.header.pid), r⟩, ?_, rfl,
        .replyWrite _ _ r⟩
      simp only [HomeBanking.officeStep, hopen, if_true, goto]
  | replyUserDown r hopen =>
      cases hb
      cases h
      refine ⟨rfl, rfl, .skip, ⟨.replyWrite none, r.setRetCode .usrDown⟩, ?_, rfl, .refl _⟩
      simp only [HomeBanking.officeStep, hopen, Bool.false_eq_true, if_false]
  | replySkip r =>
      cases hb
      cases h
      exact ⟨rfl, rfl, _, _, rfl, rfl, .refl _⟩
  | replyWrite pid r =>
      cases hb
      cases h <;> exact ⟨rfl, rfl, _, _, rfl, rfl, .refl _⟩
  | fault pc r r' hf =>
      cases pc with
      | idle | ret | replyOpen | replyWrite => exact hf.elim
      | _ => cases hout
  | _ => cases hout

end Office.Alike

/-- The checks of the balances are inside `processRequest`. -/
theorem inProcessRequest_of_checkFails {t : Table} {req : TlvRequest} {pc : Pc}
    (h : checkFails t req pc = true) : pc.inProcessRequest = true := by
  cases pc <;> first | rfl | cases h

namespace Server

variable {s s' : Server n} {a : System n}

/-- No office is inside `processRequest`. -/
def Outside (s : Server n) : Prop := ∀ i, (s.offices i).pc.inProcessRequest = false

instance (s : Server n) : Decidable s.Outside := by
  unfold Outside
  infer_instance

/-- The step takes an error exit of `transference`. -/
def transferFails (s : Server n) : ServerLabel n → Bool
  | .act i _ => checkFails s.bank.bankAccounts s.request (s.offices i).pc
  | _ => false

/-- The runs in which `request` is changed only while no office is inside
`processRequest`. -/
abbrev undisturbed (sha256sum : CString → CString) (ok : TlvRequest → Prop) (t₀ : Table)
    (n : ℕ) : LTS (Server n) (ServerLabel n) :=
  (server sha256sum ok t₀ n).guard fun s l => s.stores l = s.request ∨ s.Outside

/-- Those of them in which every debit and every credit passes its check. -/
abbrev withoutFailedTransfers (sha256sum : CString → CString) (ok : TlvRequest → Prop)
    (t₀ : Table) (n : ℕ) : LTS (Server n) (ServerLabel n) :=
  (server sha256sum ok t₀ n).guard fun s l =>
    (s.stores l = s.request ∨ s.Outside) ∧ s.transferFails l = false

/-- The bank and the offices are those of the server, and an office inside
`processRequest` has the request in `request`. -/
structure Shadows (s : Server n) (a : System n) : Prop where
  bank : a.bank = s.bank
  offices : ∀ i, (s.offices i).Alike (a.offices i)
  requests : ∀ i, (s.offices i).pc.inProcessRequest = true → a.requests i = s.request

theorem Shadows.request (h : s.Shadows a) {request : TlvRequest}
    (hg : request = s.request ∨ s.Outside) (i : Fin n)
    (hin : (s.offices i).pc.inProcessRequest = true) : a.requests i = request := by
  rcases hg with rfl | hout
  · exact h.requests i hin
  · rw [hout i] at hin
    cases hin

theorem Shadows.begin (h : s.Shadows a) (i : Fin n) (k : ℕ) (hidle : (s.offices i).pc = .idle) :
    (s.begin i k).Shadows (a.give i s.request) := by
  refine ⟨h.bank, ?_, ?_⟩
  · intro j
    change (Function.update s.offices i _ j).Alike _
    by_cases hji : j = i
    · subst j
      rw [Function.update_self, a.give_offices_self, (h.offices i).eq_of_idle hidle]
      exact .refl _
    · rw [Function.update_of_ne hji, a.give_offices_of_ne _ hji]
      exact h.offices j
  · intro j hin
    change (Function.update s.offices i _ j).pc.inProcessRequest = true at hin
    by_cases hji : j = i
    · subst j
      exact a.give_requests_self i s.request
    · rw [Function.update_of_ne hji] at hin
      rw [a.give_requests_of_ne s.request hji]
      exact h.requests j hin

theorem Shadows.perform (h : s.Shadows a) {i : Fin n} {act act' : Action} {b : Bank (Fin n)}
    {o u : Office} (halike : o.Alike u)
    (hin : o.pc.inProcessRequest = true → (s.offices i).pc.inProcessRequest = true) :
    (s.perform i act b o).Shadows (a.perform i act' b u) := by
  refine ⟨rfl, ?_, ?_⟩
  · intro j
    change (Function.update s.offices i o j).Alike (Function.update a.offices i u j)
    by_cases hji : j = i
    · subst j
      rwa [Function.update_self, Function.update_self]
    · rw [Function.update_of_ne hji, Function.update_of_ne hji]
      exact h.offices j
  · intro j hj
    change (Function.update s.offices i o j).pc.inProcessRequest = true at hj
    by_cases hji : j = i
    · subst j
      rw [Function.update_self] at hj
      exact h.requests i (hin hj)
    · rw [Function.update_of_ne hji] at hj
      exact h.requests j hj

/-- Inside `processRequest` the office alone takes the same step. -/
theorem Shadows.next_of_inProcessRequest (h : s.Shadows a) {i : Fin n} {choice : Choice}
    {act : Action} {b : Bank (Fin n)} {o : Office}
    (hstep : officeStep sha256sum choice s.request s.bank (s.offices i) = some (act, o))
    (hb : s.bank.apply i act = some b) (hin : (s.offices i).pc.inProcessRequest = true) :
    a.next sha256sum (.act i choice) = some (a.perform i act b o) := by
  simp only [System.next, h.bank, (h.offices i).eq_of_inProcessRequest hin, h.requests i hin,
    hstep, Option.bind_some, hb, Option.map_some]

theorem Shadows.act (h : s.Shadows a) {i : Fin n} {choice : Choice} {act : Action}
    {b : Bank (Fin n)} {o : Office}
    (hstep : officeStep sha256sum choice s.request s.bank (s.offices i) = some (act, o))
    (hb : s.bank.apply i act = some b) :
    ∃ a', a.next sha256sum (.act i choice) = some a' ∧ (s.perform i act b o).Shadows a' := by
  cases hin : (s.offices i).pc.inProcessRequest with
  | true => exact ⟨_, h.next_of_inProcessRequest hstep hb hin, h.perform (.refl o) fun _ => hin⟩
  | false =>
      obtain ⟨rfl, hout, act', u, hstep', hb', halike⟩ :=
        (h.offices i).officeStep hin (officeStep_cases _ _ _ _ hstep) hb (a.requests i)
      refine ⟨a.perform i act' s.bank u, ?_, h.perform halike fun ho => ?_⟩
      · simp only [System.next, h.bank, hstep', Option.bind_some, hb', Option.map_some]
      · rw [hout] at ho
        cases ho

/-- The office alone fails its checks when the office of the server does. -/
theorem Shadows.transferFails (h : s.Shadows a) (i : Fin n) (choice : Choice) :
    a.transferFails (.act i choice) = s.transferFails (.act i choice) := by
  change checkFails a.bank.bankAccounts (a.requests i) (a.offices i).pc =
    checkFails s.bank.bankAccounts s.request (s.offices i).pc
  cases hin : (s.offices i).pc.inProcessRequest with
  | true => rw [h.bank, h.requests i hin, (h.offices i).eq_of_inProcessRequest hin]
  | false =>
      have hnot : ∀ t req pc, pc.inProcessRequest = false → checkFails t req pc = false := by
        intro t req pc hpc
        by_contra hfails
        rw [inProcessRequest_of_checkFails (Bool.eq_true_of_not_eq_false hfails)] at hpc
        cases hpc
      rw [hnot _ _ _ hin, hnot _ _ _ ((h.offices i).inProcessRequest.trans hin)]

/-- A step that does not disturb an office is a step of the offices alone, or none. -/
theorem Shadows.step {l : ServerLabel n} (hr : (server sha256sum ok t₀ n).Reachable s)
    (hs : s.next sha256sum l = some s') (hg : s.stores l = s.request ∨ s.Outside)
    (h : s.Shadows a) :
    s'.Shadows a ∨ ∃ m a', (bankOffices sha256sum (fun _ => True) t₀ n).step a m a' ∧
      s'.Shadows a' ∧ (s.transferFails l = false → a.transferFails m = false) := by
  cases step_cases hs with
  | store => exact .inl ⟨h.bank, h.offices, h.request hg⟩
  | submit => exact .inl ⟨h.bank, h.offices, h.request hg⟩
  | leave | main | loop | take => exact .inl ⟨h.bank, h.offices, h.requests⟩
  | begin i k hi =>
      have hidle : (s.offices i).pc = .idle :=
        resting hr i fun k' hk => by rw [hi] at hk; cases hk
      refine .inr ⟨.give i s.request, _, ⟨?_, fun _ _ _ => trivial⟩, h.begin i k hidle,
        fun _ => rfl⟩
      rw [System.next, if_pos]
      rw [System.pc, (h.offices i).eq_of_idle hidle, hidle]
  | act i k choice act b o hi hstep hb =>
      obtain ⟨a', hnext, hshadows⟩ := h.act hstep hb
      refine .inr ⟨.act i choice, a', ⟨hnext, fun _ _ _ => trivial⟩, hshadows, fun hfails => ?_⟩
      rwa [h.transferFails]

theorem shadows_start (s : Server n) : s.Shadows ⟨s.bank, s.offices, fun _ => s.request, []⟩ :=
  ⟨rfl, fun _ => .refl _, fun _ _ => rfl⟩

/-- The offices of the server run as they do alone. -/
theorem shadow_simulation : LTS.Simulation (undisturbed sha256sum ok t₀ n)
    (bankOffices sha256sum (fun _ => True) t₀ n) Shadows where
  init s hs := ⟨_, ⟨hs.bank, hs.offices, rfl⟩, s.shadows_start⟩
  step _ _ _ _ hr hs h := (h.step hr.of_guard hs.1.1 hs.2).imp_right
    fun ⟨m, a', hm, h', _⟩ => ⟨m, a', hm, h'⟩

/-- They fail no check there when they fail none here. -/
theorem solvent_simulation : LTS.Simulation (withoutFailedTransfers sha256sum ok t₀ n)
    (HomeBanking.withoutFailedTransfers sha256sum (fun _ => True) t₀ n) Shadows where
  init s hs := ⟨_, ⟨hs.bank, hs.offices, rfl⟩, s.shadows_start⟩
  step _ _ _ _ hr hs h := (h.step hr.of_guard hs.1.1 hs.2.1).imp_right
    fun ⟨m, a', hm, h', hfails⟩ => ⟨m, a', ⟨hm, hfails hs.2.2⟩, h'⟩

/-- As long as `request` is changed only while no office is inside
`processRequest`, and no debit and no credit has failed its check, an office
holds an account mutex only inside an operation on that account, and none once
`processRequest` has returned; with all offices outside, every mutex is free.
A check that fails leaves both mutexes of its transfer locked. -/
theorem mutexes_released :
    ((withoutFailedTransfers sha256sum ok t₀ n).Reachable s →
      (∀ i id, s.bank.mutex id = some i →
        (s.offices i).pc.inOperation ∧ id ∈ operationAccounts s.request) ∧
      (∀ i, (s.offices i).pc.inProcessRequest = false → ∀ id, s.bank.mutex id ≠ some i) ∧
      (s.Outside → ∀ id, s.bank.mutex id = none)) ∧
    ((undisturbed sha256sum ok t₀ n).Reachable s → ∀ i choice s',
      s.transferFails (.act i choice) = true → s.next sha256sum (.act i choice) = some s' →
      ¬ (s'.offices i).pc.inOperation ∧ s'.bank.mutex s.request.headerId = some i ∧
        s'.bank.mutex s.request.transferId = some i) := by
  constructor
  · intro h
    obtain ⟨a, ha, hshadows⟩ := solvent_simulation.reachable h
    have hin : ∀ i id, s.bank.mutex id = some i → (s.offices i).pc.inProcessRequest = true :=
      fun i id hid => by
        rw [← hshadows.bank] at hid
        rw [← (hshadows.offices i).inProcessRequest]
        exact Pc.inProcessRequest_of_inOperation (operates_of_mutex ha hid).1
    refine ⟨fun i id hid => ?_, fun i hout id hid => ?_, fun hout id => ?_⟩
    · have hop := operates_of_mutex ha (hshadows.bank.symm ▸ hid)
      rwa [System.pc, (hshadows.offices i).eq_of_inProcessRequest (hin i id hid),
        hshadows.requests i (hin i id hid)] at hop
    · rw [hin i id hid] at hout
      cases hout
    · cases hm : s.bank.mutex id with
      | none => rfl
      | some i =>
          have hinside := hin i id hm
          rw [hout i] at hinside
          cases hinside
  · intro h i choice s' hfails hs
    obtain ⟨a, ha, hshadows⟩ := shadow_simulation.reachable h
    have hin := inProcessRequest_of_checkFails hfails
    obtain ⟨k, act, b, o, hi, hstep, hb, rfl⟩ := act_cases hs
    have hlocked := mutexes_of_checkFails ha ((hshadows.transferFails i choice).trans hfails)
      ⟨hshadows.next_of_inProcessRequest hstep hb hin, fun _ _ _ => trivial⟩
    rw [System.perform_pc_self, System.perform_bank, hshadows.requests i hin] at hlocked
    change ¬ (Function.update s.offices i o i).pc.inOperation ∧ b.mutex _ = _ ∧ b.mutex _ = _
    rwa [Function.update_self]

/-- Two clients send the same transfer. Office `j` takes the second one while office
`i` holds both mutexes, and waits for them. -/
def sameTransfers (i j : Fin n) : List (ServerLabel n) :=
  receive (Sample.transfer 9 50) ++ enqueue ++ receive (Sample.transfer 9 50) ++ enqueue ++
    serve i 12 ++ serve j 9 ++ List.replicate 13 (.act i Sample.choice) ++
    List.replicate 16 (.act j Sample.choice)

end Server

set_option synthInstance.maxSize 256 in
/-- After two transfers at the same time both offices are idle and all mutexes are free. -/
theorem mutexes_released_two : ∃ s : Server 2,
    (Server.withoutFailedTransfers Sample.sha256sum (fun _ => True)
      (Sample.twoAccounts 200 200) 2).Reachable s ∧
    (s.bank.bankAccounts 2).map BankAccount.balance = some 300 ∧
    ∀ id, s.bank.mutex id = none := by
  obtain ⟨s, hs, hf⟩ : ∃ s : Server 2,
      (Server.withoutFailedTransfers Sample.sha256sum (fun _ => True)
        (Sample.twoAccounts 200 200) 2).Reachable s ∧
      ((s.offices 0).pc, (s.offices 1).pc, (s.bank.bankAccounts 2).map BankAccount.balance) =
        (.idle, .idle, some 300) :=
    Server.execute_guarded (by decide) (fun s l htest => of_decide_eq_true htest)
      (Server.sameTransfers 0 1) (by decide +kernel)
  simp only [Prod.mk.injEq] at hf
  refine ⟨s, hs, hf.2.2, (Server.mutexes_released.1 hs).2.2 ?_⟩
  rw [Server.Outside, Fin.forall_fin_two, hf.1, hf.2.1]
  exact ⟨rfl, rfl⟩

/-- A transfer of 500 from an account that holds 100 is answered `RC_NO_FUNDS`;
the office is idle again and both accounts are still locked. -/
theorem mutexes_left_locked : ∃ s : Server 1,
    (server Sample.sha256sum (fun _ => True) Sample.adminOnly 1).Reachable s ∧
    s.messages = [Sample.create 7 1 100 Sample.password₁, Sample.create 8 2 200 Sample.password₂,
      Sample.transfer 9 500] ∧
    (s.offices 0).pc = .idle ∧ (s.offices 0).reply.retCode = .noFunds ∧
    s.bank.mutex 1 = some 0 ∧ s.bank.mutex 2 = some 0 := by
  obtain ⟨s, hs, hf⟩ : ∃ s : Server 1,
      (server Sample.sha256sum (fun _ => True) Sample.adminOnly 1).Reachable s ∧
      (s.messages, (s.offices 0).pc, (s.offices 0).reply.retCode, s.bank.mutex 1,
        s.bank.mutex 2) =
        ([Sample.create 7 1 100 Sample.password₁, Sample.create 8 2 200 Sample.password₂,
          Sample.transfer 9 500], .idle, .noFunds, some 0, some 0) :=
    Server.execute_server (by decide)
      (Server.answer 0 (Sample.create 7 1 100 Sample.password₁) 19 ++
        Server.answer 0 (Sample.create 8 2 200 Sample.password₂) 19 ++
        Server.answer 0 (Sample.transfer 9 500) 19) (by decide +kernel)
  simp only [Prod.mk.injEq] at hf
  exact ⟨s, hs, hf⟩

end HomeBanking
