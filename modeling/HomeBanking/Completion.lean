import HomeBanking.ActiveOffices
import HomeBanking.Deadlock

/-!
# Requests come to an end

An office takes at most 25 steps for a request, whatever the others do, so a
schedule with `k` requests has at most `26 * k` entries. As long as no transfer
has failed its checks, the offices that work on requests never all wait, so a
run that cannot go on has answered every request once.

## Implementation notes

The offices have requests of their own and wait for mutexes only: the digest is
computed, and the reply FIFO is opened and written, in steps that always end.
-/

namespace HomeBanking

variable {n : ℕ} {sha256sum : CString → CString} {ok : TlvRequest → Prop} {t₀ : Table}

/-- How many steps an office can still take for its request. -/
def Pc.stepsLeft : Pc → ℕ
  | .idle | .fault => 0
  | .replyWrite _ => 1
  | .replyOpen => 2
  | .ret => 3
  | .activeUnlock .leave => 4
  | .activeStore .leave _ => 5
  | .activeLoad .leave => 6
  | .activeLock .leave => 7
  | .createUnlock _ | .balanceUnlock | .transferReport _ | .shutdownSet => 8
  | .createWrite _ | .balanceRead | .transferUnlock₂ .. | .shutdownCount => 9
  | .createLock _ | .balanceLock _ | .transferUnlock₁ _ | .shutdownChmod => 10
  | .createCheck | .balanceCheck | .addWrite .. | .shutdownCheck => 11
  | .addRead _ => 12
  | .subtractWrite .. => 13
  | .subtractRead _ => 14
  | .transferLock₂ .. => 15
  | .transferLock₁ .. => 16
  | .transferCheck => 17
  | .dispatch => 18
  | .loginCompare .. => 19
  | .loginHash _ => 20
  | .login => 21
  | .activeUnlock .enter => 22
  | .activeStore .enter _ => 23
  | .activeLoad .enter => 24
  | .activeLock .enter => 25

/-- A request that has been given to an office and has not returned from `processRequest`. -/
def unreturned (req : TlvRequest) (o : Office) : Multiset TlvRequest :=
  match o.pc with
  | .idle | .replyOpen | .replyWrite _ => 0
  | _ => {req}

def returnedRequest : Action → Multiset TlvRequest
  | .returned req _ => {req}
  | _ => 0

section Steps

variable {choice : Choice} {req : TlvRequest} {b : Bank (Fin n)} {o o' : Office} {act : Action}

theorem OfficeStep.stepsLeft_lt (h : OfficeStep sha256sum choice req b o act o') :
    o'.pc.stepsLeft < o.pc.stepsLeft := by
  cases h with
  | dispatch => cases ht : req.type <;> simp [operationPc, Pc.stepsLeft]
  | activeLock c | activeLoad c | activeStore c => cases c <;> exact Nat.lt_succ_self _
  | fault pc r r' hfault =>
      cases pc with
      | activeLock | activeLoad | activeStore | activeUnlock => cases hfault
      | idle | fault => cases hfault
      | _ => exact Nat.succ_pos _
  | _ => simp [Pc.stepsLeft]

theorem OfficeStep.unreturned (h : OfficeStep sha256sum choice req b o act o') :
    HomeBanking.unreturned req o' + returnedRequest act = HomeBanking.unreturned req o := by
  cases h with
  | dispatch => cases ht : req.type <;> rfl
  | fault pc r r' hfault =>
      cases pc with
      | idle | replyOpen | replyWrite => cases hfault
      | _ => rfl
  | _ => rfl

end Steps

/-- The request that a schedule gives to an office. -/
def Label.given : Label n → Multiset TlvRequest
  | .give _ req => {req}
  | .act .. => 0

/-- The requests that a schedule gives to the offices. -/
def givenRequests (ls : List (Label n)) : Multiset TlvRequest := (ls.map Label.given).sum

section Execution

variable {s s' : System n} {l : Label n}

theorem System.next_cases (h : s.next sha256sum l = some s') :
    (∃ i req, l = .give i req ∧ s.pc i = .idle ∧ s' = s.give i req) ∨
    (∃ i choice act b o, l = .act i choice ∧
      OfficeStep sha256sum choice (s.requests i) s.bank (s.offices i) act o ∧
      s.bank.apply i act = some b ∧ s' = s.perform i act b o) := by
  have hs : (bankOffices sha256sum (fun _ => True) s.table n).step s l s' :=
    ⟨h, fun _ _ _ => trivial⟩
  rcases bankOffices_step_cases hs with ⟨i, req, hl, hidle, -, hs'⟩ | hact
  · exact .inl ⟨i, req, hl, hidle, hs'⟩
  · exact .inr hact

/-- Every entry of a schedule uses up a step that was left, and a request brings 25. -/
theorem System.stepsLeft_lt (h : s.next sha256sum l = some s') :
    (s'.sum fun _ o => o.pc.stepsLeft) <
      (s.sum fun _ o => o.pc.stepsLeft) + 26 * l.given.card := by
  rcases System.next_cases h with ⟨i, req, rfl, hidle, rfl⟩ |
    ⟨i, choice, act, b, o, rfl, hstep, -, rfl⟩
  · have hsum := s.sum_give_idle i req (fun _ o => o.pc.stepsLeft) (by
      rw [show (s.offices i).pc = _ from hidle]
      rfl)
    rw [hsum]
    simp [Label.given, Pc.stepsLeft]
  · have hsum := s.sum_perform i act b o fun _ o => o.pc.stepsLeft
    have hlt := hstep.stepsLeft_lt
    simp only [Label.given, Multiset.card_zero]
    omega

/-- The requests that were given have returned or are in some office. -/
theorem System.unreturned_eq (h : s.next sha256sum l = some s') :
    s'.tally HomeBanking.unreturned returnedRequest =
      s.tally HomeBanking.unreturned returnedRequest + l.given := by
  rcases System.next_cases h with ⟨i, req, rfl, hidle, rfl⟩ |
    ⟨i, choice, act, b, o, rfl, hstep, -, rfl⟩
  · have hsum := s.sum_give_idle i req HomeBanking.unreturned (by
      simp only [HomeBanking.unreturned, show (s.offices i).pc = _ from hidle])
    simp only [System.tally, hsum, System.give_trace]
    exact add_right_comm _ _ _
  · have hsum := s.tally_perform i act b o HomeBanking.unreturned returnedRequest
    rw [hstep.unreturned] at hsum
    exact (add_right_cancel hsum).trans (add_zero _).symm

end Execution

section Progress

variable {s : System n}

theorem OfficeStep.of_lockActive {choice : Choice} {req : TlvRequest} {b : Bank (Fin n)}
    {o o' : Office} (h : OfficeStep sha256sum choice req b o .lockActive o') :
    ∃ c, o.pc = .activeLock c ∧ o'.pc = .activeLoad c := by
  cases h with
  | activeLock c => exact ⟨c, rfl, rfl⟩

/-- The active mutex is kept until it is given back. -/
theorem OfficeStep.holdsActive_kept {choice : Choice} {req : TlvRequest} {b : Bank (Fin n)}
    {o o' : Office} {act : Action} (h : OfficeStep sha256sum choice req b o act o')
    (hact : act ≠ .unlockActive) (ho : o.pc.holdsActive = true) : o'.pc.holdsActive = true := by
  cases h with
  | activeLoad | activeStore => rfl
  | activeEntered | activeLeft => exact absurd rfl hact
  | fault pc r r' hfault =>
      cases pc with
      | activeLoad | activeStore | activeUnlock => cases hfault
      | _ => cases ho
  | _ => cases ho

/-- The active mutex is held only by an office that will give it back. -/
theorem active_owner (h : (bankOffices sha256sum ok t₀ n).Reachable s) :
    ∀ i, s.bank.activeMutex = some i → (s.pc i).holdsActive = true := by
  refine h.invariant
    (I := fun s => ∀ i, s.bank.activeMutex = some i → (s.pc i).holdsActive = true) ?_ ?_
  · intro s hs i hi
    rw [hs.1] at hi
    cases hi
  · intro s l s' _ ih hs j hj
    rcases bankOffices_step_cases hs with ⟨i, req, -, hidle, -, rfl⟩ |
      ⟨i, choice, act, b, o, -, hstep, hb, rfl⟩
    · have hne : j ≠ i := by
        rintro rfl
        have hholds := ih j hj
        rw [hidle] at hholds
        cases hholds
      rw [System.give_pc_of_ne _ _ hne]
      exact ih j hj
    · rw [System.perform_bank] at hj
      rcases apply_activeMutex hb with ⟨rfl, -, hlocked⟩ | ⟨-, hfree⟩ | ⟨-, hact, hsame⟩
      · obtain rfl : i = j := Option.some.inj (hlocked.symm.trans hj)
        obtain ⟨c, -, hc⟩ := hstep.of_lockActive
        rw [System.perform_pc_self, hc]
        rfl
      · rw [hfree] at hj
        cases hj
      · have hholds := ih j (hsame.symm.trans hj)
        by_cases hji : j = i
        · subst j
          rw [System.perform_pc_self]
          exact hstep.holdsActive_kept hact hholds
        · rwa [System.perform_pc_of_ne _ _ _ _ hji]

/-- An office at work takes its next step unless the mutex it wants is taken. -/
theorem next_isSome_of_free {i : Fin n} (hidle : s.pc i ≠ .idle) (hfault : s.pc i ≠ .fault)
    (hfree : ∀ id, wanted (s.pc i) = some id → s.bank.mutex id = none)
    (hactive : ∀ c, s.pc i = .activeLock c → s.bank.activeMutex = none) (choice : Choice) :
    (s.next sha256sum (.act i choice)).isSome := by
  obtain ⟨⟨act, o⟩, hstep⟩ := Option.isSome_iff_exists.mp
    (officeStep_isSome sha256sum choice (s.requests i) s.bank hidle hfault)
  have hs := officeStep_cases _ _ _ _ hstep
  have happly : (s.bank.apply i act).isSome := by
    by_cases hact : act = .lockActive
    · subst act
      obtain ⟨c, hc, -⟩ := hs.of_lockActive
      simp [Bank.apply, hactive c hc]
    · refine apply_isSome i ?_ hact
      rintro id rfl
      exact hfree id hs.wanted_of_lock
  simpa [System.next, hstep] using happly

/-- As long as no transfer has failed, the offices at work never all wait. -/
theorem some_busy_office_steps (hin : ∀ req, ok req → req.InArray)
    (h : (bankOffices sha256sum ok t₀ n).Reachable s) (hnone : NoFailedTransfer s.trace)
    {i : Fin n} (hi : s.pc i ≠ .idle) :
    ∃ j, ∀ choice, (s.next sha256sum (.act j choice)).isSome := by
  by_contra hstuck
  have hfault := no_fault hin h
  -- the office that holds the active mutex waits for nothing
  have hactive : s.bank.activeMutex = none := by
    by_contra hheld
    obtain ⟨j, hj⟩ := Option.ne_none_iff_exists'.mp hheld
    have hholds := active_owner h j hj
    refine hstuck ⟨j, next_isSome_of_free ?_ (hfault j) ?_ ?_⟩
    · intro hidle
      rw [hidle] at hholds
      cases hholds
    · intro id hid
      cases hpc : s.pc j <;> simp [hpc, wanted, Pc.holdsActive] at hid hholds
    · intro c hc
      rw [hc] at hholds
      cases hholds
  refine Threads.not_all_waiting wellFounded_gt_uint32
    (fun i => s.pc i ≠ .idle) (fun i v => v ∈ s.held i) (fun i w => wanted (s.pc i) = some w)
    (fun i v w _ hv hw => (valid h i).wanted_gt hv hw) ?_ i hi
  intro i hi
  have hblocked : ¬ ∀ id, wanted (s.pc i) = some id → s.bank.mutex id = none := fun hfree =>
    hstuck ⟨i, next_isSome_of_free hi (hfault i) hfree fun _ _ => hactive⟩
  push Not at hblocked
  obtain ⟨id, hid, hmutex⟩ := hblocked
  obtain ⟨j, hj⟩ := Option.ne_none_iff_exists'.mp hmutex
  have hheld : id ∈ held (s.requests j) (s.pc j) :=
    noLeak (reachable_withoutFailedTransfers h hnone) j id hj
  refine ⟨id, j, hid, ?_, hheld⟩
  intro hidle
  rw [hidle] at hheld
  exact Finset.notMem_empty id hheld

end Progress

theorem card_givenRequests (ls : List (Label n)) :
    26 * (givenRequests ls).card = (ls.map fun l => 26 * l.given.card).sum := by
  induction ls with
  | nil => rfl
  | cons l ls ih =>
      rw [List.map_cons, List.sum_cons, ← ih, ← Nat.mul_add, ← Multiset.card_add]
      rfl

/-- A schedule of allowed requests leads to a reachable state. -/
theorem reachable_of_execute {reply : TlvReply} {req : TlvRequest} {ls : List (Label n)}
    (hls : ∀ i req, Label.give i req ∈ ls → ok req) {s : System n}
    (he : LTS.execute (System.next sha256sum) (System.start n t₀ reply req) ls = some s) :
    (bankOffices sha256sum ok t₀ n).Reachable s :=
  LTS.Reachable.execute_of_forall (T := bankOffices sha256sum ok t₀ n)
    (P := fun l => ∀ i req, l = .give i req → ok req)
    (fun _ _ _ hl hs => ⟨hs, hl⟩) (.init ⟨rfl, fun _ => rfl, rfl⟩)
    (fun _ hl i req heq => hls i req (heq ▸ hl)) he

/-- On every schedule of requests whose ids are inside the array: it has at most
26 entries for each request, and when no transfer has failed its checks and no
office can go on, every office is idle and has returned every request that it
was given, once. -/
theorem requests_returned (hin : ∀ req, ok req → req.InArray) (reply : TlvReply)
    (req : TlvRequest) {ls : List (Label n)} (hls : ∀ i req, Label.give i req ∈ ls → ok req)
    {s : System n}
    (he : LTS.execute (System.next sha256sum) (System.start n t₀ reply req) ls = some s) :
    ls.length ≤ 26 * (givenRequests ls).card ∧
    (NoFailedTransfer s.trace → (∀ i choice, s.next sha256sum (.act i choice) = none) →
      (∀ i, s.pc i = .idle) ∧
      (s.trace.map fun e => returnedRequest e.2).sum = givenRequests ls) := by
  have hreach := reachable_of_execute hls he
  have hlength := LTS.execute_length_le (fun _ _ _ => System.stepsLeft_lt) he
  have hsum := LTS.execute_sum (fun _ _ _ => System.unreturned_eq) he
  refine ⟨?_, fun hnone hstuck => ?_⟩
  · have hstart : ((System.start n t₀ reply req).sum fun _ o => o.pc.stepsLeft) = 0 :=
      System.sum_eq_zero _ _ fun _ => rfl
    rw [hstart, zero_add, ← card_givenRequests] at hlength
    exact le_of_add_le_left hlength
  · have hidle : ∀ i, s.pc i = .idle := by
      intro i
      by_contra hi
      obtain ⟨j, hj⟩ := some_busy_office_steps hin hreach hnone hi
      simpa [hstuck] using hj ⟨[], true⟩
    have hnothing : s.sum unreturned = 0 := s.sum_eq_zero _ fun i => by
      rw [unreturned, show (s.offices i).pc = _ from hidle i]
    have hstart : (System.start n t₀ reply req).tally unreturned returnedRequest = 0 :=
      add_eq_zero.mpr ⟨System.sum_eq_zero _ _ fun _ => rfl, rfl⟩
    rw [hstart, zero_add, System.tally, hnothing, zero_add] at hsum
    exact ⟨hidle, hsum⟩

/-- Two creations run at the same time, and then nothing is left to do. -/
theorem requests_returned_two : ∃ s : System 2,
    LTS.execute (System.next Sample.sha256sum)
      (System.start 2 Sample.adminOnly Sample.emptyReply (Sample.shutdown 0))
      (Sample.serve 0 (Sample.create 7 1 100 Sample.password₁) 9 ++
        Sample.serve 1 (Sample.create 8 2 200 Sample.password₂) 19 ++ Sample.steps 0 10) = some s ∧
    (s.trace.map fun e => returnedRequest e.2).sum =
      {Sample.create 7 1 100 Sample.password₁} + {Sample.create 8 2 200 Sample.password₂} := by
  obtain ⟨s, hs, hf⟩ : ∃ s : System 2, LTS.execute (System.next Sample.sha256sum)
      (System.start 2 Sample.adminOnly Sample.emptyReply (Sample.shutdown 0))
      (Sample.serve 0 (Sample.create 7 1 100 Sample.password₁) 9 ++
        Sample.serve 1 (Sample.create 8 2 200 Sample.password₂) 19 ++ Sample.steps 0 10) = some s ∧
      (s.pc 0, s.pc 1, decide (NoFailedTransfer s.trace)) = (.idle, .idle, true) :=
    Option.map_eq_some_iff.mp (by decide +kernel)
  simp only [Prod.mk.injEq, decide_eq_true_eq] at hf
  obtain ⟨h₀, h₁, hnone⟩ := hf
  have hidle : ∀ i, s.pc i = .idle := Fin.forall_fin_two.mpr ⟨h₀, h₁⟩
  have hgiven : ∀ (i : Fin 2) req, Label.give i req ∈
      Sample.serve 0 (Sample.create 7 1 100 Sample.password₁) 9 ++
        Sample.serve 1 (Sample.create 8 2 200 Sample.password₂) 19 ++ Sample.steps 0 10 →
      req.InArray := by
    intro i req hmem
    simp only [Sample.serve, Sample.steps, List.mem_append, List.mem_cons, Label.give.injEq,
      List.mem_replicate, reduceCtorEq, and_false, or_false] at hmem
    rcases hmem with ⟨-, rfl⟩ | ⟨-, rfl⟩ <;> decide
  obtain ⟨-, hreturned⟩ := requests_returned (fun _ h => h) Sample.emptyReply (Sample.shutdown 0)
    hgiven hs
  refine ⟨s, hs, ((hreturned hnone) fun i choice => ?_).2⟩
  simp [System.next, officeStep, show (s.offices i).pc = _ from hidle i]

end HomeBanking
