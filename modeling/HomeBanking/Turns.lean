import HomeBanking.Audit
import HomeBanking.Ledger

/-!
# Requests one at a time

A request is handed out only when all offices are idle. At most one office works
then, so creations do not overlap, and the requests take effect, return and are
answered in the order in which they were handed out.
-/

namespace HomeBanking

variable {n : ℕ} {sha256sum : CString → CString} {ok : TlvRequest → Prop} {t₀ : Table}
  {salts : Set CString}

/-- A request that returns, with its reply. -/
def Action.exchange : Action → Option (TlvRequest × TlvReply)
  | .returned req reply => some (req, reply)
  | _ => none

/-- A reply that is sent, with the pid of its reply FIFO. -/
def Action.reply : Action → Option (UInt32 × TlvReply)
  | .sent pid _ reply => some (pid, reply)
  | _ => none

/-- What returned in a run whose actions are given newest first, oldest first. -/
def exchanges (acts : List Action) : List (TlvRequest × TlvReply) :=
  acts.reverse.filterMap Action.exchange

/-- What was sent in a run whose actions are given newest first, oldest first. -/
def replies (acts : List Action) : List (UInt32 × TlvReply) :=
  acts.reverse.filterMap Action.reply

theorem exchanges_cons (act : Action) (acts : List Action) :
    exchanges (act :: acts) = exchanges acts ++ act.exchange.toList := by
  rw [exchanges, List.reverse_cons, List.filterMap_append]
  cases act <;> rfl

theorem replies_cons (act : Action) (acts : List Action) :
    replies (act :: acts) = replies acts ++ act.reply.toList := by
  rw [replies, List.reverse_cons, List.filterMap_append]
  cases act <;> rfl

namespace System

/-- The actions so far, newest first. -/
def actions (s : System n) : List Action := s.trace.map Prod.snd

/-- The outcomes of the requests that returned, oldest first. -/
def outcomes (s : System n) : List Outcome :=
  (exchanges s.actions).map fun e => outcomeOf e.1 e.2

/-- The replies of the requests that returned, with the pids of their clients. -/
def due (s : System n) : List (UInt32 × TlvReply) :=
  (exchanges s.actions).map fun e => (e.1.value.header.pid, e.2)

variable (s : System n) (i : Fin n) (act : Action) (b : Bank (Fin n)) (o : Office)

theorem actions_perform : (s.perform i act b o).actions = act :: s.actions := rfl

theorem exchanges_perform : exchanges (s.perform i act b o).actions =
    exchanges s.actions ++ act.exchange.toList := by
  rw [actions_perform, exchanges_cons]

theorem replies_perform : replies (s.perform i act b o).actions =
    replies s.actions ++ act.reply.toList := by
  rw [actions_perform, replies_cons]

theorem outcomes_perform : (s.perform i act b o).outcomes =
    s.outcomes ++ act.exchange.toList.map fun e => outcomeOf e.1 e.2 := by
  rw [outcomes, exchanges_perform, List.map_append]
  rfl

theorem due_perform : (s.perform i act b o).due =
    s.due ++ act.exchange.toList.map fun e => (e.1.value.header.pid, e.2) := by
  rw [due, exchanges_perform, List.map_append]
  rfl

/-- The requests that took effect have returned or are still under way. -/
theorem effects_eq : s.effects = s.sum effective + s.outcomes := by
  have houtcomes : ∀ trace : List (Fin n × Action),
      (trace.map fun e => returnedOutcome e.2).sum =
        (((exchanges (trace.map Prod.snd)).map fun e => outcomeOf e.1 e.2 : List Outcome) :
          Multiset Outcome) := by
    intro trace
    induction trace with
    | nil => rfl
    | cons e trace ih =>
        rw [List.map_cons, List.sum_cons, ih, List.map_cons, exchanges_cons, List.map_append,
          ← Multiset.coe_add, add_comm]
        congr 1
        cases e.2 <;> rfl
  exact congrArg (s.sum effective + ·) (houtcomes s.trace)

end System

/-- Nobody works on a request when the next one is handed out. -/
def Label.InTurn (s : System n) : Label n → Prop
  | .give .. => ∀ j, s.pc j = .idle
  | .act .. => True

/-- The runs in which requests are handed out one at a time, with salts of the
given set and with every reply FIFO openable. -/
abbrev turns (sha256sum : CString → CString) (ok : TlvRequest → Prop) (salts : Set CString)
    (t₀ : Table) (n : ℕ) : LTS (System n) (Label n) :=
  (bankOffices sha256sum ok t₀ n).guard fun s l => l.InTurn s ∧ l.Draws salts ∧ l.opens

/-- Two lists of at most one element with the same elements. -/
theorem eq_of_coe_eq {α : Type*} {xs ys : List α} (h : (xs : Multiset α) = ys)
    (hxs : xs.length ≤ 1) : xs = ys := by
  have hperm := Multiset.coe_eq_coe.mp h
  rcases xs with _ | ⟨x, _ | ⟨y, xs⟩⟩
  · exact (List.nil_perm.mp hperm).symm
  · exact List.singleton_perm.mp hperm ▸ rfl
  · simp at hxs

section Runs

variable {s : System n}

/-- Two offices that work are one. -/
theorem eq_of_working (h : (turns sha256sum ok salts t₀ n).Reachable s) :
    ∀ i j, s.pc i ≠ .idle → s.pc j ≠ .idle → i = j := by
  apply h.invariant (I := fun s : System n => ∀ i j, s.pc i ≠ .idle → s.pc j ≠ .idle → i = j)
  · intro s hs i _ hi _
    exact absurd (hs.2.1 i) hi
  · intro s l s' _ ih hs i j hi hj
    rcases bankOffices_step_cases hs.1 with ⟨k, req, rfl, -, -, rfl⟩ |
      ⟨k, choice, act, b, o, rfl, hstep, -, rfl⟩
    · have hk : ∀ j, (s.give k req).pc j ≠ .idle → j = k := fun j hj => by
        by_contra hne
        rw [s.give_pc_of_ne req hne] at hj
        exact hj (hs.2.1 j)
      rw [hk i hi, hk j hj]
    · have hk : ∀ j, (s.perform k act b o).pc j ≠ .idle → s.pc j ≠ .idle := fun j hj => by
        by_cases hjk : j = k
        · subst j
          exact hstep.pc_ne_idle
        · rwa [s.perform_pc_of_ne act b o hjk] at hj
      exact ih i j (hk i hi) (hk j hj)

/-- What the offices add up to is what the one that works counts for. -/
theorem sum_eq_of_working (h : (turns sha256sum ok salts t₀ n).Reachable s) {M : Type}
    [AddCommMonoid M] {g : TlvRequest → Office → M}
    (hg : ∀ req (o : Office), o.pc = .idle → g req o = 0) {i : Fin n} (hi : s.pc i ≠ .idle) :
    s.sum g = g (s.requests i) (s.offices i) := by
  refine Finset.sum_eq_single i (fun j _ hj => hg _ _ ?_) fun hni => absurd (Finset.mem_univ i) hni
  by_contra hwork
  exact hj (eq_of_working h j i hwork hi)

theorem sum_eq_zero_of_idle {M : Type} [AddCommMonoid M] {g : TlvRequest → Office → M}
    (hg : ∀ req (o : Office), o.pc = .idle → g req o = 0) (hidle : ∀ i, s.pc i = .idle) :
    s.sum g = 0 :=
  s.sum_eq_zero g fun i => hg _ _ (hidle i)

/-- Creations one at a time do not overlap. -/
theorem salted_of_turns (h : (turns sha256sum ok salts t₀ n).Reachable s) :
    (saltedRuns sha256sum ok salts t₀ n).Reachable s := by
  induction h with
  | init h => exact .init h
  | @step s l s' hr hs ih =>
      refine ih.step ⟨hs.1, ?_, hs.2.2.1⟩
      cases l with
      | give => rfl
      | act i choice =>
          refine decide_eq_false ?_
          rintro ⟨hpc, -, -, j, hpending⟩
          have hj : s.pc j ≠ .idle := fun hidle => by
            rw [hidle] at hpending
            cases hpending
          obtain rfl := eq_of_working hr i j (by rw [hpc]; decide) hj
          rw [hpc] at hpending
          cases hpending

theorem card_effective_le (req : TlvRequest) (o : Office) : (effective req o).card ≤ 1 := by
  obtain ⟨pc, r⟩ := o
  cases pc with
  | activeLock c | activeLoad c | activeStore c | activeUnlock c =>
      cases c
      · exact Nat.zero_le 1
      · exact le_refl 1
  | createUnlock | balanceUnlock | transferUnlock₁ | transferUnlock₂ | transferReport | ret =>
      exact le_refl 1
  | _ => exact Nat.zero_le 1

/-- An office that returns has nothing under way any more. -/
theorem OfficeStep.card_under_way_le {choice : Choice} {req : TlvRequest} {b : Bank (Fin n)}
    {o o' : Office} {act : Action} (h : OfficeStep sha256sum choice req b o act o') :
    act.exchange.toList.length + (effective req o').card ≤ 1 := by
  have hcard := card_effective_le req o'
  cases h with
  | ret => exact le_refl 1
  | _ => exact (Nat.zero_add _).trans_le hcard

/-- The requests that took effect, in the order in which they were handed out. -/
structure InOrder (s : System n) (a : List Outcome × Table) : Prop where
  order : ∃ current : List Outcome, a.1 = s.outcomes ++ current ∧
    (current : Multiset Outcome) = s.sum effective
  linked : Linked s a.2

/-- Requests that are handed out one at a time take effect as they return. -/
theorem order_simulation (hin : ∀ req, ok req → req.InArray) :
    LTS.Simulation (turns sha256sum ok salts t₀ n) (serialBankOn sha256sum ok salts t₀)
      InOrder where
  init s hs := by
    have hsim : LTS.Simulation (saltedRuns sha256sum ok salts t₀ n) _ _ := effect_simulation hin
    obtain ⟨a, ha, horder, hl⟩ := hsim.init s hs
    refine ⟨a, ha, ⟨[], ?_, ?_⟩, hl⟩
    · rw [show a = _ from ha, System.outcomes, System.actions, hs.2.2]
      rfl
    · exact (s.sum_eq_zero _ fun i => effective_idle (s.requests i) (hs.2.1 i)).symm
  step s l s' a hr hs hrel := by
    obtain ⟨⟨current, hlist, hcurrent⟩, hl⟩ := hrel
    rcases bankOffices_step_cases hs.1 with ⟨i, req, -, hidle, -, rfl⟩ |
      ⟨i, choice, act, b, o, rfl, hstep, hb, rfl⟩
    · refine .inl ⟨⟨current, hlist, ?_⟩, hl.give hidle req⟩
      rw [hcurrent, s.sum_give i req effective (effective_idle (s.requests i) hidle).symm]
    -- what returned in this step and what is under way after it are one request
    have hone : act.exchange.toList.length + ((s.perform i act b o).sum effective).card ≤ 1 := by
      have hsum := s.sum_perform i act b o effective
      rw [sum_eq_of_working hr (fun req _ => effective_idle req) hstep.pc_ne_idle, add_comm,
        add_right_inj] at hsum
      rw [hsum]
      exact hstep.card_under_way_le
    have hkept : ∀ taken : List Outcome,
        (s.perform i act b o).effects = s.effects + (taken : Multiset Outcome) →
        ∃ current' : List Outcome,
          a.1 ++ taken = (s.perform i act b o).outcomes ++ current' ∧
          (current' : Multiset Outcome) = (s.perform i act b o).sum effective := by
      intro taken heffects
      refine ⟨((s.perform i act b o).sum effective).toList, ?_, Multiset.coe_toList _⟩
      rw [System.effects_eq, System.effects_eq, System.outcomes_perform, ← hcurrent,
        ← Multiset.coe_add] at heffects
      rw [hlist, System.outcomes_perform, List.append_assoc, List.append_assoc]
      congr 1
      refine (eq_of_coe_eq ?_ ?_).symm
      · rw [← Multiset.coe_add, ← Multiset.coe_add, Multiset.coe_toList]
        apply add_left_cancel (a := (s.outcomes : Multiset Outcome))
        refine Eq.trans ?_ (heffects.trans ?_)
        · rw [← add_assoc, add_comm]
        · rw [add_comm (current : Multiset Outcome), add_assoc]
      · rw [List.length_append, List.length_map, Multiset.length_toList]
        exact hone
    rcases hl.anyEffect hin (salted_of_turns hr) hs.2.2.1 hstep hb with ⟨hsame, hl'⟩ |
      ⟨e, t', heffects, hok, hserial, hl'⟩
    · obtain ⟨current', hlist', hcurrent'⟩ := hkept [] (hsame.trans (add_zero _).symm)
      exact .inl ⟨⟨current', (List.append_nil _).symm.trans hlist', hcurrent'⟩, hl'⟩
    · obtain ⟨current', hlist', hcurrent'⟩ := hkept [e] heffects
      exact .inr ⟨e, (a.1 ++ [e], t'), ⟨hok, hserial, rfl⟩, ⟨current', hlist', hcurrent'⟩, hl'⟩

/-- The reply that is on its way to the client, with the pid of the client. -/
def onItsWay (req : TlvRequest) (o : Office) : Multiset (UInt32 × TlvReply) :=
  match o.pc with
  | .replyOpen | .replyWrite _ => {(req.value.header.pid, o.reply)}
  | _ => 0

/-- The pid that the reply is written for is that of the request. -/
def ReplyAddressed (req : TlvRequest) (o : Office) : Prop :=
  ∀ dest, o.pc = .replyWrite dest → dest = some req.value.header.pid

theorem OfficeStep.replyAddressed {choice : Choice} {req : TlvRequest} {b : Bank (Fin n)}
    {o o' : Office} {act : Action} (h : OfficeStep sha256sum choice req b o act o')
    (hopens : choice.fifoOpens = true) : ReplyAddressed req o' := by
  intro dest hdest
  cases h with
  | dispatch => cases ht : req.type <;> simp [operationPc, ht] at hdest
  | replyOpen =>
      cases hdest
      rfl
  | replyUserDown r hopen => exact absurd (hopens.symm.trans hopen) (by decide)
  | _ => cases hdest

theorem replyAddressed {s : System n} (h : (turns sha256sum ok salts t₀ n).Reachable s)
    (i : Fin n) : ReplyAddressed (s.requests i) (s.offices i) := by
  refine h.invariant (I := fun s => ∀ i, ReplyAddressed (s.requests i) (s.offices i)) ?_ ?_ i
  · intro s hs i dest hdest
    rw [show (s.offices i).pc = _ from hs.2.1 i] at hdest
    cases hdest
  · intro s l s' _ ih hs i
    rcases bankOffices_step_cases hs.1 with ⟨j, req, -, -, -, rfl⟩ |
      ⟨j, choice, act, b, o, rfl, hstep, -, rfl⟩
    · by_cases hij : i = j
      · subst i
        intro dest hdest
        rw [s.give_offices_self] at hdest
        cases hdest
      · rw [s.give_offices_of_ne req hij, s.give_requests_of_ne req hij]
        exact ih i
    · by_cases hij : i = j
      · subst i
        rw [s.perform_offices_self]
        exact hstep.replyAddressed hs.2.2.2
      · rw [s.perform_offices_of_ne act b o hij]
        exact ih i

/-- What a step does to the replies: nothing, or the request returns, or its
reply is sent. -/
inductive Answering (req : TlvRequest) (o : Office) (act : Action) (o' : Office) : Prop
  | works (hexchange : act.exchange = none) (hreply : act.reply = none)
      (hsame : onItsWay req o' = onItsWay req o)
  | returns (hexchange : act.exchange = some (req, o'.reply)) (hreply : act.reply = none)
      (hbefore : onItsWay req o = 0)
      (hafter : onItsWay req o' = {(req.value.header.pid, o'.reply)})
  | sends (hexchange : act.exchange = none)
      (hreply : act.reply = some (req.value.header.pid, o.reply))
      (hbefore : onItsWay req o = {(req.value.header.pid, o.reply)})
      (hafter : onItsWay req o' = 0)

theorem OfficeStep.answering {choice : Choice} {req : TlvRequest} {b : Bank (Fin n)}
    {o o' : Office} {act : Action} (h : OfficeStep sha256sum choice req b o act o')
    (hopens : choice.fifoOpens = true) (ho : ReplyAddressed req o) :
    Answering req o act o' := by
  cases h with
  | dispatch => cases ht : req.type <;> exact .works rfl rfl rfl
  | ret => exact .returns rfl rfl rfl rfl
  | replyUserDown r hopen => exact absurd (hopens.symm.trans hopen) (by decide)
  | replySkip => cases ho none rfl
  | replyWrite pid =>
      obtain rfl := Option.some.inj (ho _ rfl)
      exact .sends rfl rfl rfl rfl
  | fault pc r r' hfault =>
      cases pc with
      | idle | replyOpen | replyWrite => cases hfault
      | _ => exact .works rfl rfl rfl
  | _ => exact .works rfl rfl rfl

theorem onItsWay_idle (req : TlvRequest) {o : Office} (h : o.pc = .idle) : onItsWay req o = 0 := by
  rw [onItsWay, h]

/-- The replies that are due have been sent but for the one on its way. -/
theorem due_eq {s : System n} (h : (turns sha256sum ok salts t₀ n).Reachable s) :
    ∃ current : List (UInt32 × TlvReply), s.due = replies s.actions ++ current ∧
      (current : Multiset (UInt32 × TlvReply)) = s.sum onItsWay := by
  apply h.invariant (I := fun s : System n => ∃ current : List (UInt32 × TlvReply),
    s.due = replies s.actions ++ current ∧
      (current : Multiset (UInt32 × TlvReply)) = s.sum onItsWay)
  · intro s hs
    refine ⟨[], ?_, (s.sum_eq_zero _ fun i => onItsWay_idle _ (hs.2.1 i)).symm⟩
    rw [System.due, System.actions, hs.2.2]
    rfl
  · rintro s l s' hr ⟨current, hdue, hcurrent⟩ hs
    rcases bankOffices_step_cases hs.1 with ⟨i, req, -, hidle, -, rfl⟩ |
      ⟨i, choice, act, b, o, rfl, hstep, -, rfl⟩
    · refine ⟨current, hdue, ?_⟩
      rw [hcurrent, s.sum_give i req onItsWay (onItsWay_idle (s.requests i) hidle).symm]
    have hsum := sum_eq_of_working hr (fun req _ => onItsWay_idle req) hstep.pc_ne_idle
    have hsum' : (s.perform i act b o).sum onItsWay = onItsWay (s.requests i) o := by
      have hsum' := s.sum_perform i act b o onItsWay
      rwa [hsum, add_comm, add_right_inj] at hsum'
    rw [hsum] at hcurrent
    rw [System.due_perform, System.replies_perform, hsum', hdue]
    cases hstep.answering hs.2.2.2 (replyAddressed hr i) with
    | works hexchange hreply hsame =>
        exact ⟨current, by simp [hexchange, hreply], hcurrent.trans hsame.symm⟩
    | returns hexchange hreply hbefore hafter =>
        obtain rfl : current = [] := (Multiset.coe_eq_zero current).mp (hcurrent.trans hbefore)
        exact ⟨_, by simp [hexchange, hreply], hafter.symm⟩
    | sends hexchange hreply hbefore hafter =>
        obtain rfl : [(_, _)] = current :=
          eq_of_coe_eq (hbefore.symm.trans hcurrent.symm) (le_refl 1)
        exact ⟨[], by simp [hexchange, hreply], hafter.symm⟩

end Runs

/-- The length of the reply to a request of the type that is answered with the code. -/
def replyLength (type : OpType) (rc : RetCode) : UInt32 :=
  match type with
  | .transfer => if rc = .loginFail then 8 else 12
  | .balance | .shutdown => if rc = .ok then 12 else 8
  | .createAccount | .undefined _ => 8

/-- The reply has the length of its type and code. -/
def ReplySized (req : TlvRequest) (r : TlvReply) : Prop := r.length = replyLength req.type r.retCode

/-- The length of the reply of an office at its program point. -/
def Office.ReplySized (req : TlvRequest) (o : Office) : Prop :=
  match o.pc with
  | .idle | .fault | .activeLock .enter | .activeLoad .enter | .activeStore .enter _
  | .activeUnlock .enter | .replyWrite _ => True
  | .activeLock .leave | .activeLoad .leave | .activeStore .leave _ | .activeUnlock .leave
  | .ret | .replyOpen => HomeBanking.ReplySized req o.reply
  | .createLock _ | .createWrite _ | .createUnlock _ | .balanceLock _ | .balanceRead
  | .balanceUnlock | .shutdownChmod | .shutdownCount => o.reply.length = 8 ∧ o.reply.retCode = .ok
  | .transferLock₁ .. | .transferLock₂ .. | .subtractRead _ | .subtractWrite .. | .addRead _
  | .addWrite .. | .transferUnlock₁ _ | .transferUnlock₂ .. | .transferReport _
  | .shutdownSet => o.reply.length = 12 ∧ o.reply.retCode = .ok
  | _ => o.reply.length = 8

/-- A reply whose code makes it end with its header. -/
theorem ReplySized.header {req : TlvRequest} {r : TlvReply} (h : r.length = 8)
    (hlength : replyLength req.type r.retCode = 8) : ReplySized req r := h.trans hlength.symm

/-- A reply whose code makes it end with its payload. -/
theorem ReplySized.info {req : TlvRequest} {r : TlvReply} (h : r.length = 12)
    (hlength : replyLength req.type r.retCode = 12) : ReplySized req r := h.trans hlength.symm

theorem replyLength_loginFail (type : OpType) : replyLength type .loginFail = 8 := by
  cases type <;> rfl

theorem length_addInfo {r : TlvReply} (h : r.length = 8) : r.addInfo.length = 12 := by
  rw [TlvReply.addInfo, h]
  rfl

theorem OfficeStep.replySized {choice : Choice} {req : TlvRequest} {b : Bank (Fin n)}
    {o o' : Office} {act : Action} (h : OfficeStep sha256sum choice req b o act o')
    (hv : Valid b.bankAccounts req o.pc) (ho : o.ReplySized req) : o'.ReplySized req := by
  cases h with
  | activeLock c | activeLoad c | activeStore c => cases c <;> exact ho
  | activeEntered => exact rfl
  | loginUnknown | loginFailed => exact .header ho (replyLength_loginFail _)
  | dispatch =>
      cases ht : req.type with
      | undefined code => exact .header ho (by rw [ht]; rfl)
      | _ => exact ho
  | createNotAllowed | createInUse | shutdownNotAllowed =>
      exact .header ho (by rw [show req.type = _ from hv]; rfl)
  | createUnlock => exact .header ho.1 (by rw [hv.1]; rfl)
  | balanceNotAllowed => exact .header ho (by rw [hv.1]; rfl)
  | createCheck | balanceCheck | shutdownCheck => exact ⟨ho, rfl⟩
  | balanceUnlock r =>
      refine .info (length_addInfo ho.1) ?_
      rw [hv.1, show r.addInfo.retCode = .ok from ho.2]
      rfl
  | shutdownCount => exact ⟨length_addInfo ho.1, ho.2⟩
  | transferNotAllowed | transferNotFound | transferSameId =>
      exact .info (length_addInfo ho) (by rw [hv.1]; rfl)
  | transferCheck => exact ⟨length_addInfo ho, rfl⟩
  | noFunds | tooHigh => exact .info ho.1 (by rw [hv.1.type]; rfl)
  | transferReport id r a =>
      refine .info ho.1 ?_
      rw [hv.1.type, show (r.setInfo a.balance).retCode = .ok from ho.2]
      rfl
  | shutdownSet r =>
      refine .info ho.1 ?_
      rw [hv.1, show r.retCode = .ok from ho.2]
      rfl
  | replyOpen | replyUserDown | replySkip | replyWrite | fault => trivial
  | _ => exact ho

theorem replySized {s : System n} (h : (bankOffices sha256sum ok t₀ n).Reachable s) (i : Fin n) :
    (s.offices i).ReplySized (s.requests i) :=
  (office_invariant (I := fun t req o => Valid t req o.pc ∧ o.ReplySized req)
    (fun _ _ _ => ⟨trivial, trivial⟩) (fun _ _ _ _ => ⟨trivial, trivial⟩)
    (fun _ _ _ _ hg h => ⟨h.1.grows hg, h.2⟩)
    (fun _ _ _ _ _ _ h hs => ⟨hs.valid h.1, hs.replySized h.1 h.2⟩) h i).2

/-- A request that returns has a reply of its type, as long as its code makes it. -/
theorem exchange_formed {s : System n} (h : (bankOffices sha256sum ok t₀ n).Reachable s) :
    ∀ e ∈ exchanges s.actions, e.2.type = e.1.type ∧ ReplySized e.1 e.2 := by
  apply h.invariant (I := fun s : System n =>
    ∀ e ∈ exchanges s.actions, e.2.type = e.1.type ∧ ReplySized e.1 e.2)
  · intro s hs e he
    rw [System.actions, hs.2.2] at he
    cases he
  · intro s l s' hr ih hs e he
    rcases bankOffices_step_cases hs with ⟨i, req, -, -, -, rfl⟩ |
      ⟨i, choice, act, b, o, -, hstep, -, rfl⟩
    · exact ih e he
    · rw [System.exchanges_perform] at he
      rcases List.mem_append.mp he with he | he
      · exact ih e he
      · have htyped : (s.offices i).pc.typed = true →
            (s.offices i).reply.type = (s.requests i).type := typed hr i
        have hsized := replySized hr i
        rw [Option.mem_toList] at he
        generalize s.offices i = before at hstep htyped hsized
        cases hstep with
        | ret =>
            obtain rfl := Option.some.inj he
            exact ⟨htyped rfl, hsized⟩
        | _ => cases he

/-- A balance that is in the reply is that of the client. -/
def Office.Reported (t : Table) (req : TlvRequest) (o : Office) : Prop :=
  match o.pc with
  | .balanceUnlock => ∃ a, t req.headerId = some a ∧ o.reply.info = a.balance
  | .activeLock .leave | .activeLoad .leave | .activeStore .leave _ | .activeUnlock .leave
  | .ret | .replyOpen => req.type = .balance ∨ req.type = .transfer → o.reply.retCode = .ok →
      ∃ a, t req.headerId = some a ∧ o.reply.info = a.balance
  | _ => True

theorem OfficeStep.reported {choice : Choice} {req : TlvRequest} {b b' : Bank (Fin n)}
    {i : Fin n} {o o' : Office} {act : Action} (h : OfficeStep sha256sum choice req b o act o')
    (hb : b.apply i act = some b') (hv : Valid b.bankAccounts req o.pc)
    (ho : o.Reported b.bankAccounts req) : o'.Reported b'.bankAccounts req := by
  have hsame := apply_table hb
  cases h with
  | activeLock c | activeLoad c | activeStore c =>
      cases c with
      | enter => trivial
      | leave =>
          rw [hsame rfl]
          exact ho
  | activeLeft | ret =>
      rw [hsame rfl]
      exact ho
  | loginUnknown | loginFailed | createNotAllowed | createInUse | balanceNotAllowed
  | shutdownNotAllowed | transferNotAllowed | transferNotFound | transferSameId | noFunds
  | tooHigh => exact fun _ hok => absurd hok (by simp [TlvReply.setRetCode])
  | dispatch =>
      cases ht : req.type with
      | undefined code => exact fun hreq => by simp [ht] at hreq
      | _ => trivial
  | createUnlock => exact fun hreq => by simp [hv.1] at hreq
  | balanceRead r a ha =>
      rw [hsame rfl]
      exact ⟨a, ha, rfl⟩
  | balanceUnlock =>
      rw [hsame rfl]
      exact fun _ _ => ho
  | transferReport id r a ha =>
      rw [hsame rfl]
      exact fun _ _ => ⟨a, hv.2 ▸ ha, rfl⟩
  | shutdownSet => exact fun hreq => by simp [hv.1] at hreq
  | _ => trivial

/-- The balance that an office reports is in the account when requests take turns. -/
theorem reported_of_turns {s : System n} (h : (turns sha256sum ok salts t₀ n).Reachable s)
    (i : Fin n) : (s.offices i).Reported s.table (s.requests i) := by
  refine h.invariant (I := fun s => ∀ i, (s.offices i).Reported s.table (s.requests i)) ?_ ?_ i
  · intro s hs i
    rw [Office.Reported, show (s.offices i).pc = _ from hs.2.1 i]
    trivial
  · intro s l s' hr ih hs i
    rcases bankOffices_step_cases hs.1 with ⟨j, req, -, -, -, rfl⟩ |
      ⟨j, choice, act, b, o, rfl, hstep, hb, rfl⟩
    · by_cases hij : i = j
      · subst i
        rw [s.give_offices_self]
        trivial
      · rw [s.give_offices_of_ne req hij, s.give_requests_of_ne req hij]
        exact ih i
    · by_cases hij : i = j
      · subst i
        rw [s.perform_offices_self]
        exact hstep.reported hb (valid hr.of_guard j) (ih j)
      · -- the other offices are idle
        have hidle : s.pc i = .idle := by
          by_contra hwork
          exact hij (eq_of_working hr i j hwork hstep.pc_ne_idle)
        rw [s.perform_offices_of_ne act b o hij, Office.Reported,
          show (s.offices i).pc = _ from hidle]
        trivial

/-- A request that returns waits for its reply FIFO with its reply. -/
theorem OfficeStep.exchange_eq {choice : Choice} {req : TlvRequest} {b : Bank (Fin n)}
    {o o' : Office} {act : Action} (h : OfficeStep sha256sum choice req b o act o')
    {e : TlvRequest × TlvReply} (he : act.exchange = some e) :
    e.1 = req ∧ o'.pc = .replyOpen ∧ o'.reply = e.2 := by
  cases h with
  | ret =>
      cases he
      exact ⟨rfl, rfl, rfl⟩
  | _ => cases he

/-- The transactions of the requests that returned, oldest first. -/
def transactions (acts : List Action) : List (Transaction UInt32 CString) :=
  (exchanges acts).filterMap fun e => transactionOf (outcomeOf e.1 e.2)

theorem transactions_eq {acts : List Action} {history : List (Transaction UInt32 CString)}
    (h : (exchanges acts).map (fun e => transactionOf (outcomeOf e.1 e.2)) = history.map some) :
    transactions acts = history := by
  calc transactions acts
      = ((exchanges acts).map fun e => transactionOf (outcomeOf e.1 e.2)).filterMap id := by
        rw [List.filterMap_map, Function.id_comp]
        rfl
    _ = (history.map some).filterMap id := by rw [h]
    _ = history := by rw [List.filterMap_map, Function.id_comp, List.filterMap_some]

/-- The transaction of an exchange, with the accounts it leaves. -/
structure EnteredAs (e : TlvRequest × TlvReply)
    (x : Transaction UInt32 CString × Ledger UInt32 CString) : Prop where
  transaction : transactionOf (outcomeOf e.1 e.2) = some x.1
  balance : e.1.type = .balance ∨ e.1.type = .transfer → e.2.retCode = .ok →
    e.2.info.toNat = x.2.balanceOf e.1.headerId

section Booking

variable {passwords : Set CString} {adminPassword : CString} {rand : ℕ → ℕ} {s : System n}

/-- Where no request is under way that has taken effect, the accounts are those
of the abstract bank after the transactions. -/
theorem exists_ledger (hsha : Sha256On sha256sum (hashInputs passwords salts))
    (hlen : ∀ p ∈ passwords, p.length ≤ maxPasswordLen)
    (hsalts : ∀ salt ∈ salts, ∃ rand, salt = generateSalt rand)
    (hsalt : generateSalt rand ∈ salts) (hadmin : adminPassword ∈ passwords)
    (h : (turns sha256sum (Ordered passwords) salts
      (adminTable sha256sum (generateSalt rand) adminPassword) n).Reachable s)
    (hsum : s.sum effective = 0) (hquiet : ∀ i, ¬ (s.pc i).accessing)
    (hlow : ∀ e ∈ exchanges s.actions, e.2.retCode ≠ .tooHigh) :
    ∃ L, (ledgerBank bankLimits (openingLedger adminPassword)).Reachable
        (transactions s.actions, L) ∧
      (exchanges s.actions).map (fun e => transactionOf (outcomeOf e.1 e.2)) =
        (transactions s.actions).map some ∧
      Represents sha256sum passwords salts s.table L := by
  have hin : ∀ req, Ordered passwords req → req.InArray := fun _ hreq => hreq.range.inArray
  obtain ⟨⟨order, t⟩, hserial, ⟨⟨current, hlist, hcurrent⟩, hl⟩⟩ :=
    (order_simulation hin).reachable h
  obtain rfl := (Multiset.coe_eq_zero current).mp (hcurrent.trans hsum)
  obtain rfl : order = s.outcomes := hlist.trans (List.append_nil _)
  have hlow' : ∀ e ∈ s.outcomes, e.retCode ≠ .tooHigh := by
    intro e he
    obtain ⟨e, hmem, rfl⟩ := List.mem_map.mp he
    exact hlow e hmem
  obtain ⟨⟨history, L⟩, hledger, hmatch⟩ :=
    (ledger_simulation hsha hlen hsalts hsalt hadmin).reachable (serialBankOn_guard hserial hlow')
  have hhistory : (exchanges s.actions).map (fun e => transactionOf (outcomeOf e.1 e.2)) =
      history.map some := by
    rw [← hmatch.history, System.outcomes, List.map_map]
    rfl
  obtain rfl := transactions_eq hhistory
  exact ⟨L, hledger, hhistory, hl.table_eq hquiet ▸ hmatch.table⟩

/-- When a request has just returned, its transaction is the last one, and the
balance in its reply is the one that the abstract bank then has. -/
theorem ledger_of_returned (hsha : Sha256On sha256sum (hashInputs passwords salts))
    (hlen : ∀ p ∈ passwords, p.length ≤ maxPasswordLen)
    (hsalts : ∀ salt ∈ salts, ∃ rand, salt = generateSalt rand)
    (hsalt : generateSalt rand ∈ salts) (hadmin : adminPassword ∈ passwords)
    (h : (turns sha256sum (Ordered passwords) salts
      (adminTable sha256sum (generateSalt rand) adminPassword) n).Reachable s)
    {i : Fin n} (hpc : s.pc i = .replyOpen)
    (hlow : ∀ e ∈ exchanges s.actions, e.2.retCode ≠ .tooHigh) :
    (exchanges s.actions).map (fun e => transactionOf (outcomeOf e.1 e.2)) =
        (transactions s.actions).map some ∧
      ((s.requests i).type = .balance ∨ (s.requests i).type = .transfer →
        (s.offices i).reply.retCode = .ok → (s.offices i).reply.info.toNat =
          ((transactions s.actions).foldl (Ledger.book bankLimits)
            (openingLedger adminPassword)).balanceOf (s.requests i).headerId) := by
  have hwork : s.pc i ≠ .idle := by
    rw [hpc]
    decide
  have hsum : s.sum effective = 0 := by
    rw [sum_eq_of_working h (fun req _ => effective_idle req) hwork, effective, decided,
      show (s.offices i).pc = _ from hpc]
  have hquiet : ∀ j, ¬ (s.pc j).accessing := fun j => by
    by_cases hidle : s.pc j = .idle
    · rw [hidle]
      decide
    · rw [eq_of_working h j i hidle hwork, hpc]
      decide
  obtain ⟨L, hledger, hhistory, hrep⟩ :=
    exists_ledger hsha hlen hsalts hsalt hadmin h hsum hquiet hlow
  refine ⟨hhistory, fun ht hok => ?_⟩
  have hreported := reported_of_turns h i
  rw [Office.Reported, show (s.offices i).pc = _ from hpc] at hreported
  obtain ⟨a, ha, hinfo⟩ := hreported ht hok
  calc (s.offices i).reply.info.toNat
      = a.balance.toNat := congrArg _ hinfo
    _ = L.balanceOf (s.requests i).headerId := (hrep.balanceOf_eq ha).symm
    _ = _ := by rw [← ledgerBank_eq_foldl hledger]

/-- Every exchange is entered in the books, and the balances in the replies are
those of the abstract bank when it is. -/
theorem exchanges_entered (hsha : Sha256On sha256sum (hashInputs passwords salts))
    (hlen : ∀ p ∈ passwords, p.length ≤ maxPasswordLen)
    (hsalts : ∀ salt ∈ salts, ∃ rand, salt = generateSalt rand)
    (hsalt : generateSalt rand ∈ salts) (hadmin : adminPassword ∈ passwords)
    (h : (turns sha256sum (Ordered passwords) salts
      (adminTable sha256sum (generateSalt rand) adminPassword) n).Reachable s)
    (hlow : ∀ e ∈ exchanges s.actions, e.2.retCode ≠ .tooHigh) :
    List.Forall₂ EnteredAs (exchanges s.actions)
      ((openingLedger adminPassword).trail bankLimits (transactions s.actions)) := by
  induction h with
  | init hs =>
      rw [transactions, System.actions, hs.2.2]
      exact .nil
  | @step s l s' hr hs ih =>
      rcases bankOffices_step_cases hs.1 with ⟨i, req, -, -, -, rfl⟩ |
        ⟨i, choice, act, b, o, rfl, hstep, hb, rfl⟩
      · exact ih hlow
      have hmore := s.exchanges_perform i act b o
      cases he : act.exchange with
      | none =>
          rw [he, Option.toList_none, List.append_nil] at hmore
          rw [transactions, hmore]
          exact ih (hmore ▸ hlow)
      | some e =>
          obtain ⟨hreq, hpc, hreply⟩ := hstep.exchange_eq he
          rw [he, Option.toList_some] at hmore
          have hi := s.perform_offices_self i act b o
          obtain ⟨hhistory, hbalance⟩ := ledger_of_returned hsha hlen hsalts hsalt hadmin
            (hr.step hs) (i := i) (by rw [System.pc, hi, hpc]) hlow
          obtain ⟨x, -, hx⟩ := List.mem_map.mp (hhistory ▸ List.mem_map_of_mem
            (hmore ▸ List.mem_append_right _ (List.mem_singleton_self e)))
          have htransactions : transactions (s.perform i act b o).actions =
              transactions s.actions ++ [x] := by
            rw [transactions, hmore, List.filterMap_append, List.filterMap_cons, ← hx]
            rfl
          rw [hi, htransactions, hreply] at hbalance
          rw [hmore] at hlow ⊢
          rw [htransactions, Ledger.trail_append]
          refine List.rel_append (ih fun e he => hlow e (List.mem_append_left _ he))
            (.cons ⟨hx.symm, ?_⟩ .nil)
          rw [hreq]
          exact hbalance

end Booking

end HomeBanking
