import HomeBanking.Admission
import HomeBanking.Serial

/-!
# All four operations are linearizable

With creations and shutdowns in the run the offices still do what one office
would do that processes the requests one after the other, as long as creations
of one id do not overlap. A creation takes effect when it writes its account, a
shutdown when it sets `serverDown`; the steps of balance checks and transfers
take effect as in `Serial`. A request takes effect between the step that hands
it out and the one that returns, so the order keeps the real-time order.
-/

namespace HomeBanking

variable {n : ℕ} {sha256sum : CString → CString} {ok : TlvRequest → Prop} {t₀ : Table}
  {salts : Set CString}

/-- One request, processed alone with every mutex free and one of the salts. -/
def SerialStepOn (sha256sum : CString → CString) (salts : Set CString) (t : Table) (e : Outcome)
    (t' : Table) : Prop :=
  ∃ salt ∈ salts, ∃ (reply : TlvReply) (w' : World Unit),
    processRequest sha256sum () salt e.request ⟨Bank.idle t, reply⟩ = .ok ((), w') ∧
      outcomeOf e.request w'.reply = e ∧ w'.bank.bankAccounts = t'

/-- The requests processed so far, in order, and the table they leave. -/
def serialBankOn (sha256sum : CString → CString) (ok : TlvRequest → Prop) (salts : Set CString)
    (t₀ : Table) : LTS (List Outcome × Table) Outcome where
  init a := a = ([], t₀)
  step a e a' := ok e.request ∧ SerialStepOn sha256sum salts a.2 e a'.2 ∧ a'.1 = a.1 ++ [e]

/-- The order only grows. -/
theorem serialBankOn_extends {a a' : List Outcome × Table}
    (h : (serialBankOn sha256sum ok salts t₀).Reaches a a') : a.1 <+: a'.1 := by
  induction h with
  | refl => exact List.prefix_refl _
  | tail _ hs ih =>
      obtain ⟨e, hstep⟩ := hs
      rw [hstep.2.2]
      exact ih.trans (List.prefix_append _ _)

/-- Where all requests in the order have a property, the runs consist of such requests. -/
theorem serialBankOn_guard {P : Outcome → Prop} {a : List Outcome × Table}
    (h : (serialBankOn sha256sum ok salts t₀).Reachable a) (hP : ∀ e ∈ a.1, P e) :
    ((serialBankOn sha256sum ok salts t₀).guard fun _ e => P e).Reachable a := by
  induction h with
  | init h => exact .init h
  | step _ hs ih =>
      have hlist := hs.2.2
      rw [hlist] at hP
      exact (ih fun e he => hP e (List.mem_append_left _ he)).step
        ⟨hs, hP _ (List.mem_append_right _ (List.mem_singleton_self _))⟩

theorem serialBankOn_guard_reaches {P : Outcome → Prop} {a a' : List Outcome × Table}
    (h : (serialBankOn sha256sum ok salts t₀).Reaches a a') (hP : ∀ e ∈ a'.1, P e) :
    ((serialBankOn sha256sum ok salts t₀).guard fun _ e => P e).Reaches a a' := by
  induction h with
  | refl => exact Relation.ReflTransGen.refl
  | tail _ hs ih =>
      obtain ⟨e, hstep⟩ := hs
      have hlist := hstep.2.2
      rw [hlist] at hP
      exact (ih fun e he => hP e (List.mem_append_left _ he)).tail
        ⟨e, hstep, hP e (List.mem_append_right _ (List.mem_singleton_self e))⟩

section SerialSteps

variable {req : TlvRequest} {t t' : Table} {salt : CString}

/-- Only a creation uses its salt. -/
theorem processRequest_salt {ι : Type} (me : ι) (hreq : req.type ≠ .createAccount)
    (salt salt' : CString) :
    processRequest sha256sum me salt req = processRequest sha256sum me salt' req := by
  have hop : operation sha256sum me salt req = operation sha256sum me salt' req := by
    unfold operation
    cases ht : req.type with
    | createAccount => exact absurd ht hreq
    | _ => rfl
  unfold processRequest
  rw [hop]

theorem SerialStep.on {e : Outcome} (h : SerialStep sha256sum t e t')
    (hreq : e.request.type ≠ .createAccount) (hsalt : salt ∈ salts) :
    SerialStepOn sha256sum salts t e t' := by
  obtain ⟨salt', reply, w', hw, he, ht⟩ := h
  exact ⟨salt, hsalt, reply, w', processRequest_salt () hreq salt' salt ▸ hw, he, ht⟩

theorem serialStepOn_loginFail (hid : req.headerId < maxBankAccounts)
    (hlogin : loginOk sha256sum req t = false) (reply : TlvReply) (hsalt : salt ∈ salts) :
    SerialStepOn sha256sum salts t (outcomeOf req (reply.setRetCode .loginFail)) t :=
  ⟨salt, hsalt, reply, _, (processRequest_eq_ok sha256sum () salt req).mpr
    ⟨rfl, hid, .loginFail (by exact hlogin)⟩, by simp [outcomeOf, TlvReply.setRetCode], rfl⟩

theorem serialStepOn_opExit (hid : req.headerId < maxBankAccounts)
    (hlogin : loginOk sha256sum req t = true) {q r : TlvReply} {w : World Unit}
    (hop : OpExit sha256sum () salt req (begun req ⟨Bank.idle t, q⟩) w)
    (hsalt : salt ∈ salts) (hreq : req.type ≠ .balance) (hcode : r.retCode = w.reply.retCode) :
    SerialStepOn sha256sum salts t (outcomeOf req r) w.bank.bankAccounts := by
  rw [outcomeOf_congr hcode fun hb => absurd hb hreq]
  exact ⟨salt, hsalt, q, _, (processRequest_eq_ok sha256sum () salt req).mpr
    ⟨rfl, hid, .op w (by exact hlogin) hop⟩, rfl, rfl⟩

end SerialSteps

/-- The outcome of a request that has taken effect and has not returned yet. -/
def effective (req : TlvRequest) (o : Office) : Multiset Outcome :=
  match o.pc with
  | .createUnlock _ => {outcomeOf req o.reply}
  | _ => decided req o

/-- The outcomes of all requests that have taken effect. -/
def System.effects (s : System n) : Multiset Outcome := s.tally effective returnedOutcome

theorem effective_idle (req : TlvRequest) {o : Office} (h : o.pc = .idle) :
    effective req o = 0 := by
  rw [effective, decided, h]

theorem effective_eq_decided {t : Table} {req : TlvRequest} {o : Office}
    (hv : Valid t req o.pc) (hreq : req.type ≠ .createAccount) :
    effective req o = decided req o := by
  obtain ⟨pc, r⟩ := o
  cases pc with
  | createUnlock => exact absurd hv.1 hreq
  | _ => rfl

/-- The request of the office takes effect in this step. -/
structure BecomesEffective (req : TlvRequest) (o : Office) (act : Action) (o' : Office) :
    Prop where
  before : effective req o = 0
  returns : returnedOutcome act = 0
  after : effective req o' = {outcomeOf req o'.reply}

/-- Past its validation an operation of the administrator has stored `RC_OK`. -/
def AdminAnswersOk (o : Office) : Prop :=
  match o.pc with
  | .createLock _ | .createWrite _ | .createUnlock _ | .shutdownChmod | .shutdownCount
  | .shutdownSet => o.reply.retCode = .ok
  | _ => True

/-- What a step of a request that reads and writes no balance does to the serial execution. -/
inductive AdminEffect (sha256sum : CString → CString) (salts : Set CString) (req : TlvRequest)
    (t : Table) (o : Office) (act : Action) (o' : Office) : Prop
  | quiet (hw : act.writes = ∅)
      (hsame : effective req o' + returnedOutcome act = effective req o)
  | settled (hw : act.writes = ∅) (heffect : BecomesEffective req o act o')
      (hserial : ∀ u, SameAccounts t u → SerialStepOn sha256sum salts u (outcomeOf req o'.reply) u)
  | created (a : BankAccount) (hact : act = .setAccount req.createId a)
      (heffect : BecomesEffective req o act o')
      (hserial : ∀ u, SameAccounts t u → u req.createId = none →
        SerialStepOn sha256sum salts u (outcomeOf req o'.reply)
          (Function.update u req.createId (some a)))

section Steps

variable {choice : Choice} {req : TlvRequest} {b : Bank (Fin n)} {o o' : Office} {act : Action}

theorem OfficeStep.adminAnswersOk (h : OfficeStep sha256sum choice req b o act o')
    (ho : AdminAnswersOk o) : AdminAnswersOk o' := by
  cases h with
  | dispatch => cases ht : req.type <;> trivial
  | createCheck | shutdownCheck => rfl
  | createLock | createWrite | shutdownChmod | shutdownCount => exact ho
  | _ => trivial

/-- A request without debits is never between its debit and its credit. -/
theorem Valid.not_debited {t : Table} {pc : Pc} (hv : Valid t req pc)
    (hreq : req.type ≠ .transfer) : pc.debited = false := by
  cases pc with
  | addRead | addWrite => exact absurd hv.1.type hreq
  | _ => rfl

/-- Between a debit and its credit the source exists. -/
theorem Valid.debited_source {t : Table} {pc : Pc} (hv : Valid t req pc)
    (hd : pc.debited = true) : (t req.headerId).isSome := by
  cases pc with
  | addRead | addWrite => exact hv.1.source.2
  | _ => cases hd

/-- A login that fails changes nothing, on whatever balances. -/
theorem OfficeStep.settled_loginFail {t : Table} {pc : Pc} {r : TlvReply}
    (hbefore : effective req ⟨pc, r⟩ = 0) (hid : req.headerId < maxBankAccounts)
    (hlogin : loginOk sha256sum req t = false) (hsalt : choice.salt ∈ salts) :
    AdminEffect sha256sum salts req t ⟨pc, r⟩ (.refuse .loginFail)
      ⟨.ret, r.setRetCode .loginFail⟩ :=
  .settled rfl ⟨hbefore, rfl, rfl⟩ fun _ hs =>
    serialStepOn_loginFail hid ((hs.loginOk req).symm.trans hlogin) r hsalt

/-- A request of no operation ends behind its login. -/
theorem OfficeStep.settled_dispatch {t : Table} {r : TlvReply}
    (hreq : req.type ≠ .balance ∧ req.type ≠ .transfer) (hid : req.headerId < maxBankAccounts)
    (hlogin : loginOk sha256sum req t = true) (hsalt : choice.salt ∈ salts) :
    AdminEffect sha256sum salts req t ⟨.dispatch, r⟩ .skip ⟨operationPc req.type, r⟩ := by
  cases ht : req.type with
  | createAccount | shutdown => exact .quiet rfl rfl
  | balance => exact absurd ht hreq.1
  | transfer => exact absurd ht hreq.2
  | undefined code =>
      exact .settled rfl ⟨rfl, rfl, rfl⟩ fun u hs =>
        serialStepOn_opExit (q := r) hid ((hs.loginOk req).symm.trans hlogin)
          (.undefined code ht rfl) hsalt hreq.1 rfl

/-- The write of an account is the step at which its creation takes effect. -/
theorem OfficeStep.created_effect {t : Table} {r : TlvReply}
    (ht : req.type = .createAccount) (hadmin : req.headerId = 0)
    (hin : req.createId < maxBankAccounts) (hlogin : loginOk sha256sum req t = true)
    (hcode : r.retCode = .ok) (hsalt : choice.salt ∈ salts) :
    AdminEffect sha256sum salts req t ⟨.createWrite req.value.create, r⟩
      (.setAccount req.createId (newAccount sha256sum choice.salt req.createId
        req.value.create.balance req.value.create.password))
      ⟨.createUnlock req.value.create, r⟩ := by
  have hid : req.headerId < maxBankAccounts := by
    rw [hadmin]
    decide
  refine .created _ rfl ⟨rfl, rfl, rfl⟩ fun u hs hnone => ?_
  exact serialStepOn_opExit (q := r) hid ((hs.loginOk req).symm.trans hlogin)
    (.create ht (.done hadmin hin hnone rfl)) hsalt (by rw [ht]; decide) hcode

/-- Every step of a request that is neither a balance check nor a transfer has
one of the listed effects. -/
theorem OfficeStep.adminEffect (h : OfficeStep sha256sum choice req b o act o')
    (hreq : req.type ≠ .balance ∧ req.type ≠ .transfer)
    (hin : req.type = .createAccount → req.createId < maxBankAccounts)
    (hv : Valid b.bankAccounts req o.pc) (hadm : Admitted sha256sum b.bankAccounts req o.pc)
    (ho : AdminAnswersOk o) (hsalt : choice.salt ∈ salts) :
    AdminEffect sha256sum salts req b.bankAccounts o act o' := by
  cases h with
  | loginUnknown r hid hnone =>
      exact settled_loginFail rfl hid (by rw [loginOk, hnone]) hsalt
  | loginFailed id hash r a ha hhash =>
      obtain ⟨rfl, hknown⟩ := hv
      obtain ⟨a', ha', rfl⟩ := hadm
      obtain rfl : a = a' := Option.some.inj (ha.symm.trans ha')
      exact settled_loginFail rfl hknown.1
        (by simpa [loginOk, ha, passwordMatches] using hhash) hsalt
  | dispatch r => exact settled_dispatch hreq hv.1 (hadm rfl).2 hsalt
  | createNotAllowed r hadmin =>
      obtain ⟨hid, hlogin⟩ := hadm rfl
      exact .settled rfl ⟨rfl, rfl, rfl⟩ fun u hs => serialStepOn_opExit (q := r) hid
        ((hs.loginOk req).symm.trans hlogin) (.create hv (.notAllowed hadmin)) hsalt hreq.1 rfl
  | createInUse r a hadmin ha =>
      obtain ⟨hid, hlogin⟩ := hadm rfl
      refine .settled rfl ⟨rfl, rfl, rfl⟩ fun u hs => ?_
      obtain ⟨x, hx⟩ := hs.exists_balance ha
      exact serialStepOn_opExit (q := r) hid ((hs.loginOk req).symm.trans hlogin)
        (.create hv (.inUse hadmin (hin hv) (Option.isSome_iff_exists.mpr ⟨_, hx⟩))) hsalt
        hreq.1 rfl
  | createWrite c r hid =>
      obtain ⟨ht, rfl, hadmin, hin⟩ := hv
      exact created_effect ht hadmin hin (hadm rfl).2 ho hsalt
  | createUnlock c r =>
      refine .quiet rfl (congrArg (fun e => ({e} : Multiset Outcome)) ?_)
      exact outcomeOf_congr rfl fun hb => absurd hb hreq.1
  | shutdownNotAllowed r hadmin =>
      obtain ⟨hid, hlogin⟩ := hadm rfl
      exact .settled rfl ⟨rfl, rfl, rfl⟩ fun u hs => serialStepOn_opExit (q := r) hid
        ((hs.loginOk req).symm.trans hlogin) (.shutdown hv (.notAllowed hadmin)) hsalt hreq.1 rfl
  | shutdownSet r =>
      obtain ⟨hid, hlogin⟩ := hadm rfl
      exact .settled rfl ⟨rfl, rfl, rfl⟩ fun u hs => serialStepOn_opExit (q := r) hid
        ((hs.loginOk req).symm.trans hlogin) (.shutdown hv.1 (.done hv.2)) hsalt hreq.1 ho
  | balanceNotAllowed | balanceCheck | balanceLock | balanceRead | balanceUnlock =>
      exact absurd hv.1 hreq.1
  | transferNotAllowed | transferNotFound | transferSameId | transferCheck =>
      exact absurd hv.1 hreq.2
  | transferLock₁ | transferLock₂ | noFunds | subtractRead | subtractWrite | tooHigh | addRead
  | addWrite | transferUnlock₁ | transferUnlock₂ | transferReport =>
      exact absurd hv.1.type hreq.2
  | activeLock c | activeLoad c | activeStore c => cases c <;> exact .quiet rfl rfl
  | fault pc r r' hfault =>
      rcases hv.faults hfault with ⟨rfl, _⟩ | ⟨rfl, _⟩ | ⟨rfl, _⟩ <;> exact .quiet rfl rfl
  | _ => exact .quiet rfl rfl

theorem Admitted.loggedIn {t : Table} {pc : Pc} (h : Admitted sha256sum t req pc) :
    LoggedIn sha256sum t req pc := by
  cases pc with
  | loginCompare =>
      obtain ⟨a, ha, hhash⟩ := h
      intro a' ha'
      rw [hhash, Option.some.inj (ha.symm.trans ha')]
  | dispatch | balanceCheck | balanceLock | balanceRead | transferCheck | transferLock₁
  | transferLock₂ | subtractRead | subtractWrite | addRead | addWrite => exact (h rfl).2
  | _ => trivial

end Steps

/-- The label draws one of the salts. -/
def Label.Draws (salts : Set CString) : Label n → Prop
  | .act _ choice => choice.salt ∈ salts
  | .give .. => True

/-- The runs in which creations of one id do not overlap, with the salts that are drawn. -/
abbrev saltedRuns (sha256sum : CString → CString) (ok : TlvRequest → Prop) (salts : Set CString)
    (t₀ : Table) (n : ℕ) : LTS (System n) (Label n) :=
  (bankOffices sha256sum ok t₀ n).guard fun s l =>
    s.creationOverlaps l = false ∧ l.Draws salts

section Simulation

variable {s : System n} {t : Table} {i : Fin n} {act : Action} {b : Bank (Fin n)} {o : Office}

theorem withoutOverlaps_of_salted (h : (saltedRuns sha256sum ok salts t₀ n).Reachable s) :
    (withoutOverlaps sha256sum ok t₀ n).Reachable s :=
  h.guard_mono fun _ _ hg => hg.1

theorem adminAnswersOk (h : (bankOffices sha256sum ok t₀ n).Reachable s) (i : Fin n) :
    AdminAnswersOk (s.offices i) :=
  office_invariant (I := fun _ _ o => AdminAnswersOk o) (fun _ _ _ => trivial)
    (fun _ _ _ _ => trivial) (fun _ _ _ _ _ h => h)
    (fun _ _ _ _ _ _ ho hs => hs.adminAnswersOk ho) h i

/-- The account that a creation writes is added to both tables. -/
theorem Linked.create (hl : Linked s t)
    (hvalid : ∀ j, Valid s.table (s.requests j) (s.pc j)) {id : UInt32} {a : BankAccount}
    (hnone : s.table id = none) (hafter : o.pc.debited = false)
    (hbefore : (s.pc i).debited = false)
    (hb : b.bankAccounts = Function.update s.table id (some a)) :
    Linked (s.perform i act b o) (Function.update t id (some a)) := by
  refine hl.perform (fun hd => by simp [hafter] at hd) (fun j _ hd => ?_) fun id' _ hj => ?_
  · have hne : (s.requests j).headerId ≠ id := by
      rintro rfl
      have hsome := (hvalid j).debited_source hd
      rw [hnone] at hsome
      cases hsome
    rw [hb, Function.update_of_ne hne, Function.update_of_ne hne]
    exact ⟨rfl, rfl⟩
  · rw [hb]
    by_cases hid : id' = id
    · rw [hid, Function.update_self, Function.update_self]
    · rw [Function.update_of_ne hid, Function.update_of_ne hid]
      apply hl.same id'
      intro j hd
      by_cases hji : j = i
      · subst j
        simp [hbefore] at hd
      · exact hj j hji hd

theorem System.effects_perform_of_same
    (hsame : effective (s.requests i) o + returnedOutcome act =
      effective (s.requests i) (s.offices i)) :
    (s.perform i act b o).effects = s.effects := by
  have h := s.tally_perform i act b o effective returnedOutcome
  rw [hsame] at h
  exact add_right_cancel h

theorem System.effects_perform_of_effect
    (h : BecomesEffective (s.requests i) (s.offices i) act o) :
    (s.perform i act b o).effects = s.effects + {outcomeOf (s.requests i) o.reply} := by
  have hsum := s.tally_perform i act b o effective returnedOutcome
  rwa [h.before, h.returns, h.after, add_zero, add_zero] at hsum

/-- One step of an office on any request: no serial step, or the one of its request. -/
theorem Linked.anyEffect (hl : Linked s t) (hin : ∀ req, ok req → req.InArray)
    (h : (saltedRuns sha256sum ok salts t₀ n).Reachable s) {choice : Choice}
    (hsalt : choice.salt ∈ salts)
    (hstep : OfficeStep sha256sum choice (s.requests i) s.bank (s.offices i) act o)
    (hb : s.bank.apply i act = some b) :
    ((s.perform i act b o).effects = s.effects ∧ Linked (s.perform i act b o) t) ∨
    ∃ e t', (s.perform i act b o).effects = s.effects + {e} ∧ ok e.request ∧
      SerialStepOn sha256sum salts t e t' ∧ Linked (s.perform i act b o) t' := by
  have hr := h.of_guard
  have hv := valid hr i
  have hadm := admitted (withoutOverlaps_of_salted h) i
  have hok := (ok_request hr i).resolve_left hstep.pc_ne_idle
  by_cases hreq : (s.requests i).type = .balance ∨ (s.requests i).type = .transfer
  · have hne : (s.requests i).type ≠ .createAccount := by
      rcases hreq with ht | ht <;> rw [ht] <;> decide
    have hbefore := effective_eq_decided (o := s.offices i) hv hne
    have hafter := effective_eq_decided (o := o) (hstep.valid hv) hne
    have heffect := hstep.effect hreq hv (fresh hr i) hadm.loggedIn (answersOk hr i)
    rcases hl.effect (owned hr) heffect hb with ⟨hsame, hl'⟩ | ⟨htakes, t', hserial, hl'⟩
    · rw [← hafter, ← hbefore] at hsame
      exact .inl ⟨System.effects_perform_of_same hsame, hl'⟩
    · have hbecomes : BecomesEffective (s.requests i) (s.offices i) act o :=
        ⟨hbefore.trans htakes.1, htakes.2.1, hafter.trans htakes.2.2⟩
      exact .inr ⟨_, t', System.effects_perform_of_effect hbecomes, hok,
        hserial.on hne hsalt, hl'⟩
  · have hother : (s.requests i).type ≠ .balance ∧ (s.requests i).type ≠ .transfer :=
      not_or.mp hreq
    have hbefore := hv.not_debited hother.2
    have hafter := (hstep.valid hv).not_debited hother.2
    have hquiet : act.writes = ∅ → Linked (s.perform i act b o) t := fun hw =>
      hl.quiet (apply_table hb hw) (hafter.trans hbefore.symm)
    cases hstep.adminEffect hother (hin _ hok).2.1 hv hadm (adminAnswersOk hr i) hsalt with
    | quiet hw hsame => exact .inl ⟨System.effects_perform_of_same hsame, hquiet hw⟩
    | settled hw heffect hserial =>
        exact .inr ⟨_, t, System.effects_perform_of_effect heffect, hok,
          hserial t hl.sameAccounts, hquiet hw⟩
    | created a hact heffect hserial =>
        subst hact
        have hnone := empty_of_setAccount (withoutOverlaps_of_salted h) hstep
        cases hb
        exact .inr ⟨_, _, System.effects_perform_of_effect heffect, hok,
          hserial t hl.sameAccounts (hl.sameAccounts.eq_none hnone),
          hl.create (valid hr) hnone hafter hbefore rfl⟩

/-- The offices simulate the serial execution of all four operations. -/
theorem effect_simulation (hin : ∀ req, ok req → req.InArray) :
    LTS.Simulation (saltedRuns sha256sum ok salts t₀ n) (serialBankOn sha256sum ok salts t₀)
      fun s a => (a.1 : Multiset Outcome) = s.effects ∧ Linked s a.2 where
  init s hs := by
    have hidle : ∀ i, ¬ (s.pc i).debited := fun i => by
      rw [hs.2.1 i]
      decide
    refine ⟨([], t₀), rfl, ?_, fun id _ => by rw [System.table, hs.1]; rfl,
      fun i hi => absurd hi (hidle i)⟩
    have hsum : s.sum effective = 0 :=
      s.sum_eq_zero _ fun i => effective_idle (s.requests i) (hs.2.1 i)
    rw [System.effects, System.tally, hsum, hs.2.2]
    rfl
  step s l s' a hr hs hrel := by
    obtain ⟨horder, hl⟩ := hrel
    rcases bankOffices_step_cases hs.1 with ⟨i, req, -, hidle, -, rfl⟩ |
      ⟨i, choice, act, b, o, rfl, hstep, hb, rfl⟩
    · refine .inl ⟨horder.trans ?_, hl.give hidle req⟩
      refine (s.tally_give i req effective returnedOutcome ?_).symm
      exact (effective_idle (s.requests i) hidle).symm
    rcases hl.anyEffect hin hr hs.2.2 hstep hb with ⟨hsame, hl'⟩ |
      ⟨e, t', heffects, hok, hserial, hl'⟩
    · exact .inl ⟨horder.trans hsame.symm, hl'⟩
    · refine .inr ⟨e, (a.1 ++ [e], t'), ⟨hok, hserial, rfl⟩, ?_, hl'⟩
      rw [heffects, ← horder]
      rfl

/-- Where no transfer is between its debit and its credit, both tables are the same. -/
theorem Linked.table_eq (hl : Linked s t) (hquiet : ∀ i, ¬ (s.pc i).accessing) : s.table = t :=
  funext fun id => hl.same id fun i hi => by
    exfalso
    apply hquiet i
    cases hpc : s.pc i with
    | addRead | addWrite => rfl
    | _ => simp [hpc, Pc.debited] at hi

end Simulation

/-- On any accounts and requests inside the array, in every run in which
creations of one id do not overlap: at any two points at which no transfer is
between its first and its last access, the requests that have taken effect can
be ordered so that executing them one after another gives the codes, the
balances of the balance checks and the table, and the order at the later point
continues the one at the earlier point. -/
theorem linearizable (hin : ∀ req, ok req → req.InArray) {s s' : System n}
    (h : (saltedRuns sha256sum ok salts t₀ n).Reachable s)
    (hr : (saltedRuns sha256sum ok salts t₀ n).Reaches s s')
    (hquiet : ∀ i, ¬ (s.pc i).accessing) (hquiet' : ∀ i, ¬ (s'.pc i).accessing) :
    ∃ order rest : List Outcome, (order : Multiset Outcome) = s.effects ∧
      ((order ++ rest : List Outcome) : Multiset Outcome) = s'.effects ∧
      (serialBankOn sha256sum ok salts t₀).Reachable (order, s.table) ∧
      (serialBankOn sha256sum ok salts t₀).Reaches (order, s.table) (order ++ rest, s'.table) := by
  obtain ⟨⟨order, t⟩, hserial, horder, hl⟩ := (effect_simulation hin).reachable h
  obtain ⟨⟨order', t'⟩, hreaches, horder', hl'⟩ :=
    (effect_simulation hin).reaches h hr ⟨horder, hl⟩
  obtain rfl := hl.table_eq hquiet
  obtain rfl := hl'.table_eq hquiet'
  obtain ⟨rest, rfl⟩ := serialBankOn_extends hreaches
  exact ⟨order, rest, horder, horder', hserial, hreaches⟩

instance (salts : Set CString) [DecidablePred (· ∈ salts)] (l : Label n) :
    Decidable (l.Draws salts) := by
  cases l <;> unfold Label.Draws <;> infer_instance

/-- A creation of account 2 runs while one of account 1 is under way. -/
theorem linearizable_two : ∃ (s : System 2) (order : List Outcome),
    (saltedRuns Sample.sha256sum TlvRequest.InArray {Sample.salt} Sample.adminOnly 2).Reachable s ∧
    (order : Multiset Outcome) = {⟨Sample.create 7 1 100 Sample.password₁, .ok, none⟩,
      ⟨Sample.create 8 2 200 Sample.password₂, .ok, none⟩} ∧
    (serialBankOn Sample.sha256sum TlvRequest.InArray {Sample.salt} Sample.adminOnly).Reachable
      (order, s.table) := by
  obtain ⟨s, hs, hf⟩ : ∃ s : System 2,
      (saltedRuns Sample.sha256sum TlvRequest.InArray {Sample.salt}
        Sample.adminOnly 2).Reachable s ∧
      (decide (∀ i, ¬ (s.pc i).accessing), s.effects) =
        (true, {⟨Sample.create 7 1 100 Sample.password₁, .ok, none⟩,
          ⟨Sample.create 8 2 200 Sample.password₂, .ok, none⟩}) :=
    guarded_execute (C := fun s l => !s.creationOverlaps l && decide (l.Draws {Sample.salt}) &&
        l.allowed TlvRequest.InArray)
      (fun s l h => by
        simp only [Bool.and_eq_true, Bool.not_eq_true', decide_eq_true_eq] at h
        exact ⟨h.1, Label.ok_of_allowed h.2⟩)
      Sample.emptyReply (Sample.shutdown 0)
      (Sample.serve 0 (Sample.create 7 1 100 Sample.password₁) 9 ++
        Sample.serve 1 (Sample.create 8 2 200 Sample.password₂) 19 ++ Sample.steps 0 10)
      (by decide +kernel)
  obtain ⟨hquiet, heffects⟩ := Prod.mk.inj hf
  obtain ⟨order, -, horder, -, hserial, -⟩ := linearizable (fun _ h => h) hs
    Relation.ReflTransGen.refl (of_decide_eq_true hquiet) (of_decide_eq_true hquiet)
  exact ⟨s, order, hs, horder.trans heffects, hserial⟩

end HomeBanking
