import HomeBanking.Office
import HomeBanking.Sample
import HomeBanking.Lib.Threads
import HomeBanking.Lib.Transition

/-!
# Any number of offices

Offices that work on requests of their own over one shared bank, in any
interleaving of their steps. An idle office can be given any request the
system allows, and keeps it until its reply is sent.

`Valid` collects what an office knows at each program point about its request
and the accounts it has checked, `held` the account mutexes it holds there.
The results of this module hold in every run: what an office knows stays true,
and an office that holds a mutex is its only holder.

## Implementation notes

The requests are fixed here, as if `readRequest` copied a message into the memory
that `allocateBankOffice` allocates. In the server all offices read the one
`request` of the main thread, which is modelled in `Server`; its runs in which
the main thread leaves `request` alone while an office needs it are runs of this
model.
-/

namespace HomeBanking

variable {n : ℕ}

/-- The shared bank, the offices with their requests, and the actions so far,
newest first. -/
structure System (n : ℕ) where
  bank : Bank (Fin n)
  offices : Fin n → Office
  requests : Fin n → TlvRequest
  trace : List (Fin n × Action)

/-- An idle office is given a request, or an office takes its next step. -/
inductive Label (n : ℕ)
  | give (i : Fin n) (req : TlvRequest)
  | act (i : Fin n) (choice : Choice)

namespace System

abbrev table (s : System n) : Table := s.bank.bankAccounts

abbrev pc (s : System n) (i : Fin n) : Pc := (s.offices i).pc

def give (s : System n) (i : Fin n) (req : TlvRequest) : System n :=
  { s with
    offices := Function.update s.offices i ((s.offices i).goto (.activeLock .enter))
    requests := Function.update s.requests i req }

def perform (s : System n) (i : Fin n) (act : Action) (b : Bank (Fin n)) (o : Office) :
    System n :=
  { s with
    bank := b
    offices := Function.update s.offices i o
    trace := (i, act) :: s.trace }

/-- The next state; none when the step is not possible or has to wait. -/
def next (sha256sum : CString → CString) (s : System n) : Label n → Option (System n)
  | .give i req => if s.pc i = .idle then some (s.give i req) else none
  | .act i choice =>
      (officeStep sha256sum choice (s.requests i) s.bank (s.offices i)).bind fun p =>
        (s.bank.apply i p.1).map fun b => s.perform i p.1 b p.2

variable (s : System n) (i : Fin n) (req : TlvRequest) (act : Action) (b : Bank (Fin n))
  (o : Office)

@[simp] theorem give_bank : (s.give i req).bank = s.bank := rfl
@[simp] theorem give_table : (s.give i req).table = s.table := rfl
@[simp] theorem give_trace : (s.give i req).trace = s.trace := rfl
@[simp] theorem perform_bank : (s.perform i act b o).bank = b := rfl
@[simp] theorem perform_table : (s.perform i act b o).table = b.bankAccounts := rfl
@[simp] theorem perform_requests : (s.perform i act b o).requests = s.requests := rfl
@[simp] theorem perform_trace : (s.perform i act b o).trace = (i, act) :: s.trace := rfl
@[simp] theorem perform_offices_self : (s.perform i act b o).offices i = o :=
  Function.update_self ..
@[simp] theorem give_requests_self : (s.give i req).requests i = req :=
  Function.update_self ..
@[simp] theorem give_offices_self :
    (s.give i req).offices i = ⟨.activeLock .enter, (s.offices i).reply⟩ :=
  Function.update_self ..

variable {i} {j : Fin n}

@[simp] theorem perform_offices_of_ne (h : j ≠ i) :
    (s.perform i act b o).offices j = s.offices j := Function.update_of_ne h ..
@[simp] theorem perform_pc_self : (s.perform i act b o).pc i = o.pc := by
  simp [pc]
@[simp] theorem perform_pc_of_ne (h : j ≠ i) : (s.perform i act b o).pc j = s.pc j := by
  simp [pc, h]
@[simp] theorem give_pc_self : (s.give i req).pc i = .activeLock .enter := by
  simp [pc]
@[simp] theorem give_offices_of_ne (h : j ≠ i) :
    (s.give i req).offices j = s.offices j := Function.update_of_ne h ..
@[simp] theorem give_pc_of_ne (h : j ≠ i) : (s.give i req).pc j = s.pc j := by
  simp [pc, h]
@[simp] theorem give_requests_of_ne (h : j ≠ i) :
    (s.give i req).requests j = s.requests j := Function.update_of_ne h ..

variable {M : Type} [AddCommMonoid M] (g : TlvRequest → Office → M)

/-- What the offices with their requests add up to. -/
def sum : M := ∑ j, g (s.requests j) (s.offices j)

theorem sum_eq_zero (h : ∀ j, g (s.requests j) (s.offices j) = 0) : s.sum g = 0 :=
  Finset.sum_eq_zero fun j _ => h j

variable (i)

theorem sum_perform : (s.perform i act b o).sum g + g (s.requests i) (s.offices i) =
    s.sum g + g (s.requests i) o :=
  Threads.sum_update s.offices (fun j => g (s.requests j)) i o

theorem sum_give (h : g req ⟨.activeLock .enter, (s.offices i).reply⟩ =
    g (s.requests i) (s.offices i)) : (s.give i req).sum g = s.sum g := by
  apply Finset.sum_congr rfl
  intro j _
  by_cases hj : j = i
  · subst j
    rw [give_requests_self, give_offices_self, h]
  · rw [give_requests_of_ne _ _ hj, give_offices_of_ne _ _ hj]

/-- A request given to an idle office that counted for nothing. -/
theorem sum_give_idle (h : g (s.requests i) (s.offices i) = 0) :
    (s.give i req).sum g = s.sum g + g req ⟨.activeLock .enter, (s.offices i).reply⟩ := by
  have hother : ∀ j ∈ Finset.univ.erase i, g ((s.give i req).requests j)
      ((s.give i req).offices j) = g (s.requests j) (s.offices j) := fun j hj => by
    have hne := Finset.ne_of_mem_erase hj
    rw [give_requests_of_ne _ _ hne, give_offices_of_ne _ _ hne]
  rw [sum, sum, ← Finset.add_sum_erase _ _ (Finset.mem_univ i),
    ← Finset.add_sum_erase _ _ (Finset.mem_univ i), Finset.sum_congr rfl hother, h,
    give_requests_self, give_offices_self, zero_add, add_comm]

/-- What the offices and the actions so far add up to. -/
def tally (r : Action → M) : M := s.sum g + (s.trace.map fun e => r e.2).sum

theorem tally_perform (r : Action → M) :
    (s.perform i act b o).tally g r + g (s.requests i) (s.offices i) =
      s.tally g r + (g (s.requests i) o + r act) := by
  have hsum := s.sum_perform i act b o g
  simp only [tally, perform_trace, List.map_cons, List.sum_cons]
  calc (s.perform i act b o).sum g + (r act + (s.trace.map fun e => r e.2).sum) +
        g (s.requests i) (s.offices i)
      = (s.perform i act b o).sum g + g (s.requests i) (s.offices i) +
        (r act + (s.trace.map fun e => r e.2).sum) := by abel
    _ = s.sum g + (s.trace.map fun e => r e.2).sum + (g (s.requests i) o + r act) := by
      rw [hsum]
      abel

theorem tally_give (r : Action → M) (h : g req ⟨.activeLock .enter, (s.offices i).reply⟩ =
    g (s.requests i) (s.offices i)) : (s.give i req).tally g r = s.tally g r :=
  congrArg (· + (s.trace.map fun e => r e.2).sum) (s.sum_give i req g h)

end System

section Runs

variable (sha256sum : CString → CString) (ok : TlvRequest → Prop) (t₀ : Table)

/-- The runs of `n` offices from idle over the accounts `t₀`, on requests that
satisfy `ok`. -/
def bankOffices (n : ℕ) : LTS (System n) (Label n) where
  init s := s.bank = Bank.idle t₀ ∧ (∀ i, s.pc i = .idle) ∧ s.trace = []
  step s l s' := s.next sha256sum l = some s' ∧ ∀ i req, l = .give i req → ok req

variable {sha256sum ok t₀}

/-- Every step hands out a request or performs one branch of one office. -/
theorem bankOffices_step_cases {s s' : System n} {l : Label n}
    (h : (bankOffices sha256sum ok t₀ n).step s l s') :
    (∃ i req, l = .give i req ∧ s.pc i = .idle ∧ ok req ∧ s' = s.give i req) ∨
    (∃ i choice act b o, l = .act i choice ∧
      OfficeStep sha256sum choice (s.requests i) s.bank (s.offices i) act o ∧
      s.bank.apply i act = some b ∧ s' = s.perform i act b o) := by
  obtain ⟨hnext, hok⟩ := h
  cases l with
  | give i req =>
      simp only [System.next] at hnext
      split at hnext
      · rename_i hidle
        exact .inl ⟨i, req, rfl, hidle, hok i req rfl, (Option.some.inj hnext).symm⟩
      · cases hnext
  | act i choice =>
      simp only [System.next, Option.bind_eq_some_iff, Option.map_eq_some_iff] at hnext
      obtain ⟨⟨act, o⟩, hstep, b, hb, hs'⟩ := hnext
      exact .inr ⟨i, choice, act, b, o, rfl, officeStep_cases _ _ _ _ hstep, hb, hs'.symm⟩

/-- Idle offices over the accounts `t`; their reply and request memory is arbitrary. -/
def System.start (n : ℕ) (t : Table) (reply : TlvReply) (req : TlvRequest) : System n where
  bank := Bank.idle t
  offices := fun _ => ⟨.idle, reply⟩
  requests := fun _ => req
  trace := []

/-- A schedule whose steps pass the test leads to a state of the guarded system. -/
theorem guarded_execute {C : System n → Label n → Bool} {D : System n → Label n → Prop}
    (hC : ∀ s l, C s l = true → D s l ∧ ∀ i req, l = .give i req → ok req)
    (reply : TlvReply) (req : TlvRequest) (ls : List (Label n)) {α : Type}
    {f : System n → α} {a : α}
    (he : (LTS.execute (LTS.nextIf (System.next sha256sum) C)
      (System.start n t₀ reply req) ls).map f = some a) :
    ∃ s, ((bankOffices sha256sum ok t₀ n).guard D).Reachable s ∧ f s = a := by
  refine LTS.Reachable.exists_execute ?_ (LTS.Reachable.init ⟨rfl, fun _ => rfl, rfl⟩) he
  intro s l s' h
  obtain ⟨htest, hnext⟩ := LTS.nextIf_eq_some.mp h
  obtain ⟨hD, hok⟩ := hC s l htest
  exact ⟨⟨hnext, hok⟩, hD⟩

/-- The label hands out no request but allowed ones. -/
def Label.allowed (ok : TlvRequest → Prop) [DecidablePred ok] : Label n → Bool
  | .give _ req => ok req
  | .act .. => true

theorem Label.ok_of_allowed [DecidablePred ok] {l : Label n} (h : l.allowed ok = true)
    (i : Fin n) (req : TlvRequest) (hl : l = .give i req) : ok req := by
  subst hl
  simpa [Label.allowed] using h

/-- A schedule of allowed requests leads to a reachable state. -/
theorem execute_reachable [DecidablePred ok] (reply : TlvReply) (req : TlvRequest)
    (ls : List (Label n)) {α : Type} {f : System n → α} {a : α}
    (he : (LTS.execute (LTS.nextIf (System.next sha256sum) fun _ l => l.allowed ok)
      (System.start n t₀ reply req) ls).map f = some a) :
    ∃ s, (bankOffices sha256sum ok t₀ n).Reachable s ∧ f s = a := by
  obtain ⟨s, hs, hf⟩ := guarded_execute (D := fun _ _ => True)
    (fun _ _ h => ⟨trivial, Label.ok_of_allowed h⟩) reply req ls he
  exact ⟨s, hs.of_guard, hf⟩

/-- A schedule in two parts leads to a reachable state and from there to a later one. -/
theorem execute_reaches [DecidablePred ok] (reply : TlvReply) (req : TlvRequest)
    (ls ls' : List (Label n)) {α β : Type} {f : System n → α} {g : System n → β} {a : α} {b : β}
    (he : ((LTS.execute (LTS.nextIf (System.next sha256sum) fun _ l => l.allowed ok)
      (System.start n t₀ reply req) ls).bind fun s =>
        (LTS.execute (LTS.nextIf (System.next sha256sum) fun _ l => l.allowed ok) s ls').map
          fun s' => (f s, g s')) = some (a, b)) :
    ∃ s s', (bankOffices sha256sum ok t₀ n).Reachable s ∧
      (bankOffices sha256sum ok t₀ n).Reaches s s' ∧ f s = a ∧ g s' = b := by
  refine LTS.Reachable.exists_execute_reaches ?_ (LTS.Reachable.init ⟨rfl, fun _ => rfl, rfl⟩) he
  intro u l u' h
  obtain ⟨htest, hnext⟩ := LTS.nextIf_eq_some.mp h
  exact ⟨hnext, Label.ok_of_allowed htest⟩

/-- Entries that exist stay. -/
def Grows (t t' : Table) : Prop := ∀ id, (t id).isSome → (t' id).isSome

/-- The entry an action writes. -/
def Action.writes : Action → Finset UInt32
  | .setBalance id _ | .setAccount id _ => {id}
  | _ => ∅

theorem Action.writes_eq_empty {act : Action} (hbal : ∀ id x, act ≠ .setBalance id x)
    (hset : ∀ id a, act ≠ .setAccount id a) : act.writes = ∅ := by
  cases act with
  | setBalance => exact absurd rfl (hbal _ _)
  | setAccount => exact absurd rfl (hset _ _)
  | _ => rfl

theorem Bank.setBalance_isSome (b : Bank (Fin n)) (id x j : UInt32) :
    ((b.setBalance id x).bankAccounts j).isSome = (b.bankAccounts j).isSome := by
  by_cases hj : j = id
  · subst j
    simp [Bank.setBalance]
  · simp [Bank.setBalance, hj]

theorem apply_eq_of_notMem_writes {b b' : Bank (Fin n)} {i : Fin n} {act : Action}
    (h : b.apply i act = some b') {id : UInt32} (hid : id ∉ act.writes) :
    b'.bankAccounts id = b.bankAccounts id := by
  cases act with
  | lock | lockActive =>
      simp only [Bank.apply] at h
      split at h
      · cases h; rfl
      · cases h
  | setBalance | setAccount =>
      cases h
      exact Function.update_of_ne (by simpa [Action.writes] using hid) ..
  | _ => cases h; rfl

theorem apply_table {b b' : Bank (Fin n)} {i : Fin n} {act : Action}
    (h : b.apply i act = some b') (hw : act.writes = ∅) : b'.bankAccounts = b.bankAccounts :=
  funext fun _ => apply_eq_of_notMem_writes h (by rw [hw]; exact Finset.notMem_empty _)

theorem apply_grows {b b' : Bank (Fin n)} {i : Fin n} {act : Action}
    (h : b.apply i act = some b') : Grows b.bankAccounts b'.bankAccounts := by
  intro id hid
  by_cases hw : id ∈ act.writes
  · cases act with
    | setBalance j x =>
        cases h
        rwa [Bank.setBalance_isSome]
    | setAccount j a =>
        cases h
        obtain rfl : id = j := by simpa [Action.writes] using hw
        simp [Bank.setAccount]
    | _ => simp [Action.writes] at hw
  · rwa [apply_eq_of_notMem_writes h hw]

/-- The slot is inside the array and filled. -/
def Known (t : Table) (id : UInt32) : Prop := id < maxBankAccounts ∧ (t id).isSome

theorem Known.grows {t t' : Table} {id : UInt32} (h : Known t id) (hg : Grows t t') :
    Known t' id :=
  ⟨h.1, hg id h.2⟩

/-- A transfer past `validateOPTransfer`. -/
structure TransferPassed (t : Table) (req : TlvRequest) : Prop where
  type : req.type = .transfer
  notAdmin : req.headerId ≠ 0
  distinct : req.transferId ≠ req.headerId
  source : Known t req.headerId
  dest : Known t req.transferId

/-- What holds at each program point of an office: the operation is the one
requested, local variables hold the fields they were read from, and the
accounts that were checked exist. -/
def Valid (t : Table) (req : TlvRequest) : Pc → Prop
  | .loginHash id | .loginCompare id _ => id = req.headerId ∧ Known t req.headerId
  | .dispatch => Known t req.headerId
  | .createCheck => req.type = .createAccount
  | .createLock c | .createWrite c | .createUnlock c =>
      req.type = .createAccount ∧ c = req.value.create ∧ req.headerId = 0 ∧
        req.createId < maxBankAccounts
  | .balanceCheck => req.type = .balance ∧ Known t req.headerId
  | .balanceLock id =>
      req.type = .balance ∧ Known t req.headerId ∧ id = req.headerId ∧ req.headerId ≠ 0
  | .balanceRead | .balanceUnlock =>
      req.type = .balance ∧ Known t req.headerId ∧ req.headerId ≠ 0
  | .transferCheck => req.type = .transfer ∧ Known t req.headerId
  | .transferLock₁ id addId | .transferLock₂ id addId | .transferUnlock₂ id addId =>
      TransferPassed t req ∧ id = req.headerId ∧ addId = req.transferId
  | .subtractRead id | .addRead id | .transferUnlock₁ id | .transferReport id =>
      TransferPassed t req ∧ id = req.headerId
  | .subtractWrite id subtractId _ =>
      TransferPassed t req ∧ id = req.headerId ∧ subtractId = req.headerId
  | .addWrite id addId _ => TransferPassed t req ∧ id = req.headerId ∧ addId = req.transferId
  | .shutdownCheck => req.type = .shutdown
  | .shutdownChmod | .shutdownCount | .shutdownSet =>
      req.type = .shutdown ∧ req.headerId = 0
  | _ => True

theorem TransferPassed.grows {t t' : Table} {req : TlvRequest} (h : TransferPassed t req)
    (hg : Grows t t') : TransferPassed t' req :=
  ⟨h.type, h.notAdmin, h.distinct, h.source.grows hg, h.dest.grows hg⟩

theorem Valid.grows {t t' : Table} {req : TlvRequest} {pc : Pc} (h : Valid t req pc)
    (hg : Grows t t') : Valid t' req pc := by
  cases pc with
  | loginHash | loginCompare => exact ⟨h.1, h.2.grows hg⟩
  | dispatch => exact Known.grows h hg
  | balanceCheck | transferCheck => exact ⟨h.1, h.2.grows hg⟩
  | balanceLock | balanceRead | balanceUnlock => exact ⟨h.1, h.2.1.grows hg, h.2.2⟩
  | transferLock₁ | transferLock₂ | transferUnlock₂ | subtractRead | addRead
  | transferUnlock₁ | transferReport | subtractWrite | addWrite =>
      exact ⟨h.1.grows hg, h.2⟩
  | _ => exact h

theorem Valid.operationPc {t : Table} {req : TlvRequest} (h : Known t req.headerId) :
    Valid t req (operationPc req.type) := by
  cases ht : req.type with
  | createAccount | shutdown => exact ht
  | balance | transfer => exact ⟨ht, h⟩
  | undefined => trivial

/-- A step keeps what the office knows. -/
theorem OfficeStep.valid {choice : Choice} {req : TlvRequest} {b : Bank (Fin n)}
    {o o' : Office} {act : Action} (h : OfficeStep sha256sum choice req b o act o')
    (hv : Valid b.bankAccounts req o.pc) : Valid b.bankAccounts req o'.pc := by
  cases h with
  | login r a hid ha => exact ⟨rfl, hid, by simp [ha]⟩
  | loginHash => exact hv
  | loginPassed => exact hv.2
  | dispatch => exact .operationPc hv
  | createCheck r hadmin hid hnone => exact ⟨hv, rfl, hadmin, hid⟩
  | createLock | createWrite => exact hv
  | balanceCheck r hadmin => exact ⟨hv.1, hv.2, rfl, hadmin⟩
  | balanceLock => exact ⟨hv.1, hv.2.1, hv.2.2.2⟩
  | balanceRead => exact hv
  | transferCheck r a hadmin hid ha hne =>
      exact ⟨⟨hv.1, hadmin, hne, hv.2, hid, by simp [ha]⟩, rfl, rfl⟩
  | transferLock₁ => exact hv
  | transferLock₂ => exact ⟨hv.1, hv.2.1⟩
  | subtractRead => exact ⟨hv.1, hv.2, rfl⟩
  | subtractWrite => exact ⟨hv.1, hv.2.1⟩
  | addRead => exact ⟨hv.1, hv.2, rfl⟩
  | addWrite => exact ⟨hv.1, hv.2.1⟩
  | transferUnlock₁ => exact ⟨hv.1, hv.2, rfl⟩
  | transferUnlock₂ => exact ⟨hv.1, hv.2.1⟩
  | shutdownCheck r hadmin => exact ⟨hv, hadmin⟩
  | shutdownChmod | shutdownCount => exact hv
  | _ => trivial

/-- A fact about each office alone holds in every run if idle offices and new
requests have it, every step of the office keeps it, and so do the other
offices, which only add accounts. -/
theorem office_invariant {I : Table → TlvRequest → Office → Prop}
    (hidle : ∀ t req r, I t req ⟨.idle, r⟩)
    (hgive : ∀ t req r, ok req → I t req ⟨.activeLock .enter, r⟩)
    (hgrow : ∀ t t' req o, Grows t t' → I t req o → I t' req o)
    (hstep : ∀ choice req (b : Bank (Fin n)) o act o', I b.bankAccounts req o →
      OfficeStep sha256sum choice req b o act o' → I b.bankAccounts req o')
    {s : System n} (h : (bankOffices sha256sum ok t₀ n).Reachable s) (i : Fin n) :
    I s.table (s.requests i) (s.offices i) := by
  refine h.invariant (I := fun s => ∀ i, I s.table (s.requests i) (s.offices i)) ?_ ?_ i
  · intro s hs i
    have := hidle s.table (s.requests i) (s.offices i).reply
    rwa [← hs.2.1 i] at this
  · intro s l s' _ ih hs i
    rcases bankOffices_step_cases hs with ⟨j, req, -, -, hreq, rfl⟩ |
      ⟨j, choice, act, b, o, -, hstep', hb, rfl⟩
    · by_cases hij : i = j
      · subst i
        simpa using hgive s.table req (s.offices j).reply hreq
      · simpa [hij] using ih i
    · apply hgrow s.table _ _ _ (apply_grows hb)
      by_cases hij : i = j
      · subst i
        simpa using hstep _ _ _ _ _ _ (ih j) hstep'
      · simpa [hij] using ih i

theorem valid {s : System n} (h : (bankOffices sha256sum ok t₀ n).Reachable s) (i : Fin n) :
    Valid s.table (s.requests i) (s.pc i) :=
  office_invariant (I := fun t req o => Valid t req o.pc) (fun _ _ _ => trivial)
    (fun _ _ _ _ => trivial) (fun _ _ _ _ hg hv => hv.grows hg)
    (fun _ _ _ _ _ _ hv hs => hs.valid hv) h i

/-- An idle office takes no step. -/
theorem OfficeStep.pc_ne_idle {choice : Choice} {req : TlvRequest} {b : Bank (Fin n)}
    {o o' : Office} {act : Action} (h : OfficeStep sha256sum choice req b o act o') :
    o.pc ≠ .idle := by
  rintro hpc
  cases h with
  | fault _ _ _ hf =>
      subst hpc
      exact hf
  | _ => cases hpc

/-- An office that works has a request the system allows. -/
theorem ok_request {s : System n} (h : (bankOffices sha256sum ok t₀ n).Reachable s)
    (i : Fin n) : s.pc i = .idle ∨ ok (s.requests i) :=
  office_invariant (I := fun _ req o => o.pc = .idle ∨ ok req) (fun _ _ _ => .inl rfl)
    (fun _ _ _ hok => .inr hok) (fun _ _ _ _ _ h => h)
    (fun _ _ _ _ _ _ hidle hs => .inr (hidle.resolve_left hs.pc_ne_idle)) h i

end Runs

namespace Sample

/-- Every salt drawn is the same and every reply FIFO can be opened. -/
def choice : Choice := ⟨salt, true⟩

/-- Office `i` takes `k` steps. -/
def steps (i : Fin n) (k : ℕ) : List (Label n) := List.replicate k (.act i choice)

/-- Office `i` is given a request and takes `k` steps. -/
def serve (i : Fin n) (req : TlvRequest) (k : ℕ) : List (Label n) := .give i req :: steps i k

/-- Offices `i` and `j` create accounts 1 and 2 at the same time. -/
def creations (i j : Fin n) : List (Label n) :=
  serve i (create 7 1 100 password₁) 10 ++ serve j (create 8 2 200 password₂) 19 ++ steps i 9

/-- The small bank with `n` idle offices. -/
def start (n : ℕ) (t : Table) : System n := System.start n t emptyReply (shutdown 0)

end Sample

end HomeBanking
