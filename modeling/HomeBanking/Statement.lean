import HomeBanking.Linearization

/-!
# Statements of account

The answers tell what every account holds: its balance is what it held at the
start, with what was opened, received and paid according to the answers. A
transfer that is refused with `RC_TOO_HIGH` counts as paid by its client and as
received by nobody.
-/

namespace HomeBanking

variable {n : ℕ} {sha256sum : CString → CString} {ok : TlvRequest → Prop} {t₀ : Table}
  {salts : Set CString}

/-- What a request that was answered so has moved into the account. -/
def moved (id : UInt32) (e : Outcome) : ℤ :=
  match e.request.type, e.retCode with
  | .createAccount, .ok =>
      if e.request.createId = id then e.request.value.create.balance.toNat else 0
  | .transfer, .ok =>
      (if e.request.transferId = id then (e.request.amount.toNat : ℤ) else 0) -
        if e.request.headerId = id then (e.request.amount.toNat : ℤ) else 0
  | .transfer, .tooHigh => - if e.request.headerId = id then (e.request.amount.toNat : ℤ) else 0
  | _, _ => 0

/-- What the answers have moved into the account. -/
def movedTotal (id : UInt32) (es : Multiset Outcome) : ℤ := (es.map (moved id)).sum

theorem movedTotal_add (id : UInt32) (es es' : Multiset Outcome) :
    movedTotal id (es + es') = movedTotal id es + movedTotal id es' := by
  rw [movedTotal, Multiset.map_add, Multiset.sum_add]
  rfl

theorem movedTotal_singleton (id : UInt32) (e : Outcome) : movedTotal id {e} = moved id e := by
  rw [movedTotal, Multiset.map_singleton, Multiset.sum_singleton]

section Writes

variable {ι : Type} {b : Bank ι} {id j x : UInt32} {a : BankAccount}

theorem entryBalance_setBalance (ha : b.bankAccounts id = some a) :
    (entryBalance ((b.setBalance id x).bankAccounts j) : ℤ) =
      entryBalance (b.bankAccounts j) + if id = j then (x.toNat : ℤ) - a.balance.toNat else 0 := by
  by_cases hj : id = j
  · subst j
    simp [Bank.setBalance_bankAccounts_self, ha]
  · rw [Bank.setBalance_bankAccounts_of_ne _ _ (Ne.symm hj), if_neg hj, add_zero]

theorem InBounds.setBalance (h : InBounds b.bankAccounts) (hid : id ≠ 0)
    (hx : 1 ≤ x.toNat ∧ x.toNat ≤ 1000000000) : InBounds (b.setBalance id x).bankAccounts := by
  intro j a ha
  by_cases hj : j = id
  · subst j
    rw [Bank.setBalance_bankAccounts_self] at ha
    obtain ⟨_, _, rfl⟩ := Option.map_eq_some_iff.mp ha
    exact ⟨fun hzero => absurd hzero hid, fun _ => hx⟩
  · rw [Bank.setBalance_bankAccounts_of_ne _ _ hj] at ha
    exact h j a ha

end Writes

/-- The table after an answer: within the limits, and every account has what the
answer says. -/
structure Booked (t : Table) (e : Outcome) (t' : Table) : Prop where
  inBounds : InBounds t'
  balance : ∀ id, (entryBalance (t' id) : ℤ) = entryBalance (t id) + moved id e

theorem Booked.refused {t : Table} {e : Outcome} (ht : InBounds t)
    (hcode : e.retCode ≠ .ok ∧ e.retCode ≠ .tooHigh) : Booked t e t := by
  refine ⟨ht, fun id => ?_⟩
  have hzero : moved id e = 0 := by
    unfold moved
    split
    · exact absurd ‹_› hcode.1
    · exact absurd ‹_› hcode.1
    · exact absurd ‹_› hcode.2
    · rfl
  rw [hzero, add_zero]

theorem Booked.other {t : Table} {e : Outcome} (ht : InBounds t) {k : OpType}
    (hk : e.request.type = k) (htype : k ≠ .createAccount ∧ k ≠ .transfer) : Booked t e t := by
  refine ⟨ht, fun id => ?_⟩
  rw [← hk] at htype
  have hzero : moved id e = 0 := by
    unfold moved
    split
    · exact absurd ‹_› htype.1
    · exact absurd ‹_› htype.2
    · exact absurd ‹_› htype.2
    · rfl
  rw [hzero, add_zero]

section Exits

variable {ι : Type} {me : ι} {salt : CString} {req : TlvRequest} {w w' : World ι}

theorem CreateExit.booked (ht : req.type = .createAccount) (hr : CreateInRange req)
    (hb : InBounds w.bank.bankAccounts) (h : CreateExit sha256sum salt req w w') :
    Booked w.bank.bankAccounts (outcomeOf req w'.reply) w'.bank.bankAccounts := by
  cases h with
  | notAllowed | inUse => exact .refused hb ⟨nofun, nofun⟩
  | done hadmin hin hnone hf =>
      obtain ⟨hbal, hid⟩ := hr
      refine ⟨fun j a ha => ?_, fun j => ?_⟩
      · by_cases hj : j = req.createId
        · rw [hj, Bank.setAccount_bankAccounts, Function.update_self] at ha
          obtain rfl := Option.some.inj ha
          exact ⟨fun hzero => absurd (hj.symm.trans hzero) (ne_zero_of_one_le hid.1), fun _ => hbal⟩
        · rw [Bank.setAccount_bankAccounts, Function.update_of_ne hj] at ha
          exact hb j a ha
      · have hmoved : moved j (outcomeOf req ((w.reply.setRetCode .ok).setAccountId req.headerId)) =
            if req.createId = j then (req.value.create.balance.toNat : ℤ) else 0 := by
          simp [moved, outcomeOf, ht, TlvReply.setRetCode, TlvReply.setAccountId]
        rw [hmoved, Bank.setAccount_bankAccounts]
        by_cases hj : req.createId = j
        · subst j
          rw [Function.update_self, hnone, if_pos rfl]
          simp [newAccount]
        · rw [Function.update_of_ne (Ne.symm hj), if_neg hj, add_zero]

/-- The debit of a transfer that has the funds. -/
theorem debit_booked {b : Bank ι} (hr : TransferInRange req) (hb : InBounds b.bankAccounts)
    {src dst : BankAccount} (hv : TransferValid req b.bankAccounts src dst)
    (hfunds : ¬ subtractedBalance src.balance req.amount < minBalance) :
    InBounds (b.debit req src).bankAccounts ∧
    ∀ id, (entryBalance ((b.debit req src).bankAccounts id) : ℤ) =
      entryBalance (b.bankAccounts id) -
        if req.headerId = id then (req.amount.toNat : ℤ) else 0 := by
  have hsrc := (hb _ _ hv.source).2 hv.notAdmin
  have hexact := debit_exact hr.1.2 hfunds
  have hint := subtractedBalance_exact hsrc.2 hr.1.2
  rw [lt_minBalance_iff] at hfunds
  refine ⟨hb.setBalance hv.notAdmin (by omega), fun id => ?_⟩
  rw [Bank.debit, entryBalance_setBalance hv.source, hexact]
  split
  · ring
  · ring

/-- The credit of a transfer that has room. -/
theorem credit_booked {b : Bank ι} (hr : TransferInRange req) (hb : InBounds b.bankAccounts)
    {dst : BankAccount} (hdest : b.bankAccounts req.transferId = some dst)
    (hroom : ¬ maxBalance < addedBalance dst.balance req.amount) :
    InBounds (b.credit req dst).bankAccounts ∧
    ∀ id, (entryBalance ((b.credit req dst).bankAccounts id) : ℤ) =
      entryBalance (b.bankAccounts id) +
        if req.transferId = id then (req.amount.toNat : ℤ) else 0 := by
  have hne := ne_zero_of_one_le hr.2.1
  have hdst := (hb _ _ hdest).2 hne
  have hamount := hr.1
  have hexact := credit_exact (b := dst.balance) (a := req.amount) (by omega)
  have hint := addedBalance_exact hdst.2 hr.1.2
  rw [maxBalance_lt_iff] at hroom
  refine ⟨hb.setBalance hne (by omega), fun id => ?_⟩
  rw [Bank.credit, entryBalance_setBalance hdest, hexact]
  split
  · push_cast
    ring
  · rfl

theorem TransferExit.booked (ht : req.type = .transfer) (hr : TransferInRange req)
    (hb : InBounds w.bank.bankAccounts) (h : TransferExit me req w w') :
    Booked w.bank.bankAccounts (outcomeOf req w'.reply) w'.bank.bankAccounts := by
  cases h with
  | notAllowed | notFound | sameId | noFunds => exact .refused hb ⟨nofun, nofun⟩
  | tooHigh src dst hv hf hfunds hhigh =>
      obtain ⟨hin, hdebit⟩ := debit_booked hr hb hv hfunds
      refine ⟨hin, fun id => (hdebit id).trans ?_⟩
      simp [moved, outcomeOf, ht, TlvReply.setRetCode, sub_eq_add_neg]
  | done src dst hv hf hfunds hroom =>
      obtain ⟨hin, hdebit⟩ := debit_booked hr hb hv hfunds
      have hdest : (w.bank.debit req src).bankAccounts req.transferId = some dst :=
        (Bank.setBalance_bankAccounts_of_ne _ _ hv.distinct).trans hv.dest
      obtain ⟨hin', hcredit⟩ := credit_booked hr hin hdest hroom
      refine ⟨hin', fun id => ?_⟩
      rw [hcredit, hdebit]
      simp only [moved, outcomeOf, ht, TlvReply.setRetCode, TlvReply.setInfo]
      ring

theorem Exit.booked (hr : InUserRange req) (hb : InBounds w.bank.bankAccounts)
    (h : Exit sha256sum me salt req w w') :
    Booked w.bank.bankAccounts (outcomeOf req w'.reply) w'.bank.bankAccounts := by
  cases h with
  | loginFail => exact .refused hb ⟨nofun, nofun⟩
  | op w₁ hlogin hop =>
      have hb' : InBounds (begun req w).bank.bankAccounts := hb
      cases hop with
      | create ht hc =>
          have hbooked := hc.booked ht (hr.2.1 ht) hb'
          exact hbooked
      | transfer ht htr =>
          have hbooked := htr.booked ht (hr.2.2 ht) hb'
          exact hbooked
      | balance ht hbal => cases hbal <;> exact .other hb ht ⟨nofun, nofun⟩
      | shutdown ht hs => cases hs <;> exact .other hb ht ⟨nofun, nofun⟩
      | undefined code ht hsame =>
          subst hsame
          exact .other hb ht ⟨nofun, nofun⟩

theorem SerialStepOn.booked {t t' : Table} {e : Outcome} (hr : InUserRange e.request)
    (hb : InBounds t) (h : SerialStepOn sha256sum salts t e t') : Booked t e t' := by
  obtain ⟨salt, -, reply, w', hw, he, rfl⟩ := h
  have hexit := ((processRequest_eq_ok sha256sum () salt e.request).mp hw).2.2
  have hbooked := hexit.booked hr hb
  rwa [he] at hbooked

end Exits

/-- The serial execution keeps the books. -/
theorem serial_booked (hok : ∀ req, ok req → InUserRange req) (hb : InBounds t₀)
    {a : List Outcome × Table} (h : (serialBankOn sha256sum ok salts t₀).Reachable a) :
    InBounds a.2 ∧ ∀ id,
      (entryBalance (a.2 id) : ℤ) =
        entryBalance (t₀ id) + movedTotal id (a.1 : Multiset Outcome) := by
  induction h with
  | init h =>
      obtain rfl := h
      exact ⟨hb, fun id => (add_zero _).symm⟩
  | step _ hs ih =>
      obtain ⟨hr, hstep, hlist⟩ := hs
      have hbooked := hstep.booked (hok _ hr) ih.1
      refine ⟨hbooked.inBounds, fun id => ?_⟩
      rw [hbooked.balance id, ih.2 id, hlist, ← Multiset.coe_add, movedTotal_add,
        Multiset.coe_singleton, movedTotal_singleton, add_assoc]

/-- Every account has what the requests that have taken effect have moved into it. -/
theorem entryBalance_effects (hok : ∀ req, ok req → InUserRange req) (hb : InBounds t₀)
    {s : System n} (h : (withoutOverlaps sha256sum ok t₀ n).Reachable s)
    (hquiet : ∀ i, ¬ (s.pc i).accessing) (id : UInt32) :
    (entryBalance (s.table id) : ℤ) = entryBalance (t₀ id) + movedTotal id s.effects := by
  have hsalted : (saltedRuns sha256sum ok Set.univ t₀ n).Reachable s :=
    h.guard_mono fun _ l hfree => ⟨hfree, by cases l <;> trivial⟩
  obtain ⟨⟨order, t⟩, hserial, horder, hl⟩ :=
    (effect_simulation fun _ hr => (hok _ hr).inArray).reachable hsalted
  rw [hl.table_eq hquiet, (serial_booked hok hb hserial).2 id]
  exact congrArg _ (congrArg _ horder)

/-- With all offices idle the requests that have taken effect have returned. -/
theorem effects_of_idle {s : System n} (hidle : ∀ i, s.pc i = .idle) :
    s.effects = (s.trace.map fun e => returnedOutcome e.2).sum := by
  have hnothing : s.sum effective = 0 :=
    s.sum_eq_zero _ fun i => effective_idle _ (hidle i)
  rw [System.effects, System.tally, hnothing, zero_add]

/-- In every run from accounts within their limits, on requests of the user program
with ids inside the array, in which creations of one id do not overlap, at every
point at which no transfer is between its first and its last access: every
account holds what it held at the start and what the requests that have taken
effect have moved into it. Once all offices are idle these are the requests that
have returned. -/
theorem account_statement (hb : InBounds t₀) {s : System n}
    (h : (withoutOverlaps sha256sum InUserRange t₀ n).Reachable s)
    (hquiet : ∀ i, ¬ (s.pc i).accessing) :
    (∀ id, (entryBalance (s.table id) : ℤ) = entryBalance (t₀ id) + movedTotal id s.effects) ∧
    ((∀ i, s.pc i = .idle) →
      s.effects = (s.trace.map fun e => returnedOutcome e.2).sum) :=
  ⟨entryBalance_effects (fun _ hr => hr) hb h hquiet, effects_of_idle⟩

theorem inBounds_adminTable (salt adminPassword : CString) :
    InBounds (adminTable sha256sum salt adminPassword) := by
  intro id a ha
  by_cases hid : id = adminAccountId
  · rw [hid, adminTable, Function.update_self] at ha
    obtain rfl := Option.some.inj ha
    exact ⟨fun _ => rfl, fun hne => absurd hid hne⟩
  · rw [adminTable, Function.update_of_ne hid] at ha
    cases ha

/-- Account 1 is opened with 100, while account 2 is created, and pays 30. -/
theorem account_statement_pays : ∃ s : System 2,
    (withoutOverlaps Sample.sha256sum InUserRange Sample.adminOnly 2).Reachable s ∧
    (s.trace.map fun e => returnedOutcome e.2).sum =
      {⟨Sample.create 7 1 100 Sample.password₁, .ok, none⟩,
        ⟨Sample.create 8 2 200 Sample.password₂, .ok, none⟩, ⟨Sample.transfer 9 30, .ok, none⟩} ∧
    (entryBalance (s.table 1) : ℤ) = 0 + (100 + (0 + (0 - 30))) := by
  obtain ⟨s, hs, hf⟩ : ∃ s : System 2,
      (withoutOverlaps Sample.sha256sum InUserRange Sample.adminOnly 2).Reachable s ∧
      (decide (∀ i, s.pc i = .idle), (s.trace.map fun e => returnedOutcome e.2).sum) =
        (true, {⟨Sample.create 7 1 100 Sample.password₁, .ok, none⟩,
          ⟨Sample.create 8 2 200 Sample.password₂, .ok, none⟩,
          ⟨Sample.transfer 9 30, .ok, none⟩}) :=
    guarded_execute (C := fun s l => !s.creationOverlaps l && l.allowed InUserRange)
      (fun s l h => by
        simp only [Bool.and_eq_true, Bool.not_eq_true'] at h
        exact ⟨h.1, Label.ok_of_allowed h.2⟩)
      Sample.emptyReply (Sample.shutdown 0)
      (Sample.creations 0 1 ++ Sample.serve 1 (Sample.transfer 9 30) 25) (by decide +kernel)
  obtain ⟨hidle, houtcomes⟩ := Prod.mk.inj hf
  have hidle := of_decide_eq_true hidle
  obtain ⟨hbalance, heffects⟩ := account_statement
    (inBounds_adminTable Sample.salt Sample.adminPassword) hs fun i => by
      rw [hidle i]
      decide
  refine ⟨s, hs, houtcomes, ?_⟩
  rw [hbalance 1, heffects hidle, houtcomes]
  rfl

end HomeBanking
