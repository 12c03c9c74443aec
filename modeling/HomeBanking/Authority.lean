import HomeBanking.Admission
import HomeBanking.Serial

/-!
# Who may change the bank, and who learns what

Whatever requests arrive and however the steps of the offices interleave: an
account that exists at the start keeps its digest and its salt, its balance
sinks only in a transfer of a client who gives its password, and accounts are
added and the server is shut down only for clients who give the password of the
administrator. As long as nobody logs in to an account and nobody transfers to
it, no answer depends on what it holds.
-/

namespace HomeBanking

variable {n : ℕ} {sha256sum : CString → CString} {ok : TlvRequest → Prop} {t₀ : Table}

/-- What stays true of an account that exists at the start. -/
structure Kept (sha256sum : CString → CString) (id : UInt32) (a : BankAccount) (s : System n) :
    Prop where
  account : ∃ x, s.table id = some { a with balance := x }
  noCreation : ∀ i, creationPending id (s.pc i) = false
  admitted : ∀ i, (s.requests i).headerId = id →
    Admitted sha256sum s.table (s.requests i) (s.pc i)

section Steps

variable {id : UInt32} {a : BankAccount} {s : System n} {i : Fin n}

/-- An office behind the login of the account serves a client who knows its password. -/
theorem Kept.authentic (h : Kept sha256sum id a s) (hid : (s.requests i).headerId = id)
    (hpc : (s.pc i).admitted = true) : Authentic sha256sum id a (s.requests i) := by
  obtain ⟨x, hx⟩ := h.account
  obtain ⟨a', ha', hmatch⟩ := loginOk_eq_true.mp ((h.admitted i hid).passed hpc).2
  rw [hid, hx] at ha'
  obtain rfl := Option.some.inj ha'
  exact ⟨hid, hmatch⟩

variable {choice : Choice} {act : Action} {b : Bank (Fin n)} {o : Office}

/-- No office fills the slot of the account. -/
theorem Kept.ne_setAccount (h : Kept sha256sum id a s)
    (hstep : OfficeStep sha256sum choice (s.requests i) s.bank (s.offices i) act o)
    (a' : BankAccount) : act ≠ .setAccount id a' := by
  rintro rfl
  have hpending := (hstep.of_setAccount id).1
  rw [show creationPending id (s.offices i).pc = false from h.noCreation i] at hpending
  simp at hpending

theorem Kept.perform (h : Kept sha256sum id a s)
    (hv : Valid s.table (s.requests i) (s.pc i))
    (hstep : OfficeStep sha256sum choice (s.requests i) s.bank (s.offices i) act o)
    (hb : s.bank.apply i act = some b) : Kept sha256sum id a (s.perform i act b o) := by
  have hkeeps : KeepsAccount id s.table b.bankAccounts :=
    keepsAccount_of_apply hb (h.ne_setAccount hstep)
  obtain ⟨x, hx⟩ := h.account
  obtain ⟨y, hy⟩ := hkeeps _ hx
  refine ⟨⟨y, hy⟩, fun j => ?_, fun j hj => ?_⟩
  · by_cases hji : j = i
    · subst j
      rw [System.perform_pc_self, ← Bool.not_eq_true]
      intro hp
      rcases hstep.creationPending hp with hbefore | ⟨-, -, hnone, hid⟩
      · rw [show creationPending id (s.offices i).pc = false from h.noCreation i] at hbefore
        cases hbefore
      · rw [hid] at hnone
        cases hx.symm.trans hnone
    · rw [System.perform_pc_of_ne _ _ _ _ hji]
      exact h.noCreation j
  · rw [System.perform_requests] at hj
    subst hj
    exact admitted_perform hstep hv (h.admitted j rfl) hkeeps

theorem Kept.give (h : Kept sha256sum id a s) (i : Fin n) (req : TlvRequest) :
    Kept sha256sum id a (s.give i req) := by
  refine ⟨h.account, fun j => ?_, fun j hj => ?_⟩
  · by_cases hji : j = i
    · subst j
      rw [System.give_pc_self]
      rfl
    · rw [System.give_pc_of_ne _ _ hji]
      exact h.noCreation j
  · by_cases hji : j = i
    · subst j
      rw [System.give_pc_self]
      exact fun hpc => by cases hpc
    · rw [System.give_requests_of_ne _ _ hji] at hj
      simpa [hji] using h.admitted j hj

theorem kept (ha : t₀ id = some a) (h : (bankOffices sha256sum ok t₀ n).Reachable s) :
    Kept sha256sum id a s := by
  refine h.invariant (I := Kept sha256sum id a) ?_ ?_
  · intro s hs
    refine ⟨⟨a.balance, ?_⟩, fun i => ?_, fun i _ => ?_⟩
    · rw [System.table, hs.1]
      exact ha
    · rw [hs.2.1 i]
      rfl
    · rw [hs.2.1 i]
      exact fun hpc => by cases hpc
  · intro s l s' hr ih hs
    rcases bankOffices_step_cases hs with ⟨i, req, -, -, -, rfl⟩ |
      ⟨i, choice, act, b, o, -, hstep, hb, rfl⟩
    · exact ih.give i req
    · exact ih.perform (valid hr i) hstep hb

end Steps

section Balances

variable {id : UInt32} {a : BankAccount} {s : System n}

/-- Transfers move no more than an account may hold. -/
def AmountsWithin (ok : TlvRequest → Prop) : Prop :=
  ∀ req, ok req → req.type = .transfer → req.amount.toNat ≤ 1000000000

/-- A step that stores a balance of the account lowers it by the amount of a
transfer of its owner, or raises it by the amount of a transfer to it. -/
theorem OfficeStep.write_authentic {choice : Choice} {i : Fin n} {x y : UInt32} {o : Office}
    (hstep : OfficeStep sha256sum choice (s.requests i) s.bank (s.offices i)
      (.setBalance id y) o)
    (hk : Kept sha256sum id a s) (hv : Valid s.table (s.requests i) (s.pc i))
    (hf : Fresh s.table (s.requests i) (s.pc i))
    (hok : (s.requests i).type = .transfer → (s.requests i).amount.toNat ≤ 1000000000)
    (hx : s.table id = some { a with balance := x }) (hmax : x.toNat ≤ 1000000000) :
    (s.requests i).type = .transfer ∧ y.toNat ≤ 1000000000 ∧
      (x.toNat = y.toNat + (s.requests i).amount.toNat ∧
          Authentic sha256sum id a (s.requests i) ∨
        y.toNat = x.toNat + (s.requests i).amount.toNat ∧ (s.requests i).transferId = id) := by
  have hauth := hk.authentic (i := i)
  rw [show s.pc i = (s.offices i).pc from rfl] at hv hf hauth
  generalize s.offices i = office at hstep hv hf hauth
  cases hstep with
  | subtractWrite id' _ x' r =>
      obtain ⟨hp, -, rfl⟩ := hv
      obtain ⟨src, hsrc, rfl, hfunds⟩ := hf
      obtain rfl := Option.some.inj (hx.symm.trans hsrc)
      have hamount := hok hp.type
      have hexact := debit_exact hamount hfunds
      have hint := subtractedBalance_exact hmax hamount
      rw [lt_minBalance_iff] at hfunds
      simp only at hexact hfunds ⊢
      exact ⟨hp.type, by omega, .inl ⟨by omega, hauth rfl rfl⟩⟩
  | addWrite id' _ x' r =>
      obtain ⟨hp, -, rfl⟩ := hv
      obtain ⟨dst, hdst, rfl, hroom⟩ := hf
      obtain rfl := Option.some.inj (hx.symm.trans hdst)
      have hamount := hok hp.type
      have hexact := credit_exact (b := x) (a := (s.requests i).amount) (by omega)
      have hint := addedBalance_exact hmax hamount
      rw [maxBalance_lt_iff] at hroom
      simp only at hint hroom ⊢
      exact ⟨hp.type, by omega, .inr ⟨hexact, trivial⟩⟩

/-- A step changes the balance of an account only by a transfer of its owner or to it. -/
theorem balance_step (hok : AmountsWithin ok) (ha : t₀ id = some a)
    (h : (bankOffices sha256sum ok t₀ n).Reachable s) {l : Label n} {s' : System n}
    (hs : (bankOffices sha256sum ok t₀ n).step s l s') {x : UInt32}
    (hx : s.table id = some { a with balance := x }) (hmax : x.toNat ≤ 1000000000) :
    ∃ y, s'.table id = some { a with balance := y } ∧ y.toNat ≤ 1000000000 ∧
      (y = x ∨ ∃ i choice, l = .act i choice ∧ (s.requests i).type = .transfer ∧
        (x.toNat = y.toNat + (s.requests i).amount.toNat ∧
            Authentic sha256sum id a (s.requests i) ∨
          y.toNat = x.toNat + (s.requests i).amount.toNat ∧ (s.requests i).transferId = id)) := by
  rcases bankOffices_step_cases hs with ⟨i, req, -, -, -, rfl⟩ |
    ⟨i, choice, act, b, o, rfl, hstep, hb, rfl⟩
  · exact ⟨x, hx, hmax, .inl rfl⟩
  by_cases hw : id ∈ act.writes
  · cases act with
    | setBalance j y =>
        obtain rfl : id = j := by simpa [Action.writes] using hw
        have hreq := (ok_request h i).resolve_left hstep.pc_ne_idle
        obtain ⟨ht, hy, hmove⟩ :=
          hstep.write_authentic (kept ha h) (valid h i) (fresh h i) (hok _ hreq) hx hmax
        cases hb
        refine ⟨y, ?_, hy, .inr ⟨i, choice, rfl, ht, hmove⟩⟩
        rw [System.perform_table, Bank.setBalance_bankAccounts_self]
        exact congrArg _ hx
    | setAccount j a' =>
        obtain rfl : id = j := by simpa [Action.writes] using hw
        exact absurd rfl ((kept ha h).ne_setAccount hstep a')
    | _ => simp [Action.writes] at hw
  · exact ⟨x, (apply_eq_of_notMem_writes hb hw).trans hx, hmax, .inl rfl⟩

theorem balance_le (hok : AmountsWithin ok) (ha : t₀ id = some a)
    (hmax : a.balance.toNat ≤ 1000000000) (h : (bankOffices sha256sum ok t₀ n).Reachable s) :
    ∃ x, s.table id = some { a with balance := x } ∧ x.toNat ≤ 1000000000 := by
  refine h.invariant (I := fun s : System n =>
    ∃ x, s.table id = some { a with balance := x } ∧ x.toNat ≤ 1000000000) ?_ ?_
  · intro s hs
    refine ⟨a.balance, ?_, hmax⟩
    rw [System.table, hs.1]
    exact ha
  · rintro s l s' hr ⟨x, hx, hle⟩ hs
    obtain ⟨y, hy, hle', -⟩ := balance_step hok ha hr hs hx hle
    exact ⟨y, hy, hle'⟩

/-- The balance of an account of the start sinks only by transfers of clients who
give its id and its password; its digest and its salt do not change. -/
theorem lowered_by_owner (hok : AmountsWithin ok) (ha : t₀ id = some a)
    (hmax : a.balance.toNat ≤ 1000000000) (h : (bankOffices sha256sum ok t₀ n).Reachable s)
    {s' : System n} (hr : (bankOffices sha256sum ok t₀ n).Reaches s s') :
    ∃ x y, s.table id = some { a with balance := x } ∧
      s'.table id = some { a with balance := y } ∧
      (y.toNat < x.toNat → ∃ u i choice u', (bankOffices sha256sum ok t₀ n).Reaches s u ∧
        (bankOffices sha256sum ok t₀ n).step u (.act i choice) u' ∧
        (bankOffices sha256sum ok t₀ n).Reaches u' s' ∧
        (u.requests i).type = .transfer ∧ Authentic sha256sum id a (u.requests i)) := by
  obtain ⟨x, hx, -⟩ := balance_le hok ha hmax h
  obtain ⟨y, hy, -⟩ := balance_le hok ha hmax (h.trans hr)
  refine ⟨x, y, hx, hy, fun hlt => ?_⟩
  obtain ⟨u, l, u', hsu, hstep, hus, hbefore, hafter⟩ := hr.exists_step
    (P := fun u : System n => ∃ z, u.table id = some { a with balance := z } ∧ z.toNat < x.toNat)
    (by
      rintro ⟨z, hz, hlow⟩
      cases hx.symm.trans hz
      exact lt_irrefl _ hlow)
    ⟨y, hy, hlt⟩
  have hu := h.trans hsu
  obtain ⟨v, hv, hle⟩ := balance_le hok ha hmax hu
  obtain ⟨w, hw, -, hmove⟩ := balance_step hok ha hu hstep hv hle
  have hnot : ¬ v.toNat < x.toNat := fun hlow => hbefore ⟨v, hv, hlow⟩
  obtain ⟨z, hz, hlow⟩ := hafter
  cases hw.symm.trans hz
  obtain rfl | ⟨i, choice, rfl, ht, hmove⟩ := hmove
  · exact absurd hlow hnot
  · rcases hmove with ⟨-, hauth⟩ | ⟨hcredit, -⟩
    · exact ⟨u, i, choice, u', hsu, hstep, hus, ht, hauth⟩
    · omega

end Balances

/-- Account 1 pays 50 while another office works on a transfer of 20 from it. -/
theorem lowered_by_owner_fifty : ∃ (s s' u : System 2) (i : Fin 2),
    s.table 1 = some (newAccount Sample.sha256sum Sample.salt 1 100 Sample.password₁) ∧
    s'.table 1 = some (newAccount Sample.sha256sum Sample.salt 1 50 Sample.password₁) ∧
    (bankOffices Sample.sha256sum InUserRange (Sample.twoAccounts 100 200) 2).Reaches u s' ∧
    Authentic Sample.sha256sum 1
      (newAccount Sample.sha256sum Sample.salt 1 100 Sample.password₁) (u.requests i) := by
  obtain ⟨s, s', hs, hr, hx, hy⟩ : ∃ s s' : System 2,
      (bankOffices Sample.sha256sum InUserRange (Sample.twoAccounts 100 200) 2).Reachable s ∧
      (bankOffices Sample.sha256sum InUserRange (Sample.twoAccounts 100 200) 2).Reaches s s' ∧
      s.table 1 = some (newAccount Sample.sha256sum Sample.salt 1 100 Sample.password₁) ∧
      s'.table 1 = some (newAccount Sample.sha256sum Sample.salt 1 50 Sample.password₁) :=
    execute_reaches Sample.emptyReply (Sample.shutdown 0) (Sample.serve 1 (Sample.transfer 10 20) 9)
      (Sample.serve 0 (Sample.transfer 9 50) 18 ++ Sample.steps 1 2) (by decide +kernel)
  obtain ⟨x, y, hx', hy', hlow⟩ := lowered_by_owner
    (show AmountsWithin InUserRange from fun _ hreq ht => (hreq.2.2 ht).1.2)
    (show Sample.twoAccounts 100 200 1 =
      some (newAccount Sample.sha256sum Sample.salt 1 100 Sample.password₁) from rfl)
    (by decide) hs hr
  rw [hx] at hx'
  rw [hy] at hy'
  obtain rfl : 100 = x := congrArg BankAccount.balance (Option.some.inj hx')
  obtain rfl : 50 = y := congrArg BankAccount.balance (Option.some.inj hy')
  obtain ⟨u, i, choice, u', -, hstep, hus, -, hauth⟩ := hlow (by decide)
  exact ⟨s, s', u, i, hx, hy, Relation.ReflTransGen.head ⟨_, hstep⟩ hus, hauth⟩

section Privileges

variable {adm : BankAccount} {s : System n}

/-- The accounts there are and the flags that a shutdown sets. -/
def System.privileged (s : System n) : (UInt32 → Bool) × Bool × Bool :=
  (fun id => (s.table id).isSome, s.bank.fifoReadOnly, s.bank.serverDown)

/-- Only the steps of creations and shutdowns change what is privileged. -/
theorem OfficeStep.privileged {choice : Choice} {i : Fin n} {act : Action} {b : Bank (Fin n)}
    {o : Office} (hstep : OfficeStep sha256sum choice (s.requests i) s.bank (s.offices i) act o)
    (hv : Valid s.table (s.requests i) (s.pc i)) (hb : s.bank.apply i act = some b)
    (hne : (s.perform i act b o).privileged ≠ s.privileged) :
    (s.pc i).admitted = true ∧ (s.requests i).headerId = 0 ∧
      ((s.requests i).type = .createAccount ∨ (s.requests i).type = .shutdown) := by
  have hsame : (∀ id a, act ≠ .setAccount id a) → b.fifoReadOnly = s.bank.fifoReadOnly →
      b.serverDown = s.bank.serverDown → (s.perform i act b o).privileged = s.privileged := by
    intro hset hread hdown
    have hslots := funext fun id => apply_isSome_eq hb hset id
    simp only [System.privileged, System.perform_table, System.perform_bank, hslots, hread, hdown]
  rw [show s.pc i = (s.offices i).pc from rfl] at hv ⊢
  generalize s.offices i = office at hstep hv
  cases hstep with
  | createWrite => exact ⟨rfl, hv.2.2.1, .inl hv.1⟩
  | shutdownChmod | shutdownSet => exact ⟨rfl, hv.2, .inr hv.1⟩
  | _ =>
      refine absurd (hsame (fun _ _ => by simp) ?_ ?_) hne
      all_goals
        simp only [Bank.apply, Option.ite_none_right_eq_some, Option.some.injEq] at hb
        first
          | obtain rfl := hb; rfl
          | obtain ⟨-, rfl⟩ := hb; rfl

/-- Accounts are added, and the shutdown flags are set, only for clients who give
the id and the password of the administrator. -/
theorem privileged_by_admin (ha : t₀ adminAccountId = some adm)
    (h : (bankOffices sha256sum ok t₀ n).Reachable s) {s' : System n}
    (hr : (bankOffices sha256sum ok t₀ n).Reaches s s') (hne : s'.privileged ≠ s.privileged) :
    ∃ u i choice u', (bankOffices sha256sum ok t₀ n).Reaches s u ∧
      (bankOffices sha256sum ok t₀ n).step u (.act i choice) u' ∧
      (bankOffices sha256sum ok t₀ n).Reaches u' s' ∧
      ((u.requests i).type = .createAccount ∨ (u.requests i).type = .shutdown) ∧
      Authentic sha256sum adminAccountId adm (u.requests i) := by
  obtain ⟨u, l, u', hsu, hstep, hus, hbefore, hafter⟩ := hr.exists_step
    (P := fun u : System n => u.privileged ≠ s.privileged) (not_not.mpr rfl) hne
  have hu := h.trans hsu
  rcases bankOffices_step_cases hstep with ⟨i, req, -, -, -, rfl⟩ |
    ⟨i, choice, act, b, o, rfl, hoffice, hb, rfl⟩
  · exact absurd hafter hbefore
  · obtain ⟨hpc, hadmin, ht⟩ := hoffice.privileged (valid hu i) hb
      fun hsame => hafter (hsame.trans (not_not.mp hbefore))
    exact ⟨u, i, choice, _, hsu, hstep, hus, ht, (kept ha hu).authentic hadmin hpc⟩

end Privileges

/-- The administrator creates account 1 while another office checks a login to it. -/
theorem privileged_by_admin_create : ∃ (s s' u : System 2) (i : Fin 2),
    s.table 1 = none ∧ (s'.table 1).isSome ∧
    (bankOffices Sample.sha256sum (fun _ => True) Sample.adminOnly 2).Reaches u s' ∧
    Authentic Sample.sha256sum adminAccountId
      (newAccount Sample.sha256sum Sample.salt 0 0 Sample.adminPassword) (u.requests i) := by
  obtain ⟨s, s', hs, hr, hx, hy⟩ : ∃ s s' : System 2,
      (bankOffices Sample.sha256sum (fun _ => True) Sample.adminOnly 2).Reachable s ∧
      (bankOffices Sample.sha256sum (fun _ => True) Sample.adminOnly 2).Reaches s s' ∧
      s.table 1 = none ∧ (s'.table 1).isSome = true :=
    execute_reaches Sample.emptyReply (Sample.shutdown 0) (Sample.serve 1 (Sample.balance 9) 4)
      (Sample.serve 0 (Sample.create 7 1 100 Sample.password₁) 11 ++ Sample.steps 1 3)
      (by decide +kernel)
  have hne : s'.privileged ≠ s.privileged := by
    intro heq
    have hslot := congrFun (congrArg Prod.fst heq) 1
    simp only [System.privileged, hx, hy] at hslot
    cases hslot
  obtain ⟨u, i, choice, u', -, hstep, hus, -, hauth⟩ := privileged_by_admin
    (show Sample.adminOnly adminAccountId =
      some (newAccount Sample.sha256sum Sample.salt 0 0 Sample.adminPassword) from rfl) hs hr hne
  exact ⟨s, s', u, i, hx, hy, Relation.ReflTransGen.head ⟨_, hstep⟩ hus, hauth⟩

section Secrecy

/-- The same state, but for what the account `id` holds. -/
def System.holding (s : System n) (id x : UInt32) : System n :=
  { s with bank := s.bank.setBalance id x }

/-- The step does not look at what the account holds. -/
def BlindTo (id : UInt32) (req : TlvRequest) : Pc → Prop
  | .balanceRead | .subtractRead _ => req.headerId ≠ id
  | .addRead _ => req.transferId ≠ id
  | .transferReport j => j ≠ id
  | _ => True

section Steps

variable {b : Bank (Fin n)} {o : Office} {id j x : UInt32} {choice : Choice} {req : TlvRequest}

theorem withEntry_setBalance {k : Option BankAccount → Action × Office}
    (hk : ∀ a, k (some { a with balance := x }) = k (some a)) :
    o.withEntry (b.setBalance id x).bankAccounts j k = o.withEntry b.bankAccounts j k := by
  by_cases hj : j = id
  · subst j
    rw [Office.withEntry, Bank.setBalance_bankAccounts_self]
    cases ht : b.bankAccounts id with
    | none => rw [Office.withEntry, ht]; rfl
    | some a => rw [Office.withEntry, ht, Option.map_some, hk]
  · rw [Office.withEntry, Bank.setBalance_bankAccounts_of_ne _ _ hj]
    rfl

theorem withAccount_setBalance {k : BankAccount → Action × Office}
    (hk : ∀ a, k { a with balance := x } = k a) :
    o.withAccount (b.setBalance id x).bankAccounts j k = o.withAccount b.bankAccounts j k :=
  withEntry_setBalance hk

theorem withAccount_setBalance_of_ne {k : BankAccount → Action × Office} (hj : j ≠ id) :
    o.withAccount (b.setBalance id x).bankAccounts j k = o.withAccount b.bankAccounts j k := by
  rw [Office.withAccount, Office.withEntry, Bank.setBalance_bankAccounts_of_ne _ _ hj]
  rfl

/-- A step that does not look at the balance of the account goes on in the same way. -/
theorem officeStep_setBalance (hblind : BlindTo id req o.pc) :
    officeStep sha256sum choice req (b.setBalance id x) o =
      officeStep sha256sum choice req b o := by
  obtain ⟨pc, r⟩ := o
  cases pc with
  | login => exact congrArg some (withEntry_setBalance fun _ => rfl)
  | loginHash | loginCompare | subtractWrite | addWrite =>
      exact congrArg some (withAccount_setBalance fun _ => rfl)
  | balanceRead | subtractRead | addRead | transferReport =>
      exact congrArg some (withAccount_setBalance_of_ne hblind)
  | createCheck =>
      simp only [officeStep, validateCreate]
      rw [withEntry_setBalance fun _ => rfl]
  | transferCheck =>
      simp only [officeStep, validateTransfer]
      rw [withEntry_setBalance fun _ => rfl]
  | activeUnlock c => cases c <;> rfl
  | replyWrite pid => cases pid <;> rfl
  | _ => rfl

/-- An action that does not write the account does the same whatever it holds. -/
theorem apply_setBalance {i : Fin n} {act : Action} (hw : id ∉ act.writes) :
    (b.setBalance id x).apply i act = (b.apply i act).map fun b' => b'.setBalance id x := by
  cases act with
  | lock j =>
      by_cases hfree : (b.mutex j).isNone
      · simp only [Bank.apply, Bank.setBalance_mutex, hfree, if_true, Option.map_some]
        rfl
      · simp [Bank.apply, hfree]
  | lockActive =>
      by_cases hfree : b.activeMutex.isNone
      · simp only [Bank.apply, Bank.setBalance_activeMutex, hfree, if_true, Option.map_some]
        rfl
      · simp [Bank.apply, hfree]
  | setBalance j y =>
      have hne : id ≠ j := by simpa [Action.writes] using hw
      simp only [Bank.apply, Option.map_some, Bank.setBalance, Function.update_of_ne hne,
        Function.update_of_ne hne.symm, Function.update_comm hne]
  | setAccount j a =>
      have hne : id ≠ j := by simpa [Action.writes] using hw
      simp only [Bank.apply, Option.map_some, Bank.setBalance, Bank.setAccount,
        Function.update_of_ne hne, Function.update_comm hne]
  | _ => rfl

end Steps

variable {id x : UInt32} {a : BankAccount} {s : System n}

/-- Nobody logs in to the account and nobody transfers to it. -/
def Untouched (sha256sum : CString → CString) (id : UInt32) (a : BankAccount)
    (ok : TlvRequest → Prop) : Prop :=
  ∀ req, ok req → ¬ Authentic sha256sum id a req ∧ (req.type = .transfer → req.transferId ≠ id)

section Runs

variable (hok : Untouched sha256sum id a ok)
  (h : (bankOffices sha256sum ok t₀ n).Reachable s)
include hok h

theorem transferId_ne_of_untouched {i : Fin n} (ht : (s.requests i).type = .transfer)
    (hbusy : s.pc i ≠ .idle) : (s.requests i).transferId ≠ id :=
  (hok _ ((ok_request h i).resolve_left hbusy)).2 ht

variable (ha : t₀ id = some a)
include ha

/-- No office gets past the login of an untouched account. -/
theorem headerId_ne_of_untouched {i : Fin n} (hpc : (s.pc i).admitted = true) :
    (s.requests i).headerId ≠ id := by
  intro hid
  have hbusy : s.pc i ≠ .idle := by
    rintro hidle
    rw [hidle] at hpc
    cases hpc
  have hreq := (ok_request h i).resolve_left hbusy
  exact (hok _ hreq).1 ((kept ha h).authentic hid hpc)

/-- The offices do not look at what an untouched account holds. -/
theorem blindTo (i : Fin n) : BlindTo id (s.requests i) (s.pc i) := by
  have howner := headerId_ne_of_untouched hok h ha (i := i)
  have hdest := transferId_ne_of_untouched hok h (i := i)
  have hv := valid h i
  cases hpc : s.pc i with
  | balanceRead | subtractRead =>
      rw [hpc] at howner
      exact howner rfl
  | addRead =>
      rw [hpc] at hdest hv
      exact hdest hv.1.type fun hidle => by cases hidle
  | transferReport =>
      rw [hpc] at howner hv
      exact hv.2 ▸ howner rfl
  | _ => trivial

/-- The offices do not write an untouched account. -/
theorem OfficeStep.notMem_writes {i : Fin n} {choice : Choice} {act : Action} {o : Office}
    (hstep : OfficeStep sha256sum choice (s.requests i) s.bank (s.offices i) act o) :
    id ∉ act.writes := by
  have howner := headerId_ne_of_untouched hok h ha (i := i)
  have hdest := transferId_ne_of_untouched hok h (i := i)
  have hset := (kept ha h).ne_setAccount hstep
  have hv := HomeBanking.valid h i
  rw [show s.pc i = (s.offices i).pc from rfl] at howner hdest hv
  generalize s.offices i = office at hstep howner hdest hv
  intro hw
  cases hstep with
  | subtractWrite =>
      rw [Action.writes, hv.2.2, Finset.mem_singleton] at hw
      exact howner rfl hw.symm
  | addWrite =>
      rw [Action.writes, hv.2.2, Finset.mem_singleton] at hw
      exact hdest hv.1.type (fun hidle => by cases hidle) hw.symm
  | createWrite c =>
      obtain rfl : id = c.accountId := by simpa [Action.writes] using hw
      exact hset _ rfl
  | _ => simp [Action.writes] at hw

/-- Every step commutes with a change of what an untouched account holds. -/
theorem next_holding (l : Label n) :
    (s.holding id x).next sha256sum l = (s.next sha256sum l).map fun s' => s'.holding id x := by
  cases l with
  | give i req =>
      simp only [System.next]
      by_cases hidle : s.pc i = .idle
      · rw [if_pos hidle, if_pos (by exact hidle)]
        rfl
      · rw [if_neg hidle, if_neg (by exact hidle)]
        rfl
  | act i choice =>
      have hsame : officeStep sha256sum choice (s.requests i) (s.bank.setBalance id x)
          (s.offices i) = officeStep sha256sum choice (s.requests i) s.bank (s.offices i) :=
        officeStep_setBalance (blindTo hok h ha i)
      simp only [System.next, System.holding, hsame]
      cases hstep : officeStep sha256sum choice (s.requests i) s.bank (s.offices i) with
      | none => rfl
      | some p =>
          obtain ⟨act, o⟩ := p
          have hw := (officeStep_cases _ _ _ _ hstep).notMem_writes hok h ha
          simp only [Option.bind_some, apply_setBalance hw, Option.map_map]
          rfl

end Runs

/-- What nobody logs in to and nobody transfers to is not seen: on any schedule
the offices do the same whatever the account holds, and in the end it holds
what it held at the start. -/
theorem balance_secret (hok : Untouched sha256sum id a ok) (ha : t₀ id = some a)
    (reply : TlvReply) (req : TlvRequest) {ls : List (Label n)}
    (hls : ∀ i req, Label.give i req ∈ ls → ok req) (x : UInt32) :
    LTS.execute (System.next sha256sum) (System.start n
        (Function.update t₀ id (some { a with balance := x })) reply req) ls =
      (LTS.execute (System.next sha256sum) (System.start n t₀ reply req) ls).map
        fun s => s.holding id x := by
  have hstart : System.start n (Function.update t₀ id (some { a with balance := x })) reply req =
      (System.start n t₀ reply req).holding id x := by
    simp only [System.start, System.holding, Bank.idle, Bank.setBalance, ha, Option.map_some]
  rw [hstart]
  exact LTS.execute_map (I := (bankOffices sha256sum ok t₀ n).Reachable)
    (P := fun l => ∀ i req, l = .give i req → ok req)
    (fun s l h _ => next_holding hok h ha l) (fun s l s' h hl hs => h.step ⟨hs, hl⟩)
    (.init ⟨rfl, fun _ => rfl, rfl⟩) fun l hl i req heq => hls i req (heq ▸ hl)

end Secrecy

/-- A balance check of account 2 with the password of account 1. -/
def Sample.guess (pid : UInt32) : TlvRequest :=
  ⟨.balance, 33, ⟨⟨pid, 2, password₁, 0⟩, ⟨0, 0, []⟩⟩⟩

/-- Account 1 checks its balance while somebody tries the wrong password on
account 2, which may as well hold 500. -/
theorem balance_secret_two : ∃ s s' : System 2,
    LTS.execute (System.next Sample.sha256sum) (System.start 2
      (Function.update (Sample.twoAccounts 100 200) 2
        (some { newAccount Sample.sha256sum Sample.salt 2 200 Sample.password₂ with
          balance := 500 }))
      Sample.emptyReply (Sample.shutdown 0))
      (Sample.serve 0 (Sample.balance 9) 10 ++ Sample.serve 1 (Sample.guess 10) 10 ++
        Sample.steps 0 9) = some s' ∧
    s'.trace = s.trace ∧ s.trace.length = 29 ∧ ∀ i, s.pc i = .idle := by
  obtain ⟨s, hs, hf⟩ : ∃ s : System 2, LTS.execute (System.next Sample.sha256sum)
      (System.start 2 (Sample.twoAccounts 100 200) Sample.emptyReply (Sample.shutdown 0))
      (Sample.serve 0 (Sample.balance 9) 10 ++ Sample.serve 1 (Sample.guess 10) 10 ++
        Sample.steps 0 9) = some s ∧
      (s.trace.length, decide (∀ i, s.pc i = .idle)) = (29, true) :=
    Option.map_eq_some_iff.mp (by decide +kernel)
  obtain ⟨hlength, hidle⟩ := Prod.mk.inj hf
  have huntouched : Untouched Sample.sha256sum 2
      (newAccount Sample.sha256sum Sample.salt 2 200 Sample.password₂)
      fun req => req = Sample.balance 9 ∨ req = Sample.guess 10 := by
    rintro req (rfl | rfl)
    · exact ⟨fun hauth => absurd hauth.headerId (by decide), nofun⟩
    · exact ⟨fun hauth => absurd hauth.password (by decide +kernel), nofun⟩
  have hgiven : ∀ (i : Fin 2) req, Label.give i req ∈ Sample.serve 0 (Sample.balance 9) 10 ++
      Sample.serve 1 (Sample.guess 10) 10 ++ Sample.steps 0 9 →
      req = Sample.balance 9 ∨ req = Sample.guess 10 := by
    intro i req hmem
    simp only [Sample.serve, Sample.steps, List.mem_append, List.mem_cons, Label.give.injEq,
      List.mem_replicate, reduceCtorEq, and_false, or_false] at hmem
    exact hmem.imp And.right And.right
  have hsecret := balance_secret huntouched (by rfl : Sample.twoAccounts 100 200 2 = some _)
    Sample.emptyReply (Sample.shutdown 0) hgiven 500
  rw [hs] at hsecret
  exact ⟨s, _, hsecret, rfl, hlength, of_decide_eq_true hidle⟩

end HomeBanking
