import HomeBanking.Locks
import HomeBanking.Processing
import HomeBanking.Lib.Store

/-!
# Accounts behind pointers

`bankAccounts` is an array of pointers, and `createBankAccount` fills the block
it allocates field by field before it stores the pointer. In this module the
call is taken apart into these stores, with other offices acting between them.
Whoever follows a pointer of the array finds a finished account of that id.

## Implementation notes

All other steps are those of `officeStep` on the table that the pointers show,
and a balance is stored through the pointer. `malloc` returns memory with
arbitrary contents and is taken to find some. A field counts as assigned from
its first store on; what it holds before is left over in the memory.
-/

namespace HomeBanking

variable {n : ℕ}

/-- The fields of `bank_account_t`. -/
inductive AccountField
  | accountId
  | balance
  | salt
  | hash
  deriving DecidableEq, Repr

/-- A block of memory for an account, and the fields assigned since `malloc`. -/
structure AccountBlock where
  contents : BankAccount
  assigned : Finset AccountField
  deriving DecidableEq

namespace AccountBlock

def assign (x : AccountBlock) (f : AccountField) (store : BankAccount → BankAccount) :
    AccountBlock :=
  ⟨store x.contents, insert f x.assigned⟩

def Complete (x : AccountBlock) : Prop := ∀ f, f ∈ x.assigned

theorem Complete.assign {x : AccountBlock} (h : x.Complete) (f : AccountField)
    (store : BankAccount → BankAccount) : (x.assign f store).Complete :=
  fun g => Finset.mem_insert_of_mem (h g)

end AccountBlock

/-- The array `bankAccounts` and the memory its pointers lead to. -/
structure Heap where
  slots : UInt32 → Option ℕ
  blocks : ℕ → AccountBlock
  allocated : ℕ

namespace Heap

/-- What `bankAccounts[id]` points to. -/
def entry (h : Heap) (id : UInt32) : Option AccountBlock := (h.slots id).map h.blocks

/-- The accounts as the offices see them. -/
def table (h : Heap) : Table := fun id => (h.entry id).map AccountBlock.contents

def malloc (h : Heap) (memory : BankAccount) : Heap where
  slots := h.slots
  blocks := Function.update h.blocks h.allocated ⟨memory, ∅⟩
  allocated := h.allocated + 1

/-- Store a field of the block at `p`. -/
def assign (h : Heap) (p : ℕ) (f : AccountField) (store : BankAccount → BankAccount) : Heap :=
  { h with blocks := Function.update h.blocks p ((h.blocks p).assign f store) }

/-- `bankAccounts[id]->balance = balance`. -/
def setBalance (h : Heap) (id balance : UInt32) : Heap :=
  match h.slots id with
  | none => h
  | some p => h.assign p .balance fun a => { a with balance := balance }

/-- What an office step other than those of `createBankAccount` does to the accounts. -/
def apply (h : Heap) : Action → Heap
  | .setBalance id balance => h.setBalance id balance
  | _ => h

end Heap

/-- The next store of `createBankAccount`, and the local pointer `account`. -/
inductive Draft
  | malloc
  | accountId (account : ℕ)
  | balance (account : ℕ)
  | salt (account : ℕ)
  | hash (account : ℕ)
  | publish (account : ℕ)
  deriving DecidableEq, Repr

def Draft.account : Draft → Option ℕ
  | .malloc => none
  | .accountId p | .balance p | .salt p | .hash p | .publish p => some p

/-- The offices over the array; `drafts` holds what each office keeps in the
local variables of `createBankAccount`. -/
structure Machine (n : ℕ) where
  heap : Heap
  mutex : UInt32 → Option (Fin n)
  activeMutex : Option (Fin n)
  activeBankOffices : ℤ
  serverDown : Bool
  fifoReadOnly : Bool
  offices : Fin n → Office
  requests : Fin n → TlvRequest
  drafts : Fin n → Draft

/-- As `Label`; `memory` is what the block of a `malloc` holds. -/
inductive MachineLabel (n : ℕ)
  | give (i : Fin n) (req : TlvRequest)
  | act (i : Fin n) (choice : Choice) (memory : BankAccount)

namespace Machine

/-- The shared state as the offices see it. -/
def bank (m : Machine n) : Bank (Fin n) where
  bankAccounts := m.heap.table
  mutex := m.mutex
  activeMutex := m.activeMutex
  activeBankOffices := m.activeBankOffices
  serverDown := m.serverDown
  fifoReadOnly := m.fifoReadOnly

abbrev pc (m : Machine n) (i : Fin n) : Pc := (m.offices i).pc

def give (m : Machine n) (i : Fin n) (req : TlvRequest) : Machine n :=
  { m with
    offices := Function.update m.offices i ((m.offices i).goto (.activeLock .enter))
    requests := Function.update m.requests i req }

/-- A step of `officeStep` that leaves the shared state `b`. -/
def perform (m : Machine n) (i : Fin n) (act : Action) (b : Bank (Fin n)) (o : Office) :
    Machine n where
  heap := m.heap.apply act
  mutex := b.mutex
  activeMutex := b.activeMutex
  activeBankOffices := b.activeBankOffices
  serverDown := b.serverDown
  fifoReadOnly := b.fifoReadOnly
  offices := Function.update m.offices i o
  requests := m.requests
  drafts := m.drafts

def malloc (m : Machine n) (i : Fin n) (memory : BankAccount) : Machine n :=
  { m with
    heap := m.heap.malloc memory
    drafts := Function.update m.drafts i (.accountId m.heap.allocated) }

def assign (m : Machine n) (i : Fin n) (p : ℕ) (f : AccountField)
    (store : BankAccount → BankAccount) (next : Draft) : Machine n :=
  { m with
    heap := m.heap.assign p f store
    drafts := Function.update m.drafts i next }

/-- `bankAccounts[id] = account`, the last statement of the call. -/
def publish (m : Machine n) (i : Fin n) (create : ReqCreateAccount) (p : ℕ) : Machine n :=
  if create.accountId < maxBankAccounts then
    { m with
      heap.slots := Function.update m.heap.slots create.accountId (some p)
      offices := Function.update m.offices i ((m.offices i).goto (.createUnlock create))
      drafts := Function.update m.drafts i .malloc }
  else
    { m with
      offices := Function.update m.offices i ((m.offices i).goto .fault)
      drafts := Function.update m.drafts i .malloc }

section Step

variable (sha256sum : CString → CString)

/-- `createBankAccount`. -/
def build (m : Machine n) (i : Fin n) (create : ReqCreateAccount) (salt : CString)
    (memory : BankAccount) : Machine n :=
  match m.drafts i with
  | .malloc => m.malloc i memory
  | .accountId p => m.assign i p .accountId
      (fun a => { a with accountId := create.accountId }) (.balance p)
  | .balance p => m.assign i p .balance (fun a => { a with balance := create.balance }) (.salt p)
  | .salt p => m.assign i p .salt (fun a => { a with salt := salt }) (.hash p)
  | .hash p => m.assign i p .hash (fun a => { a with
      hash := generateHash sha256sum (createHashInput create.password a.salt) }) (.publish p)
  | .publish p => m.publish i create p

def next (m : Machine n) : MachineLabel n → Option (Machine n)
  | .give i req => if m.pc i = .idle then some (m.give i req) else none
  | .act i choice memory =>
    match m.pc i with
    | .createWrite create => some (m.build sha256sum i create choice.salt memory)
    | _ => (officeStep sha256sum choice (m.requests i) m.bank (m.offices i)).bind fun p =>
        (m.bank.apply i p.1).map fun b => m.perform i p.1 b p.2

end Step

end Machine

/-- Idle offices over the accounts of `h₀`, on requests that satisfy `ok`. -/
def pointerOffices (sha256sum : CString → CString) (ok : TlvRequest → Prop) (h₀ : Heap) (n : ℕ) :
    LTS (Machine n) (MachineLabel n) where
  init m := m.heap = h₀ ∧ m.bank = Bank.idle h₀.table ∧ (∀ i, m.pc i = .idle) ∧
    ∀ i, m.drafts i = .malloc
  step m l m' := m.next sha256sum l = some m' ∧ ∀ i req, l = .give i req → ok req

/-- A finished account of the slot that points to it. -/
structure Published (id : UInt32) (x : AccountBlock) : Prop where
  complete : x.Complete
  accountId : x.contents.accountId = id

/-- The fields stored before the next store. -/
def Draft.assigned : Draft → Finset AccountField
  | .malloc | .accountId _ => ∅
  | .balance _ => {.accountId}
  | .salt _ => {.balance, .accountId}
  | .hash _ => {.salt, .balance, .accountId}
  | .publish _ => {.hash, .salt, .balance, .accountId}

/-- What a draft holds on the way to `newAccount`. -/
structure Drafted (sha256sum : CString → CString) (create : ReqCreateAccount) (d : Draft)
    (x : AccountBlock) : Prop where
  assigned : x.assigned = d.assigned
  accountId : .accountId ∈ d.assigned → x.contents.accountId = create.accountId
  balance : .balance ∈ d.assigned → x.contents.balance = create.balance
  hash : .hash ∈ d.assigned → x.contents.hash =
    generateHash sha256sum (createHashInput create.password x.contents.salt)

namespace Drafted

variable {sha256sum : CString → CString} {create : ReqCreateAccount} {p : ℕ} {x : AccountBlock}

theorem malloc (memory : BankAccount) :
    Drafted sha256sum create (.accountId p) ⟨memory, ∅⟩ :=
  ⟨rfl, by simp [Draft.assigned], by simp [Draft.assigned], by simp [Draft.assigned]⟩

theorem assign_accountId (h : Drafted sha256sum create (.accountId p) x) :
    Drafted sha256sum create (.balance p)
      (x.assign .accountId fun a => { a with accountId := create.accountId }) :=
  ⟨congrArg (insert AccountField.accountId) h.assigned, fun _ => rfl,
    by simp [Draft.assigned], by simp [Draft.assigned]⟩

theorem assign_balance (h : Drafted sha256sum create (.balance p) x) :
    Drafted sha256sum create (.salt p)
      (x.assign .balance fun a => { a with balance := create.balance }) :=
  ⟨congrArg (insert AccountField.balance) h.assigned,
    fun _ => h.accountId (by simp [Draft.assigned]), fun _ => rfl, by simp [Draft.assigned]⟩

theorem assign_salt (h : Drafted sha256sum create (.salt p) x) (salt : CString) :
    Drafted sha256sum create (.hash p) (x.assign .salt fun a => { a with salt := salt }) :=
  ⟨congrArg (insert AccountField.salt) h.assigned,
    fun _ => h.accountId (by simp [Draft.assigned]),
    fun _ => h.balance (by simp [Draft.assigned]), by simp [Draft.assigned]⟩

theorem assign_hash (h : Drafted sha256sum create (.hash p) x) :
    Drafted sha256sum create (.publish p) (x.assign .hash fun a => { a with
      hash := generateHash sha256sum (createHashInput create.password a.salt) }) :=
  ⟨congrArg (insert AccountField.hash) h.assigned,
    fun _ => h.accountId (by simp [Draft.assigned]),
    fun _ => h.balance (by simp [Draft.assigned]), fun _ => rfl⟩

/-- The finished draft is the account that the request asks for, with the salt
that was drawn. -/
theorem contents_eq (h : Drafted sha256sum create (.publish p) x) :
    x.contents = newAccount sha256sum x.contents.salt create.accountId create.balance
      create.password := by
  obtain ⟨⟨accountId, hash, salt, balance⟩, assigned⟩ := x
  have hid : accountId = create.accountId := h.accountId (by simp [Draft.assigned])
  have hbal : balance = create.balance := h.balance (by simp [Draft.assigned])
  have hhash : hash = generateHash sha256sum (createHashInput create.password salt) :=
    h.hash (by simp [Draft.assigned])
  simp only [newAccount, hid, hbal, hhash]

theorem published (h : Drafted sha256sum create (.publish p) x) :
    Published create.accountId x where
  complete f := by
    rw [h.assigned]
    cases f <;> simp [Draft.assigned]
  accountId := h.accountId (by simp [Draft.assigned])

end Drafted

namespace Machine

/-- The slots and the drafts as owners of the blocks. -/
def store (m : Machine n) : Store (UInt32 ⊕ Fin n) AccountBlock where
  refs := Sum.elim m.heap.slots (Draft.account ∘ m.drafts)
  blocks := m.heap.blocks
  next := m.heap.allocated

/-- Every block has one owner, slots own finished accounts, and only offices
inside `createBankAccount` own a draft. -/
structure Owned (sha256sum : CString → CString) (m : Machine n) : Prop where
  unique : m.store.Unique
  published : ∀ id x, m.store.view (.inl id) = some x → Published id x
  drafted : ∀ i x, m.store.view (.inr i) = some x →
    ∃ create, m.pc i = .createWrite create ∧ Drafted sha256sum create (m.drafts i) x

theorem store_malloc (m : Machine n) (i : Fin n) (memory : BankAccount) :
    (m.malloc i memory).store = m.store.alloc (.inr i) ⟨memory, ∅⟩ := by
  simp only [store, malloc, Heap.malloc, Store.alloc, Function.comp_update,
    Sum.elim_update_right, Draft.account]

theorem store_assign (m : Machine n) {i : Fin n} {p : ℕ} (f : AccountField)
    (g : BankAccount → BankAccount) {next : Draft}
    (hd : (m.drafts i).account = some p) (hnext : next.account = some p) :
    (m.assign i p f g next).store = m.store.write p ((m.heap.blocks p).assign f g) := by
  have hself : Function.update (Draft.account ∘ m.drafts) i (some p) =
      Draft.account ∘ m.drafts := by
    rw [← hd]
    exact Function.update_eq_self i _
  simp only [store, assign, Heap.assign, Store.write, Function.comp_update, hnext, hself]

theorem store_publish (m : Machine n) (i : Fin n) {create : ReqCreateAccount}
    (hid : create.accountId < maxBankAccounts) (p : ℕ) :
    (m.publish i create p).store = m.store.move (.inr i) (.inl create.accountId) p := by
  simp only [store, publish, hid, if_true, Store.move, Function.comp_update,
    Sum.elim_update_left, Sum.elim_update_right, Draft.account]
  rw [Function.update_comm Sum.inl_ne_inr]

theorem store_publish_fault (m : Machine n) (i : Fin n) {create : ReqCreateAccount}
    (hid : ¬ create.accountId < maxBankAccounts) (p : ℕ) :
    (m.publish i create p).store = m.store.drop (.inr i) := by
  simp only [store, publish, hid, if_false, Store.drop, Function.comp_update,
    Sum.elim_update_right, Draft.account]

section Invariant

variable {sha256sum : CString → CString} {m m' : Machine n} {i : Fin n}

/-- A step outside `createBankAccount` that leaves the heap alone. -/
theorem Owned.of_heap_eq (h : m.Owned sha256sum) (hpc : ∀ create, m.pc i ≠ .createWrite create)
    (hheap : m'.heap = m.heap) (hdrafts : m'.drafts = m.drafts)
    (hothers : ∀ j, j ≠ i → m'.pc j = m.pc j) : m'.Owned sha256sum := by
  have hstore : m'.store = m.store := by
    simp only [store, hheap, hdrafts]
  refine ⟨by rw [hstore]; exact h.unique, fun id x hx => h.published id x (hstore ▸ hx), ?_⟩
  intro j x hx
  rw [hstore] at hx
  obtain ⟨create, hc, hd⟩ := h.drafted j x hx
  have hj : j ≠ i := by
    rintro rfl
    exact hpc create hc
  exact ⟨create, (hothers j hj).trans hc, hdrafts ▸ hd⟩

/-- A new or changed block of one owner. -/
theorem Owned.of_update (h : m.Owned sha256sum) (hunique : m'.store.Unique)
    {a : UInt32 ⊕ Fin n} {x : AccountBlock}
    (hview : m'.store.view = Function.update m.store.view a (some x))
    (hpc : m'.pc = m.pc) (hdrafts : ∀ j, a ≠ .inr j → m'.drafts j = m.drafts j)
    (hslot : ∀ id, a = .inl id → Published id x)
    (hdraft : ∀ j, a = .inr j →
      ∃ create, m.pc j = .createWrite create ∧ Drafted sha256sum create (m'.drafts j) x) :
    m'.Owned sha256sum := by
  refine ⟨hunique, fun id y hy => ?_, fun j y hy => ?_⟩
  · rw [hview] at hy
    by_cases ha : Sum.inl id = a
    · rw [ha, Function.update_self] at hy
      exact Option.some.inj hy ▸ hslot id ha.symm
    · rw [Function.update_of_ne ha] at hy
      exact h.published id y hy
  · rw [hview] at hy
    rw [hpc]
    by_cases ha : Sum.inr j = a
    · rw [ha, Function.update_self] at hy
      exact Option.some.inj hy ▸ hdraft j ha.symm
    · rw [Function.update_of_ne ha] at hy
      rw [hdrafts j (Ne.symm ha)]
      exact h.drafted j y hy

theorem Owned.malloc (h : m.Owned sha256sum) {create : ReqCreateAccount}
    (hpc : m.pc i = .createWrite create) (memory : BankAccount) :
    (m.malloc i memory).Owned sha256sum := by
  have hstore := m.store_malloc i memory
  refine h.of_update (a := .inr i) (hstore ▸ h.unique.alloc _ _)
    (hstore ▸ h.unique.view_alloc _ _) rfl ?_ (fun id hid => by cases hid) ?_
  · intro j hj
    exact Function.update_of_ne (fun he => hj (congrArg Sum.inr he.symm)) _ _
  · rintro j ⟨⟩
    refine ⟨create, hpc, ?_⟩
    simp only [Machine.malloc, Function.update_self]
    exact .malloc memory

theorem Owned.assign (h : m.Owned sha256sum) {create : ReqCreateAccount}
    (hpc : m.pc i = .createWrite create) {p : ℕ} (hp : (m.drafts i).account = some p)
    {f : AccountField} {g : BankAccount → BankAccount} {next : Draft}
    (hnext : next.account = some p)
    (hd : ∀ x, Drafted sha256sum create (m.drafts i) x →
      Drafted sha256sum create next (x.assign f g)) :
    (m.assign i p f g next).Owned sha256sum := by
  have hstore := m.store_assign f g hp hnext
  have href : m.store.refs (.inr i) = some p := hp
  refine h.of_update (a := .inr i) (hstore ▸ h.unique.write _ _)
    (hstore ▸ h.unique.view_write href _) rfl ?_ (fun id hid => by cases hid) ?_
  · intro j hj
    exact Function.update_of_ne (fun he => hj (congrArg Sum.inr he.symm)) _ _
  · rintro j ⟨⟩
    obtain ⟨create', hpc', hold⟩ := h.drafted i _ (Store.view_eq_some.mpr ⟨p, href, rfl⟩)
    obtain rfl : create = create' := by simpa [hpc] using hpc'
    refine ⟨create, hpc, ?_⟩
    simp only [Machine.assign, Function.update_self]
    exact hd _ hold

/-- A balance stored through a pointer of the array. -/
theorem Owned.setBalance (h : m.Owned sha256sum) (id x : UInt32) :
    ({ m with heap := m.heap.setBalance id x } : Machine n).Owned sha256sum := by
  unfold Heap.setBalance
  cases hp : m.heap.slots id with
  | none => exact h
  | some p =>
      have href : m.store.refs (.inl id) = some p := hp
      have hold := h.published id _ (Store.view_eq_some.mpr ⟨p, href, rfl⟩)
      refine h.of_update (a := .inl id) (h.unique.write p _) (h.unique.view_write href _) rfl
        (fun _ _ => rfl) ?_ (fun j hj => by cases hj)
      rintro j ⟨⟩
      exact ⟨hold.complete.assign _ _, hold.accountId⟩

/-- The pointer is stored when the account is finished. -/
theorem Owned.publish (h : m.Owned sha256sum) {create : ReqCreateAccount}
    (hpc : m.pc i = .createWrite create) {p : ℕ} (hp : m.drafts i = .publish p) :
    (m.publish i create p).Owned sha256sum := by
  have href : m.store.refs (.inr i) = some p := congrArg Draft.account hp
  have hothers : ∀ j, j ≠ i → (m.publish i create p).pc j = m.pc j ∧
      (m.publish i create p).drafts j = m.drafts j := by
    intro j hj
    unfold Machine.publish
    split <;> simp [pc, hj]
  -- the office gives its draft up, and the slot gets it unless its id is outside the array
  have hview : ∀ a, a ≠ .inl create.accountId → (m.publish i create p).store.view a =
      Function.update m.store.view (.inr i) none a := by
    intro a ha
    by_cases hid : create.accountId < maxBankAccounts
    · rw [store_publish m i hid, Store.view_move href, Function.update_of_ne ha]
    · rw [store_publish_fault m i hid, Store.view_drop]
  refine ⟨?_, fun id x hx => ?_, fun j x hx => ?_⟩
  · by_cases hid : create.accountId < maxBankAccounts
    · exact store_publish m i hid p ▸ h.unique.move href _
    · exact store_publish_fault m i hid p ▸ h.unique.drop _
  · by_cases hj : id = create.accountId
    · subst id
      by_cases hid : create.accountId < maxBankAccounts
      · rw [store_publish m i hid, Store.view_move href, Function.update_self] at hx
        obtain ⟨create', hpc', hd⟩ := h.drafted i x hx
        obtain rfl : create = create' := by simpa [hpc] using hpc'
        exact (hp ▸ hd).published
      · rw [store_publish_fault m i hid, Store.view_drop,
          Function.update_of_ne Sum.inl_ne_inr] at hx
        exact h.published _ x hx
    · rw [hview _ (by simpa using hj), Function.update_of_ne Sum.inl_ne_inr] at hx
      exact h.published id x hx
  · rw [hview _ Sum.inr_ne_inl] at hx
    by_cases hj : j = i
    · simp [hj] at hx
    · rw [Function.update_of_ne (by simpa using hj)] at hx
      rw [(hothers j hj).1, (hothers j hj).2]
      exact h.drafted j x hx

theorem Owned.build (h : m.Owned sha256sum) {create : ReqCreateAccount}
    (hpc : m.pc i = .createWrite create) (salt : CString) (memory : BankAccount) :
    (m.build sha256sum i create salt memory).Owned sha256sum := by
  unfold Machine.build
  split
  · exact h.malloc hpc memory
  · rename_i p hp
    exact h.assign hpc (congrArg Draft.account hp) rfl fun x hx => (hp ▸ hx).assign_accountId
  · rename_i p hp
    exact h.assign hpc (congrArg Draft.account hp) rfl fun x hx => (hp ▸ hx).assign_balance
  · rename_i p hp
    exact h.assign hpc (congrArg Draft.account hp) rfl fun x hx => (hp ▸ hx).assign_salt salt
  · rename_i p hp
    exact h.assign hpc (congrArg Draft.account hp) rfl fun x hx => (hp ▸ hx).assign_hash
  · rename_i p hp
    exact h.publish hpc hp

theorem Owned.perform (h : m.Owned sha256sum) (hpc : ∀ create, m.pc i ≠ .createWrite create)
    (act : Action) (b : Bank (Fin n)) (o : Office) :
    (m.perform i act b o).Owned sha256sum := by
  have hheap : ({ m with heap := m.heap.apply act } : Machine n).Owned sha256sum := by
    cases act with
    | setBalance id x => exact h.setBalance id x
    | _ => exact h
  exact hheap.of_heap_eq hpc rfl rfl fun j hj => by simp [Machine.perform, pc, hj]

theorem Owned.give (h : m.Owned sha256sum) (hidle : m.pc i = .idle) (req : TlvRequest) :
    (m.give i req).Owned sha256sum := by
  refine h.of_heap_eq (i := i) ?_ rfl rfl ?_
  · intro create hc
    rw [hidle] at hc
    cases hc
  · intro j hj
    simp [Machine.give, pc, hj]

/-- Every step hands out a request, is a store of `createBankAccount`, or is a
step of `officeStep`. -/
theorem next_cases {l : MachineLabel n} (h : m.next sha256sum l = some m') :
    (∃ i req, l = .give i req ∧ m.pc i = .idle ∧ m' = m.give i req) ∨
    (∃ i choice memory create, l = .act i choice memory ∧ m.pc i = .createWrite create ∧
      m' = m.build sha256sum i create choice.salt memory) ∨
    (∃ i choice memory act b o, l = .act i choice memory ∧
      (∀ create, m.pc i ≠ .createWrite create) ∧
      officeStep sha256sum choice (m.requests i) m.bank (m.offices i) = some (act, o) ∧
      m.bank.apply i act = some b ∧ m' = m.perform i act b o) := by
  cases l with
  | give i req =>
      simp only [next] at h
      split at h
      · rename_i hidle
        exact .inl ⟨i, req, rfl, hidle, (Option.some.inj h).symm⟩
      · cases h
  | act i choice memory =>
      simp only [next] at h
      split at h
      · rename_i create hpc
        exact .inr (.inl ⟨i, choice, memory, create, rfl, hpc, (Option.some.inj h).symm⟩)
      · rename_i hpc
        simp only [Option.bind_eq_some_iff, Option.map_eq_some_iff] at h
        obtain ⟨⟨act, o⟩, hstep, b, hb, hm'⟩ := h
        exact .inr (.inr ⟨i, choice, memory, act, b, o, rfl, hpc, hstep, hb, hm'.symm⟩)

theorem Owned.next (h : m.Owned sha256sum) {l : MachineLabel n}
    (hs : m.next sha256sum l = some m') : m'.Owned sha256sum := by
  rcases next_cases hs with ⟨i, req, -, hidle, rfl⟩ | ⟨i, choice, memory, create, -, hpc, rfl⟩ |
    ⟨i, choice, memory, act, b, o, -, hpc, -, -, rfl⟩
  · exact h.give hidle req
  · exact h.build hpc choice.salt memory
  · exact h.perform hpc act b o

end Invariant

end Machine

/-- An array whose pointers lead to finished accounts, none of them shared. -/
structure Heap.WellFormed (h : Heap) : Prop where
  unique : (⟨h.slots, h.blocks, h.allocated⟩ : Store UInt32 AccountBlock).Unique
  published : ∀ id x, h.entry id = some x → Published id x

section Runs

variable {sha256sum : CString → CString} {ok : TlvRequest → Prop} {h₀ : Heap}

theorem owned_of_init (hwf : h₀.WellFormed) {m : Machine n}
    (h : (pointerOffices sha256sum ok h₀ n).init m) : m.Owned sha256sum := by
  obtain ⟨rfl, -, -, hdrafts⟩ := h
  have hnone : ∀ i, m.store.refs (.inr i) = none := fun i => congrArg Draft.account (hdrafts i)
  refine ⟨⟨?_, ?_⟩, hwf.published, ?_⟩
  · rintro (id | i) p hp
    · exact hwf.unique.lt id p hp
    · simp [hnone] at hp
  · rintro (id | i) (id' | i') p hp hp'
    · exact congrArg Sum.inl (hwf.unique.inj id id' p hp hp')
    · simp [hnone] at hp'
    · simp [hnone] at hp
    · simp [hnone] at hp
  · intro i x hx
    simp [Store.view, hnone] at hx

theorem machine_owned (hwf : h₀.WellFormed) {m : Machine n}
    (h : (pointerOffices sha256sum ok h₀ n).Reachable m) : m.Owned sha256sum :=
  h.invariant (fun _ hm => owned_of_init hwf hm) fun _ _ _ _ ih hs => ih.next hs.1

/-- The offices see the bank of `s`. -/
structure Shows (m : Machine n) (s : System n) : Prop where
  bank : s.bank = m.bank
  offices : s.offices = m.offices
  requests : s.requests = m.requests

namespace Machine

variable {m m' : Machine n} {i : Fin n} {s : System n}

theorem table_eq_of_view (h : ∀ id, m'.store.view (.inl id) = m.store.view (.inl id)) :
    m'.heap.table = m.heap.table :=
  funext fun id => congrArg (Option.map AccountBlock.contents) (h id)

theorem Owned.setBalance_table (h : m.Owned sha256sum) (id x : UInt32) :
    (m.heap.setBalance id x).table = (m.bank.setBalance id x).bankAccounts := by
  have hentry : ∀ j, m.heap.table j = (m.store.view (.inl j)).map AccountBlock.contents :=
    fun _ => rfl
  ext1 j
  unfold Heap.setBalance
  cases hp : m.heap.slots id with
  | none =>
      have hnone : m.bank.bankAccounts id = none := by simp [bank, Heap.table, Heap.entry, hp]
      by_cases hj : j = id
      · rw [hj, Bank.setBalance_bankAccounts_self, hnone]
        exact hnone
      · rw [Bank.setBalance_bankAccounts_of_ne _ _ hj]
        rfl
  | some p =>
      have href : m.store.refs (.inl id) = some p := hp
      have hview := congrFun (h.unique.view_write href
        ((m.heap.blocks p).assign .balance fun a => { a with balance := x })) (.inl j)
      refine (congrArg (Option.map AccountBlock.contents) hview).trans ?_
      by_cases hj : j = id
      · rw [hj, Function.update_self, Bank.setBalance_bankAccounts_self]
        simp [bank, Heap.table, Heap.entry, hp, AccountBlock.assign]
      · rw [Function.update_of_ne (by simpa using hj), Bank.setBalance_bankAccounts_of_ne _ _ hj]
        rfl

theorem Owned.perform_bank (h : m.Owned sha256sum) {act : Action} {b : Bank (Fin n)}
    (hset : ∀ id a, act ≠ .setAccount id a) (hb : m.bank.apply i act = some b) (o : Office) :
    (m.perform i act b o).bank = b := by
  have htable : (m.heap.apply act).table = b.bankAccounts := by
    cases act with
    | setBalance id x =>
        cases hb
        exact h.setBalance_table id x
    | setAccount id a => exact absurd rfl (hset id a)
    | _ => exact (apply_table hb rfl).symm
  simp only [bank, Machine.perform, htable]

/-- A step that changes no account leaves the bank as the offices see it. -/
theorem Owned.malloc_bank (h : m.Owned sha256sum) (memory : BankAccount) :
    (m.malloc i memory).bank = m.bank := by
  have htable : (m.malloc i memory).heap.table = m.heap.table := by
    refine table_eq_of_view fun id => ?_
    rw [store_malloc, h.unique.view_alloc, Function.update_of_ne Sum.inl_ne_inr]
  simp only [bank, htable]
  rfl

theorem Owned.assign_bank (h : m.Owned sha256sum) {p : ℕ} (hp : (m.drafts i).account = some p)
    {f : AccountField} {g : BankAccount → BankAccount} {d : Draft} (hd : d.account = some p) :
    (m.assign i p f g d).bank = m.bank := by
  have href : m.store.refs (.inr i) = some p := hp
  have htable : (m.assign i p f g d).heap.table = m.heap.table := by
    refine table_eq_of_view fun id => ?_
    rw [store_assign m f g hp hd, h.unique.view_write href, Function.update_of_ne Sum.inl_ne_inr]
  simp only [bank, htable]
  rfl

theorem publish_bank {create : ReqCreateAccount} (hid : create.accountId < maxBankAccounts)
    {p : ℕ} (hp : m.drafts i = .publish p) : (m.publish i create p).bank =
      m.bank.setAccount create.accountId (m.heap.blocks p).contents := by
  have href : m.store.refs (.inr i) = some p := congrArg Draft.account hp
  have hself : m.store.view (.inr i) = some (m.heap.blocks p) :=
    Store.view_eq_some.mpr ⟨p, href, rfl⟩
  have htable : (m.publish i create p).heap.table =
      Function.update m.heap.table create.accountId (some (m.heap.blocks p).contents) := by
    ext1 id
    change ((m.publish i create p).store.view (.inl id)).map AccountBlock.contents = _
    rw [store_publish m i hid, Store.view_move href, hself]
    by_cases hj : id = create.accountId
    · rw [hj, Function.update_self, Function.update_self]
      rfl
    · rw [Function.update_of_ne (by simpa using hj), Function.update_of_ne Sum.inl_ne_inr,
        Function.update_of_ne hj]
      rfl
  simp only [bank, htable]
  simp only [publish, hid, if_true, Bank.setAccount]

theorem officeStep_createWrite (sha256sum : CString → CString) (choice : Choice)
    (req : TlvRequest) (b : Bank (Fin n)) {o : Office} {create : ReqCreateAccount}
    (hpc : o.pc = .createWrite create) :
    officeStep sha256sum choice req b o = some (o.withMutex create.accountId
      (.setAccount create.accountId (newAccount sha256sum choice.salt create.accountId
        create.balance create.password), o.goto (.createUnlock create))) := by
  obtain ⟨pc, r⟩ := o
  cases hpc
  rfl

/-- Storing the pointer is the step in which the offices see the new account. -/
theorem Owned.shows_publish (h : m.Owned sha256sum) (hs : Shows m s) {create : ReqCreateAccount}
    (hpc : m.pc i = .createWrite create) {p : ℕ} (hp : m.drafts i = .publish p) :
    ∃ choice s', s.next sha256sum (.act i choice) = some s' ∧
      Shows (m.publish i create p) s' := by
  have href : m.store.refs (.inr i) = some p := congrArg Draft.account hp
  obtain ⟨create', hpc', hd⟩ := h.drafted i _ (Store.view_eq_some.mpr ⟨p, href, rfl⟩)
  obtain rfl : create = create' := by simpa [hpc] using hpc'
  have hcontents : (m.heap.blocks p).contents =
      newAccount sha256sum (m.heap.blocks p).contents.salt create.accountId create.balance
        create.password := (hp ▸ hd).contents_eq
  have hstep := officeStep_createWrite sha256sum
    ⟨(m.heap.blocks p).contents.salt, true⟩ (m.requests i) m.bank hpc
  refine ⟨⟨(m.heap.blocks p).contents.salt, true⟩, ?_⟩
  by_cases hid : create.accountId < maxBankAccounts
  · refine ⟨s.perform i (.setAccount create.accountId (m.heap.blocks p).contents)
      (m.bank.setAccount create.accountId (m.heap.blocks p).contents)
      ((m.offices i).goto (.createUnlock create)), ?_, ?_⟩
    · simp only [System.next, hs.requests, hs.bank, hs.offices, hstep, Office.withMutex, hid,
        if_true, Option.bind_some, ← hcontents, Bank.apply, Option.map_some]
    · refine ⟨(publish_bank hid hp).symm, ?_, ?_⟩
      · simp [System.perform, Machine.publish, hid, hs.offices]
      · simp [System.perform, Machine.publish, hid, hs.requests]
  · refine ⟨s.perform i .skip m.bank ((m.offices i).goto .fault), ?_, ?_⟩
    · simp only [System.next, hs.requests, hs.bank, hs.offices, hstep, Office.withMutex, hid,
        if_false, Option.bind_some, Bank.apply, Option.map_some]
    · refine ⟨?_, ?_, ?_⟩
      · simp [Machine.publish, hid, bank]
      · simp [System.perform, Machine.publish, hid, hs.offices]
      · simp [System.perform, Machine.publish, hid, hs.requests]

theorem Owned.shows_build (h : m.Owned sha256sum) (hs : Shows m s) {create : ReqCreateAccount}
    (hpc : m.pc i = .createWrite create) (salt : CString) (memory : BankAccount) :
    Shows (m.build sha256sum i create salt memory) s ∨
      ∃ choice s', s.next sha256sum (.act i choice) = some s' ∧
        Shows (m.build sha256sum i create salt memory) s' := by
  have hassign : ∀ p f g d, (m.drafts i).account = some p → d.account = some p →
      Shows (m.assign i p f g d) s := fun p f g d hp hd =>
    ⟨hs.bank.trans (h.assign_bank hp hd).symm, hs.offices, hs.requests⟩
  unfold Machine.build
  split
  · exact .inl ⟨hs.bank.trans (h.malloc_bank memory).symm, hs.offices, hs.requests⟩
  · rename_i p hp
    exact .inl (hassign p _ _ _ (congrArg Draft.account hp) rfl)
  · rename_i p hp
    exact .inl (hassign p _ _ _ (congrArg Draft.account hp) rfl)
  · rename_i p hp
    exact .inl (hassign p _ _ _ (congrArg Draft.account hp) rfl)
  · rename_i p hp
    exact .inl (hassign p _ _ _ (congrArg Draft.account hp) rfl)
  · rename_i p hp
    exact .inr (h.shows_publish hs hpc hp)

theorem Owned.shows_perform (h : m.Owned sha256sum) (hs : Shows m s)
    (hpc : ∀ create, m.pc i ≠ .createWrite create) {choice : Choice} {act : Action}
    {b : Bank (Fin n)} {o : Office}
    (hstep : officeStep sha256sum choice (m.requests i) m.bank (m.offices i) = some (act, o))
    (hb : m.bank.apply i act = some b) :
    s.next sha256sum (.act i choice) = some (s.perform i act b o) ∧
      Shows (m.perform i act b o) (s.perform i act b o) := by
  have hset : ∀ id a, act ≠ .setAccount id a := by
    rintro id a rfl
    cases ho : m.offices i with
    | mk pc r =>
        have hcases := officeStep_cases _ _ _ _ (ho ▸ hstep)
        have hne : ∀ create, pc ≠ .createWrite create := fun create hc =>
          hpc create (by simp [Machine.pc, ho, hc])
        cases hcases
        exact hne _ rfl
  refine ⟨?_, (h.perform_bank hset hb o).symm, ?_, hs.requests⟩
  · simp only [System.next, hs.requests, hs.bank, hs.offices, hstep, Option.bind_some, hb,
      Option.map_some]
  · simp [System.perform, Machine.perform, hs.offices]

end Machine

/-- The pointers and the stores behind them refine the table of whole accounts. -/
theorem pointerOffices_simulation (hwf : h₀.WellFormed) : LTS.Simulation
    (pointerOffices sha256sum ok h₀ n) (bankOffices sha256sum ok h₀.table n) Shows where
  init m hm := ⟨⟨m.bank, m.offices, m.requests, []⟩, ⟨hm.2.1, hm.2.2.1, rfl⟩, rfl, rfl, rfl⟩
  step m l m' s hm hnext hs := by
    have h := machine_owned hwf hm
    obtain ⟨hnext, hok⟩ := hnext
    rcases Machine.next_cases hnext with ⟨i, req, rfl, hidle, rfl⟩ |
      ⟨i, choice, memory, create, -, hpc, rfl⟩ |
      ⟨i, choice, memory, act, b, o, -, hpc, hstep, hb, rfl⟩
    · refine .inr ⟨.give i req, s.give i req, ⟨?_, ?_⟩, hs.bank, ?_, ?_⟩
      · have hidle' : s.pc i = .idle := by rw [System.pc, hs.offices]; exact hidle
        simp only [System.next, hidle', if_true]
      · rintro j req' ⟨⟩
        exact hok _ _ rfl
      · simp [System.give, Machine.give, hs.offices]
      · simp [System.give, Machine.give, hs.requests]
    · rcases h.shows_build hs hpc choice.salt memory with hs' | ⟨choice', s', hn, hs'⟩
      · exact .inl hs'
      · exact .inr ⟨.act i choice', s', ⟨hn, fun _ _ hl => by cases hl⟩, hs'⟩
    · obtain ⟨hn, hs'⟩ := h.shows_perform hs hpc hstep hb
      exact .inr ⟨.act i choice, _, ⟨hn, fun _ _ hl => by cases hl⟩, hs'⟩

/-- The entry of `bankAccounts` that a step follows, in `validateLogin`,
`checkBalance`, `subtractBalance`, `addBalance` and `OPTransfer`. -/
def dereferences (req : TlvRequest) : Pc → Option UInt32
  | .loginHash id | .loginCompare id _ | .subtractWrite _ id _ | .addWrite _ id _
  | .transferReport id => some id
  | .balanceRead | .subtractRead _ => some req.headerId
  | .addRead _ => some req.transferId
  | _ => none

/-- Such a step faults exactly when the entry is missing. -/
theorem faults_iff_of_dereferences {t : Table} {req : TlvRequest} {pc : Pc} {id : UInt32}
    (h : dereferences req pc = some id) : Faults req t pc ↔ ¬ Known t id := by
  cases pc with
  | loginHash | loginCompare | subtractWrite | addWrite | transferReport | balanceRead
  | subtractRead | addRead =>
      cases h
      exact Iff.rfl
  | _ => cases h

theorem Valid.known_of_dereferences {t : Table} {req : TlvRequest} {pc : Pc} {id : UInt32}
    (hv : Valid t req pc) (h : dereferences req pc = some id) : Known t id := by
  by_contra hunknown
  rcases hv.faults ((faults_iff_of_dereferences h).mpr hunknown) with
    ⟨rfl, -⟩ | ⟨rfl, -⟩ | ⟨rfl, -⟩ <;> cases h

/-- Entries that exist stay, and so do the finished accounts, whichever pointer
leads to them. -/
structure Machine.Keeps (m m' : Machine n) : Prop where
  slots : ∀ id, (m.heap.slots id).isSome → (m'.heap.slots id).isSome
  allocated : m.heap.allocated ≤ m'.heap.allocated
  complete : ∀ p < m.heap.allocated, (m.heap.blocks p).Complete → (m'.heap.blocks p).Complete ∧
    (m'.heap.blocks p).contents.accountId = (m.heap.blocks p).contents.accountId

namespace Machine

variable {m m' m'' : Machine n} {i : Fin n}

theorem Keeps.refl (m : Machine n) : m.Keeps m :=
  ⟨fun _ h => h, le_rfl, fun _ _ h => ⟨h, rfl⟩⟩

theorem Keeps.trans (h : m.Keeps m') (h' : m'.Keeps m'') : m.Keeps m'' where
  slots id hid := h'.slots id (h.slots id hid)
  allocated := h.allocated.trans h'.allocated
  complete p hp hc := by
    obtain ⟨hc', hid⟩ := h.complete p hp hc
    obtain ⟨hc'', hid'⟩ := h'.complete p (hp.trans_le h.allocated) hc'
    exact ⟨hc'', hid'.trans hid⟩

/-- A store into one block. -/
theorem Keeps.of_assign {p : ℕ} {f : AccountField} {g : BankAccount → BankAccount}
    (hheap : m'.heap = m.heap.assign p f g)
    (hid : (m.heap.blocks p).Complete → ∀ a, (g a).accountId = a.accountId) : m.Keeps m' where
  slots id h := by rwa [hheap]
  allocated := by rw [hheap]; exact le_rfl
  complete q _ hc := by
    rw [hheap]
    by_cases hq : q = p
    · subst q
      simp only [Heap.assign, Function.update_self]
      exact ⟨hc.assign f g, hid hc _⟩
    · simpa [Heap.assign, hq] using hc

theorem keeps_setBalance (id x : UInt32)
    (hheap : m'.heap = m.heap.setBalance id x) : m.Keeps m' := by
  unfold Heap.setBalance at hheap
  cases hp : m.heap.slots id with
  | none =>
      simp only [hp] at hheap
      exact ⟨fun _ h => by rwa [hheap], by rw [hheap], fun _ _ h => by rw [hheap]; exact ⟨h, rfl⟩⟩
  | some p =>
      simp only [hp] at hheap
      exact .of_assign hheap fun _ _ => rfl

theorem keeps_malloc (memory : BankAccount) : m.Keeps (m.malloc i memory) where
  slots _ h := h
  allocated := Nat.le_succ _
  complete p hp hc := by simpa [malloc, Heap.malloc, hp.ne] using hc

theorem keeps_publish (create : ReqCreateAccount) (p : ℕ) : m.Keeps (m.publish i create p) := by
  unfold publish
  split
  · refine ⟨fun id h => ?_, le_rfl, fun _ _ h => ⟨h, rfl⟩⟩
    by_cases hid : id = create.accountId
    · simp [hid]
    · simpa [hid] using h
  · exact ⟨fun _ h => h, le_rfl, fun _ _ h => ⟨h, rfl⟩⟩

/-- A draft is not yet a finished account. -/
theorem Owned.keeps_build (h : m.Owned sha256sum) {create : ReqCreateAccount} (salt : CString)
    (memory : BankAccount) : m.Keeps (m.build sha256sum i create salt memory) := by
  have hdraft : ∀ p, (m.drafts i).account = some p → (m.heap.blocks p).Complete →
      ∀ f, f ∈ (m.drafts i).assigned := by
    intro p hp hc f
    have href : m.store.refs (.inr i) = some p := hp
    obtain ⟨_, _, hd⟩ := h.drafted i _ (Store.view_eq_some.mpr ⟨p, href, rfl⟩)
    exact hd.assigned ▸ hc f
  unfold Machine.build
  split
  · exact keeps_malloc memory
  · rename_i p hp
    refine .of_assign rfl fun hc => ?_
    exact absurd (hdraft p (congrArg Draft.account hp) hc .accountId) (by simp [hp, Draft.assigned])
  · exact .of_assign rfl fun _ _ => rfl
  · exact .of_assign rfl fun _ _ => rfl
  · exact .of_assign rfl fun _ _ => rfl
  · exact keeps_publish create _

theorem Owned.keeps (h : m.Owned sha256sum) {l : MachineLabel n}
    (hs : m.next sha256sum l = some m') : m.Keeps m' := by
  rcases next_cases hs with ⟨i, req, -, -, rfl⟩ | ⟨i, choice, memory, create, -, -, rfl⟩ |
    ⟨i, choice, memory, act, b, o, -, -, -, -, rfl⟩
  · exact ⟨fun _ h => h, le_rfl, fun _ _ h => ⟨h, rfl⟩⟩
  · exact h.keeps_build choice.salt memory
  · cases act with
    | setBalance id x => exact keeps_setBalance id x rfl
    | _ => exact ⟨fun _ h => h, le_rfl, fun _ _ h => ⟨h, rfl⟩⟩

end Machine

/-- In every interleaving, whoever follows a pointer of the array finds a
finished account of that id, no office faults, and entries and finished
accounts stay. -/
theorem dereferences_published (hok : ∀ req, ok req → req.InArray) (hwf : h₀.WellFormed) :
    (∀ m, (pointerOffices sha256sum ok h₀ n).Reachable m → ∀ i, m.pc i ≠ .fault ∧
      ∀ id, dereferences (m.requests i) (m.pc i) = some id → id < maxBankAccounts ∧
        ∃ x, m.heap.entry id = some x ∧ x.Complete ∧ x.contents.accountId = id) ∧
    (∀ m m', (pointerOffices sha256sum ok h₀ n).Reachable m →
      (pointerOffices sha256sum ok h₀ n).Reaches m m' → m.Keeps m') := by
  constructor
  · intro m hm i
    obtain ⟨s, hs, hshows⟩ := (pointerOffices_simulation hwf).reachable hm
    have hpc : s.pc i = m.pc i := by rw [System.pc, hshows.offices]
    refine ⟨hpc ▸ no_fault hok hs i, fun id hid => ?_⟩
    have hv := valid hs i
    rw [hpc, hshows.requests, System.table, hshows.bank] at hv
    obtain ⟨hlt, hsome⟩ := hv.known_of_dereferences hid
    obtain ⟨x, hx, _⟩ := Option.map_eq_some_iff.mp (Option.isSome_iff_exists.mp hsome).choose_spec
    have hpub := (machine_owned hwf hm).published id x hx
    exact ⟨hlt, x, hx, hpub.complete, hpub.accountId⟩
  · intro m m' hm hr
    exact hr.relates (R := Machine.Keeps) Machine.Keeps.refl (fun _ _ _ => .trans)
      (fun _ _ _ hm hs => (machine_owned hwf hm).keeps hs.1) hm

end Runs

/-- What `createAdminAccount` leaves. -/
def adminHeap (sha256sum : CString → CString) (salt adminPassword : CString) : Heap where
  slots := Function.update (fun _ => none) adminAccountId (some 0)
  blocks := fun _ => ⟨newAccount sha256sum salt adminAccountId adminAccountBallance adminPassword,
    {.hash, .salt, .balance, .accountId}⟩
  allocated := 1

theorem adminHeap_slots (sha256sum : CString → CString) (salt adminPassword : CString)
    {id : UInt32} {p : ℕ} (h : (adminHeap sha256sum salt adminPassword).slots id = some p) :
    id = adminAccountId ∧ p = 0 := by
  by_cases hid : id = adminAccountId
  · exact ⟨hid, by simpa [adminHeap, hid, eq_comm] using h⟩
  · simp [adminHeap, hid] at h

theorem adminHeap_wellFormed (sha256sum : CString → CString) (salt adminPassword : CString) :
    (adminHeap sha256sum salt adminPassword).WellFormed := by
  have hslots := @adminHeap_slots sha256sum salt adminPassword
  refine ⟨⟨fun id p h => ?_, fun id id' p h h' => ?_⟩, fun id x h => ?_⟩
  · obtain ⟨-, rfl⟩ := hslots h
    exact Nat.one_pos
  · exact (hslots h).1.trans (hslots h').1.symm
  · obtain ⟨p, hp, rfl⟩ := Option.map_eq_some_iff.mp h
    obtain ⟨rfl, -⟩ := hslots hp
    refine ⟨fun f => ?_, rfl⟩
    cases f <;> simp [adminHeap]

theorem adminHeap_table (sha256sum : CString → CString) (salt adminPassword : CString) :
    (adminHeap sha256sum salt adminPassword).table = adminTable sha256sum salt adminPassword := by
  ext1 id
  by_cases hid : id = adminAccountId
  · simp [Heap.table, Heap.entry, adminHeap, adminTable, hid]
  · simp [Heap.table, Heap.entry, adminHeap, adminTable, hid]

/-- From the start of the server on, the offices see a run over whole accounts. -/
theorem exists_bankOffices {sha256sum : CString → CString} {ok : TlvRequest → Prop}
    {salt adminPassword : CString} {m : Machine n}
    (h : (pointerOffices sha256sum ok (adminHeap sha256sum salt adminPassword) n).Reachable m) :
    ∃ s, (bankOffices sha256sum ok (adminTable sha256sum salt adminPassword) n).Reachable s ∧
      Shows m s := by
  rw [← adminHeap_table]
  exact (pointerOffices_simulation (adminHeap_wellFormed _ _ _)).reachable h

namespace Sample

/-- What is left over in the memory of a new block. -/
def leftover : BankAccount := ⟨77, [], [], 99⟩

/-- Office `i` is given a request and takes `k` steps. -/
def serveBlocks (i : Fin n) (req : TlvRequest) (k : ℕ) : List (MachineLabel n) :=
  .give i req :: List.replicate k (.act i choice leftover)

/-- The server after its start, with idle offices. -/
def startBlocks (n : ℕ) : Machine n where
  heap := adminHeap sha256sum salt adminPassword
  mutex := fun _ => none
  activeMutex := none
  activeBankOffices := 0
  serverDown := false
  fifoReadOnly := false
  offices := fun _ => ⟨.idle, emptyReply⟩
  requests := fun _ => shutdown 0
  drafts := fun _ => .malloc

/-- The label hands out no request but those with their ids inside the array. -/
def inArray : MachineLabel n → Bool
  | .give _ req => req.InArray
  | .act .. => true

/-- A schedule of such requests leads to a reachable state. -/
theorem exists_execute_blocks {ls : List (MachineLabel n)} {α : Type} {f : Machine n → α} {a : α}
    (he : (LTS.execute (LTS.nextIf (Machine.next sha256sum) fun _ l => inArray l)
      (startBlocks n) ls).map f = some a) :
    ∃ m, (pointerOffices sha256sum TlvRequest.InArray
      (adminHeap sha256sum salt adminPassword) n).Reachable m ∧ f m = a := by
  have hinit : (pointerOffices sha256sum TlvRequest.InArray
      (adminHeap sha256sum salt adminPassword) n).init (startBlocks n) :=
    ⟨rfl, rfl, fun _ => rfl, fun _ => rfl⟩
  refine LTS.Reachable.exists_execute ?_ (.init hinit) he
  intro m l m' h
  obtain ⟨hin, hnext⟩ := LTS.nextIf_eq_some.mp h
  refine ⟨hnext, ?_⟩
  rintro i req rfl
  exact of_decide_eq_true hin

end Sample

/-- Account 1 is created, and another office reads its balance. -/
theorem dereferences_published_two : ∃ m : Machine 2,
    (pointerOffices Sample.sha256sum TlvRequest.InArray
      (adminHeap Sample.sha256sum Sample.salt Sample.adminPassword) 2).Reachable m ∧
    m.pc 1 = .balanceRead ∧
    ∃ x, m.heap.entry 1 = some x ∧ x.Complete ∧ x.contents.accountId = 1 := by
  have hrun : (LTS.execute (LTS.nextIf (Machine.next Sample.sha256sum)
      fun _ l => Sample.inArray l) (Sample.startBlocks 2)
      (Sample.serveBlocks 0 (Sample.create 7 1 100 Sample.password₁) 17 ++
        Sample.serveBlocks 1 (Sample.balance 8) 10)).map
      (fun m => (m.pc 1, dereferences (m.requests 1) (m.pc 1))) = some (.balanceRead, some 1) := by
    decide +kernel
  obtain ⟨m, hm, hf⟩ := Sample.exists_execute_blocks hrun
  obtain ⟨hpc, hid⟩ := Prod.mk.inj hf
  have hpub := (dereferences_published (fun _ h => h) (adminHeap_wellFormed _ _ _)).1 m hm 1
  exact ⟨m, hm, hpc, (hpub.2 1 hid).2⟩

end HomeBanking
