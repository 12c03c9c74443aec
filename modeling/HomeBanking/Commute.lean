import HomeBanking.Isolation
import HomeBanking.Lib.Footprint

/-!
# Requests on different accounts

The footprint of a request: it reads the credentials of the account it logs in
with, and reads and writes the entries and mutexes of the accounts it operates
on. Requests with disjoint footprints commute, which is what a lock for each
account, instead of one for the table, rests on.

## Implementation notes

The credentials of an account are a cell of their own, apart from its entry.
Every login reads the credentials of its account without the mutex, those of
the administrator in every creation, while a balance may change next to them.
-/

namespace HomeBanking

/-- A part of the shared state that requests read or write. -/
inductive Cell
  | credentials (id : UInt32)
  | entry (id : UInt32)
  | mutex (id : UInt32)
  | activeMutex

abbrev Cell.Val (ι : Type) : Cell → Type
  | .credentials _ => Option (CString × CString)
  | .entry _ => Option BankAccount
  | .mutex _ => Option ι
  | .activeMutex => Option ι

/-- What `validateLogin` compares with, and how it hashes. -/
def credentials (e : Option BankAccount) : Option (CString × CString) :=
  e.map fun a => (a.hash, a.salt)

variable {ι : Type}

def Bank.read (k : Cell) (b : Bank ι) : k.Val ι :=
  match k with
  | .credentials id => credentials (b.bankAccounts id)
  | .entry id => b.bankAccounts id
  | .mutex id => b.mutex id
  | .activeMutex => b.activeMutex

section Requests

variable (sha256sum : CString → CString) (me : ι) (salt : CString) (req : TlvRequest)

def readsOf : Set Cell
  | .credentials id => id = req.headerId
  | .entry id => id ∈ operatesOn req
  | .mutex id => id ∈ operatesOn req
  | .activeMutex => True

def writesOf : Set Cell
  | .credentials id => req.type = .createAccount ∧ id = req.createId
  | .entry id => id ∈ operatesOn req
  | .mutex id => id ∈ operatesOn req
  | .activeMutex => False

theorem createId_mem_operatesOn (ht : req.type = .createAccount) :
    req.createId ∈ operatesOn req := by
  simp [operatesOn, ht]

/-- Banks that hold the same in the entries and mutexes of `ids`. -/
structure Bank.SameAt (ids : Finset UInt32) (b b' : Bank ι) : Prop where
  entries : ∀ id ∈ ids, b.bankAccounts id = b'.bankAccounts id
  mutexes : ∀ id ∈ ids, b.mutex id = b'.mutex id

theorem Bank.SameAt.agreeOn {b b' : Bank ι} (h : b.SameAt (operatesOn req) b') :
    Footprint.AgreeOn Bank.read (writesOf req) b b' := by
  intro k hk
  cases k with
  | credentials id =>
      obtain ⟨ht, rfl⟩ : req.type = .createAccount ∧ id = req.createId := hk
      exact congrArg credentials (h.entries _ (createId_mem_operatesOn req ht))
  | entry id => exact h.entries id hk
  | mutex id => exact h.mutexes id hk
  | activeMutex => exact hk.elim

theorem sameAt_of_agreeOn {b b' : Bank ι}
    (h : Footprint.AgreeOn Bank.read (readsOf req) b b') : b.SameAt (operatesOn req) b' where
  entries id hid := h (.entry id) hid
  mutexes id hid := h (.mutex id) hid

theorem BalancesOnly.credentials_eq {ids : UInt32 → Prop} {t t' : Table}
    (h : BalancesOnly ids t t') (id : UInt32) : credentials (t' id) = credentials (t id) := by
  rcases h id with he | ⟨_, a, x, ha, hx⟩
  · rw [he]
  · rw [ha, hx]
    rfl

theorem BalancesOnly.eq_of_not {ids : UInt32 → Prop} {t t' : Table}
    (h : BalancesOnly ids t t') {id : UInt32} (hid : ¬ ids id) : t' id = t id :=
  (h id).resolve_right fun hx => hid hx.1

/-- A request fills the slot it creates, or it writes balances of the accounts
it operates on. -/
theorem Frame.tableChange {w w' : World ι} (h : Frame sha256sum req w w') :
    (req.type = .createAccount ∧ ∃ e, w'.bank.bankAccounts =
      Function.update w.bank.bankAccounts req.createId e) ∨
    BalancesOnly (fun id => id ∈ operatesOn req) w.bank.bankAccounts w'.bank.bankAccounts := by
  have hsame : w'.bank.bankAccounts = w.bank.bankAccounts →
      BalancesOnly (fun id => id ∈ operatesOn req) w.bank.bankAccounts w'.bank.bankAccounts :=
    fun he id => .inl (by rw [he])
  cases hlogin : loginOk sha256sum req w.bank.bankAccounts with
  | false => exact .inr (hsame (h.loginFail hlogin).1)
  | true =>
      by_cases hfill : FillsSlot req w.bank.bankAccounts
      · obtain ⟨⟨a, _, _, hset⟩, _⟩ := h.create hlogin hfill
        exact .inl ⟨hfill.1, some a, hset⟩
      by_cases hmove : MovesMoney req w.bank.bankAccounts
      · refine .inr fun id => ((h.transfer hlogin hmove).1 id).imp_right ?_
        rintro ⟨hid, hx⟩
        exact ⟨by simpa [operatesOn, hmove.1] using hid, hx⟩
      by_cases hshut : ShutsDown req
      · exact .inr (hsame (h.shutdown hlogin hshut).1)
      · exact .inr (hsame (h.otherwise hlogin hfill hmove hshut).1)

theorem Bank.setMutex_mutex_of_ne (b : Bank ι) {id j : UInt32} (o : Option ι) (h : j ≠ id) :
    (b.setMutex id o).mutex j = b.mutex j := by
  rw [setMutex_mutex, Function.update_of_ne h]

theorem Bank.lockBoth_mutex_of_ne (b : Bank ι) {i j k : UInt32} (hi : k ≠ i) (hj : k ≠ j) :
    (b.lockBoth me i j).mutex k = b.mutex k := by
  rw [lockBoth, setMutex_mutex_of_ne _ _ hj, setMutex_mutex_of_ne _ _ hi]

/-- Only a transfer leaves a mutex changed, and only one of its two. -/
theorem TransferExit.mutex_eq {w w' : World ι} (h : TransferExit me req w w') {k : UInt32}
    (hi : k ≠ req.headerId) (hj : k ≠ req.transferId) : w'.bank.mutex k = w.bank.mutex k := by
  cases h with
  | notAllowed | notFound | sameId => rfl
  | noFunds => exact w.bank.lockBoth_mutex_of_ne me hi hj
  | tooHigh => exact w.bank.lockBoth_mutex_of_ne me hi hj
  | done => rfl

theorem OpExit.mutex_eq {w w' : World ι} (h : OpExit sha256sum me salt req w w') {k : UInt32}
    (hk : k ∉ operatesOn req) : w'.bank.mutex k = w.bank.mutex k := by
  rcases h with ⟨_, h⟩ | ⟨_, h⟩ | ⟨ht, h⟩ | ⟨_, h⟩ | ⟨_, _, rfl⟩
  · cases h <;> rfl
  · cases h <;> rfl
  · have hne : k ≠ req.headerId ∧ k ≠ req.transferId := by simpa [operatesOn, ht] using hk
    exact h.mutex_eq me req hne.1 hne.2
  · cases h <;> rfl
  · rfl

theorem Exit.mutex_eq {w w' : World ι} (h : Exit sha256sum me salt req w w') {k : UInt32}
    (hk : k ∉ operatesOn req) : w'.bank.mutex k = w.bank.mutex k := by
  cases h with
  | loginFail => rfl
  | op w₁ _ hop => exact hop.mutex_eq sha256sum me salt req hk

theorem Exit.activeMutex_eq {w w' : World ι} (h : Exit sha256sum me salt req w w') :
    w'.bank.activeMutex = w.bank.activeMutex := by
  cases h with
  | loginFail => rfl
  | op w₁ _ hop => exact hop.activeMutex sha256sum me salt req

theorem Exit.read_eq {w w' : World ι} (h : Exit sha256sum me salt req w w') {k : Cell}
    (hk : k ∉ writesOf req) : w'.bank.read k = w.bank.read k := by
  have htable := (h.frame sha256sum me salt req).tableChange
  cases k with
  | mutex id => exact h.mutex_eq sha256sum me salt req hk
  | activeMutex => exact h.activeMutex_eq sha256sum me salt req
  | credentials id =>
      rcases htable with ⟨ht, e, hset⟩ | hbal
      · have hne : id ≠ req.createId := fun he => hk ⟨ht, he⟩
        exact congrArg credentials (by rw [hset, Function.update_of_ne hne])
      · exact hbal.credentials_eq id
  | entry id =>
      rcases htable with ⟨ht, e, hset⟩ | hbal
      · have hne : id ≠ req.createId := by
          rintro rfl
          exact hk (createId_mem_operatesOn req ht)
        exact (congrFun hset id).trans (Function.update_of_ne hne _ _)
      · exact hbal.eq_of_not hk

namespace Bank.SameAt

variable {ids : Finset UInt32} {b b' : Bank ι} (h : b.SameAt ids b')
include h

theorem setMutex (id : UInt32) (o : Option ι) :
    (b.setMutex id o).SameAt ids (b'.setMutex id o) where
  entries := h.entries
  mutexes j hj := by
    by_cases hne : j = id
    · subst j
      simp
    · rw [setMutex_mutex_of_ne _ _ hne, setMutex_mutex_of_ne _ _ hne, h.mutexes j hj]

theorem setAccount (id : UInt32) (a : BankAccount) :
    (b.setAccount id a).SameAt ids (b'.setAccount id a) where
  entries j hj := by
    by_cases hne : j = id
    · subst j
      simp
    · simp [hne, h.entries j hj]
  mutexes := h.mutexes

theorem setBalance (id x : UInt32) : (b.setBalance id x).SameAt ids (b'.setBalance id x) where
  entries j hj := by
    by_cases hne : j = id
    · rw [hne, setBalance_bankAccounts_self, setBalance_bankAccounts_self, ← hne, h.entries j hj]
    · rw [setBalance_bankAccounts_of_ne _ _ hne, setBalance_bankAccounts_of_ne _ _ hne,
        h.entries j hj]
  mutexes := h.mutexes

theorem lockBoth (i j : UInt32) : (b.lockBoth me i j).SameAt ids (b'.lockBoth me i j) :=
  (h.setMutex i (some me)).setMutex j (some me)

end Bank.SameAt

/-- What the user learns: the return code, and the balance when a balance check
or a transfer succeeds. -/
def reported (r : TlvReply) : RetCode × Option UInt32 :=
  (r.retCode, if r.retCode = .ok ∧ req.type ≠ .createAccount then some r.info else none)

section Local

variable {ids : Finset UInt32} {w w' : World ι} {b : Bank ι} (hsame : w.bank.SameAt ids b)
include hsame

theorem CreateExit.of_sameAt (ht : req.type = .createAccount) (hid : req.createId ∈ ids)
    (h : CreateExit sha256sum salt req w w') : ∃ b', w'.bank.SameAt ids b' ∧ ∀ reply, ∃ r,
      CreateExit sha256sum salt req ⟨b, reply⟩ ⟨b', r⟩ ∧
      reported req r = reported req w'.reply := by
  have hentry := hsame.entries _ hid
  cases h with
  | notAllowed hadmin => exact ⟨b, hsame, fun _ => ⟨_, .notAllowed hadmin, rfl⟩⟩
  | inUse hadmin hin hsome =>
      exact ⟨b, hsame, fun _ => ⟨_, .inUse hadmin hin (hentry ▸ hsome), rfl⟩⟩
  | done hadmin hin hnone hf =>
      refine ⟨_, hsame.setAccount _ _, fun _ => ⟨_, .done hadmin hin (hentry ▸ hnone)
        (hsame.mutexes _ hid ▸ hf), ?_⟩⟩
      simp [reported, ht, TlvReply.setRetCode, TlvReply.setAccountId]

theorem BalanceExit.of_sameAt (hid : req.headerId ∈ ids) (h : BalanceExit req w w') :
    ∃ b', w'.bank.SameAt ids b' ∧ ∀ reply, ∃ r, BalanceExit req ⟨b, reply⟩ ⟨b', r⟩ ∧
      reported req r = reported req w'.reply := by
  cases h with
  | notAllowed hadmin => exact ⟨b, hsame, fun _ => ⟨_, .notAllowed hadmin, rfl⟩⟩
  | done src hadmin hsrc hf =>
      exact ⟨b, hsame, fun _ => ⟨_, .done src hadmin (hsame.entries _ hid ▸ hsrc)
        (hsame.mutexes _ hid ▸ hf), rfl⟩⟩

theorem TransferExit.of_sameAt (hid : req.headerId ∈ ids) (hid' : req.transferId ∈ ids)
    (h : TransferExit me req w w') :
    ∃ b', w'.bank.SameAt ids b' ∧ ∀ reply, ∃ r, TransferExit me req ⟨b, reply⟩ ⟨b', r⟩ ∧
      reported req r = reported req w'.reply := by
  have hentry := hsame.entries _ hid'
  have hvalid : ∀ {src dst}, TransferValid req w.bank.bankAccounts src dst →
      TransferValid req b.bankAccounts src dst := fun hv =>
    { hv with source := hsame.entries _ hid ▸ hv.source, dest := hentry ▸ hv.dest }
  have hfree : TransferFree req w.bank → TransferFree req b := fun hf =>
    ⟨hsame.mutexes _ hid ▸ hf.1, hsame.mutexes _ hid' ▸ hf.2⟩
  have hlock := hsame.lockBoth me req.headerId req.transferId
  cases h with
  | notAllowed hadmin => exact ⟨b, hsame, fun _ => ⟨_, .notAllowed hadmin, rfl⟩⟩
  | notFound hadmin hin hnone =>
      exact ⟨b, hsame, fun _ => ⟨_, .notFound hadmin hin (hentry ▸ hnone), rfl⟩⟩
  | sameId hadmin hin hsome heq =>
      exact ⟨b, hsame, fun _ => ⟨_, .sameId hadmin hin (hentry ▸ hsome) heq, rfl⟩⟩
  | noFunds src dst hv hf hlow =>
      exact ⟨_, hlock, fun _ => ⟨_, .noFunds src dst (hvalid hv) (hfree hf) hlow, rfl⟩⟩
  | tooHigh src dst hv hf hfunds hhigh =>
      exact ⟨_, hlock.setBalance _ _, fun _ =>
        ⟨_, .tooHigh src dst (hvalid hv) (hfree hf) hfunds hhigh, rfl⟩⟩
  | done src dst hv hf hfunds hroom =>
      exact ⟨_, (hsame.setBalance _ _).setBalance _ _, fun _ =>
        ⟨_, .done src dst (hvalid hv) (hfree hf) hfunds hroom, rfl⟩⟩

end Local

/-- The operations on accounts, which any number of clients may request. -/
def OnAccounts : Prop :=
  req.type = .createAccount ∨ req.type = .balance ∨ req.type = .transfer

theorem OpExit.of_sameAt (hops : OnAccounts req) {w w' : World ι} {b : Bank ι}
    (hsame : w.bank.SameAt (operatesOn req) b) (h : OpExit sha256sum me salt req w w') :
    ∃ b', w'.bank.SameAt (operatesOn req) b' ∧ ∀ reply, ∃ r,
      OpExit sha256sum me salt req ⟨b, reply⟩ ⟨b', r⟩ ∧
      reported req r = reported req w'.reply := by
  rcases h with ⟨ht, h⟩ | ⟨ht, h⟩ | ⟨ht, h⟩ | ⟨ht, _⟩ | ⟨_, ht, _⟩
  · obtain ⟨b', hs, h'⟩ :=
      h.of_sameAt sha256sum salt req hsame ht (createId_mem_operatesOn req ht)
    exact ⟨b', hs, fun reply => (h' reply).imp fun r hr => ⟨.create ht hr.1, hr.2⟩⟩
  · obtain ⟨b', hs, h'⟩ := h.of_sameAt req hsame (by simp [operatesOn, ht])
    exact ⟨b', hs, fun reply => (h' reply).imp fun r hr => ⟨.balance ht hr.1, hr.2⟩⟩
  · obtain ⟨b', hs, h'⟩ := h.of_sameAt me req hsame (by simp [operatesOn, ht])
      (by simp [operatesOn, ht])
    exact ⟨b', hs, fun reply => (h' reply).imp fun r hr => ⟨.transfer ht hr.1, hr.2⟩⟩
  · simp [OnAccounts, ht] at hops
  · simp [OnAccounts, ht] at hops

/-- The login reads only the credentials of its account. -/
theorem loginOk_eq_of_credentials {t t' : Table}
    (h : credentials (t req.headerId) = credentials (t' req.headerId)) :
    loginOk sha256sum req t' = loginOk sha256sum req t := by
  unfold loginOk
  cases ha : t req.headerId with
  | none =>
      rw [ha] at h
      rw [Option.map_eq_none_iff.mp h.symm]
  | some a =>
      rw [ha] at h
      obtain ⟨a', ha', heq⟩ := Option.map_eq_some_iff.mp h.symm
      obtain ⟨hhash, hsalt⟩ := Prod.mk.inj heq
      simp only [ha', passwordMatches, hhash, hsalt]

theorem Exit.of_agreeOn (hops : OnAccounts req) {w w' : World ι} {b : Bank ι}
    (hagree : Footprint.AgreeOn Bank.read (readsOf req) w.bank b)
    (h : Exit sha256sum me salt req w w') :
    ∃ b', Footprint.AgreeOn Bank.read (writesOf req) w'.bank b' ∧ ∀ reply, ∃ r,
      Exit sha256sum me salt req ⟨b, reply⟩ ⟨b', r⟩ ∧
      reported req r = reported req w'.reply := by
  have hlogin' := loginOk_eq_of_credentials sha256sum req (hagree (.credentials req.headerId) rfl)
  have hsame := sameAt_of_agreeOn req hagree
  -- counting the office in changes neither entries nor mutexes
  have hbegun : (begun req w).bank.SameAt (operatesOn req) (begun req ⟨b, w.reply⟩).bank :=
    ⟨hsame.entries, hsame.mutexes⟩
  cases h with
  | loginFail hlogin =>
      exact ⟨_, hbegun.agreeOn req, fun _ => ⟨_, .loginFail (hlogin'.trans hlogin), rfl⟩⟩
  | op w₁ hlogin hop =>
      obtain ⟨b', hs, h'⟩ := hop.of_sameAt sha256sum me salt req hops hbegun
      refine ⟨{ b' with activeBankOffices := b'.activeBankOffices - 1 },
        Bank.SameAt.agreeOn req ⟨hs.entries, hs.mutexes⟩, fun reply => ?_⟩
      obtain ⟨r, hop', hr⟩ := h' (reply.start req.type)
      exact ⟨r, .op ⟨b', r⟩ (hlogin'.trans hlogin) hop', hr⟩

/-- Whatever the reply memory of the office holds, the request leaves the bank
`b'` and the user learns `ans`. -/
def Answered (b : Bank ι) (ans : RetCode × Option UInt32) (b' : Bank ι) : Prop :=
  ∀ reply, ∃ r, processRequest sha256sum me salt req ⟨b, reply⟩ = .ok ((), ⟨b', r⟩) ∧
    reported req r = ans

/-- A request that is answered once would be answered in the same way in every
bank with the same contents in the cells it reads. -/
theorem answered_of_agreeOn (hops : OnAccounts req) {w w' : World ι} {b : Bank ι}
    (hagree : Footprint.AgreeOn Bank.read (readsOf req) w.bank b)
    (h : processRequest sha256sum me salt req w = .ok ((), w')) :
    ∃ b', Answered sha256sum me salt req b (reported req w'.reply) b' ∧
      Footprint.AgreeOn Bank.read (writesOf req) w'.bank b' := by
  obtain ⟨hactive, hid, hexit⟩ := (processRequest_eq_ok sha256sum me salt req).mp h
  obtain ⟨b', hag, h'⟩ := hexit.of_agreeOn sha256sum me salt req hops hagree
  have hactive' : b.activeMutex = none := (hagree .activeMutex trivial).symm.trans hactive
  refine ⟨b', fun reply => ?_, hag⟩
  obtain ⟨r, hr, hrep⟩ := h' reply
  exact ⟨r, (processRequest_eq_ok sha256sum me salt req).mpr ⟨hactive', hid, hr⟩, hrep⟩

theorem exists_answered (hops : OnAccounts req) (hin : req.InArray) {b : Bank ι}
    (hfree : b.FreeFor req) : ∃ ans b', Answered sha256sum me salt req b ans b' := by
  obtain ⟨w', h⟩ := processRequest_returns_of_free sha256sum me salt req hin
    (w := ⟨b, ⟨req.type, 0, ⟨⟨0, .ok⟩, 0⟩⟩⟩) hfree
  obtain ⟨b', hb', _⟩ := answered_of_agreeOn sha256sum me salt req hops (fun _ _ => rfl) h
  exact ⟨_, b', hb'⟩

theorem answered_bounds (hops : OnAccounts req) : Footprint.Bounds Bank.read
    (Answered sha256sum me salt req) (readsOf req) (writesOf req) where
  frame h k hk := by
    obtain ⟨r, hr, _⟩ := h ⟨req.type, 0, ⟨⟨0, .ok⟩, 0⟩⟩
    exact ((processRequest_eq_ok sha256sum me salt req).mp hr).2.2.read_eq sha256sum me salt req hk
  congr h hagree := by
    obtain ⟨r, hr, rfl⟩ := h ⟨req.type, 0, ⟨⟨0, .ok⟩, 0⟩⟩
    exact answered_of_agreeOn sha256sum me salt req hops hagree hr

end Requests

/-- The requests operate on different accounts, and neither creates the account
the other logs in with. -/
structure Independent (req req' : TlvRequest) : Prop where
  accounts : Disjoint (operatesOn req) (operatesOn req')
  login : req.type = .createAccount → req.createId ≠ req'.headerId
  login' : req'.type = .createAccount → req'.createId ≠ req.headerId

namespace Independent

variable {req req' : TlvRequest} (h : Independent req req')
include h

theorem symm : Independent req' req := ⟨h.accounts.symm, h.login', h.login⟩

theorem disjoint_readsOf : Disjoint (writesOf req) (readsOf req') := by
  rw [Set.disjoint_left]
  intro k hw hr
  cases k with
  | credentials id =>
      obtain ⟨ht, rfl⟩ : req.type = .createAccount ∧ id = req.createId := hw
      exact h.login ht hr
  | entry id => exact Finset.disjoint_left.mp h.accounts hw hr
  | mutex id => exact Finset.disjoint_left.mp h.accounts hw hr
  | activeMutex => exact hw

theorem disjoint_writesOf : Disjoint (writesOf req) (writesOf req') := by
  rw [Set.disjoint_left]
  intro k hw hw'
  cases k with
  | credentials id =>
      obtain ⟨ht, rfl⟩ : req.type = .createAccount ∧ id = req.createId := hw
      obtain ⟨ht', he⟩ : req'.type = .createAccount ∧ req.createId = req'.createId := hw'
      exact Finset.disjoint_left.mp h.accounts (createId_mem_operatesOn req ht)
        (he ▸ createId_mem_operatesOn req' ht')
  | entry id => exact Finset.disjoint_left.mp h.accounts hw hw'
  | mutex id => exact Finset.disjoint_left.mp h.accounts hw hw'
  | activeMutex => exact hw

end Independent

/-- Requests on different accounts are answered in either order, with the same
answers, and both orders leave the same table and the same mutexes. -/
theorem processRequest_commute (sha256sum : CString → CString) (me me' : ι) (salt salt' : CString)
    (req req' : TlvRequest) (hops : OnAccounts req) (hops' : OnAccounts req')
    (hin : req.InArray) (hin' : req'.InArray) (hind : Independent req req') (b : Bank ι)
    (hfree : b.FreeFor req) (hfree' : b.FreeFor req') : ∃ ans ans' b₁ b₂ b₁₂ b₂₁,
      Answered sha256sum me salt req b ans b₁ ∧
      Answered sha256sum me' salt' req' b₁ ans' b₁₂ ∧
      Answered sha256sum me' salt' req' b ans' b₂ ∧
      Answered sha256sum me salt req b₂ ans b₂₁ ∧
      b₁₂.bankAccounts = b₂₁.bankAccounts ∧ b₁₂.mutex = b₂₁.mutex := by
  obtain ⟨ans, b₁, h₁⟩ := exists_answered sha256sum me salt req hops hin hfree
  obtain ⟨ans', b₂, h₂⟩ := exists_answered sha256sum me' salt' req' hops' hin' hfree'
  obtain ⟨b₁₂, b₂₁, h₁₂, h₂₁, hcells⟩ := (answered_bounds sha256sum me salt req hops).commute
    (answered_bounds sha256sum me' salt' req' hops') hind.disjoint_readsOf
    hind.symm.disjoint_readsOf hind.disjoint_writesOf h₁ h₂
  refine ⟨ans, ans', b₁, b₂, b₁₂, b₂₁, h₁, h₁₂, h₂, h₂₁, ?_, ?_⟩
  · ext1 id
    exact hcells (.entry id)
  · ext1 id
    exact hcells (.mutex id)

/-- A transfer that fails after its debit and the creation of a third account. -/
theorem processRequest_commute_tooHigh : ∃ ans ans' b₁ b₂ b₁₂ b₂₁,
    Answered Sample.sha256sum () Sample.salt (Sample.transfer 9 50)
      (Bank.idle (Sample.twoAccounts 100 1000000000)) ans b₁ ∧
    Answered Sample.sha256sum () Sample.salt (Sample.create 8 3 200 Sample.password₂)
      b₁ ans' b₁₂ ∧
    Answered Sample.sha256sum () Sample.salt (Sample.create 8 3 200 Sample.password₂)
      (Bank.idle (Sample.twoAccounts 100 1000000000)) ans' b₂ ∧
    Answered Sample.sha256sum () Sample.salt (Sample.transfer 9 50) b₂ ans b₂₁ ∧
    b₁₂.bankAccounts = b₂₁.bankAccounts ∧ b₁₂.mutex = b₂₁.mutex := by
  have hidle : (Bank.idle (Sample.twoAccounts 100 1000000000) : Bank Unit).Unlocked :=
    ⟨fun _ => rfl, rfl⟩
  have hind : Independent (Sample.transfer 9 50) (Sample.create 8 3 200 Sample.password₂) :=
    ⟨by decide, by simp [Sample.transfer], fun _ => by decide⟩
  exact processRequest_commute Sample.sha256sum () () Sample.salt Sample.salt _ _
    (.inr (.inr rfl)) (.inl rfl) (by decide) (by decide) hind _ (hidle.freeFor _)
    (hidle.freeFor _)

end HomeBanking
