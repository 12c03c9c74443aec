import HomeBanking.Queue
import HomeBanking.Offices

/-!
# The server

The main thread reads each message, field by field, into its one local variable
`request` and queues the address of this variable. An office takes an address
from the queue and reads the message through it at every step of
`processRequest` and `sendReply`.

## Implementation notes

All addresses in the queue are equal; the entries are the numbers of the
messages they were queued for, so that they can be told apart. `messages`
records `request` at each call of `processRequestServer`, `serving` the entry
an office has taken from a queue that was not empty.
-/

namespace HomeBanking

/-- The field that `readRequestServer` reads next. -/
inductive Reader
  | type
  | length
  | value
  deriving DecidableEq, Repr

/-- An action of an office and the entry it works on. -/
structure Event (n : ℕ) where
  office : Fin n
  entry : Option ℕ
  action : Action
  deriving DecidableEq, Repr

/-- The main thread with its variable `request`, the queue, the bank and the
offices; what happened so far is newest first. -/
structure Server (n : ℕ) where
  buffer : Buffer n ℕ
  reader : Reader
  request : TlvRequest
  bank : Bank (Fin n)
  offices : Fin n → Office
  messages : List TlvRequest
  serving : Fin n → Option ℕ
  trace : List (Event n)

/-- The main thread has read a field, a read fails, the main thread leaves the
read loop or takes a step outside of it; an office takes a step of its loop or
of its work on a request. -/
inductive ServerLabel (n : ℕ)
  | readType (type : OpType)
  | readLength (length : UInt32)
  | readValue (value : ReqValue)
  | readFails
  | leave
  | main
  | office (i : Fin n)
  | act (i : Fin n) (choice : Choice)

/-- A message that was received and is not queued yet. -/
def MainPc.owesEntry {α : Type} : MainPc α → ℕ
  | .waitNotFull _ | .writeRequest _ => 1
  | _ => 0

/-- Before the last look at the request, in `processRequest` and `sendReply`. -/
def Pc.reads : Pc → Bool
  | .idle | .replyWrite _ | .fault => false
  | _ => true

/-- Between taking an entry and the last look at the request. -/
def LoopPc.reads {α : Type} (pc : LoopPc α) (work : Pc) : Bool :=
  match pc with
  | .post _ => true
  | .work _ => work.reads
  | _ => false

namespace Server

variable {n : ℕ}

/-- What is in `request` after the step. -/
def stores (s : Server n) : ServerLabel n → TlvRequest
  | .readType type => { s.request with type := type }
  | .readLength length => { s.request with length := length }
  | .readValue value => { s.request with value := value }
  | _ => s.request

/-- A successful read of one field but the last. -/
def readField (s : Server n) (field following : Reader) (request : TlvRequest) :
    Option (Server n) :=
  if s.buffer.main = .reading ∧ s.reader = field then
    some { s with request := request, reader := following }
  else none

/-- The last read, and the call of `processRequestServer`. -/
def readLast (s : Server n) (request : TlvRequest) : Option (Server n) :=
  if s.reader = .value then
    (s.buffer.next (.submit s.messages.length)).map fun b => { s with
      buffer := b
      request := request
      reader := .type
      messages := s.messages ++ [request] }
  else none

/-- The entry at the head of a queue that is not empty. -/
def head (s : Server n) : Option ℕ :=
  if 0 < s.buffer.queue.itemsNo then some s.buffer.queue.readRequest.1 else none

/-- The loop of `runBankOffice`, around the work on a request. -/
def officeLoop (s : Server n) (i : Fin n) : Option (Server n) :=
  match s.buffer.offices i with
  | .read => (s.buffer.next (.office i)).map fun b =>
      { s with buffer := b, serving := Function.update s.serving i s.head }
  | .post _ => (s.buffer.next (.office i)).map fun b =>
      { s with
        buffer := b
        offices := Function.update s.offices i ((s.offices i).goto (.activeLock .enter)) }
  | .work _ =>
      if (s.offices i).pc = .idle then
        (s.buffer.next (.office i)).map fun b => { s with buffer := b }
      else none
  | _ => (s.buffer.next (.office i)).map fun b => { s with buffer := b }

def perform (s : Server n) (i : Fin n) (act : Action) (b : Bank (Fin n)) (o : Office) :
    Server n :=
  { s with
    buffer := if act = .setServerDown then { s.buffer with serverDown := true } else s.buffer
    bank := b
    offices := Function.update s.offices i o
    trace := ⟨i, s.serving i, act⟩ :: s.trace }

/-- A step of `processRequest` or `sendReply`. -/
def officeWork (sha256sum : CString → CString) (s : Server n) (i : Fin n) (choice : Choice) :
    Option (Server n) :=
  match s.buffer.offices i with
  | .work _ =>
      (officeStep sha256sum choice s.request s.bank (s.offices i)).bind fun p =>
        (s.bank.apply i p.1).map fun b => s.perform i p.1 b p.2
  | _ => none

/-- The next state; none when the step is not possible or has to wait. -/
def next (sha256sum : CString → CString) (s : Server n) : ServerLabel n → Option (Server n)
  | .readType type => s.readField .type .length (s.stores (.readType type))
  | .readLength length => s.readField .length .value (s.stores (.readLength length))
  | .readValue value => s.readLast (s.stores (.readValue value))
  | .readFails => s.readField s.reader .type s.request
  | .leave =>
      if s.reader = .type then (s.buffer.next .leave).map fun b => { s with buffer := b }
      else none
  | .main => (s.buffer.next .main).map fun b => { s with buffer := b }
  | .office i => s.officeLoop i
  | .act i choice => s.officeWork sha256sum i choice

/-- After `initServer`: nothing has been read, and the contents of `request` and
of the reply memory are arbitrary. -/
structure Start (t₀ : Table) (s : Server n) : Prop where
  buffer : s.buffer.Start
  reader : s.reader = .type
  bank : s.bank = Bank.idle t₀
  offices : ∀ i, (s.offices i).pc = .idle
  messages : s.messages = []
  serving : ∀ i, s.serving i = none
  trace : s.trace = []

end Server

section Runs

variable (sha256sum : CString → CString) (ok : TlvRequest → Prop) (t₀ : Table)

/-- The runs of the server with `n` offices over the accounts `t₀`, on messages
that satisfy `ok`. -/
def server (n : ℕ) : LTS (Server n) (ServerLabel n) where
  init := Server.Start t₀
  step s l s' := s.next sha256sum l = some s' ∧
    ∀ value, l = .readValue value → ok (s.stores l)

end Runs

namespace Server

variable {n : ℕ}

/-- The office still looks at the request it has taken. -/
def reads (s : Server n) (i : Fin n) : Bool := (s.buffer.offices i).reads (s.offices i).pc

/-- The state in which office `i` takes the entry at the head of the queue. -/
def take (s : Server n) (i : Fin n) : Server n :=
  { s with
    buffer := { s.buffer.goto i (.post s.buffer.queue.readRequest.1) with
      queue := s.buffer.queue.readRequest.2
      taken := s.buffer.taken ++ [(i, s.buffer.queue.readRequest.1)] }
    serving := Function.update s.serving i s.head }

/-- The state in which office `i` starts to work on entry `k`. -/
def begin (s : Server n) (i : Fin n) (k : ℕ) : Server n :=
  { s with
    buffer := { s.buffer.goto i (.work k) with notFull := s.buffer.notFull + 1 }
    offices := Function.update s.offices i ((s.offices i).goto (.activeLock .enter)) }

/-- The branches of a step. -/
inductive Step (sha256sum : CString → CString) (s : Server n) :
    ServerLabel n → Server n → Prop
  | store (l reader) (hm : s.buffer.main = .reading) (hl : ∀ value, l ≠ .readValue value) :
      Step sha256sum s l { s with request := s.stores l, reader := reader }
  | submit (value) (hm : s.buffer.main = .reading) :
      Step sha256sum s (.readValue value) { s with
        buffer := { s.buffer with main := .waitNotFull s.messages.length }
        request := s.stores (.readValue value)
        reader := .type
        messages := s.messages ++ [s.stores (.readValue value)] }
  | leave (b) (hb : s.buffer.next .leave = some b) :
      Step sha256sum s .leave { s with buffer := b }
  | main (b) (hb : s.buffer.next .main = some b) : Step sha256sum s .main { s with buffer := b }
  | loop (i b) (hb : s.buffer.next (.office i) = some b) (hread : s.buffer.offices i ≠ .read)
      (hpost : ∀ k, s.buffer.offices i ≠ .post k)
      (hidle : ∀ k, s.buffer.offices i = .work k → (s.offices i).pc = .idle) :
      Step sha256sum s (.office i) { s with buffer := b }
  | take (i) (hi : s.buffer.offices i = .read) : Step sha256sum s (.office i) (s.take i)
  | begin (i k) (hi : s.buffer.offices i = .post k) :
      Step sha256sum s (.office i) (s.begin i k)
  | act (i k choice act b o) (hi : s.buffer.offices i = .work k)
      (hstep : officeStep sha256sum choice s.request s.bank (s.offices i) = some (act, o))
      (hb : s.bank.apply i act = some b) :
      Step sha256sum s (.act i choice) (s.perform i act b o)

theorem readField_cases {s s' : Server n} {field following : Reader} {request : TlvRequest}
    (h : s.readField field following request = some s') :
    s.buffer.main = .reading ∧ s' = { s with request := request, reader := following } := by
  unfold readField at h
  split at h
  · rename_i hc
    exact ⟨hc.1, (Option.some.inj h).symm⟩
  · cases h

theorem readLast_cases {s s' : Server n} {request : TlvRequest}
    (h : s.readLast request = some s') :
    s.buffer.main = .reading ∧ s' = { s with
      buffer := { s.buffer with main := .waitNotFull s.messages.length }
      request := request
      reader := .type
      messages := s.messages ++ [request] } := by
  unfold readLast at h
  split at h
  · obtain ⟨b, hb, rfl⟩ := Option.map_eq_some_iff.mp h
    cases Buffer.step_cases hb with
    | submit _ hm => exact ⟨hm, rfl⟩
  · cases h

theorem step_cases_office {sha256sum : CString → CString} {s s' : Server n} {i : Fin n}
    (h : s.officeLoop i = some s') : Step sha256sum s (.office i) s' := by
  unfold officeLoop at h
  split at h
  · rename_i hi
    obtain ⟨b, hb, rfl⟩ := Option.map_eq_some_iff.mp h
    simp only [Buffer.next, Buffer.officeStep, hi, Option.some.injEq] at hb
    subst hb
    exact .take i hi
  · rename_i k hi
    obtain ⟨b, hb, rfl⟩ := Option.map_eq_some_iff.mp h
    simp only [Buffer.next, Buffer.officeStep, hi, Option.some.injEq] at hb
    subst hb
    exact .begin i k hi
  · rename_i k hi
    split at h
    · rename_i hidle
      obtain ⟨b, hb, rfl⟩ := Option.map_eq_some_iff.mp h
      refine .loop i b hb ?_ ?_ fun _ _ => hidle
      · rw [hi]
        exact fun hc => by cases hc
      · intro k hk
        rw [hi] at hk
        cases hk
    · cases h
  · rename_i hread hpost hwork
    obtain ⟨b, hb, rfl⟩ := Option.map_eq_some_iff.mp h
    exact .loop i b hb hread hpost fun k hk => absurd hk (hwork k)

/-- A step of the work on a request. -/
theorem act_cases {sha256sum : CString → CString} {s s' : Server n} {i : Fin n} {choice : Choice}
    (h : s.next sha256sum (.act i choice) = some s') : ∃ k act b o,
      s.buffer.offices i = .work k ∧
      officeStep sha256sum choice s.request s.bank (s.offices i) = some (act, o) ∧
      s.bank.apply i act = some b ∧ s' = s.perform i act b o := by
  simp only [next, officeWork] at h
  split at h
  · rename_i k hi
    simp only [Option.bind_eq_some_iff, Option.map_eq_some_iff] at h
    obtain ⟨⟨act, o⟩, hstep, b, hb, hs'⟩ := h
    exact ⟨k, act, b, o, hi, hstep, hb, hs'.symm⟩
  · cases h

/-- Every step is one of the listed branches. -/
theorem step_cases {sha256sum : CString → CString} {s s' : Server n} {l : ServerLabel n}
    (h : s.next sha256sum l = some s') : Step sha256sum s l s' := by
  cases l with
  | readType | readLength | readFails =>
      obtain ⟨hm, rfl⟩ := readField_cases h
      exact .store _ _ hm fun _ hc => by cases hc
  | readValue value =>
      obtain ⟨hm, rfl⟩ := readLast_cases h
      exact .submit value hm
  | leave =>
      simp only [next] at h
      split at h
      · obtain ⟨b, hb, rfl⟩ := Option.map_eq_some_iff.mp h
        exact .leave b hb
      · cases h
  | main =>
      obtain ⟨b, hb, rfl⟩ := Option.map_eq_some_iff.mp h
      exact .main b hb
  | office i => exact step_cases_office h
  | act i choice =>
      obtain ⟨k, act, b, o, hi, hstep, hb, rfl⟩ := act_cases h
      exact .act i k choice act b o hi hstep hb

section Projection

variable {sha256sum : CString → CString} {ok : TlvRequest → Prop} {t₀ : Table}

/-- A step of the server is one of the queue and the threads around it, or does
not concern them. -/
theorem Step.buffer {s s' : Server n} {l : ServerLabel n} (hs : Step sha256sum s l s') :
    s'.buffer = s.buffer ∨ ∃ bl, s.buffer.next bl = some s'.buffer ∧
      ∀ i, bl = .office i → l = .office i := by
  cases hs with
  | store => exact .inl rfl
  | submit value hm =>
      refine .inr ⟨.submit s.messages.length, ?_, fun i hi => by cases hi⟩
      simp only [Buffer.next, hm]
  | leave b hb => exact .inr ⟨.leave, hb, fun i hi => by cases hi⟩
  | main b hb => exact .inr ⟨.main, hb, fun i hi => by cases hi⟩
  | loop i b hb => exact .inr ⟨.office i, hb, fun j hj => by cases hj; rfl⟩
  | take i hi =>
      refine .inr ⟨.office i, ?_, fun j hj => by cases hj; rfl⟩
      simp only [Buffer.next, Buffer.officeStep, hi]
      rfl
  | begin i k hi =>
      refine .inr ⟨.office i, ?_, fun j hj => by cases hj; rfl⟩
      simp only [Buffer.next, Buffer.officeStep, hi]
      rfl
  | act i k choice act b o hi hstep hb =>
      by_cases hact : act = .setServerDown
      · refine .inr ⟨.shutdown i, ?_, fun j hj => by cases hj⟩
        simp only [Buffer.next, hi, perform, hact, if_true]
      · refine .inl ?_
        simp only [perform, hact, if_false]

/-- The queue and the threads around it run as they do alone. -/
theorem buffer_simulation : LTS.Simulation (server sha256sum ok t₀ n) (Buffer.runs n ℕ)
    fun s b => b = s.buffer where
  init s hs := ⟨s.buffer, hs.buffer, rfl⟩
  step s l s' b _ hs hb := by
    subst hb
    rcases (step_cases hs.1).buffer with hsame | ⟨bl, hnext, -⟩
    · exact .inl hsame.symm
    · exact .inr ⟨bl, s'.buffer, hnext, rfl⟩

theorem reachable_buffer {s : Server n} (h : (server sha256sum ok t₀ n).Reachable s) :
    (Buffer.runs n ℕ).Reachable s.buffer := by
  obtain ⟨b, hb, rfl⟩ := buffer_simulation.reachable h
  exact hb

end Projection

section Results

variable {sha256sum : CString → CString} {ok : TlvRequest → Prop} {t₀ : Table} {s : Server n}

/-- A step of the loop of an office that neither takes an entry nor starts to
work on one. -/
theorem loop_cases {b : Buffer n ℕ} {i : Fin n} (hb : Buffer.Step s.buffer (.office i) b)
    (hread : s.buffer.offices i ≠ .read) (hpost : ∀ k, s.buffer.offices i ≠ .post k) :
    b.main = s.buffer.main ∧ b.queue = s.buffer.queue ∧
      ∃ pc, b.offices = Function.update s.buffer.offices i pc ∧ ∀ work, pc.reads work = false := by
  cases hb with
  | read _ hi => exact absurd hi hread
  | post _ k hi => exact absurd hi (hpost k)
  | _ => exact ⟨rfl, rfl, _, rfl, fun _ => rfl⟩

theorem perform_buffer_offices (s : Server n) (i : Fin n) (act : Action) (b : Bank (Fin n))
    (o : Office) : (s.perform i act b o).buffer.offices = s.buffer.offices := by
  unfold perform
  dsimp only
  split <;> rfl

/-- An office outside its work is idle. -/
def Resting (s : Server n) : Prop :=
  ∀ i, (∀ k, s.buffer.offices i ≠ .work k) → (s.offices i).pc = .idle

theorem Resting.loop (h : s.Resting) {b : Buffer n ℕ} {i : Fin n}
    (hb : Buffer.Step s.buffer (.office i) b) (hread : s.buffer.offices i ≠ .read)
    (hpost : ∀ k, s.buffer.offices i ≠ .post k)
    (hidle : ∀ k, s.buffer.offices i = .work k → (s.offices i).pc = .idle) :
    Resting { s with buffer := b } := by
  obtain ⟨-, -, pc, hoffices, -⟩ := loop_cases hb hread hpost
  intro j hj
  change ∀ k, b.offices j ≠ _ at hj
  rw [hoffices] at hj
  by_cases hji : j = i
  · subst j
    by_cases hwork : ∃ k, s.buffer.offices i = .work k
    · obtain ⟨k, hk⟩ := hwork
      exact hidle k hk
    · exact h i fun k hk => hwork ⟨k, hk⟩
  · rw [Function.update_of_ne hji] at hj
    exact h j hj

theorem Resting.take (h : s.Resting) {i : Fin n} (hi : s.buffer.offices i = .read) :
    (s.take i).Resting := by
  intro j hj
  by_cases hji : j = i
  · subst j
    exact h i fun k hk => by rw [hi] at hk; cases hk
  · change ∀ k, Function.update s.buffer.offices i _ j ≠ _ at hj
    rw [Function.update_of_ne hji] at hj
    exact h j hj

theorem Resting.begin (h : s.Resting) (i : Fin n) (k : ℕ) : (s.begin i k).Resting := by
  intro j hj
  by_cases hji : j = i
  · subst j
    exact (hj k (Function.update_self ..)).elim
  · change ∀ k', Function.update s.buffer.offices i _ j ≠ _ at hj
    rw [Function.update_of_ne hji] at hj
    change (Function.update s.offices i _ j).pc = .idle
    rw [Function.update_of_ne hji]
    exact h j hj

theorem Resting.act (h : s.Resting) {i : Fin n} {e : ℕ} (hi : s.buffer.offices i = .work e)
    (act : Action) (b : Bank (Fin n)) (o : Office) : (s.perform i act b o).Resting := by
  intro j hj
  rw [perform_buffer_offices] at hj
  have hji : j ≠ i := by
    intro hji
    subst j
    exact hj e hi
  change (Function.update s.offices i o j).pc = .idle
  rw [Function.update_of_ne hji]
  exact h j hj

theorem resting (h : (server sha256sum ok t₀ n).Reachable s) : s.Resting := by
  apply h.invariant (I := fun s : Server n => s.Resting)
  · exact fun s hs i _ => hs.offices i
  · intro s l s' _ hrest hs
    cases step_cases hs.1 with
    | store | submit => exact hrest
    | leave b hb | main b hb =>
        have hoffices := (Buffer.step_cases hb).offices_eq fun i hi => by cases hi
        intro i hi
        change ∀ k, b.offices i ≠ _ at hi
        rw [hoffices] at hi
        exact hrest i hi
    | loop i b hb hread hpost hidle => exact hrest.loop (Buffer.step_cases hb) hread hpost hidle
    | take i hi => exact hrest.take hi
    | begin i k hi => exact hrest.begin i k
    | act i k choice act b o hi => exact hrest.act hi act b o

/-- Entry `k` is the `k`-th to be queued, and is queued for message `k`. -/
structure Numbered (s : Server n) : Prop where
  written : s.buffer.written = List.range s.buffer.written.length
  messages : s.messages.length = s.buffer.written.length + s.buffer.main.owesEntry
  next : ∀ k, s.buffer.main = .waitNotFull k ∨ s.buffer.main = .writeRequest k →
    k = s.buffer.written.length

theorem Numbered.main (h : s.Numbered) {b : Buffer n ℕ} (hb : Buffer.Step s.buffer .main b) :
    Numbered { s with buffer := b } := by
  have hmessages := h.messages
  cases hb with
  | waitNotFull k hm =>
      rw [hm] at hmessages
      refine ⟨h.written, hmessages, ?_⟩
      intro k' hk
      rcases hk with hk | hk
      · cases hk
      · cases hk
        exact h.next k (.inl hm)
  | writeRequest k hm =>
      rw [hm] at hmessages
      have hk := h.next k (.inr hm)
      refine ⟨?_, ?_, fun k' hk => by rcases hk with hk | hk <;> cases hk⟩
      · change s.buffer.written ++ [k] = List.range (s.buffer.written ++ [k]).length
        rw [List.length_append, List.length_singleton, List.range_succ, ← h.written, hk]
      · change s.messages.length = (s.buffer.written ++ [k]).length + 0
        rw [List.length_append]
        exact hmessages
  | postNotEmpty hm | drainMore hm | drainDone hm | drainWait hm | drainPost hm | closing _ hm =>
      rw [hm] at hmessages
      exact ⟨h.written, hmessages, fun k' hk => by rcases hk with hk | hk <;> cases hk⟩

theorem numbered (h : (server sha256sum ok t₀ n).Reachable s) : s.Numbered := by
  apply h.invariant (I := fun s : Server n => s.Numbered)
  · intro s hs
    constructor
    · rw [hs.buffer.written]
      rfl
    · rw [hs.buffer.written, hs.messages, hs.buffer.main]
      rfl
    · intro k hk
      rw [hs.buffer.main] at hk
      rcases hk with hk | hk <;> cases hk
  · intro s l s' _ hnum hs
    have hmessages := hnum.messages
    cases step_cases hs.1 with
    | store => exact ⟨hnum.written, hmessages, hnum.next⟩
    | submit value hm =>
        rw [hm] at hmessages
        refine ⟨hnum.written, ?_, ?_⟩
        · change (s.messages ++ [_]).length = s.buffer.written.length + 1
          rw [List.length_append, hmessages]
          rfl
        · intro k hk
          rcases hk with hk | hk
          · cases hk
            exact hmessages
          · cases hk
    | leave b hb =>
        cases Buffer.step_cases hb with
        | leave hm =>
            rw [hm] at hmessages
            exact ⟨hnum.written, hmessages, fun k hk => by rcases hk with hk | hk <;> cases hk⟩
    | main b hb => exact hnum.main (Buffer.step_cases hb)
    | loop i b hb hread =>
        cases Buffer.step_cases hb with
        | read _ hi => exact absurd hi hread
        | _ => exact ⟨hnum.written, hmessages, hnum.next⟩
    | take | begin => exact ⟨hnum.written, hmessages, hnum.next⟩
    | act i k choice act b o =>
        unfold perform
        constructor <;> dsimp only <;> split
        · exact hnum.written
        · exact hnum.written
        · exact hmessages
        · exact hmessages
        · exact hnum.next
        · exact hnum.next

end Results

section Schedules

/-- A server over the accounts `t` whose offices wait. -/
def start (n : ℕ) (t : Table) : Server n where
  buffer := Buffer.start n 0
  reader := .type
  request := Sample.shutdown 0
  bank := Bank.idle t
  offices := fun _ => ⟨.idle, Sample.emptyReply⟩
  messages := []
  serving := fun _ => none
  trace := []

variable {t : Table}

theorem start_start (hn : 0 < n) : (start n t).Start t :=
  ⟨Buffer.start_start hn 0, rfl, rfl, fun _ => rfl, rfl, fun _ => rfl, rfl⟩

/-- A schedule leads to a reachable state. -/
theorem execute_server (hn : 0 < n) (ls : List (ServerLabel n)) {α : Type} {f : Server n → α}
    {a : α} (he : (LTS.execute (next Sample.sha256sum) (start n t) ls).map f = some a) :
    ∃ s, (server Sample.sha256sum (fun _ => True) t n).Reachable s ∧ f s = a :=
  LTS.Reachable.exists_execute (fun _ _ _ h => ⟨h, fun _ _ => trivial⟩)
    (LTS.Reachable.init (start_start hn)) he

/-- A schedule whose steps pass a test leads to a reachable state of the guarded server. -/
theorem execute_guarded (hn : 0 < n) {C : Server n → ServerLabel n → Prop}
    {test : Server n → ServerLabel n → Bool} (htest : ∀ s l, test s l = true → C s l)
    (ls : List (ServerLabel n)) {α : Type} {f : Server n → α} {a : α}
    (he : (LTS.execute (LTS.nextIf (next Sample.sha256sum) test) (start n t) ls).map f = some a) :
    ∃ s, ((server Sample.sha256sum (fun _ => True) t n).guard C).Reachable s ∧ f s = a :=
  LTS.Reachable.exists_execute_guard (fun _ _ _ h => ⟨h, fun _ _ => trivial⟩) htest
    (start_start hn) he

/-- The main thread reads a message. -/
def receive (req : TlvRequest) : List (ServerLabel n) :=
  [.readType req.type, .readLength req.length, .readValue req.value]

/-- The main thread queues the message it has read. -/
def enqueue : List (ServerLabel n) := List.replicate 3 .main

/-- Office `i` takes an entry and does `k` steps of its work. -/
def serve (i : Fin n) (k : ℕ) : List (ServerLabel n) :=
  List.replicate 4 (.office i) ++ List.replicate k (.act i Sample.choice)

/-- A message is read, queued and answered by office `i`, in `k` steps of its work. -/
def answer (i : Fin n) (req : TlvRequest) (k : ℕ) : List (ServerLabel n) :=
  receive req ++ enqueue ++ serve i k ++ [.office i]

end Schedules

end Server

end HomeBanking
