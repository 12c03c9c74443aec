import HomeBanking.Types
import HomeBanking.Lib.Ring
import HomeBanking.Lib.Threads
import HomeBanking.Lib.Transition

/-!
# The request queue between the main thread and the offices

`queue.c`, the two semaphores of `synch.c`, and the threads that use them: the
main thread in `readRequestServer` and `closeBankOffices`, and the offices in
`runBankOffice`. What an office does with a request is one `work` here, in
which it may set `serverDown`.

## Implementation notes

The bodies of `readRequest` and `writeRequest` run under `queueLock` and are
one step each; the unlocked tests of `itemsNo` and of `serverDown` are steps of
their own. `written` and `taken` record the calls.
-/

namespace HomeBanking

/-- `queue_t`, over any kind of entries. -/
structure Queue (α : Type) where
  requests : ℤ → α
  size : ℤ
  readP : ℤ
  writeP : ℤ
  itemsNo : ℤ

namespace Queue

variable {α : Type}

def readRequest (q : Queue α) : α × Queue α :=
  (q.requests q.readP,
    { q with readP := (q.readP + 1).tmod q.size, itemsNo := q.itemsNo - 1 })

def writeRequest (q : Queue α) (request : α) : Queue α :=
  { q with
    requests := Function.update q.requests q.writeP request
    writeP := (q.writeP + 1).tmod q.size
    itemsNo := q.itemsNo + 1 }

/-- The queue holds the entries of the list, oldest first. -/
structure Contains (q : Queue α) (xs : List α) : Prop where
  holds : Ring.Holds q.requests q.size q.readP q.writeP xs
  itemsNo : q.itemsNo = xs.length

theorem tmod_eq_cell {i size : ℤ} (h : 0 ≤ i) (hlt : i < size) :
    (i + 1).tmod size = Ring.cell size i 1 := by
  rw [Ring.cell_one_eq_emod h hlt, Int.tmod_eq_emod_of_nonneg (by omega)]

theorem Contains.readRequest {q : Queue α} {x : α} {xs : List α} (h : q.Contains (x :: xs)) :
    q.readRequest.1 = x ∧ q.readRequest.2.Contains xs := by
  refine ⟨h.holds.cells_head, ?_, ?_⟩
  · change Ring.Holds q.requests q.size ((q.readP + 1).tmod q.size) q.writeP xs
    rw [tmod_eq_cell h.holds.head_nonneg h.holds.head_lt]
    exact h.holds.pop
  · have hitems := h.itemsNo
    rw [List.length_cons] at hitems
    change q.itemsNo - 1 = xs.length
    push_cast at hitems
    omega

/-- With a positive number of entries there is an oldest one. -/
theorem Contains.exists_cons {q : Queue α} {xs : List α} (h : q.Contains xs)
    (hpos : 0 < q.itemsNo) : ∃ x xs', xs = x :: xs' := by
  cases xs with
  | nil =>
      rw [h.itemsNo] at hpos
      exact absurd hpos (lt_irrefl 0)
  | cons x xs' => exact ⟨x, xs', rfl⟩

theorem Contains.writeRequest {q : Queue α} {xs : List α} (h : q.Contains xs)
    (hroom : q.itemsNo < q.size) (a : α) : (q.writeRequest a).Contains (xs ++ [a]) := by
  have hlen := h.itemsNo
  constructor
  · change Ring.Holds (Function.update q.requests q.writeP a) q.size q.readP
      ((q.writeP + 1).tmod q.size) (xs ++ [a])
    have htail := h.holds.tail_eq
    have hhead := h.holds.head_nonneg
    have hlt := h.holds.head_lt
    rw [tmod_eq_cell]
    · exact h.holds.push (by omega) a
    · rw [htail]
      exact Ring.cell_nonneg hhead (by omega)
    · rw [htail]
      exact Ring.cell_lt hlt (by omega)
  · change q.itemsNo + 1 = _
    rw [List.length_append, List.length_singleton]
    push_cast
    omega

end Queue

/-- The main thread: in the read loop, in the drain loop, and in
`closeBankOffices` after `posted` wake-up posts. -/
inductive MainPc (α : Type)
  | reading
  | waitNotFull (request : α)
  | writeRequest (request : α)
  | postNotEmpty
  | drainTest
  | drainWait
  | drainPost
  | closing (posted : ℕ)
  deriving DecidableEq, Repr

/-- An office in the loop of `runBankOffice`. -/
inductive LoopPc (α : Type)
  | wait
  | testDown
  | testItems
  | read
  | post (request : α)
  | work (request : α)
  | exited
  deriving DecidableEq, Repr

/-- The queue, the values of the semaphores, and the threads. -/
structure Buffer (n : ℕ) (α : Type) where
  queue : Queue α
  notFull : ℕ
  notEmpty : ℕ
  serverDown : Bool
  main : MainPc α
  offices : Fin n → LoopPc α
  written : List α
  taken : List (Fin n × α)

/-- The main thread has read a message, leaves the read loop or takes its next
step; an office takes its next step or sets `serverDown` while it works. -/
inductive BufferLabel (n : ℕ) (α : Type)
  | submit (request : α)
  | leave
  | main
  | office (i : Fin n)
  | shutdown (i : Fin n)

namespace Buffer

variable {n : ℕ} {α : Type}

def goto (s : Buffer n α) (i : Fin n) (pc : LoopPc α) : Buffer n α :=
  { s with offices := Function.update s.offices i pc }

def mainStep (s : Buffer n α) : Option (Buffer n α) :=
  match s.main with
  | .reading => none
  | .waitNotFull a =>
      if 0 < s.notFull then some { s with notFull := s.notFull - 1, main := .writeRequest a }
      else none
  | .writeRequest a => some { s with
      queue := s.queue.writeRequest a
      written := s.written ++ [a]
      main := .postNotEmpty }
  | .postNotEmpty => some { s with notEmpty := s.notEmpty + 1, main := .reading }
  | .drainTest =>
      if s.queue.itemsNo ≠ 0 then some { s with main := .drainWait }
      else some { s with main := .closing 0 }
  | .drainWait =>
      if 0 < s.notFull then some { s with notFull := s.notFull - 1, main := .drainPost }
      else none
  | .drainPost => some { s with notEmpty := s.notEmpty + 1, main := .drainTest }
  | .closing posted =>
      if posted < n then
        some { s with notEmpty := s.notEmpty + 1, main := .closing (posted + 1) }
      else none

def officeStep (s : Buffer n α) (i : Fin n) : Option (Buffer n α) :=
  match s.offices i with
  | .wait =>
      if 0 < s.notEmpty then some { s.goto i .testDown with notEmpty := s.notEmpty - 1 }
      else none
  | .testDown => some (if s.serverDown then s.goto i .testItems else s.goto i .read)
  | .testItems => some (if s.queue.itemsNo = 0 then s.goto i .exited else s.goto i .read)
  | .read => some { s.goto i (.post s.queue.readRequest.1) with
      queue := s.queue.readRequest.2
      taken := s.taken ++ [(i, s.queue.readRequest.1)] }
  | .post a => some { s.goto i (.work a) with notFull := s.notFull + 1 }
  | .work _ => some (s.goto i .wait)
  | .exited => none

/-- The next state; none when the step is not possible or has to wait. -/
def next (s : Buffer n α) : BufferLabel n α → Option (Buffer n α)
  | .submit a =>
      match s.main with
      | .reading => some { s with main := .waitNotFull a }
      | _ => none
  | .leave =>
      match s.main with
      | .reading => if s.serverDown then some { s with main := .drainTest } else none
      | _ => none
  | .main => s.mainStep
  | .office i => s.officeStep i
  | .shutdown i =>
      match s.offices i with
      | .work _ => some { s with serverDown := true }
      | _ => none

/-- After `initSynch` and `createQueue`, with an empty queue of the size of the
number of offices. -/
structure Start (s : Buffer n α) : Prop where
  readP : 0 ≤ s.queue.readP ∧ s.queue.readP < n
  writeP : s.queue.writeP = s.queue.readP
  size : s.queue.size = n
  itemsNo : s.queue.itemsNo = 0
  notFull : s.notFull = n
  notEmpty : s.notEmpty = 0
  serverDown : s.serverDown = false
  main : s.main = .reading
  offices : ∀ i, s.offices i = .wait
  written : s.written = []
  taken : s.taken = []

/-- The runs of the main thread and `n` offices from an empty queue. -/
def runs (n : ℕ) (α : Type) : LTS (Buffer n α) (BufferLabel n α) where
  init := Start
  step s l s' := s.next l = some s'

/-- The branches of a step. -/
inductive Step (s : Buffer n α) : BufferLabel n α → Buffer n α → Prop
  | submit (a) (hm : s.main = .reading) : Step s (.submit a) { s with main := .waitNotFull a }
  | leave (hm : s.main = .reading) (hd : s.serverDown = true) :
      Step s .leave { s with main := .drainTest }
  | waitNotFull (a) (hm : s.main = .waitNotFull a) (hpos : 0 < s.notFull) :
      Step s .main { s with notFull := s.notFull - 1, main := .writeRequest a }
  | writeRequest (a) (hm : s.main = .writeRequest a) :
      Step s .main { s with
        queue := s.queue.writeRequest a
        written := s.written ++ [a]
        main := .postNotEmpty }
  | postNotEmpty (hm : s.main = .postNotEmpty) :
      Step s .main { s with notEmpty := s.notEmpty + 1, main := .reading }
  | drainMore (hm : s.main = .drainTest) (hitems : s.queue.itemsNo ≠ 0) :
      Step s .main { s with main := .drainWait }
  | drainDone (hm : s.main = .drainTest) (hitems : s.queue.itemsNo = 0) :
      Step s .main { s with main := .closing 0 }
  | drainWait (hm : s.main = .drainWait) (hpos : 0 < s.notFull) :
      Step s .main { s with notFull := s.notFull - 1, main := .drainPost }
  | drainPost (hm : s.main = .drainPost) :
      Step s .main { s with notEmpty := s.notEmpty + 1, main := .drainTest }
  | closing (posted) (hm : s.main = .closing posted) (hlt : posted < n) :
      Step s .main { s with notEmpty := s.notEmpty + 1, main := .closing (posted + 1) }
  | wait (i) (hi : s.offices i = .wait) (hpos : 0 < s.notEmpty) :
      Step s (.office i) { s.goto i .testDown with notEmpty := s.notEmpty - 1 }
  | up (i) (hi : s.offices i = .testDown) (hd : s.serverDown = false) :
      Step s (.office i) (s.goto i .read)
  | down (i) (hi : s.offices i = .testDown) (hd : s.serverDown = true) :
      Step s (.office i) (s.goto i .testItems)
  | exit (i) (hi : s.offices i = .testItems) (hitems : s.queue.itemsNo = 0) :
      Step s (.office i) (s.goto i .exited)
  | stay (i) (hi : s.offices i = .testItems) (hitems : s.queue.itemsNo ≠ 0) :
      Step s (.office i) (s.goto i .read)
  | read (i) (hi : s.offices i = .read) :
      Step s (.office i) { s.goto i (.post s.queue.readRequest.1) with
        queue := s.queue.readRequest.2
        taken := s.taken ++ [(i, s.queue.readRequest.1)] }
  | post (i a) (hi : s.offices i = .post a) :
      Step s (.office i) { s.goto i (.work a) with notFull := s.notFull + 1 }
  | work (i a) (hi : s.offices i = .work a) : Step s (.office i) (s.goto i .wait)
  | shutdown (i a) (hi : s.offices i = .work a) :
      Step s (.shutdown i) { s with serverDown := true }

theorem mainStep_cases {s s' : Buffer n α} (h : s.mainStep = some s') : Step s .main s' := by
  unfold mainStep at h
  split at h
  · cases h
  · rename_i a hm
    split at h
    · rename_i hpos
      cases h
      exact .waitNotFull a hm hpos
    · cases h
  · rename_i a hm
    cases h
    exact .writeRequest a hm
  · rename_i hm
    cases h
    exact .postNotEmpty hm
  · rename_i hm
    split at h
    · rename_i hitems
      cases h
      exact .drainMore hm hitems
    · rename_i hitems
      cases h
      exact .drainDone hm (not_not.mp hitems)
  · rename_i hm
    split at h
    · rename_i hpos
      cases h
      exact .drainWait hm hpos
    · cases h
  · rename_i hm
    cases h
    exact .drainPost hm
  · rename_i posted hm
    split at h
    · rename_i hlt
      cases h
      exact .closing posted hm hlt
    · cases h

theorem officeStep_cases {s s' : Buffer n α} {i : Fin n} (h : s.officeStep i = some s') :
    Step s (.office i) s' := by
  unfold officeStep at h
  split at h
  · rename_i hi
    split at h
    · rename_i hpos
      cases h
      exact .wait i hi hpos
    · cases h
  · rename_i hi
    split at h
    · rename_i hd
      cases h
      exact .down i hi hd
    · rename_i hd
      cases h
      exact .up i hi (by simpa using hd)
  · rename_i hi
    split at h
    · rename_i hitems
      cases h
      exact .exit i hi hitems
    · rename_i hitems
      cases h
      exact .stay i hi hitems
  · rename_i hi
    cases h
    exact .read i hi
  · rename_i a hi
    cases h
    exact .post i a hi
  · rename_i a hi
    cases h
    exact .work i a hi
  · cases h

/-- Every step is one of the listed branches. -/
theorem step_cases {s s' : Buffer n α} {l : BufferLabel n α} (h : s.next l = some s') :
    Step s l s' := by
  cases l with
  | submit a =>
      simp only [next] at h
      split at h
      · rename_i hm
        cases h
        exact .submit a hm
      · cases h
  | leave =>
      simp only [next] at h
      split at h
      · rename_i hm
        split at h
        · rename_i hd
          cases h
          exact .leave hm hd
        · cases h
      · cases h
  | main => exact mainStep_cases h
  | office i => exact officeStep_cases h
  | shutdown i =>
      simp only [next] at h
      split at h
      · rename_i a hi
        cases h
        exact .shutdown i a hi
      · cases h

/-- The number of offices at program points with a property. -/
def count (s : Buffer n α) (p : LoopPc α → Bool) : ℕ := ∑ i, (p (s.offices i)).toNat

theorem goto_offices_self (s : Buffer n α) (i : Fin n) (pc : LoopPc α) :
    (s.goto i pc).offices i = pc := Function.update_self ..

theorem goto_offices_of_ne (s : Buffer n α) {i j : Fin n} (hj : j ≠ i) (pc : LoopPc α) :
    (s.goto i pc).offices j = s.offices j := Function.update_of_ne hj ..

theorem count_goto (s : Buffer n α) (i : Fin n) (pc : LoopPc α) (p : LoopPc α → Bool) :
    (s.goto i pc).count p + (p (s.offices i)).toNat = s.count p + (p pc).toNat :=
  Threads.sum_update s.offices (fun _ pc => (p pc).toNat) i pc

theorem count_goto_of_eq (s : Buffer n α) {i : Fin n} {pc : LoopPc α} {p : LoopPc α → Bool}
    (h : p pc = p (s.offices i)) : (s.goto i pc).count p = s.count p :=
  Threads.sum_update_of_eq s.offices (fun _ pc => (p pc).toNat) i pc (by rw [h])

theorem one_le_count {s : Buffer n α} {i : Fin n} {p : LoopPc α → Bool}
    (h : p (s.offices i) = true) : 1 ≤ s.count p := by
  have hle := Finset.single_le_sum (f := fun i => (p (s.offices i)).toNat)
    (fun _ _ => Nat.zero_le _) (Finset.mem_univ i)
  rwa [h, Bool.toNat_true] at hle

theorem count_mono (s : Buffer n α) {p q : LoopPc α → Bool}
    (h : ∀ pc, p pc = true → q pc = true) : s.count p ≤ s.count q :=
  Finset.sum_le_sum fun i _ => Bool.toNat_le_toNat (h (s.offices i))

end Buffer

/-- Past the semaphore and before the queue is read. -/
def LoopPc.passing {α : Type} : LoopPc α → Bool
  | .testDown | .testItems | .read => true
  | _ => false

/-- About to read the queue. -/
def LoopPc.atRead {α : Type} : LoopPc α → Bool
  | .read => true
  | _ => false

/-- Past the read and before the post that gives the slot back. -/
def LoopPc.posting {α : Type} : LoopPc α → Bool
  | .post _ => true
  | _ => false

/-- The main thread is in the read loop. -/
def MainPc.inLoop {α : Type} : MainPc α → Bool
  | .reading | .waitNotFull _ | .writeRequest _ | .postNotEmpty => true
  | _ => false

/-- A queued entry whose post is still to come. -/
def MainPc.owesNotEmpty {α : Type} : MainPc α → ℕ
  | .postNotEmpty => 1
  | _ => 0

/-- A free slot the main thread has been promised and has not filled. -/
def MainPc.ownsSlot {α : Type} : MainPc α → ℕ
  | .writeRequest _ => 1
  | _ => 0

namespace Buffer

variable {n : ℕ} {α : Type}

/-- While the main thread is in its read loop: the queue holds what was written
and not taken, every entry has a token in `notEmpty`, with an office past its
wait or with the main thread, and every slot is free in `notFull`, promised,
filled, or read and not given back. -/
structure InLoop (s : Buffer n α) (pending : List α) : Prop where
  size : s.queue.size = n
  contains : s.queue.Contains pending
  history : s.written = s.taken.map Prod.snd ++ pending
  tokens : (s.notEmpty : ℤ) + s.count LoopPc.passing + s.main.owesNotEmpty = s.queue.itemsNo
  slots : (s.notFull : ℤ) + s.main.ownsSlot + s.queue.itemsNo + s.count LoopPc.posting = n
  running : ∀ i, s.offices i ≠ .exited

theorem Start.inLoop {s : Buffer n α} (h : s.Start) : s.InLoop [] where
  size := h.size
  contains := ⟨by rw [h.writeP, h.size]; exact Ring.Holds.nil h.readP.1 h.readP.2, h.itemsNo⟩
  history := by rw [h.written, h.taken]; rfl
  tokens := by
    have hcount : s.count LoopPc.passing = 0 := Finset.sum_eq_zero fun i _ => by
      rw [h.offices i]
      rfl
    rw [hcount, h.notEmpty, h.main, h.itemsNo]
    rfl
  slots := by
    have hcount : s.count LoopPc.posting = 0 := Finset.sum_eq_zero fun i _ => by
      rw [h.offices i]
      rfl
    rw [hcount, h.notFull, h.main, h.itemsNo]
    simp [MainPc.ownsSlot]
  running i := by
    rw [h.offices i]
    exact nofun

section Step

variable {s s' : Buffer n α} {l : BufferLabel n α} {pending : List α}

theorem goto_running (h : ∀ i, s.offices i ≠ .exited) {i : Fin n} {pc : LoopPc α}
    (hpc : pc ≠ .exited) (j : Fin n) : (s.goto i pc).offices j ≠ .exited := by
  by_cases hj : j = i
  · subst j
    rwa [goto_offices_self]
  · rw [goto_offices_of_ne s hj]
    exact h j

/-- An office past its wait has an entry to read. -/
theorem InLoop.itemsNo_pos (h : s.InLoop pending) {i : Fin n}
    (hi : (s.offices i).passing = true) : 0 < s.queue.itemsNo := by
  have hone := one_le_count (p := LoopPc.passing) hi
  have ht := h.tokens
  omega

/-- A step of one office that touches neither the queue nor a semaphore. -/
theorem InLoop.goto (h : s.InLoop pending) {i : Fin n} {pc : LoopPc α}
    (hpass : pc.passing = (s.offices i).passing) (hpost : pc.posting = (s.offices i).posting)
    (hrun : pc ≠ .exited) : (s.goto i pc).InLoop pending := by
  refine ⟨h.size, h.contains, h.history, ?_, ?_, goto_running h.running hrun⟩
  · rw [s.count_goto_of_eq hpass]
    exact h.tokens
  · rw [s.count_goto_of_eq hpost]
    exact h.slots

/-- An office has passed its wait. -/
theorem InLoop.wait (h : s.InLoop pending) {i : Fin n} (hi : s.offices i = .wait)
    (hpos : 0 < s.notEmpty) :
    InLoop { s.goto i .testDown with notEmpty := s.notEmpty - 1 } pending := by
  have hp := s.count_goto i .testDown LoopPc.passing
  rw [hi] at hp
  simp only [LoopPc.passing, Bool.toNat_true, Bool.toNat_false] at hp
  have ht := h.tokens
  refine ⟨h.size, h.contains, h.history, ?_, ?_, goto_running h.running nofun⟩
  · change ((s.notEmpty - 1 : ℕ) : ℤ) + (s.goto i .testDown).count LoopPc.passing +
      s.main.owesNotEmpty = s.queue.itemsNo
    omega
  · change (s.notFull : ℤ) + s.main.ownsSlot + s.queue.itemsNo +
      (s.goto i .testDown).count LoopPc.posting = n
    rw [s.count_goto_of_eq (by rw [hi]; rfl)]
    exact h.slots

/-- An office takes the oldest entry. -/
theorem InLoop.read {x : α} (h : s.InLoop (x :: pending)) {i : Fin n}
    (hi : s.offices i = .read) :
    InLoop { s.goto i (.post s.queue.readRequest.1) with
      queue := s.queue.readRequest.2
      taken := s.taken ++ [(i, s.queue.readRequest.1)] } pending := by
  have hp := s.count_goto i (.post s.queue.readRequest.1) LoopPc.passing
  have hq := s.count_goto i (.post s.queue.readRequest.1) LoopPc.posting
  rw [hi] at hp hq
  simp only [LoopPc.passing, LoopPc.posting, Bool.toNat_true, Bool.toNat_false] at hp hq
  obtain ⟨hx, hcontains⟩ := h.contains.readRequest
  have ht := h.tokens
  have hf := h.slots
  refine ⟨h.size, hcontains, ?_, ?_, ?_, goto_running h.running nofun⟩
  · change s.written = (s.taken ++ [(i, s.queue.readRequest.1)]).map Prod.snd ++ pending
    rw [h.history, hx, List.map_append, List.append_assoc]
    rfl
  · change (s.notEmpty : ℤ) + (s.goto i (.post s.queue.readRequest.1)).count LoopPc.passing +
      s.main.owesNotEmpty = s.queue.itemsNo - 1
    omega
  · change (s.notFull : ℤ) + s.main.ownsSlot + (s.queue.itemsNo - 1) +
      (s.goto i (.post s.queue.readRequest.1)).count LoopPc.posting = n
    omega

/-- An office gives back the slot it has read. -/
theorem InLoop.post (h : s.InLoop pending) {i : Fin n} {a : α} (hi : s.offices i = .post a) :
    InLoop { s.goto i (.work a) with notFull := s.notFull + 1 } pending := by
  have hq := s.count_goto i (.work a) LoopPc.posting
  rw [hi] at hq
  simp only [LoopPc.posting, Bool.toNat_true, Bool.toNat_false] at hq
  have hf := h.slots
  refine ⟨h.size, h.contains, h.history, ?_, ?_, goto_running h.running nofun⟩
  · change (s.notEmpty : ℤ) + (s.goto i (.work a)).count LoopPc.passing +
      s.main.owesNotEmpty = s.queue.itemsNo
    rw [s.count_goto_of_eq (by rw [hi]; rfl)]
    exact h.tokens
  · change ((s.notFull + 1 : ℕ) : ℤ) + s.main.ownsSlot + s.queue.itemsNo +
      (s.goto i (.work a)).count LoopPc.posting = n
    omega

/-- Every step that stays in the read loop keeps the accounts. -/
theorem InLoop.step (h : s.InLoop pending) (hs : Step s l s') (hm' : s'.main.inLoop = true) :
    ∃ pending', s'.InLoop pending' := by
  have ht := h.tokens
  have hf := h.slots
  cases hs with
  | submit a hm =>
      rw [hm] at ht hf
      exact ⟨pending, h.size, h.contains, h.history, ht, hf, h.running⟩
  | waitNotFull a hm hpos =>
      rw [hm] at ht hf
      refine ⟨pending, h.size, h.contains, h.history, ht, ?_, h.running⟩
      simp only [MainPc.ownsSlot] at hf ⊢
      change ((s.notFull - 1 : ℕ) : ℤ) + (1 : ℕ) + s.queue.itemsNo + s.count LoopPc.posting = n
      omega
  | writeRequest a hm =>
      rw [hm] at ht hf
      simp only [MainPc.ownsSlot, MainPc.owesNotEmpty] at ht hf
      refine ⟨pending ++ [a], h.size, h.contains.writeRequest ?_ a, ?_, ?_, ?_, h.running⟩
      · rw [h.size]
        omega
      · change s.written ++ [a] = _
        rw [h.history, List.append_assoc]
      · change (s.notEmpty : ℤ) + s.count LoopPc.passing + (1 : ℕ) = s.queue.itemsNo + 1
        omega
      · change (s.notFull : ℤ) + (0 : ℕ) + (s.queue.itemsNo + 1) + s.count LoopPc.posting = n
        omega
  | postNotEmpty hm =>
      rw [hm] at ht hf
      refine ⟨pending, h.size, h.contains, h.history, ?_, hf, h.running⟩
      simp only [MainPc.owesNotEmpty] at ht ⊢
      change ((s.notEmpty + 1 : ℕ) : ℤ) + s.count LoopPc.passing + (0 : ℕ) = s.queue.itemsNo
      omega
  | wait i hi hpos => exact ⟨pending, h.wait hi hpos⟩
  | up i hi hd => exact ⟨pending, h.goto (by rw [hi]; rfl) (by rw [hi]; rfl) nofun⟩
  | down i hi hd => exact ⟨pending, h.goto (by rw [hi]; rfl) (by rw [hi]; rfl) nofun⟩
  | exit i hi hitems =>
      have hpos := h.itemsNo_pos (i := i) (by rw [hi]; rfl)
      omega
  | stay i hi hitems => exact ⟨pending, h.goto (by rw [hi]; rfl) (by rw [hi]; rfl) nofun⟩
  | read i hi =>
      obtain ⟨x, xs, rfl⟩ := h.contains.exists_cons (h.itemsNo_pos (by rw [hi]; rfl))
      exact ⟨xs, h.read hi⟩
  | post i a hi => exact ⟨pending, h.post hi⟩
  | work i a hi => exact ⟨pending, h.goto (by rw [hi]; rfl) (by rw [hi]; rfl) nofun⟩
  | shutdown i a hi => exact ⟨pending, h.size, h.contains, h.history, ht, hf, h.running⟩
  | _ => cases hm'

/-- Only its own steps move an office. -/
theorem Step.offices_eq (hs : Step s l s') (hl : ∀ i, l ≠ .office i) :
    s'.offices = s.offices := by
  cases hs with
  | wait i | up i | down i | exit i | stay i | read i | post i | work i => exact absurd rfl (hl i)
  | _ => rfl

/-- The main thread never comes back to its read loop. -/
theorem Step.inLoop (hs : Step s l s') (hm : s'.main.inLoop = true) : s.main.inLoop = true := by
  cases hs with
  | submit _ hm' | waitNotFull _ hm' | writeRequest _ hm' => rw [hm']; rfl
  | postNotEmpty hm' => rw [hm']; rfl
  | leave | drainMore | drainDone | drainWait | drainPost | closing => cases hm
  | _ => exact hm

end Step

theorem exists_inLoop {s : Buffer n α} (h : (runs n α).Reachable s) (hm : s.main.inLoop = true) :
    ∃ pending, s.InLoop pending := by
  refine h.invariant (I := fun s => s.main.inLoop = true → ∃ pending, s.InLoop pending)
    (fun s hs _ => ⟨[], Start.inLoop hs⟩) ?_ hm
  intro s l s' _ ih hs hm'
  have hstep := step_cases hs
  obtain ⟨pending, hin⟩ := ih (hstep.inLoop hm')
  exact hin.step hstep hm'

theorem InLoop.itemsNo_nonneg {s : Buffer n α} {pending : List α} (h : s.InLoop pending) :
    0 ≤ s.queue.itemsNo := by
  have ht := h.tokens
  omega

/-- The main thread writes into a free slot. -/
theorem InLoop.itemsNo_lt {s : Buffer n α} {pending : List α} (h : s.InLoop pending) {a : α}
    (hm : s.main = .writeRequest a) : s.queue.itemsNo < n := by
  have hf := h.slots
  rw [hm] at hf
  simp only [MainPc.ownsSlot] at hf
  omega

/-- As long as the main thread is in its read loop, whether or not `serverDown`
is set: a write finds a free slot and overwrites no unread one, a read finds an
entry, the number of entries stays within the queue, no office leaves its loop,
and the entries taken are a prefix of those written. -/
theorem queue_lossless {s : Buffer n α} (h : (runs n α).Reachable s)
    (hm : s.main.inLoop = true) :
    (∀ a, s.main = .writeRequest a → s.queue.itemsNo < n) ∧
    (∀ i, s.offices i = .read → 0 < s.queue.itemsNo) ∧
    (0 ≤ s.queue.itemsNo ∧ s.queue.itemsNo ≤ n) ∧
    (∀ i, s.offices i ≠ .exited) ∧
    s.taken.map Prod.snd <+: s.written ∧
    ∃ pending, s.written = s.taken.map Prod.snd ++ pending ∧
      s.queue.itemsNo = pending.length ∧
      ∀ k (hk : k < pending.length),
        s.queue.requests (Ring.cell n s.queue.readP k) = pending[k] ∧
        ∀ a, s.main = .writeRequest a → Ring.cell n s.queue.readP k ≠ s.queue.writeP := by
  obtain ⟨pending, hin⟩ := exists_inLoop h hm
  have hf := hin.slots
  refine ⟨fun a ha => hin.itemsNo_lt ha, fun i hi => hin.itemsNo_pos (by rw [hi]; rfl),
    ⟨hin.itemsNo_nonneg, by omega⟩, hin.running, ⟨pending, hin.history.symm⟩, pending,
    hin.history, hin.contains.itemsNo, fun k hk => ?_⟩
  have hholds := hin.contains.holds
  rw [hin.size] at hholds
  refine ⟨hholds.get k hk, fun a ha => hholds.ne_tail ?_ hk⟩
  rw [← hin.contains.itemsNo]
  exact hin.itemsNo_lt ha

/-- A queue of size `n` whose slots all hold `a`, and offices that wait. -/
def start (n : ℕ) (a : α) : Buffer n α where
  queue := ⟨fun _ => a, n, 0, 0, 0⟩
  notFull := n
  notEmpty := 0
  serverDown := false
  main := .reading
  offices := fun _ => .wait
  written := []
  taken := []

theorem start_start (hn : 0 < n) (a : α) : Start (start n a) :=
  ⟨⟨le_rfl, Int.ofNat_lt.mpr hn⟩, rfl, rfl, rfl, rfl, rfl, rfl, rfl, fun _ => rfl, rfl, rfl⟩

/-- A schedule leads to a reachable state. -/
theorem execute_runs (hn : 0 < n) (a : α) (ls : List (BufferLabel n α)) {β : Type}
    {f : Buffer n α → β} {b : β} (he : (LTS.execute next (start n a) ls).map f = some b) :
    ∃ s, (runs n α).Reachable s ∧ f s = b :=
  LTS.Reachable.exists_execute (fun _ _ _ h => h) (LTS.Reachable.init (start_start hn a)) he

/-- A schedule in two parts leads to a reachable state and from there to a later one. -/
theorem execute_runs_reaches (hn : 0 < n) (a : α) (ls ls' : List (BufferLabel n α))
    {β γ : Type} {f : Buffer n α → β} {g : Buffer n α → γ} {b : β} {c : γ}
    (he : ((LTS.execute next (start n a) ls).bind fun s =>
      (LTS.execute next s ls').map fun s' => (f s, g s')) = some (b, c)) :
    ∃ s s', (runs n α).Reachable s ∧ (runs n α).Reaches s s' ∧ f s = b ∧ g s' = c :=
  LTS.Reachable.exists_execute_reaches (fun _ _ _ h => h)
    (LTS.Reachable.init (start_start hn a)) he

/-- The main thread writes one entry. -/
def send (a : α) : List (BufferLabel n α) := [.submit a, .main, .main, .main]

/-- Office `i` waits for an entry, takes it and gives back the slot. -/
def take (i : Fin n) : List (BufferLabel n α) := List.replicate 4 (.office i)

end Buffer

/-- Three entries go through a queue of two slots. -/
theorem queue_lossless_three : ∃ s : Buffer 2 ℕ,
    s.written = [7, 8, 9] ∧ s.taken = [(0, 7), (1, 8)] ∧
    s.taken.map Prod.snd <+: s.written ∧ s.queue.itemsNo ≤ 2 := by
  obtain ⟨s, hs, hf⟩ : ∃ s : Buffer 2 ℕ, (Buffer.runs 2 ℕ).Reachable s ∧
      (s.main, s.written, s.taken) = (.reading, [7, 8, 9], [(0, 7), (1, 8)]) :=
    Buffer.execute_runs (by decide) 0
      (Buffer.send 7 ++ Buffer.send 8 ++ Buffer.take 0 ++ Buffer.take 1 ++ Buffer.send 9)
      (by decide +kernel)
  simp only [Prod.mk.injEq] at hf
  obtain ⟨hm, hwritten, htaken⟩ := hf
  have h := Buffer.queue_lossless hs (by rw [hm]; rfl)
  exact ⟨s, hwritten, htaken, h.2.2.2.2.1, h.2.2.1.2⟩

end HomeBanking
