import HomeBanking.Queue

/-!
# The queue that `createQueue` returns

`createQueue` stores the size and the number of entries, and leaves both
indices and the array as `malloc` returned them. A session is what the threads
do to the queue afterwards: calls of `readRequest` and `writeRequest` that never
find the queue empty or full. It is first-in first-out exactly when the memory
already held two equal indices inside the array.
-/

namespace HomeBanking

variable {α : Type}

namespace Queue

/-- The queue in the memory that was just allocated. -/
def createQueue (size : ℤ) (memory : Queue α) : Queue α :=
  { memory with size := size, itemsNo := 0 }

/-- A call on the queue. -/
inductive Call (α : Type)
  | readRequest
  | writeRequest (request : α)
  deriving DecidableEq, Repr

/-- The queue, the entries passed to `writeRequest` and those `readRequest`
returned, oldest first. -/
structure Session (α : Type) where
  queue : Queue α
  written : List α
  taken : List α

namespace Session

/-- The next state; none when the call would find the queue empty or full. -/
def next (s : Session α) : Call α → Option (Session α)
  | .readRequest =>
      if s.taken.length < s.written.length then
        some { s with
          queue := s.queue.readRequest.2
          taken := s.taken ++ [s.queue.readRequest.1] }
      else none
  | .writeRequest a =>
      if (s.written.length : ℤ) < s.taken.length + s.queue.size then
        some { s with queue := s.queue.writeRequest a, written := s.written ++ [a] }
      else none

/-- The session before its first call. -/
def start (size : ℤ) (memory : Queue α) : Session α := ⟨createQueue size memory, [], []⟩

/-- The sessions of a queue created in the given memory. -/
def calls (size : ℤ) (memory : Queue α) : LTS (Session α) (Call α) where
  init s := s = start size memory
  step s c s' := s.next c = some s'

/-- The indices stay inside the array, the write index is the number of
entries ahead of the read index, and the entries come out in the order in
which they went in. -/
structure IsFifo (s : Session α) : Prop where
  readP : 0 ≤ s.queue.readP ∧ s.queue.readP < s.queue.size
  writeP : 0 ≤ s.queue.writeP ∧ s.queue.writeP < s.queue.size
  writeP_eq : s.queue.writeP = (s.queue.readP + s.queue.itemsNo).tmod s.queue.size
  taken : s.taken <+: s.written

/-- The queue as a list: what was written and not taken yet. -/
structure Pending (s : Session α) (xs : List α) : Prop where
  contains : s.queue.Contains xs
  history : s.written = s.taken ++ xs

variable {s s' : Session α} {xs : List α}

theorem Pending.length_eq (h : s.Pending xs) :
    s.written.length = s.taken.length + xs.length := by
  rw [h.history, List.length_append]

theorem Pending.isFifo (h : s.Pending xs) : s.IsFifo := by
  have hhead := h.contains.holds.head_nonneg
  have hlt := h.contains.holds.head_lt
  have hlen := h.contains.holds.length_le
  have htail := h.contains.holds.tail_eq
  refine ⟨⟨hhead, hlt⟩, ?_, ?_, ⟨xs, h.history.symm⟩⟩
  · rw [htail]
    exact ⟨Ring.cell_nonneg hhead (by omega), Ring.cell_lt hlt hlen⟩
  · rw [htail, h.contains.itemsNo, Int.tmod_eq_emod_of_nonneg (by omega)]
    exact Ring.cell_eq_emod ⟨hhead, hlt⟩ ⟨by omega, hlen⟩

/-- A call does to the list what it does to the queue. -/
theorem Pending.next (h : s.Pending xs) {c : Call α} (hs : s.next c = some s') :
    ∃ xs', s'.Pending xs' := by
  cases c with
  | readRequest =>
      simp only [Session.next] at hs
      split at hs
      · rename_i hlt
        cases hs
        cases xs with
        | nil =>
            have hlen := h.length_eq
            rw [List.length_nil] at hlen
            omega
        | cons x xs =>
            obtain ⟨hx, hcontains⟩ := h.contains.readRequest
            refine ⟨xs, hcontains, ?_⟩
            change s.written = s.taken ++ [s.queue.readRequest.1] ++ xs
            rw [hx, h.history, List.append_assoc]
            rfl
      · cases hs
  | writeRequest a =>
      simp only [Session.next] at hs
      split at hs
      · rename_i hlt
        cases hs
        have hroom : s.queue.itemsNo < s.queue.size := by
          have hlen := h.length_eq
          rw [h.contains.itemsNo]
          omega
        refine ⟨xs ++ [a], h.contains.writeRequest hroom a, ?_⟩
        change s.written ++ [a] = s.taken ++ (xs ++ [a])
        rw [h.history, List.append_assoc]
      · cases hs

theorem start_pending {size : ℤ} {memory : Queue α} (h : 0 ≤ memory.readP)
    (hlt : memory.readP < size) (heq : memory.writeP = memory.readP) :
    (start size memory).Pending [] := by
  refine ⟨⟨?_, rfl⟩, rfl⟩
  change Ring.Holds memory.requests size memory.readP memory.writeP []
  rw [heq]
  exact .nil h hlt

theorem exists_pending {size : ℤ} {memory : Queue α} (hstart : (start size memory).Pending [])
    (h : (calls size memory).Reachable s) : ∃ xs, s.Pending xs := by
  apply h.invariant (I := fun s => ∃ xs, s.Pending xs)
  · intro s hs
    exact ⟨[], hs ▸ hstart⟩
  · intro s c s' _ ih hs
    obtain ⟨xs, hxs⟩ := ih
    exact hxs.next hs

/-- Every session of a queue is first-in first-out exactly when the memory that
`createQueue` allocated held two equal indices inside the array. -/
theorem isFifo_iff (size : ℤ) (memory : Queue α) :
    (∀ s, (calls size memory).Reachable s → s.IsFifo) ↔
      (0 ≤ memory.readP ∧ memory.readP < size) ∧ memory.writeP = memory.readP := by
  constructor
  · intro h
    have hfifo := h _ (LTS.Reachable.init rfl)
    have hread : 0 ≤ memory.readP ∧ memory.readP < size := hfifo.readP
    refine ⟨hread, ?_⟩
    have heq : memory.writeP = (memory.readP + 0).tmod size := hfifo.writeP_eq
    rw [heq, add_zero, Int.tmod_eq_emod_of_nonneg hread.1,
      Int.emod_eq_of_lt hread.1 hread.2]
  · rintro ⟨⟨hread, hlt⟩, heq⟩ s hs
    obtain ⟨xs, hxs⟩ := exists_pending (start_pending hread hlt heq) hs
    exact hxs.isFifo

/-- A queue of two slots in memory that held a read index of 0 and a write
index of 1: the first entry read is not the first one written. -/
theorem createQueue_not_isFifo : ∃ s : Session ℕ,
    (calls 2 ⟨fun _ => 9, 0, 0, 1, 0⟩).Reachable s ∧
    (s.written, s.taken) = ([7], [9]) ∧ ¬ s.IsFifo := by
  have hrun : (LTS.execute Session.next (start 2 ⟨fun _ => 9, 0, 0, 1, 0⟩)
      [.writeRequest 7, .readRequest]).map (fun s => (s.written, s.taken)) = some ([7], [9]) := by
    decide +kernel
  obtain ⟨s, hs, hf⟩ : ∃ s : Session ℕ, (calls 2 ⟨fun _ => 9, 0, 0, 1, 0⟩).Reachable s ∧
      (s.written, s.taken) = ([7], [9]) :=
    LTS.Reachable.exists_execute (fun _ _ _ h => h) (LTS.Reachable.init rfl) hrun
  refine ⟨s, hs, hf, fun hfifo => ?_⟩
  obtain ⟨hwritten, htaken⟩ := Prod.mk.inj hf
  have hprefix := hfifo.taken
  rw [hwritten, htaken] at hprefix
  exact absurd hprefix (by decide)

end Session

end Queue

end HomeBanking
