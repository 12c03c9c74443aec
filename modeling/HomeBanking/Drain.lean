import HomeBanking.Queue

/-!
# The drain loop at shutdown

After the read loop the main thread posts `notEmpty` tokens that have no entry
behind them, as long as `itemsNo` is not zero. An office that is woken tests
`itemsNo` without the lock of the queue, so two offices can stay for the same
last entry. In the runs in which an office stays only while there are more
entries than offices about to read, every entry is taken once and the drain
loop ends with an empty queue.
-/

namespace HomeBanking

namespace Buffer

variable {n : ℕ} {α : Type}

/-- The step stays in the loop of an office although every entry already has an
office about to read it. -/
def overtakes (s : Buffer n α) : BufferLabel n α → Bool
  | .office i =>
      match s.offices i with
      | .testDown => !s.serverDown && s.queue.itemsNo ≤ s.count LoopPc.atRead
      | .testItems => s.queue.itemsNo ≠ 0 && s.queue.itemsNo ≤ s.count LoopPc.atRead
      | _ => false
  | _ => false

/-- The runs in which no office overtakes once the main thread has left its
read loop. -/
abbrev orderly (n : ℕ) (α : Type) : LTS (Buffer n α) (BufferLabel n α) :=
  (runs n α).guard fun s l => s.main.inLoop = false → s.overtakes l = false

/-- What holds while the queue is drained: it contains what was written and not
taken, there is an entry for every office about to read, and after the drain
loop nothing is left. -/
structure Draining (s : Buffer n α) (pending : List α) : Prop where
  contains : s.queue.Contains pending
  history : s.written = s.taken.map Prod.snd ++ pending
  readers : (s.count LoopPc.atRead : ℤ) ≤ s.queue.itemsNo
  closed : ∀ posted, s.main = .closing posted → pending = []

variable {s s' : Buffer n α} {l : BufferLabel n α} {pending : List α}

/-- The read loop leaves the queue in order. -/
theorem InLoop.draining (h : s.InLoop pending) (hm : s.main.inLoop = true) :
    s.Draining pending := by
  refine ⟨h.contains, h.history, ?_, ?_⟩
  · have hle : s.count LoopPc.atRead ≤ s.count LoopPc.passing := by
      apply s.count_mono
      intro pc hpc
      cases pc with
      | read => rfl
      | _ => cases hpc
    have ht := h.tokens
    omega
  · intro posted hc
    rw [hc] at hm
    cases hm

/-- A step of one office that does not touch the queue and does not make it read. -/
theorem Draining.goto (h : s.Draining pending) {i : Fin n} {pc : LoopPc α}
    (hsame : pc.atRead = (s.offices i).atRead) : (s.goto i pc).Draining pending := by
  refine ⟨h.contains, h.history, ?_, h.closed⟩
  rw [s.count_goto_of_eq hsame]
  exact h.readers

/-- An office stays although the server is down. -/
theorem Draining.stay (h : s.Draining pending) {i : Fin n}
    (hi : (s.offices i).atRead = false) (hroom : s.count LoopPc.atRead < s.queue.itemsNo) :
    (s.goto i .read).Draining pending := by
  have hc := s.count_goto i .read LoopPc.atRead
  rw [hi] at hc
  simp only [LoopPc.atRead, Bool.toNat_true, Bool.toNat_false] at hc
  refine ⟨h.contains, h.history, ?_, h.closed⟩
  change ((s.goto i .read).count LoopPc.atRead : ℤ) ≤ s.queue.itemsNo
  omega

/-- An office about to read has an entry to read. -/
theorem Draining.itemsNo_pos (h : s.Draining pending) {i : Fin n} (hi : s.offices i = .read) :
    0 < s.queue.itemsNo := by
  have hone := one_le_count (s := s) (i := i) (p := LoopPc.atRead) (by rw [hi]; rfl)
  have := h.readers
  omega

theorem Draining.read {x : α} (h : s.Draining (x :: pending)) {i : Fin n}
    (hi : s.offices i = .read) :
    Draining { s.goto i (.post s.queue.readRequest.1) with
      queue := s.queue.readRequest.2
      taken := s.taken ++ [(i, s.queue.readRequest.1)] } pending := by
  have hc := s.count_goto i (.post s.queue.readRequest.1) LoopPc.atRead
  rw [hi] at hc
  simp only [LoopPc.atRead, Bool.toNat_true, Bool.toNat_false] at hc
  obtain ⟨hx, hcontains⟩ := h.contains.readRequest
  refine ⟨hcontains, ?_, ?_, ?_⟩
  · change s.written = (s.taken ++ [(i, s.queue.readRequest.1)]).map Prod.snd ++ pending
    rw [h.history, hx, List.map_append, List.append_assoc]
    rfl
  · have hr := h.readers
    change ((s.goto i (.post s.queue.readRequest.1)).count LoopPc.atRead : ℤ) ≤
      s.queue.itemsNo - 1
    omega
  · intro posted hm
    exact absurd (h.closed posted hm) (List.cons_ne_nil x pending)

/-- Every step outside the read loop that does not overtake keeps the order. -/
theorem Draining.step (h : s.Draining pending) (hs : Step s l s')
    (hm' : s'.main.inLoop = false) (hguard : s.main.inLoop = false → s.overtakes l = false) :
    ∃ pending', s'.Draining pending' := by
  cases hs with
  | submit | waitNotFull | writeRequest | postNotEmpty => cases hm'
  | leave | drainMore | drainWait | drainPost =>
      exact ⟨pending, h.contains, h.history, h.readers, fun _ hc => by cases hc⟩
  | drainDone hm hitems =>
      refine ⟨pending, h.contains, h.history, h.readers, ?_⟩
      intro _ _
      rw [h.contains.itemsNo] at hitems
      exact List.length_eq_zero_iff.mp (Int.ofNat_eq_zero.mp hitems)
  | closing posted hm hlt =>
      exact ⟨pending, h.contains, h.history, h.readers, fun _ _ => h.closed posted hm⟩
  | wait i hi hpos =>
      have hgoto : (s.goto i .testDown).Draining pending := h.goto (by rw [hi]; rfl)
      exact ⟨pending, hgoto.contains, hgoto.history, hgoto.readers, hgoto.closed⟩
  | up i hi hd =>
      have hroom := hguard hm'
      simp only [overtakes, hi, hd, Bool.not_false, Bool.true_and, decide_eq_false_iff_not,
        not_le] at hroom
      exact ⟨pending, h.stay (by rw [hi]; rfl) hroom⟩
  | stay i hi hitems =>
      have hroom := hguard hm'
      simp only [overtakes, hi, hitems, ne_eq, not_false_eq_true, decide_true, Bool.true_and,
        decide_eq_false_iff_not, not_le] at hroom
      exact ⟨pending, h.stay (by rw [hi]; rfl) hroom⟩
  | down i hi | exit i hi => exact ⟨pending, h.goto (by rw [hi]; rfl)⟩
  | work i a hi => exact ⟨pending, h.goto (by rw [hi]; rfl)⟩
  | read i hi =>
      obtain ⟨x, xs, rfl⟩ := h.contains.exists_cons (h.itemsNo_pos hi)
      exact ⟨xs, h.read hi⟩
  | post i a hi =>
      have hgoto : (s.goto i (.work a)).Draining pending := h.goto (by rw [hi]; rfl)
      exact ⟨pending, hgoto.contains, hgoto.history, hgoto.readers, hgoto.closed⟩
  | shutdown i a hi => exact ⟨pending, h.contains, h.history, h.readers, h.closed⟩

theorem exists_draining (h : (orderly n α).Reachable s) : ∃ pending, s.Draining pending := by
  have hloop : ∀ {s : Buffer n α}, (orderly n α).Reachable s → s.main.inLoop = true →
      ∃ pending, s.Draining pending := by
    intro s hr hm
    obtain ⟨pending, hin⟩ := exists_inLoop hr.of_guard hm
    exact ⟨pending, hin.draining hm⟩
  refine h.invariant (I := fun s => ∃ pending, s.Draining pending)
    (fun s hs => hloop (.init hs) (by rw [Start.main hs]; rfl)) fun s l s' hr ih hs => ?_
  cases hm' : s'.main.inLoop with
  | true => exact hloop (hr.step hs) hm'
  | false =>
      obtain ⟨pending, hd⟩ := ih
      exact hd.step (step_cases hs.1) hm' hs.2

theorem exists_atRead (h : 0 < s.count LoopPc.atRead) : ∃ i, s.offices i = .read := by
  by_contra hnone
  push Not at hnone
  refine h.ne' (Finset.sum_eq_zero ?_)
  intro i _
  have hi := hnone i
  cases hpc : s.offices i with
  | read => exact absurd hpc hi
  | _ => rfl

/-- With more offices about to read than entries, the others empty the queue
and one is left. -/
theorem exists_read_empty {k : ℕ} (hitems : s.queue.itemsNo = k)
    (hmore : k < s.count LoopPc.atRead) :
    ∃ s', (runs n α).Reaches s s' ∧ s'.queue.itemsNo = 0 ∧ ∃ i, s'.offices i = .read := by
  obtain ⟨i, hi⟩ := exists_atRead (Nat.zero_lt_of_lt hmore)
  induction k generalizing s i with
  | zero => exact ⟨s, .refl, hitems, i, hi⟩
  | succ k ih =>
      have hc := s.count_goto i (.post s.queue.readRequest.1) LoopPc.atRead
      rw [hi] at hc
      simp only [LoopPc.atRead, Bool.toNat_true, Bool.toNat_false] at hc
      let s₁ : Buffer n α := { s.goto i (.post s.queue.readRequest.1) with
        queue := s.queue.readRequest.2
        taken := s.taken ++ [(i, s.queue.readRequest.1)] }
      have hread : (runs n α).step s (.office i) s₁ := by
        change s.officeStep i = some s₁
        simp only [officeStep, hi, s₁]
      have hitems₁ : s₁.queue.itemsNo = k := by
        change s.queue.itemsNo - 1 = k
        omega
      have hmore₁ : k < s₁.count LoopPc.atRead := by
        change k < (s.goto i (.post s.queue.readRequest.1)).count LoopPc.atRead
        omega
      obtain ⟨j, hj⟩ := exists_atRead (Nat.zero_lt_of_lt hmore₁)
      obtain ⟨s', hr, hend⟩ := ih hitems₁ hmore₁ j hj
      exact ⟨s', .head ⟨_, hread⟩ hr, hend⟩

/-- After a step that overtakes there are more offices about to read than entries. -/
theorem Step.overtaken (hs : Step s l s') (ho : s.overtakes l = true) :
    s'.queue = s.queue ∧ s.queue.itemsNo < s'.count LoopPc.atRead := by
  have hover : ∀ i, (s.offices i).atRead = false → s.queue.itemsNo ≤ s.count LoopPc.atRead →
      s.queue.itemsNo < (s.goto i .read).count LoopPc.atRead := by
    intro i hi hle
    have hc := s.count_goto i .read LoopPc.atRead
    rw [hi] at hc
    simp only [LoopPc.atRead, Bool.toNat_true, Bool.toNat_false] at hc
    omega
  cases hs with
  | up i hi hd =>
      simp only [overtakes, hi, hd, Bool.not_false, Bool.true_and, decide_eq_true_eq] at ho
      exact ⟨rfl, hover i (by rw [hi]; rfl) ho⟩
  | stay i hi hitems =>
      simp only [overtakes, hi, ne_eq, hitems, not_false_eq_true, decide_true, Bool.true_and,
        decide_eq_true_eq] at ho
      exact ⟨rfl, hover i (by rw [hi]; rfl) ho⟩
  | down i hi hd => simp [overtakes, hi, hd] at ho
  | exit i hi hitems => simp [overtakes, hi, hitems] at ho
  | wait i hi | read i hi => simp [overtakes, hi] at ho
  | post i a hi | work i a hi => simp [overtakes, hi] at ho
  | _ => cases ho

/-- As long as no office overtakes, no office reads the empty queue, every
entry is taken once and in order, and the drain loop ends with an empty queue.
Once an office has overtaken, some run goes on to a read of the empty queue. -/
theorem drained_once {s : Buffer n α} (h : (orderly n α).Reachable s) :
    ((∀ i, s.offices i = .read → 0 < s.queue.itemsNo) ∧
      0 ≤ s.queue.itemsNo ∧
      (∃ pending, s.written = s.taken.map Prod.snd ++ pending ∧
        s.queue.itemsNo = pending.length) ∧
      ∀ posted, s.main = .closing posted →
        s.queue.itemsNo = 0 ∧ s.written = s.taken.map Prod.snd) ∧
    ∀ l s', (runs n α).step s l s' → s.overtakes l = true →
      ∃ s'', (runs n α).Reaches s' s'' ∧ s''.queue.itemsNo = 0 ∧ ∃ i, s''.offices i = .read := by
  obtain ⟨pending, hd⟩ := exists_draining h
  have hitems := hd.contains.itemsNo
  refine ⟨⟨fun i hi => hd.itemsNo_pos hi, by omega, ⟨pending, hd.history, hitems⟩,
    fun posted hc => ?_⟩, fun l s' hs ho => ?_⟩
  · have hnil := hd.closed posted hc
    subst hnil
    exact ⟨hitems, by simpa using hd.history⟩
  · obtain ⟨hq, hmore⟩ := (step_cases hs).overtaken ho
    exact exists_read_empty (by rw [hq, hitems]) (by omega)

/-- A schedule in which no office overtakes. -/
theorem execute_orderly (hn : 0 < n) (a : α) (ls : List (BufferLabel n α)) {β : Type}
    {f : Buffer n α → β} {b : β}
    (he : (LTS.execute (LTS.nextIf next fun s l => s.main.inLoop || !s.overtakes l)
      (start n a) ls).map f = some b) :
    ∃ s, (orderly n α).Reachable s ∧ f s = b := by
  refine LTS.Reachable.exists_execute_guard (fun _ _ _ h => h) ?_ (start_start hn a) he
  intro s l htest hm
  simpa [hm] using htest

/-- Office `i` takes entry 7 and sets `serverDown` while it works on it, entry 8
is written, and the main thread leaves its read loop. -/
def leaveOneEntry (i : Fin n) : List (BufferLabel n ℕ) :=
  send 7 ++ take i ++ [.shutdown i, .office i] ++ send 8 ++ [.leave]

/-- Both offices test for an entry before either reads one. -/
def stayForLast (i j : Fin n) : List (BufferLabel n ℕ) :=
  (List.replicate 4 [.office i, .office j]).flatten

end Buffer

/-- The last entry is taken in the drain loop and the other office exits; or the
other office also stays for it and reads the empty queue. -/
theorem drained_once_two :
    (∃ s : Buffer 2 ℕ, s.main = .closing 0 ∧ s.taken = [(0, 7), (0, 8)] ∧
      s.queue.itemsNo = 0 ∧ s.written = s.taken.map Prod.snd) ∧
    ∃ s s' : Buffer 2 ℕ, s.main = .drainTest ∧ s.next (.office 1) = some s' ∧
      ∃ s'', (Buffer.runs 2 ℕ).Reaches s' s'' ∧ s''.queue.itemsNo = 0 ∧
        ∃ i, s''.offices i = .read := by
  obtain ⟨s, hs, hf⟩ : ∃ s : Buffer 2 ℕ, (Buffer.orderly 2 ℕ).Reachable s ∧
      (s.main, s.taken) = (.closing 0, [(0, 7), (0, 8)]) :=
    Buffer.execute_orderly (by decide) 0
      (Buffer.leaveOneEntry 0 ++ List.replicate 3 .main ++ List.replicate 4 (.office 0) ++
        List.replicate 3 (.office 1) ++ [.main]) (by decide +kernel)
  obtain ⟨hm, htaken⟩ := Prod.mk.inj hf
  have hdrained := (Buffer.drained_once hs).1.2.2.2 0 hm
  obtain ⟨t, ht, hg⟩ : ∃ t : Buffer 2 ℕ, (Buffer.orderly 2 ℕ).Reachable t ∧
      (t.main, t.overtakes (.office 1), (t.next (.office 1)).isSome) =
        (.drainTest, true, true) :=
    Buffer.execute_orderly (by decide) 0
      (Buffer.leaveOneEntry 0 ++ List.replicate 3 .main ++ List.replicate 3 (.office 0) ++
        List.replicate 2 (.office 1)) (by decide +kernel)
  simp only [Prod.mk.injEq] at hg
  obtain ⟨hdrain, hover, hnext⟩ := hg
  obtain ⟨t', ht'⟩ := Option.isSome_iff_exists.mp hnext
  exact ⟨⟨s, hm, htaken, hdrained⟩, t, t', hdrain, ht',
    (Buffer.drained_once ht).2 _ _ ht' hover⟩

set_option synthInstance.maxSize 256 in
/-- Both offices stay for the last entry, and the second reads the entry of the
first request again. -/
theorem entry_taken_twice : ∃ s s' : Buffer 2 ℕ,
    (Buffer.runs 2 ℕ).Reachable s ∧ s.main = .drainTest ∧ s.serverDown = true ∧
    s.queue.itemsNo = 1 ∧ s.written = [7, 8] ∧
    (Buffer.runs 2 ℕ).Reaches s s' ∧ s'.queue.itemsNo = -1 ∧ s'.written = [7, 8] ∧
    s'.taken = [(0, 7), (0, 8), (1, 7)] := by
  obtain ⟨s, s', hs, hr, hf, hg⟩ : ∃ s s' : Buffer 2 ℕ, (Buffer.runs 2 ℕ).Reachable s ∧
      (Buffer.runs 2 ℕ).Reaches s s' ∧
      (s.main, s.serverDown, s.queue.itemsNo, s.written) = (.drainTest, true, 1, [7, 8]) ∧
      (s'.queue.itemsNo, s'.written, s'.taken) = (-1, [7, 8], [(0, 7), (0, 8), (1, 7)]) :=
    Buffer.execute_runs_reaches (by decide) 0 (Buffer.leaveOneEntry 0)
      (List.replicate 3 .main ++ Buffer.stayForLast 0 1) (by decide +kernel)
  simp only [Prod.mk.injEq] at hf hg
  exact ⟨s, s', hs, hf.1, hf.2.1, hf.2.2.1, hf.2.2.2, hr, hg⟩

end HomeBanking
