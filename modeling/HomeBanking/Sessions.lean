import HomeBanking.Turns
import HomeBanking.OwnRequests

/-!
# One message at a time

The main thread reads a message only when all earlier ones have been answered,
and leaves its read loop only when the queue is empty. Then it never overwrites
a request that is still needed, no office overtakes another when the queue is
drained, and the replies, in their order, are the answers of the abstract bank
to the messages.
-/

namespace HomeBanking

variable {n : ℕ}

/-- An office that has not sent its reply. -/
def Pc.unanswered : Pc → ℕ
  | .idle => 0
  | _ => 1

/-- An office whose request has not returned. -/
def Pc.unreturned : Pc → ℕ
  | .idle | .replyOpen | .replyWrite _ => 0
  | _ => 1

/-- A request counts from when it is taken to the end of the work on it. -/
def LoopPc.counts {α : Type} (f : Pc → ℕ) (pc : LoopPc α) (work : Pc) : ℕ :=
  match pc with
  | .post _ => 1
  | .work _ => f work
  | _ => 0

namespace Server

variable {s s' : Server n}

/-- The actions so far, newest first. -/
def actions (s : Server n) : List Action := s.trace.map Event.action

/-- Every message that was read has been answered. -/
def Answered (s : Server n) : Prop := (replies s.actions).length = s.messages.length

section Load

variable {f : Pc → ℕ} {α : Type} {done : Action → Option α} {sha256sum : CString → CString}

/-- What an office counts for. -/
def counts (f : Pc → ℕ) (s : Server n) (i : Fin n) : ℕ :=
  (s.buffer.offices i).counts f (s.offices i).pc

/-- The messages that are to be queued, in the queue, or with an office. -/
def load (f : Pc → ℕ) (s : Server n) : ℤ :=
  s.buffer.main.owesEntry + s.buffer.queue.itemsNo + ∑ i, (s.counts f i : ℤ)

theorem load_congr (hcounts : ∀ j, s'.counts f j = s.counts f j)
    (hmain : (s'.buffer.main.owesEntry : ℤ) + s'.buffer.queue.itemsNo =
      s.buffer.main.owesEntry + s.buffer.queue.itemsNo) : s'.load f = s.load f := by
  unfold load
  rw [hmain, Finset.sum_congr rfl fun j _ => congrArg Nat.cast (hcounts j)]

/-- What a step of one office changes. -/
theorem load_office (i : Fin n) (hcounts : ∀ j, j ≠ i → s'.counts f j = s.counts f j)
    (hmain : s'.buffer.main = s.buffer.main) :
    s'.load f - s'.buffer.queue.itemsNo - s'.counts f i =
      s.load f - s.buffer.queue.itemsNo - s.counts f i := by
  have hsum := Threads.sum_update (fun j => (s.counts f j : ℤ)) (fun _ x => x) i
    (s'.counts f i : ℤ)
  have hupdate : ∀ j, Function.update (fun j => (s.counts f j : ℤ)) i (s'.counts f i : ℤ) j =
      s'.counts f j := fun j => by
    by_cases hj : j = i
    · subst j
      rw [Function.update_self]
    · rw [Function.update_of_ne hj, hcounts j hj]
  simp only [hupdate] at hsum
  unfold load
  rw [hmain]
  linarith

/-- The main thread has read a message. -/
theorem load_submit (hm : s.buffer.main = .reading) (request : TlvRequest) :
    load f { s with
      buffer := { s.buffer with main := .waitNotFull s.messages.length }
      request := request
      reader := .type
      messages := s.messages ++ [request] } = s.load f + 1 := by
  unfold load
  rw [hm]
  change ((1 : ℕ) : ℤ) + s.buffer.queue.itemsNo + ∑ i, (s.counts f i : ℤ) =
    ((0 : ℕ) : ℤ) + s.buffer.queue.itemsNo + ∑ i, (s.counts f i : ℤ) + 1
  push_cast
  ring

theorem load_leave {b : Buffer n ℕ} (hb : Buffer.Step s.buffer .leave b) :
    load f { s with buffer := b } = s.load f := by
  cases hb with
  | leave hm hd =>
      refine load_congr (fun _ => rfl) ?_
      rw [hm]
      rfl

theorem load_main {b : Buffer n ℕ} (hb : Buffer.Step s.buffer .main b) :
    load f { s with buffer := b } = s.load f := by
  refine load_congr (fun j => ?_) ?_
  · change (b.offices j).counts f _ = _
    rw [hb.offices_eq fun i hi => by cases hi]
    rfl
  · cases hb with
    | writeRequest a hm =>
        rw [hm]
        change ((0 : ℕ) : ℤ) + (s.buffer.queue.itemsNo + 1) = ((1 : ℕ) : ℤ) + _
        push_cast
        ring
    | waitNotFull a hm | postNotEmpty hm | drainMore hm | drainDone hm | drainWait hm
    | drainPost hm | closing _ hm =>
        rw [hm]
        rfl

theorem load_loop (hidle : f .idle = 0) {i : Fin n} {b : Buffer n ℕ}
    (hb : Buffer.Step s.buffer (.office i) b) (hread : s.buffer.offices i ≠ .read)
    (hpost : ∀ k, s.buffer.offices i ≠ .post k)
    (hwork : ∀ k, s.buffer.offices i = .work k → (s.offices i).pc = .idle) :
    load f { s with buffer := b } = s.load f := by
  obtain ⟨hmain, hqueue, pc, hoffices, hpc⟩ := loop_cases hb hread hpost
  have hbefore : s.counts f i = 0 := by
    rw [counts]
    cases hi : s.buffer.offices i with
    | post k => exact absurd hi (hpost k)
    | work k => exact (congrArg f (hwork k hi)).trans hidle
    | _ => rfl
  have hafter : counts f { s with buffer := b } i = 0 := by
    change (b.offices i).counts f _ = 0
    rw [hoffices, Function.update_self]
    cases pc with
    | post => cases hpc .ret
    | work => cases hpc .ret
    | _ => rfl
  refine load_congr (fun j => ?_) ?_
  · by_cases hj : j = i
    · subst j
      exact hafter.trans hbefore.symm
    · change (b.offices j).counts f _ = _
      rw [hoffices, Function.update_of_ne hj]
      rfl
  · change (b.main.owesEntry : ℤ) + b.queue.itemsNo = _
    rw [hmain, hqueue]

theorem load_take {i : Fin n} (hi : s.buffer.offices i = .read) : (s.take i).load f = s.load f := by
  have hbefore : s.counts f i = 0 := by
    rw [counts, hi]
    rfl
  have hafter : (s.take i).counts f i = 1 := by
    change (Function.update s.buffer.offices i _ i).counts f _ = 1
    rw [Function.update_self]
    rfl
  have hoffice : (s.take i).load f - (s.take i).buffer.queue.itemsNo - (s.take i).counts f i =
      s.load f - s.buffer.queue.itemsNo - s.counts f i := load_office i (fun j hj => by
    change (Function.update s.buffer.offices i _ j).counts f _ = _
    rw [Function.update_of_ne hj]
    rfl) rfl
  have hitems : (s.take i).buffer.queue.itemsNo = s.buffer.queue.itemsNo - 1 := rfl
  rw [hbefore, hafter, hitems] at hoffice
  push_cast at hoffice
  linarith

theorem load_begin (hstart : f (.activeLock .enter) = 1) {i : Fin n} {k : ℕ}
    (hi : s.buffer.offices i = .post k) : (s.begin i k).load f = s.load f := by
  have hbefore : s.counts f i = 1 := by
    rw [counts, hi]
    rfl
  have hafter : (s.begin i k).counts f i = 1 := by
    change (Function.update s.buffer.offices i _ i).counts f
      (Function.update s.offices i _ i).pc = 1
    rw [Function.update_self, Function.update_self]
    exact hstart
  refine load_congr (fun j => ?_) rfl
  by_cases hj : j = i
  · subst j
    exact hafter.trans hbefore.symm
  · change (Function.update s.buffer.offices i _ j).counts f
      (Function.update s.offices i _ j).pc = _
    rw [Function.update_of_ne hj, Function.update_of_ne hj]
    rfl

theorem perform_buffer_queue (s : Server n) (i : Fin n) (act : Action) (b : Bank (Fin n))
    (o : Office) : (s.perform i act b o).buffer.queue = s.buffer.queue := by
  unfold perform
  dsimp only
  split <;> rfl

theorem load_perform {i : Fin n} {k : ℕ} (hi : s.buffer.offices i = .work k) (act : Action)
    (b : Bank (Fin n)) (o : Office) :
    (s.perform i act b o).load f + f (s.offices i).pc = s.load f + f o.pc := by
  have hmain : (s.perform i act b o).buffer.main = s.buffer.main := by
    unfold perform
    split <;> rfl
  have hbefore : s.counts f i = f (s.offices i).pc := by
    rw [counts, hi]
    rfl
  have hafter : (s.perform i act b o).counts f i = f o.pc := by
    rw [counts, perform_buffer_offices, hi]
    change f (Function.update s.offices i o i).pc = _
    rw [Function.update_self]
  have hoffice : (s.perform i act b o).load f - (s.perform i act b o).buffer.queue.itemsNo -
      (s.perform i act b o).counts f i = s.load f - s.buffer.queue.itemsNo - s.counts f i :=
    load_office i (fun j hj => by
      rw [counts, perform_buffer_offices]
      change (s.buffer.offices j).counts f (Function.update s.offices i o j).pc = _
      rw [Function.update_of_ne hj]
      rfl) hmain
  rw [hbefore, hafter, perform_buffer_queue] at hoffice
  linarith

/-- The messages read so far are under way or completed. -/
def Accounted (f : Pc → ℕ) (done : Action → Option α) (s : Server n) : Prop :=
  (s.messages.length : ℤ) = s.load f + (s.actions.filterMap done).length

theorem Step.accounted {l : ServerLabel n} (hs : Step sha256sum s l s')
    (hidle : f .idle = 0) (hstart : f (.activeLock .enter) = 1)
    (hstep : ∀ i choice act o, l = .act i choice →
      OfficeStep sha256sum choice s.request s.bank (s.offices i) act o →
      (done act).toList.length + f o.pc = f (s.offices i).pc)
    (h : s.Accounted f done) : s'.Accounted f done := by
  unfold Accounted at h ⊢
  cases hs with
  | store => exact h
  | submit value hm =>
      rw [load_submit hm, List.length_append, List.length_singleton]
      push_cast
      rw [h]
      change _ = _ + 1 + ((s.actions.filterMap done).length : ℤ)
      ring
  | leave b hb => exact h.trans (congrArg (· + _) (load_leave (Buffer.step_cases hb)).symm)
  | main b hb => exact h.trans (congrArg (· + _) (load_main (Buffer.step_cases hb)).symm)
  | loop i b hb hread hpost hwork =>
      exact h.trans
        (congrArg (· + _) (load_loop hidle (Buffer.step_cases hb) hread hpost hwork).symm)
  | take i hi => exact h.trans (congrArg (· + _) (load_take hi).symm)
  | begin i k hi => exact h.trans (congrArg (· + _) (load_begin hstart hi).symm)
  | act i k choice act b o hi hoffice hb =>
      have hload := load_perform (f := f) hi act b o
      have hdone := hstep i choice act o rfl (officeStep_cases _ _ _ _ hoffice)
      have hactions : ((s.perform i act b o).actions.filterMap done).length =
          (done act).toList.length + (s.actions.filterMap done).length := by
        change ((act :: s.actions).filterMap done).length = _
        rw [List.filterMap_cons]
        cases done act with
        | none => exact (Nat.zero_add _).symm
        | some x => exact Nat.add_comm _ 1
      rw [hactions]
      change (s.messages.length : ℤ) = _
      push_cast
      have hdone' : ((done act).toList.length : ℤ) + f o.pc = f (s.offices i).pc := by
        exact_mod_cast hdone
      linarith

/-- The main thread has nothing to queue and no office has a request. -/
theorem free_of_load (hload : s.load f = 0) (hitems : 0 ≤ s.buffer.queue.itemsNo) :
    s.buffer.queue.itemsNo = 0 ∧ ∀ i, s.counts f i = 0 := by
  have hsum : 0 ≤ ∑ i, (s.counts f i : ℤ) := Finset.sum_nonneg fun i _ => Int.natCast_nonneg _
  unfold load at hload
  refine ⟨by omega, fun i => ?_⟩
  have hle : (s.counts f i : ℤ) ≤ ∑ i, (s.counts f i : ℤ) :=
    Finset.single_le_sum (f := fun i => (s.counts f i : ℤ))
      (fun i _ => Int.natCast_nonneg _) (Finset.mem_univ i)
  omega

/-- With one message under way, the office that has it is the only one that counts. -/
theorem alone_of_load (hload : s.load f ≤ 1) (hitems : 0 ≤ s.buffer.queue.itemsNo) {i j : Fin n}
    (hi : s.counts f i = 1) (hj : j ≠ i) : s.counts f j = 0 := by
  have hpair : ((s.counts f i : ℤ) + s.counts f j) ≤ ∑ i, (s.counts f i : ℤ) := by
    rw [← Finset.sum_pair (f := fun i => (s.counts f i : ℤ)) hj.symm]
    exact Finset.sum_le_univ_sum_of_nonneg fun i => Int.natCast_nonneg _
  unfold load at hload
  omega

/-- With one message under way, the queue is empty when an office has it. -/
theorem empty_of_load (hload : s.load f ≤ 1) (hitems : 0 ≤ s.buffer.queue.itemsNo) {i : Fin n}
    (hi : s.counts f i = 1) : s.buffer.queue.itemsNo = 0 := by
  have hle : (s.counts f i : ℤ) ≤ ∑ i, (s.counts f i : ℤ) :=
    Finset.single_le_sum (f := fun i => (s.counts f i : ℤ))
      (fun i _ => Int.natCast_nonneg _) (Finset.mem_univ i)
  unfold load at hload
  omega

theorem load_mono {g : Pc → ℕ} (hfg : ∀ pc, f pc ≤ g pc) : s.load f ≤ s.load g := by
  refine add_le_add_right (Finset.sum_le_sum fun i _ => Int.ofNat_le.mpr ?_) _
  unfold counts
  cases s.buffer.offices i with
  | work k => exact hfg _
  | _ => exact le_refl _

end Load

theorem Matches.filterMap_actions {α : Type} {done : Action → Option α} {a : System n}
    (hdone : ∀ act act' : Action, act.SameOutside act' → done act = done act')
    (h : s.Matches a) : a.actions.filterMap done = s.actions.filterMap done := by
  have htrace := h.trace
  unfold System.actions actions
  generalize a.trace = taken at htrace ⊢
  generalize s.trace = events at htrace ⊢
  induction htrace with
  | nil => rfl
  | cons hd _ ih => simp only [List.map_cons, List.filterMap_cons, hdone _ _ hd.2, ih]

theorem Matches.exchanges {a : System n} (h : s.Matches a) :
    HomeBanking.exchanges a.actions = HomeBanking.exchanges s.actions := by
  unfold HomeBanking.exchanges
  rw [List.filterMap_reverse, List.filterMap_reverse,
    h.filterMap_actions fun _ _ hsame => by cases hsame <;> rfl]

theorem Matches.replies {a : System n} (h : s.Matches a) :
    HomeBanking.replies a.actions = HomeBanking.replies s.actions := by
  unfold HomeBanking.replies
  rw [List.filterMap_reverse, List.filterMap_reverse,
    h.filterMap_actions fun _ _ hsame => by cases hsame <;> rfl]

end Server

section Steps

variable {sha256sum : CString → CString} {choice : Choice} {req : TlvRequest}
  {b : Bank (Fin n)} {o o' : Office} {act : Action}

/-- A reply is sent by the step that ends the work on a request. -/
theorem OfficeStep.reply_unanswered (h : OfficeStep sha256sum choice req b o act o')
    (ho : o.pc ≠ .replyWrite none) :
    act.reply.toList.length + o'.pc.unanswered = o.pc.unanswered := by
  cases h with
  | dispatch => cases ht : req.type <;> rfl
  | replySkip => exact absurd rfl ho
  | fault pc r r' hfault =>
      cases pc with
      | idle => cases hfault
      | _ => rfl
  | _ => rfl

theorem OfficeStep.exchange_unreturned (h : OfficeStep sha256sum choice req b o act o') :
    act.exchange.toList.length + o'.pc.unreturned = o.pc.unreturned := by
  cases h with
  | dispatch => cases ht : req.type <;> rfl
  | fault pc r r' hfault =>
      cases pc with
      | idle | replyOpen | replyWrite => cases hfault
      | _ => rfl
  | _ => rfl

end Steps

/-- A request that has not returned has not been answered. -/
theorem Pc.unreturned_le (pc : Pc) : pc.unreturned ≤ pc.unanswered := by
  cases pc with
  | idle => exact le_refl 0
  | replyOpen | replyWrite => exact Nat.zero_le 1
  | _ => exact le_refl 1

namespace Server

/-- The main thread reads when all messages are answered and leaves its read loop
when the queue is empty, the salts are of the given set, and every reply FIFO can
be opened. -/
def Patient (salts : Set CString) (s : Server n) : ServerLabel n → Prop
  | .readType _ | .readLength _ | .readValue _ => s.Answered
  | .leave => s.buffer.queue.itemsNo = 0
  | .act _ choice => choice.salt ∈ salts ∧ choice.fifoOpens = true
  | .readFails | .main | .office _ => True

/-- The runs in which every message is answered before the next one is read. -/
abbrev patient (sha256sum : CString → CString) (ok : TlvRequest → Prop) (salts : Set CString)
    (t₀ : Table) (n : ℕ) : LTS (Server n) (ServerLabel n) :=
  (server sha256sum ok t₀ n).guard (Patient salts)

/-- A run with one message at a time, beside the run of the offices alone: at
most one message is under way, and it is the one in `request`. -/
structure Waiting (sha256sum : CString → CString) (ok : TlvRequest → Prop) (salts : Set CString)
    (t₀ : Table) (s : Server n) (a : System n) : Prop where
  disciplined : (disciplined sha256sum ok t₀ n).Reachable s
  turns : (turns sha256sum ok salts t₀ n).Reachable a
  same : s.Matches a
  answered : s.Accounted Pc.unanswered Action.reply
  returned : s.Accounted Pc.unreturned Action.exchange
  one : s.messages.length ≤ (replies s.actions).length + 1
  ended : s.buffer.main.inLoop = false →
    s.buffer.queue.itemsNo = 0 ∧ s.buffer.serverDown = true
  inOrder : ∃ rest, s.messages = (exchanges s.actions).map Prod.fst ++ rest ∧
    ∀ m ∈ rest, m = s.request

section Runs

variable {sha256sum : CString → CString} {ok : TlvRequest → Prop} {salts : Set CString}
  {t₀ : Table} {s s' : Server n} {a : System n}

theorem Accounted.of_collected {α : Type} {f : Pc → ℕ} {done : Action → Option α}
    (h : s.Accounted f done) :
    (s.messages.length : ℤ) = s.load f + (s.actions.reverse.filterMap done).length := by
  rw [List.filterMap_reverse, List.length_reverse]
  exact h

theorem itemsNo_nonneg (h : (disciplined sha256sum ok t₀ n).Reachable s) :
    0 ≤ s.buffer.queue.itemsNo := by
  obtain ⟨pending, hd⟩ := Buffer.exists_draining (reachable_orderly h)
  rw [hd.contains.itemsNo]
  exact Int.natCast_nonneg _

/-- An office that does not count is idle. -/
theorem idle_of_counts (hrest : s.Resting) {i : Fin n} (hi : s.counts Pc.unanswered i = 0) :
    (s.offices i).pc = .idle := by
  by_cases hwork : ∃ k, s.buffer.offices i = .work k
  · obtain ⟨k, hk⟩ := hwork
    rw [counts, hk] at hi
    change (s.offices i).pc.unanswered = 0 at hi
    generalize (s.offices i).pc = pc at hi ⊢
    cases pc with
    | idle => rfl
    | _ => cases hi
  · exact hrest i fun k hk => hwork ⟨k, hk⟩

theorem Waiting.load_eq (h : Waiting sha256sum ok salts t₀ s a) :
    s.load Pc.unanswered = s.messages.length - (replies s.actions).length :=
  eq_sub_of_add_eq h.answered.of_collected.symm

theorem Waiting.load_unreturned_le (h : Waiting sha256sum ok salts t₀ s a) :
    s.load Pc.unreturned ≤ s.messages.length - (replies s.actions).length :=
  (load_mono Pc.unreturned_le).trans_eq h.load_eq

theorem Waiting.resting (h : Waiting sha256sum ok salts t₀ s a) : s.Resting :=
  HomeBanking.Server.resting h.disciplined.of_guard

/-- When all messages are answered, nothing is under way. -/
theorem Waiting.free (h : Waiting sha256sum ok salts t₀ s a) (ha : s.Answered) :
    s.buffer.queue.itemsNo = 0 ∧ ∀ i, s.counts Pc.unanswered i = 0 := by
  refine free_of_load ?_ (itemsNo_nonneg h.disciplined)
  rw [h.load_eq, ha]
  exact sub_self _

theorem Waiting.quiet (h : Waiting sha256sum ok salts t₀ s a) (ha : s.Answered) : s.Quiet := by
  refine ⟨(h.free ha).1, fun i => ?_⟩
  have hcounts := (h.free ha).2 i
  have hidle := idle_of_counts h.resting hcounts
  unfold counts at hcounts
  unfold reads
  rw [hidle] at hcounts ⊢
  generalize s.buffer.offices i = pc at hcounts ⊢
  cases pc with
  | post => cases hcounts
  | _ => rfl

/-- The next message is read when the earlier ones have returned. -/
theorem Waiting.messages_eq (h : Waiting sha256sum ok salts t₀ s a) (ha : s.Answered) :
    s.messages = (exchanges s.actions).map Prod.fst := by
  obtain ⟨rest, hrest, -⟩ := h.inOrder
  have hmono := h.load_unreturned_le
  have hreturned := h.returned.of_collected
  have hlength := congrArg List.length hrest
  rw [ha] at hmono
  rw [List.length_append, List.length_map] at hlength
  change _ = _ + ((exchanges s.actions).length : ℤ) at hreturned
  have hnil : rest = [] := List.length_eq_zero_iff.mp (by omega)
  rw [hrest, hnil, List.append_nil]

/-- The message under way is the one in `request`. -/
theorem Waiting.messages_append (h : Waiting sha256sum ok salts t₀ s a)
    (hmore : (exchanges s.actions).length < s.messages.length) :
    s.messages = (exchanges s.actions).map Prod.fst ++ [s.request] := by
  obtain ⟨rest, hrest, hsame⟩ := h.inOrder
  have hmono := h.load_unreturned_le
  have hreturned := h.returned.of_collected
  have hlength := congrArg List.length hrest
  have hone := h.one
  rw [List.length_append, List.length_map] at hlength
  change _ = _ + ((exchanges s.actions).length : ℤ) at hreturned
  obtain ⟨m, rfl⟩ := List.length_eq_one_iff.mp (show rest.length = 1 by omega)
  rw [hrest, hsame m (List.mem_singleton.mpr rfl)]

/-- With one message under way the server is disciplined. -/
theorem Waiting.guard (h : Waiting sha256sum ok salts t₀ s a) {l : ServerLabel n}
    (hl : s.Patient salts l) : (s.stores l = s.request ∨ s.Quiet) ∧
      ∀ i, l = .office i → s.buffer.main.inLoop = false →
        s.buffer.overtakes (.office i) = false := by
  constructor
  · cases l with
    | readType | readLength | readValue => exact .inr (h.quiet hl)
    | _ => exact .inl rfl
  · intro i _ hm
    obtain ⟨hitems, hdown⟩ := h.ended hm
    unfold Buffer.overtakes
    dsimp only
    cases s.buffer.offices i with
    | testDown => simp [hdown]
    | testItems => simp [hitems]
    | _ => rfl

theorem Waiting.init (hs : s.Start t₀) :
    ∃ a, Waiting sha256sum ok salts t₀ s a := by
  have hr : (Server.disciplined sha256sum ok t₀ n).Reachable s := .init hs
  have hsim : LTS.Simulation (Server.disciplined sha256sum ok t₀ n) _ _ := system_simulation
  obtain ⟨a, ha, hsame⟩ := hsim.init s hs
  have hactions : s.actions = [] := by rw [actions, hs.trace]; rfl
  have hload : ∀ f, s.load f = 0 := fun f => by
    have hcounts : ∀ i, s.counts f i = 0 := fun i => by
      rw [counts, hs.buffer.offices i]
      rfl
    unfold load
    simp only [hcounts, hs.buffer.main, hs.buffer.itemsNo, MainPc.owesEntry]
    simp
  refine ⟨a, hr, .init ha, hsame, ?_, ?_, ?_, ?_, ⟨[], ?_, fun m hm => ?_⟩⟩
  · unfold Accounted
    rw [hs.messages, hactions, hload]
    rfl
  · unfold Accounted
    rw [hs.messages, hactions, hload]
    rfl
  · rw [hs.messages]
    exact Nat.zero_le _
  · intro hm
    rw [hs.buffer.main] at hm
    cases hm
  · rw [hs.messages, hactions]
    rfl
  · cases hm

theorem load_nonneg {f : Pc → ℕ} (hitems : 0 ≤ s.buffer.queue.itemsNo) : 0 ≤ s.load f := by
  have hsum : 0 ≤ ∑ i, (s.counts f i : ℤ) := Finset.sum_nonneg fun i _ => Int.natCast_nonneg _
  unfold load
  omega

/-- What a step adds to the messages and to the actions. -/
theorem Step.history {l : ServerLabel n} (hs : Step sha256sum s l s') :
    ((∃ value, l = .readValue value) ∧ s'.messages = s.messages ++ [s'.request] ∧
      s'.actions = s.actions) ∨
    s'.messages = s.messages ∧ s'.request = s.stores l ∧
      (s'.actions = s.actions ∨ s'.request = s.request ∧ ∃ i choice act o,
        OfficeStep sha256sum choice s.request s.bank (s.offices i) act o ∧
        s'.actions = act :: s.actions) := by
  cases hs with
  | submit value hm => exact .inl ⟨⟨value, rfl⟩, rfl, rfl⟩
  | store | leave | main | loop | take | begin => exact .inr ⟨rfl, rfl, .inl rfl⟩
  | act i k choice act b o hi hoffice hb =>
      exact .inr ⟨rfl, rfl, .inr ⟨rfl, i, choice, act, o, officeStep_cases _ _ _ _ hoffice, rfl⟩⟩

/-- The main thread leaves its read loop when the server is down, which it stays.
After that an entry is taken at most. -/
theorem Step.leaves {l : ServerLabel n} (hs : Step sha256sum s l s')
    (hm : s'.buffer.main.inLoop = false) :
    (l = .leave ∧ s'.buffer.serverDown = true ∧ s'.buffer.queue = s.buffer.queue) ∨
      s.buffer.main.inLoop = false ∧
        (s.buffer.serverDown = true → s'.buffer.serverDown = true) ∧
        (s'.buffer.queue = s.buffer.queue ∨ ∃ i, s.buffer.offices i = .read) := by
  cases hs with
  | store | begin => exact .inr ⟨hm, id, .inl rfl⟩
  | take i hi => exact .inr ⟨hm, id, .inr ⟨i, hi⟩⟩
  | submit => cases hm
  | leave b hb =>
      cases Buffer.step_cases hb with
      | leave _ hd => exact .inl ⟨rfl, hd, rfl⟩
  | main b hb =>
      cases Buffer.step_cases hb with
      | waitNotFull | writeRequest | postNotEmpty => cases hm
      | drainMore hmain | drainDone hmain | drainWait hmain | drainPost hmain | closing _ hmain =>
          exact .inr ⟨by rw [hmain]; rfl, id, .inl rfl⟩
  | loop i b hb hread =>
      cases Buffer.step_cases hb with
      | read _ hi => exact absurd hi hread
      | _ => exact .inr ⟨hm, id, .inl rfl⟩
  | act i k choice act b o =>
      unfold perform at hm ⊢
      split at hm
      · exact .inr ⟨hm, fun _ => by simp [*], .inl (by simp [*])⟩
      · exact .inr ⟨hm, fun hd => by simp [*], .inl (by simp [*])⟩

/-- The offices alone take turns. -/
theorem Waiting.turns_step (h : Waiting sha256sum ok salts t₀ s a) {l : ServerLabel n}
    (hs : (patient sha256sum ok salts t₀ n).step s l s') :
    ∃ a', (HomeBanking.turns sha256sum ok salts t₀ n).Reachable a' ∧ s'.Matches a' := by
  rcases h.same.step h.disciplined ⟨hs.1, h.guard hs.2⟩ with hsame | ⟨m, a', hm, hsame, hgive, hact⟩
  · exact ⟨a, h.turns, hsame⟩
  · refine ⟨a', h.turns.step ⟨hm, ?_⟩, hsame⟩
    cases m with
    | give i req =>
        obtain ⟨k, hk⟩ := hgive i req rfl
        have hi : s.counts Pc.unanswered i = 1 := by
          rw [counts, hk]
          rfl
        have hload : s.load Pc.unanswered ≤ 1 := by
          have hone := h.one
          rw [h.load_eq]
          omega
        refine ⟨fun j => ?_, trivial, trivial⟩
        rw [System.pc, h.same.offices]
        by_cases hj : j = i
        · subst j
          exact h.resting i fun k' hk' => by rw [hk] at hk'; cases hk'
        · exact idle_of_counts h.resting
            (alone_of_load hload (itemsNo_nonneg h.disciplined) hi hj)
    | act i choice =>
        obtain rfl := hact i choice rfl
        exact ⟨trivial, hs.2.1, hs.2.2⟩

theorem exchanges_actions_cons {act : Action} (h : s'.actions = act :: s.actions) :
    exchanges s'.actions = exchanges s.actions ++ act.exchange.toList := by
  rw [h, exchanges_cons]

theorem Step.replies_length_le {l : ServerLabel n} (hs : Step sha256sum s l s') :
    (replies s.actions).length ≤ (replies s'.actions).length := by
  have hcons : ∀ act, s'.actions = act :: s.actions →
      (replies s.actions).length ≤ (replies s'.actions).length := fun act hact => by
    rw [hact, replies_cons, List.length_append]
    exact Nat.le_add_right _ _
  rcases hs.history with ⟨-, -, hsame⟩ | ⟨-, -, hsame | ⟨-, _, _, act, _, -, hact⟩⟩
  · rw [hsame]
  · rw [hsame]
  · exact hcons act hact

/-- The messages are those that have returned and the one in `request`. -/
theorem Waiting.inOrder_step (h : Waiting sha256sum ok salts t₀ s a) {l : ServerLabel n}
    (hs : (patient sha256sum ok salts t₀ n).step s l s')
    (hreturned : s'.Accounted Pc.unreturned Action.exchange)
    (hitems : 0 ≤ s'.buffer.queue.itemsNo) :
    ∃ rest, s'.messages = (exchanges s'.actions).map Prod.fst ++ rest ∧
      ∀ m ∈ rest, m = s'.request := by
  rcases (step_cases hs.1.1).history with ⟨⟨value, rfl⟩, hmessages, hactions⟩ |
    ⟨hmessages, hrequest, hactions | ⟨hsame, i, choice, act, o, hoffice, hactions⟩⟩
  · refine ⟨[s'.request], ?_, fun m hm => List.mem_singleton.mp hm⟩
    rw [hmessages, hactions, h.messages_eq hs.2]
  · have hkept : s.Answered ∨ s.stores l = s.request := by
      cases l with
      | readType | readLength | readValue => exact .inl hs.2
      | _ => exact .inr rfl
    rcases hkept with ha | hkept
    · refine ⟨[], ?_, fun m hm => absurd hm List.not_mem_nil⟩
      rw [hmessages, hactions, h.messages_eq ha, List.append_nil]
    · obtain ⟨rest, hrest, hall⟩ := h.inOrder
      refine ⟨rest, ?_, fun m hm => (hall m hm).trans (hkept.symm.trans hrequest.symm)⟩
      rw [hmessages, hactions, hrest]
  · cases he : act.exchange with
    | none =>
        obtain ⟨rest, hrest, hall⟩ := h.inOrder
        refine ⟨rest, ?_, fun m hm => (hall m hm).trans hsame.symm⟩
        rw [hmessages, exchanges_actions_cons hactions, he, hrest]
        simp
    | some e =>
        have hmore : (exchanges s.actions).length < s.messages.length := by
          have hcount := hreturned.of_collected
          have hload := load_nonneg (f := Pc.unreturned) hitems
          change _ = _ + ((exchanges s'.actions).length : ℤ) at hcount
          rw [hmessages, exchanges_actions_cons hactions, he, List.length_append] at hcount
          change _ = _ + ((_ + 1 : ℕ) : ℤ) at hcount
          omega
        refine ⟨[], ?_, fun m hm => absurd hm List.not_mem_nil⟩
        rw [hmessages, exchanges_actions_cons hactions, he, h.messages_append hmore,
          ← (hoffice.exchange_eq he).1]
        simp

theorem Waiting.step (h : Waiting sha256sum ok salts t₀ s a) {l : ServerLabel n}
    (hs : (patient sha256sum ok salts t₀ n).step s l s') :
    ∃ a', Waiting sha256sum ok salts t₀ s' a' := by
  have hr : (Server.disciplined sha256sum ok t₀ n).Reachable s' :=
    h.disciplined.step ⟨hs.1, h.guard hs.2⟩
  have hstep := step_cases hs.1.1
  have hskip : ∀ i, (s.offices i).pc ≠ .replyWrite none := fun i hpc => by
    have haddressed := replyAddressed h.turns i
    rw [h.same.offices] at haddressed
    cases haddressed none hpc
  have hanswered : s'.Accounted Pc.unanswered Action.reply :=
    hstep.accounted rfl rfl (fun i _ _ _ _ ho => ho.reply_unanswered (hskip i)) h.answered
  have hreturned : s'.Accounted Pc.unreturned Action.exchange :=
    hstep.accounted rfl rfl (fun _ _ _ _ _ ho => ho.exchange_unreturned) h.returned
  obtain ⟨a', ha', hsame'⟩ := h.turns_step hs
  have hmore := hstep.replies_length_le
  refine ⟨a', hr, ha', hsame', hanswered, hreturned, ?_, ?_,
    h.inOrder_step hs hreturned (itemsNo_nonneg hr)⟩
  · rcases hstep.history with ⟨⟨value, rfl⟩, hmessages, -⟩ | ⟨hmessages, -⟩
    · have ha : (replies s.actions).length = s.messages.length := hs.2
      rw [hmessages, List.length_append, ← ha]
      exact Nat.add_le_add_right hmore 1
    · rw [hmessages]
      exact h.one.trans (Nat.add_le_add_right hmore 1)
  · intro hm
    rcases hstep.leaves hm with ⟨rfl, hdown, hqueue⟩ | ⟨hm, hdown, hqueue⟩
    · rw [hqueue]
      exact ⟨hs.2, hdown⟩
    · obtain ⟨hitems, hd⟩ := h.ended hm
      refine ⟨?_, hdown hd⟩
      rcases hqueue with hqueue | ⟨i, hi⟩
      · rw [hqueue]
        exact hitems
      · -- no office is about to read the empty queue
        obtain ⟨pending, hdrain⟩ := Buffer.exists_draining (reachable_orderly h.disciplined)
        exact absurd hitems (hdrain.itemsNo_pos hi).ne'

/-- A run with one message at a time is a run in which the offices take turns. -/
theorem exists_waiting (h : (patient sha256sum ok salts t₀ n).Reachable s) :
    ∃ a, Waiting sha256sum ok salts t₀ s a := by
  induction h with
  | init hs => exact Waiting.init hs
  | step _ hs ih =>
      obtain ⟨a, ha⟩ := ih
      exact ha.step hs

end Runs

/-- The client of the message `m` is told of the transaction `x.1`, which leaves
the accounts `x.2`. -/
structure Tells (m : TlvRequest) (r : UInt32 × TlvReply)
    (x : Transaction UInt32 CString × Ledger UInt32 CString) : Prop
    extends EnteredAs (m, r.2) x where
  client : r.1 = m.value.header.pid
  type : r.2.type = m.type
  length : ReplySized m r.2

section Clients

variable {sha256sum : CString → CString} {passwords salts : Set CString}
  {adminPassword : CString} {s : Server n}

/-- One message at a time, the server is the abstract bank. When all messages are
answered, none with `RC_TOO_HIGH`, the replies, in their order, tell the clients
of the messages, in theirs, the transactions of the abstract bank and the
balances that these leave, and the table represents its accounts. -/
theorem answered_in_order (hsha : Sha256On sha256sum (hashInputs passwords salts))
    (hlen : ∀ p ∈ passwords, p.length ≤ maxPasswordLen)
    (hsalts : ∀ salt ∈ salts, ∃ rand, salt = generateSalt rand) {rand : ℕ → ℕ}
    (hsalt : generateSalt rand ∈ salts) (hadmin : adminPassword ∈ passwords)
    (h : (patient sha256sum (Ordered passwords) salts
      (adminTable sha256sum (generateSalt rand) adminPassword) n).Reachable s)
    (ha : s.Answered) (hlow : ∀ r ∈ replies s.actions, r.2.retCode ≠ .tooHigh) :
    ∃ history L, (ledgerBank bankLimits (openingLedger adminPassword)).Reachable (history, L) ∧
      List.Forall₂ (fun p x => Tells p.1 p.2 x) (s.messages.zip (replies s.actions))
        ((openingLedger adminPassword).trail bankLimits history) ∧
      Represents sha256sum passwords salts s.bank.bankAccounts L := by
  obtain ⟨a, hw⟩ := exists_waiting h
  have hidle : ∀ i, a.pc i = .idle := fun i => by
    rw [System.pc, hw.same.offices]
    exact idle_of_counts hw.resting ((hw.free ha).2 i)
  -- the exchanges are the messages with their replies
  have hmessages := hw.messages_eq ha
  have hreplies : replies s.actions =
      (exchanges s.actions).map fun e => (e.1.value.header.pid, e.2) := by
    obtain ⟨current, hdue, hcurrent⟩ := due_eq hw.turns
    rw [sum_eq_zero_of_idle (fun req _ => onItsWay_idle req) hidle] at hcurrent
    obtain rfl := (Multiset.coe_eq_zero current).mp hcurrent
    rw [System.due, hw.same.exchanges, hw.same.replies, List.append_nil] at hdue
    exact hdue.symm
  have hzip : s.messages.zip (replies s.actions) =
      (exchanges s.actions).map fun e => (e.1, (e.1.value.header.pid, e.2)) := by
    rw [hmessages, hreplies, List.zip_map']
  have hlow' : ∀ e ∈ exchanges a.actions, e.2.retCode ≠ .tooHigh := by
    intro e he
    refine hlow (e.1.value.header.pid, e.2) ?_
    rw [hreplies, ← hw.same.exchanges]
    exact List.mem_map_of_mem he
  -- they are entered in the books of the abstract bank
  obtain ⟨L, hledger, -, hrep⟩ := exists_ledger hsha hlen hsalts hsalt hadmin hw.turns
    (sum_eq_zero_of_idle (fun req _ => effective_idle req) hidle)
    (fun i => by rw [hidle i]; decide) hlow'
  have hentered := exchanges_entered hsha hlen hsalts hsalt hadmin hw.turns hlow'
  have hformed := exchange_formed hw.turns.of_guard
  refine ⟨transactions a.actions, L, hledger, ?_, ?_⟩
  · rw [hw.same.exchanges] at hentered hformed
    rw [hzip, List.forall₂_map_left_iff]
    exact ((List.forall₂_and_left _ _).mpr ⟨hformed, hentered⟩).imp
      fun e x hx => ⟨hx.2, rfl, hx.1.1, hx.1.2⟩
  · rw [← hw.same.bank]
    exact hrep

end Clients

end Server

end HomeBanking
