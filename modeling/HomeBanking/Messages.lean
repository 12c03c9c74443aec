import HomeBanking.Server

/-!
# Messages and the offices that work on them

An office should work on the message it has taken from the queue. It reads the
variable `request` of the main thread instead, so this is what happens in the
runs in which the main thread changes `request` only when no entry is queued
and no office still looks at the request it has taken.
-/

namespace HomeBanking

/-- What an action shows of the request is that of the message `m`. -/
def Action.concerns (m : TlvRequest) : Action → Prop
  | .returned req _ => req = m
  | .sent pid _ _ => pid = m.value.header.pid
  | _ => True

namespace Server

variable {n : ℕ}

/-- No entry is queued and no office still looks at the request it has taken. -/
def Quiet (s : Server n) : Prop := s.buffer.queue.itemsNo = 0 ∧ ∀ i, s.reads i = false

instance (s : Server n) : Decidable s.Quiet := by
  unfold Quiet
  infer_instance

/-- The runs in which the main thread changes `request` only when nobody is to
read it any more. -/
abbrev careful (sha256sum : CString → CString) (ok : TlvRequest → Prop) (t₀ : Table) (n : ℕ) :
    LTS (Server n) (ServerLabel n) :=
  (server sha256sum ok t₀ n).guard fun s l => s.stores l = s.request ∨ s.Quiet

/-- Whatever is queued, about to be queued, or read by an office is the message
that `request` holds. -/
structure Intact (s : Server n) : Prop where
  main : ∀ k, s.buffer.main = .waitNotFull k ∨ s.buffer.main = .writeRequest k →
    s.messages[k]? = some s.request
  queued : 0 ≤ s.buffer.queue.itemsNo → ∃ pending, s.buffer.queue.Contains pending ∧
    ∀ k ∈ pending, s.messages[k]? = some s.request
  serving : ∀ i k, s.serving i = some k → s.reads i = true →
    s.messages[k]? = some s.request

section Step

variable {sha256sum : CString → CString} {s s' : Server n} {l : ServerLabel n}

/-- A message is found again after others have been received. -/
theorem getElem?_messages_append {k : ℕ} {m : TlvRequest} (h : s.messages[k]? = some m)
    (received : List TlvRequest) : (s.messages ++ received)[k]? = some m := by
  have hk := (List.getElem?_eq_some_iff.mp h).1
  rwa [List.getElem?_append_left hk]

/-- A careful change of `request`, and possibly a further message, does not
reach what is queued or read. -/
theorem Intact.request (h : s.Intact) {request : TlvRequest}
    (hg : request = s.request ∨ s.Quiet) (received : List TlvRequest) :
    (0 ≤ s.buffer.queue.itemsNo → ∃ pending, s.buffer.queue.Contains pending ∧
      ∀ k ∈ pending, (s.messages ++ received)[k]? = some request) ∧
    ∀ i k, s.serving i = some k → s.reads i = true →
      (s.messages ++ received)[k]? = some request := by
  rcases hg with rfl | ⟨hempty, hquiet⟩
  · constructor
    · intro hpos
      obtain ⟨pending, hcontains, hmessages⟩ := h.queued hpos
      exact ⟨pending, hcontains, fun k hk => getElem?_messages_append (hmessages k hk) received⟩
    · intro i k hk hreads
      exact getElem?_messages_append (h.serving i k hk hreads) received
  · constructor
    · intro hpos
      obtain ⟨pending, hcontains, -⟩ := h.queued hpos
      have hnil : pending = [] := by
        rw [hcontains.itemsNo] at hempty
        exact List.length_eq_zero_iff.mp (Int.ofNat_eq_zero.mp hempty)
      subst hnil
      exact ⟨[], hcontains, fun k hk => absurd hk List.not_mem_nil⟩
    · intro i k _ hreads
      rw [hquiet i] at hreads
      cases hreads

/-- A step of the main thread on the queue. -/
theorem Intact.mainStep (h : s.Intact) {b : Buffer n ℕ} (hb : Buffer.Step s.buffer .main b)
    (hroom : ∀ k, s.buffer.main = .writeRequest k →
      0 ≤ s.buffer.queue.itemsNo ∧ s.buffer.queue.itemsNo < s.buffer.queue.size) :
    Intact { s with buffer := b } := by
  cases hb with
  | waitNotFull k hm => exact ⟨fun k' hk => h.main k' (by
      rcases hk with hk | hk
      · cases hk
      · cases hk
        exact .inl hm), h.queued, h.serving⟩
  | writeRequest k hm =>
      refine ⟨?_, ?_, h.serving⟩
      · intro k' hk
        rcases hk with hk | hk <;> cases hk
      · intro _
        obtain ⟨hpos, hlt⟩ := hroom k hm
        obtain ⟨pending, hcontains, hmessages⟩ := h.queued hpos
        refine ⟨pending ++ [k], hcontains.writeRequest hlt k, ?_⟩
        intro k' hk
        rcases List.mem_append.mp hk with hk | hk
        · exact hmessages k' hk
        · obtain rfl := List.mem_singleton.mp hk
          exact h.main k' (.inr hm)
  | _ =>
      refine ⟨?_, h.queued, h.serving⟩
      intro k' hk
      rcases hk with hk | hk <;> cases hk

theorem Intact.loop (h : s.Intact) {b : Buffer n ℕ} {i : Fin n}
    (hb : Buffer.Step s.buffer (.office i) b) (hread : s.buffer.offices i ≠ .read)
    (hpost : ∀ k, s.buffer.offices i ≠ .post k) : Intact { s with buffer := b } := by
  obtain ⟨hmain, hqueue, pc, hoffices, hpc⟩ := loop_cases hb hread hpost
  constructor
  · change ∀ k, b.main = _ ∨ b.main = _ → _
    rw [hmain]
    exact h.main
  · change 0 ≤ b.queue.itemsNo → ∃ pending, b.queue.Contains pending ∧ _
    rw [hqueue]
    exact h.queued
  · intro j k hk hreads
    change (b.offices j).reads _ = true at hreads
    rw [hoffices] at hreads
    by_cases hj : j = i
    · subst j
      rw [Function.update_self, hpc] at hreads
      cases hreads
    · rw [Function.update_of_ne hj] at hreads
      exact h.serving j k hk hreads

theorem Intact.take (h : s.Intact) {i : Fin n} : (s.take i).Intact := by
  refine ⟨h.main, ?_, ?_⟩
  · intro hpos
    change 0 ≤ s.buffer.queue.itemsNo - 1 at hpos
    obtain ⟨pending, hcontains, hmessages⟩ := h.queued (by omega)
    obtain ⟨x, xs, rfl⟩ := hcontains.exists_cons (by omega)
    exact ⟨xs, hcontains.readRequest.2, fun k hk => hmessages k (List.mem_cons_of_mem x hk)⟩
  · intro j k hk hreads
    by_cases hj : j = i
    · subst j
      change Function.update s.serving i s.head i = some k at hk
      rw [Function.update_self, head] at hk
      split at hk
      · rename_i hpos
        obtain ⟨pending, hcontains, hmessages⟩ := h.queued hpos.le
        obtain ⟨x, xs, rfl⟩ := hcontains.exists_cons hpos
        rw [hcontains.readRequest.1] at hk
        cases hk
        exact hmessages k List.mem_cons_self
      · cases hk
    · change Function.update s.serving i s.head j = some k at hk
      change (Function.update s.buffer.offices i _ j).reads _ = true at hreads
      rw [Function.update_of_ne hj] at hk hreads
      exact h.serving j k hk hreads

theorem Intact.begin (h : s.Intact) {i : Fin n} {k : ℕ} (hi : s.buffer.offices i = .post k) :
    (s.begin i k).Intact := by
  refine ⟨h.main, h.queued, ?_⟩
  intro j k' hk hreads
  by_cases hj : j = i
  · subst j
    exact h.serving i k' hk (by rw [reads, hi]; rfl)
  · change (Function.update s.buffer.offices i _ j).reads
      (Function.update s.offices i _ j).pc = true at hreads
    rw [Function.update_of_ne hj, Function.update_of_ne hj] at hreads
    exact h.serving j k' hk hreads

/-- An office that still looks at the request did so before. -/
theorem reads_of_officeStep {choice : Choice} {req : TlvRequest} {bank : Bank (Fin n)}
    {o o' : Office} {act : Action} (h : OfficeStep sha256sum choice req bank o act o')
    (hreads : o'.pc.reads = true) : o.pc.reads = true := by
  cases h with
  | replySkip | replyWrite | fault => cases hreads
  | _ => rfl

theorem Intact.act (h : s.Intact) {i : Fin n} {k : ℕ} {choice : Choice} {act : Action}
    {b : Bank (Fin n)} {o : Office} (hi : s.buffer.offices i = .work k)
    (hstep : OfficeStep sha256sum choice s.request s.bank (s.offices i) act o) :
    (s.perform i act b o).Intact := by
  constructor
  · unfold perform
    dsimp only
    split <;> exact h.main
  · unfold perform
    dsimp only
    split <;> exact h.queued
  · intro j k' hk hreads
    rw [reads, perform_buffer_offices] at hreads
    change (s.buffer.offices j).reads (Function.update s.offices i o j).pc = true at hreads
    apply h.serving j k' hk
    by_cases hj : j = i
    · subst j
      rw [Function.update_self, hi] at hreads
      rw [reads, hi]
      exact reads_of_officeStep hstep hreads
    · rwa [Function.update_of_ne hj] at hreads

end Step

section Results

variable {sha256sum : CString → CString} {ok : TlvRequest → Prop} {t₀ : Table} {s : Server n}

/-- The main thread finds a free slot in the queue when it writes. -/
theorem room (h : (server sha256sum ok t₀ n).Reachable s) {k : ℕ}
    (hm : s.buffer.main = .writeRequest k) :
    0 ≤ s.buffer.queue.itemsNo ∧ s.buffer.queue.itemsNo < s.buffer.queue.size := by
  have hloop : s.buffer.main.inLoop = true := by
    rw [hm]
    rfl
  obtain ⟨pending, hin⟩ := Buffer.exists_inLoop (reachable_buffer h) hloop
  rw [hin.size]
  exact ⟨hin.itemsNo_nonneg, hin.itemsNo_lt hm⟩

theorem Start.intact (h : s.Start t₀) : s.Intact where
  main k hk := by
    rw [h.buffer.main] at hk
    rcases hk with hk | hk <;> cases hk
  queued _ := ⟨[], h.buffer.inLoop.contains, fun k hk => absurd hk List.not_mem_nil⟩
  serving i k hk := by
    rw [h.serving i] at hk
    cases hk

theorem intact (h : (careful sha256sum ok t₀ n).Reachable s) : s.Intact := by
  refine h.invariant (I := fun s : Server n => s.Intact) (fun s hs => Start.intact hs) ?_
  intro s l s' hr hin hs
  cases step_cases hs.1.1 with
  | store _ reader hm hl =>
      have hkept := hin.request hs.2 []
      simp only [List.append_nil] at hkept
      refine ⟨?_, hkept.1, hkept.2⟩
      intro k hk
      change s.buffer.main = _ ∨ s.buffer.main = _ at hk
      rw [hm] at hk
      rcases hk with hk | hk <;> cases hk
  | submit value hm =>
      have hkept := hin.request hs.2 [s.stores (.readValue value)]
      refine ⟨?_, hkept.1, hkept.2⟩
      intro k hk
      rcases hk with hk | hk
      · cases hk
        exact List.getElem?_concat_length
      · cases hk
  | leave b hb =>
      cases Buffer.step_cases hb with
      | leave =>
          refine ⟨?_, hin.queued, hin.serving⟩
          intro k hk
          rcases hk with hk | hk <;> cases hk
  | main b hb => exact hin.mainStep (Buffer.step_cases hb) fun _ hm => room hr.of_guard hm
  | loop i b hb hread hpost => exact hin.loop (Buffer.step_cases hb) hread hpost
  | take i => exact hin.take
  | begin i k hi => exact hin.begin hi
  | act i k choice act b o hi hstep => exact hin.act hi (officeStep_cases _ _ _ _ hstep)

/-- A step that looks at the request acts on it, and takes its pid for the reply. -/
theorem concerns_of_reads {choice : Choice} {req : TlvRequest} {bank : Bank (Fin n)}
    {o o' : Office} {act : Action} (h : OfficeStep sha256sum choice req bank o act o')
    (hreads : o.pc.reads = true) :
    act.concerns req ∧ ∀ dest, o'.pc = .replyWrite dest →
      ∀ pid ∈ dest, pid = req.value.header.pid := by
  cases h with
  | replySkip | replyWrite => cases hreads
  | dispatch r =>
      refine ⟨trivial, ?_⟩
      intro dest hdest
      cases htype : req.type <;> simp [operationPc, htype] at hdest
  | ret r => exact ⟨rfl, fun dest hdest => by cases hdest⟩
  | replyOpen r hopen =>
      refine ⟨trivial, ?_⟩
      intro dest hdest pid hpid
      cases hdest
      exact (Option.mem_some_iff.mp hpid).symm
  | replyUserDown r hopen =>
      refine ⟨trivial, ?_⟩
      intro dest hdest pid hpid
      cases hdest
      cases hpid
  | _ => exact ⟨trivial, fun dest hdest => by cases hdest⟩

/-- The pid of a reply to be written is that of the message taken, and so are the
requests and pids that were shown. -/
structure Addressed (s : Server n) : Prop where
  reply : ∀ i k dest, s.serving i = some k → (s.offices i).pc = .replyWrite dest →
    ∃ m, s.messages[k]? = some m ∧ ∀ pid ∈ dest, pid = m.value.header.pid
  traced : ∀ e ∈ s.trace, ∀ k, e.entry = some k →
    ∃ m, s.messages[k]? = some m ∧ e.action.concerns m

/-- After its last look at the request an office only writes the reply. -/
theorem concerns_of_not_reads {choice : Choice} {req : TlvRequest} {bank : Bank (Fin n)}
    {o o' : Office} {act : Action} (h : OfficeStep sha256sum choice req bank o act o')
    (hreads : o.pc.reads = false) :
    o'.pc = .idle ∧ ∃ dest, o.pc = .replyWrite dest ∧
      ∀ m : TlvRequest, (∀ pid ∈ dest, pid = m.value.header.pid) → act.concerns m := by
  cases h with
  | replySkip r => exact ⟨rfl, none, rfl, fun _ _ => trivial⟩
  | replyWrite pid r => exact ⟨rfl, some pid, rfl, fun m hm => hm pid rfl⟩
  | fault pc r r' hf =>
      cases pc with
      | idle | replyWrite | fault => exact absurd hf id
      | _ => cases hreads
  | _ => cases hreads

/-- The message that the step of an office concerns, when it works on an entry. -/
theorem exists_concerned (hin : s.Intact) (hadd : s.Addressed) {i : Fin n} {k e : ℕ}
    (hi : s.buffer.offices i = .work e) (hk : s.serving i = some k) {choice : Choice}
    {act : Action} {o : Office}
    (hstep : OfficeStep sha256sum choice s.request s.bank (s.offices i) act o) :
    ∃ m, s.messages[k]? = some m ∧ act.concerns m ∧
      ∀ dest, o.pc = .replyWrite dest → ∀ pid ∈ dest, pid = m.value.header.pid := by
  cases hreads : (s.offices i).pc.reads with
  | true =>
      obtain ⟨hact, hdest⟩ := concerns_of_reads hstep hreads
      exact ⟨s.request, hin.serving i k hk (by rw [reads, hi]; exact hreads), hact, hdest⟩
  | false =>
      obtain ⟨hidle, dest, hpc, hact⟩ := concerns_of_not_reads hstep hreads
      obtain ⟨m, hm, hpid⟩ := hadd.reply i k dest hk hpc
      refine ⟨m, hm, hact m hpid, ?_⟩
      intro dest' hdest'
      rw [hidle] at hdest'
      cases hdest'

theorem Addressed.take (h : s.Addressed) {i : Fin n} (hidle : (s.offices i).pc = .idle) :
    (s.take i).Addressed := by
  refine ⟨?_, h.traced⟩
  intro j k dest hk hdest
  by_cases hji : j = i
  · subst j
    change (s.offices i).pc = _ at hdest
    rw [hidle] at hdest
    cases hdest
  · change Function.update s.serving i s.head j = some k at hk
    rw [Function.update_of_ne hji] at hk
    exact h.reply j k dest hk hdest

theorem Addressed.begin (h : s.Addressed) {i : Fin n} {k : ℕ} : (s.begin i k).Addressed := by
  refine ⟨?_, h.traced⟩
  intro j k' dest hk hdest
  change (Function.update s.offices i _ j).pc = _ at hdest
  by_cases hji : j = i
  · subst j
    rw [Function.update_self] at hdest
    cases hdest
  · rw [Function.update_of_ne hji] at hdest
    exact h.reply j k' dest hk hdest

theorem Addressed.act (h : s.Addressed) (hin : s.Intact) {i : Fin n} {e : ℕ} {choice : Choice}
    {act : Action} {b : Bank (Fin n)} {o : Office} (hi : s.buffer.offices i = .work e)
    (hstep : OfficeStep sha256sum choice s.request s.bank (s.offices i) act o) :
    (s.perform i act b o).Addressed := by
  constructor
  · intro j k dest hk hdest
    change (Function.update s.offices i o j).pc = _ at hdest
    by_cases hji : j = i
    · subst j
      rw [Function.update_self] at hdest
      obtain ⟨m, hm, -, hpid⟩ := exists_concerned hin h hi hk hstep
      exact ⟨m, hm, hpid dest hdest⟩
    · rw [Function.update_of_ne hji] at hdest
      exact h.reply j k dest hk hdest
  · intro ev hev k hk
    rcases List.mem_cons.mp hev with rfl | hev
    · obtain ⟨m, hm, hact, -⟩ := exists_concerned hin h hi hk hstep
      exact ⟨m, hm, hact⟩
    · exact h.traced ev hev k hk

theorem addressed (h : (careful sha256sum ok t₀ n).Reachable s) : s.Addressed := by
  apply h.invariant (I := fun s : Server n => s.Addressed)
  · intro s hs
    constructor
    · intro i k dest hk
      rw [hs.serving i] at hk
      cases hk
    · intro e he
      rw [hs.trace] at he
      exact absurd he List.not_mem_nil
  · intro s l s' hr hadd hs
    cases step_cases hs.1.1 with
    | store => exact ⟨hadd.reply, hadd.traced⟩
    | submit value hm =>
        constructor
        · intro i k dest hk hdest
          obtain ⟨m, hm, hpid⟩ := hadd.reply i k dest hk hdest
          exact ⟨m, getElem?_messages_append hm _, hpid⟩
        · intro e he k hk
          obtain ⟨m, hm, hact⟩ := hadd.traced e he k hk
          exact ⟨m, getElem?_messages_append hm _, hact⟩
    | leave | main | loop => exact ⟨hadd.reply, hadd.traced⟩
    | take i hi =>
        exact hadd.take (resting hr.of_guard i fun k hk => by rw [hi] at hk; cases hk)
    | begin i k hi => exact hadd.begin
    | act i k choice act b o hi hstep =>
        exact hadd.act (intact hr) hi (officeStep_cases _ _ _ _ hstep)

/-- As long as the main thread changes `request` only when nobody is to read it
any more, an office that has taken entry `k` finds the `k`-th message in it up
to its last look, and what it shows of the request, in the reply and in the pid
it is sent to, is that of the `k`-th message. -/
theorem requests_intact (h : (careful sha256sum ok t₀ n).Reachable s) :
    s.buffer.written = List.range s.buffer.written.length ∧
    (∀ i k, s.serving i = some k → s.reads i = true → s.messages[k]? = some s.request) ∧
    ∀ e ∈ s.trace, ∀ k, e.entry = some k →
      ∃ m, s.messages[k]? = some m ∧ e.action.concerns m :=
  ⟨(numbered h.of_guard).written, (intact h).serving, (addressed h).traced⟩

end Results

/-- A creation of account 3 in the name of the administrator, without the password. -/
def forged : TlvRequest := ⟨.createAccount, 62, ⟨⟨8, 0, [], 0⟩, ⟨3, 500, Sample.password₁⟩⟩⟩

end Server

set_option synthInstance.maxSize 256 in
/-- The second message is read when the reply to the first is about to be
written, and taken by another office. -/
theorem requests_intact_two : ∃ (s : Server 2) (e : Event 2),
    (Server.careful Sample.sha256sum (fun _ => True) (Sample.twoAccounts 100 200) 2).Reachable s ∧
    s.messages = [Sample.balance 7, Sample.transfer 9 50] ∧
    s.serving 1 = some 1 ∧ s.messages[1]? = some s.request ∧
    e ∈ s.trace ∧ e.entry = some 0 ∧ ∃ m, s.messages[0]? = some m ∧ e.action.concerns m := by
  obtain ⟨s, hs, hf⟩ : ∃ s : Server 2,
      (Server.careful Sample.sha256sum (fun _ => True) (Sample.twoAccounts 100 200) 2).Reachable s ∧
      (s.messages, s.serving 1, s.reads 1, (s.trace.find? fun e => e.entry = some 0).isSome) =
        ([Sample.balance 7, Sample.transfer 9 50], some 1, true, true) :=
    Server.execute_guarded (by decide) (fun _ _ htest => of_decide_eq_true htest)
      (Server.receive (Sample.balance 7) ++ Server.enqueue ++ Server.serve 0 18 ++
        Server.receive (Sample.transfer 9 50) ++ [.act 0 Sample.choice] ++ Server.enqueue ++
        Server.serve 1 8) (by decide +kernel)
  simp only [Prod.mk.injEq] at hf
  obtain ⟨hmessages, hserving, hreads, hfound⟩ := hf
  obtain ⟨e, he⟩ := Option.isSome_iff_exists.mp hfound
  have hmem := List.mem_of_find?_eq_some he
  have hentry : e.entry = some 0 := by simpa using List.find?_some he
  have hintact := Server.requests_intact hs
  exact ⟨s, e, hs, hmessages, hserving, hintact.2.1 1 1 hserving hreads, hmem, hentry,
    hintact.2.2 e hmem 0 hentry⟩

set_option synthInstance.maxSize 256 in
/-- One office has checked the password of a balance check when the next
message replaces it: the office goes on with that message, creates an account
and sends the only reply to its sender. -/
theorem request_replaced : ∃ s : Server 1,
    (server Sample.sha256sum (fun _ => True) (Sample.twoAccounts 100 200) 1).Reachable s ∧
    s.messages = [Sample.balance 7, Server.forged] ∧ s.buffer.taken = [(0, 0)] ∧
    s.bank.bankAccounts 3 = some (newAccount Sample.sha256sum Sample.salt 3 500 Sample.password₁) ∧
    s.trace.head?.map Event.entry = some (some 0) ∧
    s.trace.head?.map Event.action =
      some (.sent 8 Server.forged ⟨.balance, 8, ⟨⟨0, .ok⟩, 0⟩⟩) := by
  obtain ⟨s, hs, hf⟩ : ∃ s : Server 1,
      (server Sample.sha256sum (fun _ => True) (Sample.twoAccounts 100 200) 1).Reachable s ∧
      (s.messages, s.buffer.taken, s.bank.bankAccounts 3, s.trace.head?.map Event.entry,
        s.trace.head?.map Event.action) =
        ([Sample.balance 7, Server.forged], [(0, 0)],
          some (newAccount Sample.sha256sum Sample.salt 3 500 Sample.password₁),
          some (some 0), some (.sent 8 Server.forged ⟨.balance, 8, ⟨⟨0, .ok⟩, 0⟩⟩)) :=
    Server.execute_server (by decide)
      (Server.receive (Sample.balance 7) ++ Server.enqueue ++ Server.serve 0 7 ++
        Server.receive Server.forged ++ List.replicate 12 (.act 0 Sample.choice))
      (by decide +kernel)
  simp only [Prod.mk.injEq] at hf
  exact ⟨s, hs, hf⟩

end HomeBanking
