import HomeBanking.Messages
import HomeBanking.Drain
import HomeBanking.Conservation

/-!
# The offices of the server on requests of their own

`bankOffices` gives every office a request of its own, which nobody else
changes. The server does not, but its runs in which the main thread changes
`request` only when nobody is to read it any more, and in which no office
overtakes in the drain loop, are runs of `bankOffices` on the messages. What
holds of the offices alone holds in these runs.
-/

namespace HomeBanking

/-- Two actions that differ at most in the request recorded with a reply. -/
inductive Action.SameOutside : Action → Action → Prop
  | refl (act) : SameOutside act act
  | sent (pid req req' reply) : SameOutside (.sent pid req reply) (.sent pid req' reply)

namespace Server

variable {n : ℕ}

/-- The runs in which `request` is changed carefully and no office overtakes. -/
abbrev disciplined (sha256sum : CString → CString) (ok : TlvRequest → Prop) (t₀ : Table)
    (n : ℕ) : LTS (Server n) (ServerLabel n) :=
  (server sha256sum ok t₀ n).guard fun s l => (s.stores l = s.request ∨ s.Quiet) ∧
    ∀ i, l = .office i → s.buffer.main.inLoop = false → s.buffer.overtakes (.office i) = false

variable {sha256sum : CString → CString} {ok : TlvRequest → Prop} {t₀ : Table} {s : Server n}

theorem disciplined_careful (h : (disciplined sha256sum ok t₀ n).Reachable s) :
    (careful sha256sum ok t₀ n).Reachable s :=
  h.guard_mono fun _ _ hg => hg.1

/-- The queue is drained in order. -/
theorem orderly_simulation : LTS.Simulation (disciplined sha256sum ok t₀ n)
    (Buffer.orderly n ℕ) fun s b => b = s.buffer where
  init s hs := ⟨s.buffer, hs.buffer, rfl⟩
  step s l s' b _ hs hb := by
    subst hb
    rcases (step_cases hs.1.1).buffer with hsame | ⟨bl, hnext, hoffice⟩
    · exact .inl hsame.symm
    · refine .inr ⟨bl, s'.buffer, ⟨hnext, ?_⟩, rfl⟩
      intro hm
      cases bl with
      | office i => exact hs.2.2 i (hoffice i rfl) hm
      | _ => rfl

theorem reachable_orderly (h : (disciplined sha256sum ok t₀ n).Reachable s) :
    (Buffer.orderly n ℕ).Reachable s.buffer := by
  obtain ⟨b, hb, rfl⟩ := orderly_simulation.reachable h
  exact hb

/-- An office that reads the queue finds an entry. -/
theorem head_isSome (h : (disciplined sha256sum ok t₀ n).Reachable s) {i : Fin n}
    (hi : s.buffer.offices i = .read) : s.head.isSome := by
  obtain ⟨pending, hd⟩ := Buffer.exists_draining (reachable_orderly h)
  rw [head, if_pos (hd.itemsNo_pos hi)]
  rfl

/-- Every message received is allowed, and every office that has left the queue
with a request serves an entry. -/
structure Served (ok : TlvRequest → Prop) (s : Server n) : Prop where
  allowed : ∀ m ∈ s.messages, ok m
  serving : ∀ i k, s.buffer.offices i = .post k ∨ s.buffer.offices i = .work k →
    (s.serving i).isSome

theorem Served.loop (h : s.Served ok) {b : Buffer n ℕ} {i : Fin n}
    (hb : Buffer.Step s.buffer (.office i) b) (hread : s.buffer.offices i ≠ .read)
    (hpost : ∀ k, s.buffer.offices i ≠ .post k) : Served ok { s with buffer := b } := by
  obtain ⟨-, -, pc, hoffices, hpc⟩ := loop_cases hb hread hpost
  refine ⟨h.allowed, ?_⟩
  intro j k hj
  change b.offices j = _ ∨ b.offices j = _ at hj
  rw [hoffices] at hj
  by_cases hji : j = i
  · subst j
    rw [Function.update_self] at hj
    have hreads := hpc (.activeLock .enter)
    rcases hj with rfl | rfl <;> cases hreads
  · rw [Function.update_of_ne hji] at hj
    exact h.serving j k hj

theorem Served.take (h : s.Served ok) {i : Fin n} (hhead : s.head.isSome) :
    (s.take i).Served ok := by
  refine ⟨h.allowed, ?_⟩
  intro j k hj
  by_cases hji : j = i
  · subst j
    change (Function.update s.serving i s.head i).isSome
    rwa [Function.update_self]
  · change Function.update s.buffer.offices i _ j = _ ∨
      Function.update s.buffer.offices i _ j = _ at hj
    change (Function.update s.serving i s.head j).isSome
    rw [Function.update_of_ne hji] at hj ⊢
    exact h.serving j k hj

theorem Served.begin (h : s.Served ok) {i : Fin n} {k : ℕ} (hi : s.buffer.offices i = .post k) :
    (s.begin i k).Served ok := by
  refine ⟨h.allowed, ?_⟩
  intro j k' hj
  by_cases hji : j = i
  · subst j
    exact h.serving i k (.inl hi)
  · change Function.update s.buffer.offices i _ j = _ ∨
      Function.update s.buffer.offices i _ j = _ at hj
    rw [Function.update_of_ne hji] at hj
    exact h.serving j k' hj

theorem served (h : (disciplined sha256sum ok t₀ n).Reachable s) : s.Served ok := by
  apply h.invariant (I := fun s : Server n => s.Served ok)
  · intro s hs
    constructor
    · intro m hm
      rw [hs.messages] at hm
      exact absurd hm List.not_mem_nil
    · intro i k hi
      rw [hs.buffer.offices i] at hi
      rcases hi with hi | hi <;> cases hi
  · intro s l s' hr hserved hs
    cases step_cases hs.1.1 with
    | store => exact ⟨hserved.allowed, hserved.serving⟩
    | submit value hm =>
        constructor
        · intro m hmem
          rcases List.mem_append.mp hmem with hmem | hmem
          · exact hserved.allowed m hmem
          · obtain rfl := List.mem_singleton.mp hmem
            exact hs.1.2 value rfl
        · exact hserved.serving
    | leave b hb | main b hb =>
        have hoffices := (Buffer.step_cases hb).offices_eq fun i hi => by cases hi
        refine ⟨hserved.allowed, ?_⟩
        intro i k hi
        change b.offices i = _ ∨ b.offices i = _ at hi
        rw [hoffices] at hi
        exact hserved.serving i k hi
    | loop i b hb hread hpost => exact hserved.loop (Buffer.step_cases hb) hread hpost
    | take i hi => exact hserved.take (head_isSome hr hi)
    | begin i k hi => exact hserved.begin hi
    | act i k choice act b o =>
        refine ⟨hserved.allowed, ?_⟩
        intro j k' hj
        rw [perform_buffer_offices] at hj
        exact hserved.serving j k' hj

/-- The offices, the bank and what happened are those of the server, and an
office that still looks at its request has the one in `request`. -/
structure Matches (s : Server n) (a : System n) : Prop where
  bank : a.bank = s.bank
  offices : a.offices = s.offices
  requests : ∀ i, (s.offices i).pc.reads = true → a.requests i = s.request
  trace : List.Forall₂ (fun p e => p.1 = e.office ∧ p.2.SameOutside e.action) a.trace s.trace

/-- An office that looks at a request works on an entry. -/
theorem Resting.reads (h : s.Resting) {i : Fin n} (hreads : (s.offices i).pc.reads = true) :
    s.reads i = true := by
  by_cases hwork : ∃ k, s.buffer.offices i = .work k
  · obtain ⟨k, hk⟩ := hwork
    rw [Server.reads, hk]
    exact hreads
  · push Not at hwork
    rw [h i hwork] at hreads
    cases hreads

/-- A careful change of `request` is not seen by any office. -/
theorem Matches.request {a : System n} (h : s.Matches a) (hrest : s.Resting)
    {request : TlvRequest} (hg : request = s.request ∨ s.Quiet) (i : Fin n)
    (hreads : (s.offices i).pc.reads = true) : a.requests i = request := by
  rcases hg with rfl | hquiet
  · exact h.requests i hreads
  · have hbusy := hrest.reads hreads
    rw [hquiet.2 i] at hbusy
    cases hbusy

/-- The request that an office starts to work on is an allowed message. -/
theorem ok_request (hin : s.Intact) (hserved : s.Served ok) {i : Fin n} {k : ℕ}
    (hi : s.buffer.offices i = .post k) : ok s.request := by
  obtain ⟨k', hk'⟩ := Option.isSome_iff_exists.mp (hserved.serving i k (.inl hi))
  have hmessage := hin.serving i k' hk' (by rw [reads, hi]; rfl)
  exact hserved.allowed _ (List.mem_of_getElem? hmessage)

theorem Matches.begin {a : System n} (h : s.Matches a) (i : Fin n) (k : ℕ) :
    (s.begin i k).Matches (a.give i s.request) := by
  refine ⟨h.bank, ?_, ?_, h.trace⟩
  · change Function.update a.offices i _ = Function.update s.offices i _
    rw [h.offices]
  · intro j hreads
    by_cases hji : j = i
    · subst j
      exact a.give_requests_self i s.request
    · change (Function.update s.offices i _ j).pc.reads = true at hreads
      rw [Function.update_of_ne hji] at hreads
      rw [a.give_requests_of_ne s.request hji]
      exact h.requests j hreads

theorem Matches.perform {a : System n} (h : s.Matches a) {i : Fin n} {choice : Choice}
    {act act' : Action} {b : Bank (Fin n)} {o : Office}
    (hstep : OfficeStep sha256sum choice s.request s.bank (s.offices i) act o)
    (hact : act'.SameOutside act) :
    (s.perform i act b o).Matches (a.perform i act' b o) := by
  refine ⟨rfl, ?_, ?_, .cons ⟨rfl, hact⟩ h.trace⟩
  · change Function.update a.offices i o = Function.update s.offices i o
    rw [h.offices]
  · intro j hreads
    change (Function.update s.offices i o j).pc.reads = true at hreads
    by_cases hji : j = i
    · subst j
      rw [Function.update_self] at hreads
      exact h.requests i (reads_of_officeStep hstep hreads)
    · rw [Function.update_of_ne hji] at hreads
      exact h.requests j hreads

/-- The office alone takes the same step. -/
theorem Matches.officeStep {a : System n} (h : s.Matches a) {i : Fin n} {choice : Choice}
    {act : Action} {b : Bank (Fin n)} {o : Office}
    (hstep : officeStep sha256sum choice s.request s.bank (s.offices i) = some (act, o))
    (hb : s.bank.apply i act = some b) :
    ∃ act', act'.SameOutside act ∧
      a.next sha256sum (.act i choice) = some (a.perform i act' b o) := by
  have hnext : ∀ act', HomeBanking.officeStep sha256sum choice (a.requests i) s.bank
      (s.offices i) = some (act', o) → s.bank.apply i act' = some b →
      a.next sha256sum (.act i choice) = some (a.perform i act' b o) := by
    intro act' hstep' hb'
    simp only [System.next, h.bank, h.offices, hstep', Option.bind_some, hb', Option.map_some]
  cases hreads : (s.offices i).pc.reads with
  | true =>
      rw [← h.requests i hreads] at hstep
      exact ⟨act, .refl act, hnext act hstep hb⟩
  | false =>
      obtain ⟨-, dest, hpc, -⟩ :=
        concerns_of_not_reads (officeStep_cases _ _ _ _ hstep) hreads
      simp only [HomeBanking.officeStep, hpc] at hstep hnext
      cases dest with
      | none =>
          cases hstep
          exact ⟨.skip, .refl _, hnext _ rfl hb⟩
      | some pid =>
          cases hstep
          exact ⟨_, .sent pid _ _ _, hnext _ rfl hb⟩

/-- A step of the server is a step of the offices on the messages, or none. -/
theorem Matches.step {s' : Server n} {l : ServerLabel n} {a : System n}
    (hr : (disciplined sha256sum ok t₀ n).Reachable s)
    (hs : (disciplined sha256sum ok t₀ n).step s l s') (h : s.Matches a) :
    s'.Matches a ∨ ∃ m a', (bankOffices sha256sum ok t₀ n).step a m a' ∧ s'.Matches a' ∧
      (∀ i req, m = .give i req → ∃ k, s.buffer.offices i = .post k) ∧
      ∀ i choice, m = .act i choice → l = .act i choice := by
  have hcareful := disciplined_careful hr
  have hrest := resting hr.of_guard
  cases step_cases hs.1.1 with
  | store => exact .inl ⟨h.bank, h.offices, h.request hrest hs.2.1, h.trace⟩
  | submit => exact .inl ⟨h.bank, h.offices, h.request hrest hs.2.1, h.trace⟩
  | leave | main | loop | take => exact .inl ⟨h.bank, h.offices, h.requests, h.trace⟩
  | begin i k hi =>
      have hidle : a.pc i = .idle := by
        rw [System.pc, h.offices]
        apply hrest i
        intro k' hk
        rw [hi] at hk
        cases hk
      refine .inr ⟨.give i s.request, a.give i s.request, ⟨?_, ?_⟩, h.begin i k, ?_,
        fun _ _ hm => by cases hm⟩
      · simp only [System.next, hidle, if_true]
      · intro j req hl
        cases hl
        exact ok_request (intact hcareful) (served hr) hi
      · intro _ _ hm
        cases hm
        exact ⟨k, hi⟩
  | act i k choice act b o hi hstep hb =>
      obtain ⟨act', hact, hnext⟩ := h.officeStep hstep hb
      refine .inr ⟨.act i choice, _, ⟨hnext, fun j req hl => by cases hl⟩,
        h.perform (officeStep_cases _ _ _ _ hstep) hact, ?_, ?_⟩
      · intro _ _ hm
        cases hm
      · intro _ _ hm
        cases hm
        rfl

/-- A disciplined run of the server is a run of the offices on the messages. -/
theorem system_simulation : LTS.Simulation (disciplined sha256sum ok t₀ n)
    (bankOffices sha256sum ok t₀ n) Matches where
  init s hs := by
    refine ⟨⟨s.bank, s.offices, fun _ => s.request, []⟩, ⟨hs.bank, hs.offices, rfl⟩,
      rfl, rfl, fun _ _ => rfl, ?_⟩
    rw [hs.trace]
    exact .nil
  step s l s' a hr hs h :=
    (h.step hr hs).imp_right fun ⟨m, a', hm, h', _, _⟩ => ⟨m, a', hm, h'⟩

theorem exists_matching (h : (disciplined sha256sum ok t₀ n).Reachable s) :
    ∃ a, (bankOffices sha256sum ok t₀ n).Reachable a ∧ s.Matches a :=
  system_simulation.reachable h

/-- With the ids of all messages inside the array, no office of the server
leaves the memory it may access. -/
theorem server_no_fault (hok : ∀ req, ok req → req.InArray)
    (h : (disciplined sha256sum ok t₀ n).Reachable s) (i : Fin n) :
    (s.offices i).pc ≠ .fault := by
  obtain ⟨a, ha, hmatches⟩ := exists_matching h
  rw [← hmatches.offices]
  exact no_fault hok ha i

/-- On messages within the limits of the user program, the balances of the
server stay within their limits. -/
theorem server_inBounds {salt adminPassword : CString}
    (h : (disciplined sha256sum InUserRange (adminTable sha256sum salt adminPassword) n).Reachable
      s) : InBounds s.bank.bankAccounts := by
  obtain ⟨a, ha, hmatches⟩ := exists_matching h
  rw [← hmatches.bank]
  exact inBounds ha

end Server

end HomeBanking
