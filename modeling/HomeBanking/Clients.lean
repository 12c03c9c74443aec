import HomeBanking.Sessions
import HomeBanking.Reopen
import HomeBanking.Stream

/-!
# Users one at a time

Users who wait for each other: a request of the user program is written when all
earlier ones have been answered. The messages that the main thread reads are
those requests, its request memory is theirs until it is answered, and the users
get, in their order, the answers of the abstract bank.
-/

namespace HomeBanking

variable {n : ℕ} {sha256sum : CString → CString} {passwords salts : Set CString} {t₀ : Table}

theorem UserSends.pos_fits {r : RawRequest} (h : UserSends r) :
    0 < r.decode.length.toNat ∧ r.decode.length.toNat ≤ 62 := by
  obtain ⟨hpos, hfits⟩ := h.fits
  exact ⟨by omega, hfits⟩

theorem SameFields.ordered {req req' : TlvRequest} (h : SameFields req req')
    (ho : Ordered passwords req') : Ordered passwords req := by
  obtain ⟨⟨hid, hcreate, htransfer⟩, hop, hpassword, hcreated⟩ := ho
  have hheader : req'.headerId = req.headerId := congrArg ReqHeader.accountId h.header
  refine ⟨⟨hheader ▸ hid, fun ht => ?_, fun ht => ?_⟩, fun code => h.type ▸ hop code,
    h.header ▸ hpassword, fun ht => h.create ht ▸ hcreated (h.type.trans ht)⟩
  · have hrange := hcreate (h.type.trans ht)
    unfold CreateInRange TlvRequest.createId at hrange ⊢
    rwa [h.create ht] at hrange
  · have hrange := htransfer (h.type.trans ht)
    unfold TransferInRange TlvRequest.transferId TlvRequest.amount at hrange ⊢
    rwa [h.transfer ht] at hrange

theorem SameFields.orderOf_eq {req req' : TlvRequest} (h : SameFields req req') :
    orderOf req' = orderOf req := by
  unfold orderOf TlvRequest.createId TlvRequest.transferId TlvRequest.amount
  rw [h.type]
  cases ht : req.type with
  | createAccount => rw [h.create ht]
  | transfer => rw [h.transfer ht]
  | _ => rfl

namespace Server

theorem Tells.congr {req req' : TlvRequest} (h : SameFields req req') {r : UInt32 × TlvReply}
    {x : Transaction UInt32 CString × Ledger UInt32 CString} (hx : Tells req r x) :
    Tells req' r x := by
  refine ⟨⟨?_, ?_⟩, hx.client.trans ?_, hx.type.trans h.type.symm, ?_⟩
  · have htransaction := hx.transaction
    unfold transactionOf outcomeOf at htransaction ⊢
    rw [h.orderOf_eq]
    simp only [TlvRequest.headerId, h.header, h.type]
    exact htransaction
  · have hbalance := hx.balance
    simp only [TlvRequest.headerId, h.header, h.type]
    exact hbalance
  · rw [h.header]
  · have hlength := hx.length
    unfold ReplySized at hlength ⊢
    rwa [h.type]

/-- The FIFO is read-only before the server is down. -/
structure Closed (s : Server n) : Prop where
  down : s.buffer.serverDown = true → s.bank.fifoReadOnly = true
  about : ∀ i, (s.offices i).pc = .shutdownCount ∨ (s.offices i).pc = .shutdownSet →
    s.bank.fifoReadOnly = true

/-- An office that goes on with a shutdown has made the FIFO read-only. -/
theorem shutdown_cases {choice : Choice} {req : TlvRequest} {b : Bank (Fin n)} {o o' : Office}
    {act : Action} (h : OfficeStep sha256sum choice req b o act o') :
    (act = .setServerDown → o.pc = .shutdownSet) ∧
    (o'.pc = .shutdownCount → act = .chmod) ∧ (o'.pc = .shutdownSet → o.pc = .shutdownCount) := by
  cases h with
  | dispatch => cases ht : req.type <;> simp [operationPc]
  | fault pc r r' hf => simp
  | _ => simp

theorem closed {ok : TlvRequest → Prop} {s : Server n}
    (h : (server sha256sum ok t₀ n).Reachable s) : s.Closed := by
  apply h.invariant (I := fun s : Server n => s.Closed)
  · intro s hs
    refine ⟨fun hd => ?_, fun i hi => ?_⟩
    · rw [hs.buffer.serverDown] at hd
      cases hd
    · rw [hs.offices i] at hi
      rcases hi with hi | hi <;> cases hi
  · intro s l s' _ ih hs
    cases step_cases hs.1 with
    | store | submit | take => exact ⟨ih.down, ih.about⟩
    | leave b hb | main b hb | loop i b hb =>
        refine ⟨fun hd => ih.down ?_, ih.about⟩
        cases Buffer.step_cases hb <;> exact hd
    | begin i k hi =>
        refine ⟨ih.down, fun j hj => ?_⟩
        by_cases hji : j = i
        · subst j
          change (Function.update s.offices i _ i).pc = _ ∨
            (Function.update s.offices i _ i).pc = _ at hj
          rw [Function.update_self] at hj
          rcases hj with hj | hj <;> cases hj
        · change (Function.update s.offices i _ j).pc = _ ∨
            (Function.update s.offices i _ j).pc = _ at hj
          rw [Function.update_of_ne hji] at hj
          exact ih.about j hj
    | act i k choice act b o hi hoffice hb =>
        obtain ⟨hset, hcount, hnext⟩ := shutdown_cases (officeStep_cases _ _ _ _ hoffice)
        have hkept : s.bank.fifoReadOnly = true → b.fifoReadOnly = true := fun hmode => by
          rcases Host.apply_fifoReadOnly hb with ⟨-, hmode'⟩ | ⟨-, hmode'⟩
          · exact hmode'
          · exact hmode'.trans hmode
        refine ⟨fun hd => hkept ?_, fun j hj => ?_⟩
        · by_cases hact : act = .setServerDown
          · exact ih.about i (.inr (hset hact))
          · simp only [perform, hact, if_false] at hd
            exact ih.down hd
        · change (Function.update s.offices i o j).pc = _ ∨
            (Function.update s.offices i o j).pc = _ at hj
          by_cases hji : j = i
          · subst j
            rw [Function.update_self] at hj
            rcases hj with hj | hj
            · rcases Host.apply_fifoReadOnly hb with ⟨-, hmode'⟩ | ⟨hact, -⟩
              · exact hmode'
              · exact absurd (hcount hj) hact
            · exact hkept (ih.about i (.inl (hnext hj)))
          · rw [Function.update_of_ne hji] at hj
            exact hkept (ih.about j hj)

end Server

namespace Host

/-- A user writes a request when all earlier ones have been answered; the salts
are of the given set, and every reply FIFO can be opened. -/
def Courteous (passwords salts : Set CString) (p : Host n × Traffic) : HostLabel n → Prop
  | .write bytes => p.2.sent.length = (replies p.1.server.actions).length ∧
      ∃ r, UserSends r ∧ Ordered passwords r.decode ∧ bytes = r.message
  | .act _ choice => choice.salt ∈ salts ∧ choice.fifoOpens = true
  | _ => True

/-- The runs with users who wait for each other. -/
abbrev courteous (sha256sum : CString → CString) (passwords salts : Set CString) (t₀ : Table)
    (n : ℕ) : LTS (Host n × Traffic) (HostLabel n) :=
  (hostTraffic sha256sum t₀ n).guard (Courteous passwords salts)

/-- The main thread is back in its loop after an end of the file. -/
def Returned (h : Host n) : Prop := h.point = .openFifo true ∨ h.point = .test ∧ h.lastRead = 0

/-- A run with users who wait for each other: the main thread is patient, at most
one request is unanswered, and after an end of the file a server that is down has
an empty queue. -/
structure Attended (sha256sum : CString → CString) (passwords salts : Set CString) (t₀ : Table)
    (p : Host n × Traffic) : Prop where
  patient : (Server.patient sha256sum (Ordered passwords) salts t₀ n).Reachable p.1.server
  sent : ∃ requests : List RawRequest, p.2.sent = requests.map RawRequest.message ∧
    ∀ r ∈ requests, UserSends r ∧ Ordered passwords r.decode
  one : p.2.sent.length ≤ (replies p.1.server.actions).length + 1
  reading : p.1.Returned → p.1.server.buffer.main = .reading
  emptied : p.1.Returned → p.1.server.buffer.serverDown = true →
    p.1.server.buffer.queue.itemsNo = 0

section Runs

variable {p : Host n × Traffic} {l : HostLabel n} {h' : Host n}

theorem replies_le_messages {s : Server n} {ok : TlvRequest → Prop}
    (h : (Server.patient sha256sum ok salts t₀ n).Reachable s) :
    (replies s.actions).length ≤ s.messages.length := by
  obtain ⟨a, hw⟩ := Server.exists_waiting h
  have hcount := hw.answered.of_collected
  have hload := Server.load_nonneg (f := Pc.unanswered) (Server.itemsNo_nonneg hw.disciplined)
  change _ = _ + ((replies s.actions).length : ℤ) at hcount
  omega

/-- The requests that were written are the messages that were read and those that
remain. -/
theorem Attended.delivered (h : Attended sha256sum passwords salts t₀ p)
    (hp : (hostTraffic sha256sum t₀ n).Reachable p) :
    ∃ done pending : List RawRequest, p.2.sent = (done ++ pending).map RawRequest.message ∧
      (∀ r ∈ done ++ pending, UserSends r ∧ Ordered passwords r.decode) ∧
      List.Forall₂ Carries done p.2.handed ∧ p.1.Remains pending ∧
      p.1.server.messages.length = done.length := by
  obtain ⟨requests, hsent, hall⟩ := h.sent
  obtain ⟨done, pending, rfl, hcarries, hrem⟩ :=
    delivers hp requests (fun r hr => (hall r hr).1) hsent
  refine ⟨done, pending, hsent, hall, hcarries, hrem, ?_⟩
  rw [messages_eq hp, List.length_map, hcarries.length_eq]

/-- When there is something to read, all messages are answered. -/
theorem Attended.answered (h : Attended sha256sum passwords salts t₀ p)
    (hp : (hostTraffic sha256sum t₀ n).Reachable p) (hunread : p.1.fifo.unread ≠ []) :
    p.1.server.Answered := by
  obtain ⟨done, pending, hsent, -, -, hrem, hmessages⟩ := h.delivered hp
  have hpending : 0 < pending.length := by
    apply List.length_pos_of_ne_nil
    rintro rfl
    unfold Remains at hrem
    cases hr : p.1.point.reader with
    | type =>
        rw [hr] at hrem
        exact hunread hrem
    | length | value =>
        rw [hr] at hrem
        obtain ⟨_, _, hnil, -⟩ := hrem
        cases hnil
  have hone := h.one
  rw [hsent, List.length_map, List.length_append] at hone
  have hle := replies_le_messages h.patient
  unfold Server.Answered
  omega

/-- The main thread of the host is patient. -/
theorem Attended.server_step (h : Attended sha256sum passwords salts t₀ p)
    (hp : (hostTraffic sha256sum t₀ n).Reachable p) (hs : Step sha256sum p.1 l h')
    (hg : Courteous passwords salts p l) :
    h'.server = p.1.server ∨ ∃ m,
      (Server.patient sha256sum (Ordered passwords) salts t₀ n).step p.1.server m h'.server := by
  cases hs with
  | connect | disconnect | write | again | endOfFile | opened => exact .inl rfl
  | leave s hpoint hdown hlast hserver =>
      exact .inr ⟨.leave, ⟨hserver, fun _ hl => by cases hl⟩,
        h.emptied (.inr ⟨hpoint, hlast⟩) hdown⟩
  | readType bytes fifo s hpoint hread hne hserver =>
      exact .inr ⟨_, ⟨hserver, fun _ hl => by cases hl⟩,
        h.answered hp (Fifo.read_bytes hread hne).2.1⟩
  | readLength bytes fifo s hpoint hread hne hserver =>
      exact .inr ⟨_, ⟨hserver, fun _ hl => by cases hl⟩,
        h.answered hp (Fifo.read_bytes hread hne).2.1⟩
  | readValue bytes fifo s hpoint hread hne hserver =>
      refine .inr ⟨_, ⟨hserver, fun _ hl => ?_⟩, h.answered hp (Fifo.read_bytes hread hne).2.1⟩
      cases hl
      obtain ⟨done, pending, -, hall, -, hrem, -⟩ := h.delivered hp
      obtain ⟨r, rest, m, rfl, hcompleted, hcarries, -⟩ := hrem.readValue hpoint
        (fun r hr => (hall r (List.mem_append_right _ hr)).1.pos_fits) hread s bytes.length 0
      obtain ⟨-, -, rfl, -⟩ := Fifo.read_bytes hread hne
      have hr := hall r (List.mem_append_right _ (List.mem_cons_self ..))
      have hmessage : p.1.completed 0 = [_] := if_neg hne
      rw [hmessage] at hcompleted
      obtain rfl := (List.cons.inj hcompleted).1
      have hordered := (hcarries.sameFields (hcarries.readExtent_le hr.1)).ordered hr.2
      rw [Server.stores, (synced hp.of_record).request]
      exact hordered
  | readNothing s _ _ hserver =>
      exact .inr ⟨_, ⟨hserver, fun _ hl => by cases hl⟩, trivial⟩
  | main s hserver => exact .inr ⟨.main, ⟨hserver, fun _ hl => by cases hl⟩, trivial⟩
  | office i s hserver => exact .inr ⟨.office i, ⟨hserver, fun _ hl => by cases hl⟩, trivial⟩
  | act i choice s hserver => exact .inr ⟨.act i choice, ⟨hserver, fun _ hl => by cases hl⟩, hg⟩

/-- After an end of the file the main thread is at its loop, and the server goes
down only through the office that has the one request. -/
theorem Attended.emptied_step (h : Attended sha256sum passwords salts t₀ p)
    (hp : (hostTraffic sha256sum t₀ n).Reachable p) (hs : Step sha256sum p.1 l h')
    (hret : h'.Returned) : h'.server.buffer.main = .reading ∧
      (h'.server.buffer.serverDown = true → h'.server.buffer.queue.itemsNo = 0) := by
  obtain ⟨a, hw⟩ := Server.exists_waiting h.patient
  have hitems := Server.itemsNo_nonneg hw.disciplined
  cases hs with
  | connect hopen =>
      by_cases hold : p.1.Returned
      · exact ⟨h.reading hold, h.emptied hold⟩
      · have hpoint : p.1.point ≠ .test ∧ p.1.point ≠ .left := by
          cases hpoint : p.1.point with
          | test =>
              unfold Returned LoopPoint.connect at hret
              rw [hpoint] at hret
              rcases hret with hc | ⟨-, hlast⟩
              · cases hc
              · exact absurd (.inr ⟨hpoint, hlast⟩) hold
          | left =>
              unfold Returned LoopPoint.connect at hret
              rw [hpoint] at hret
              rcases hret with hc | ⟨hc, -⟩ <;> cases hc
          | _ => constructor <;> (intro hc; cases hc)
        refine ⟨(synced hp.of_record).reading hpoint.1 hpoint.2, fun hdown => ?_⟩
        have hclosed := (Server.closed h.patient.of_guard).down hdown
        rw [hopen] at hclosed
        cases hclosed
  | disconnect | write => exact ⟨h.reading hret, h.emptied hret⟩
  | again | leave | endOfFile | readType | readLength =>
      rcases hret with hc | ⟨hc, -⟩ <;> cases hc
  | readValue bytes fifo s hpoint hread hne =>
      rcases hret with hc | ⟨-, hlast⟩
      · cases hc
      · exact absurd (List.length_eq_zero_iff.mp hlast) hne
  | readNothing s hpoint hnil =>
      obtain ⟨done, pending, -, hall, -, hrem, -⟩ := h.delivered hp
      exact (hrem.not_readNothing
        (fun r hr => (hall r (List.mem_append_right _ hr)).1.pos_fits) hpoint hnil).elim
  | opened hpoint => exact ⟨h.reading (.inl hpoint), h.emptied (.inl hpoint)⟩
  | main s hserver =>
      obtain ⟨b, hb, rfl⟩ := Option.map_eq_some_iff.mp hserver
      simp only [Buffer.next, Buffer.mainStep, show p.1.server.buffer.main = _ from
        h.reading hret] at hb
      cases hb
  | office i s hserver =>
      refine ⟨(internal_office hserver).reading (h.reading hret), fun hdown => ?_⟩
      cases Server.step_cases hserver with
      | store | begin => exact h.emptied hret hdown
      | loop _ b hb hread =>
          cases Buffer.step_cases hb with
          | read _ hi => exact absurd hi hread
          | _ => exact h.emptied hret hdown
      | take _ hi =>
          obtain ⟨pending, hd⟩ := Buffer.exists_draining (Server.reachable_orderly hw.disciplined)
          exact absurd (h.emptied hret hdown) (hd.itemsNo_pos hi).ne'
  | act i choice s hserver =>
      refine ⟨(internal_act hserver).reading (h.reading hret), fun hdown => ?_⟩
      cases Server.step_cases hserver with
      | store => exact h.emptied hret hdown
      | act _ k _ act b o hi hoffice hb =>
          rw [Server.perform_buffer_queue]
          by_cases hact : act = .setServerDown
          · have hpc := (Server.shutdown_cases (officeStep_cases _ _ _ _ hoffice)).1 hact
            have hload : p.1.server.load Pc.unanswered ≤ 1 := by
              have hone := hw.one
              rw [hw.load_eq]
              omega
            refine Server.empty_of_load (i := i) hload hitems ?_
            rw [Server.counts, hi, hpc]
            rfl
          · simp only [Server.perform, hact, if_false] at hdown
            exact h.emptied hret hdown

theorem note_sent (h : Host n) (t : Traffic) :
    (∃ bytes, l = .write bytes ∧ (note h l t).sent = t.sent ++ [bytes]) ∨
      (note h l t).sent = t.sent := by
  cases l with
  | write bytes => exact .inl ⟨bytes, rfl, rfl⟩
  | read =>
      unfold note
      cases h.point <;> exact .inr rfl
  | _ => exact .inr rfl

theorem Attended.step (h : Attended sha256sum passwords salts t₀ p)
    (hp : (hostTraffic sha256sum t₀ n).Reachable p) {p' : Host n × Traffic}
    (hs : (courteous sha256sum passwords salts t₀ n).step p l p') :
    Attended sha256sum passwords salts t₀ p' := by
  obtain ⟨⟨hhost, hnote⟩, hg⟩ := hs
  have hstep := step_cases hhost
  have hserver := h.server_step hp hstep hg
  have hpatient : (Server.patient sha256sum (Ordered passwords) salts t₀ n).Reachable
      p'.1.server := by
    rcases hserver with heq | ⟨m, hm⟩
    · rw [heq]
      exact h.patient
    · exact h.patient.step hm
  have hmore : (replies p.1.server.actions).length ≤ (replies p'.1.server.actions).length := by
    rcases hserver with heq | ⟨m, hm⟩
    · rw [heq]
    · exact (Server.step_cases hm.1.1).replies_length_le
  have hkept : (∃ requests : List RawRequest, p'.2.sent = requests.map RawRequest.message ∧
      ∀ r ∈ requests, UserSends r ∧ Ordered passwords r.decode) ∧
      p'.2.sent.length ≤ (replies p.1.server.actions).length + 1 := by
    obtain ⟨requests, hsent, hall⟩ := h.sent
    rw [show p'.2 = _ from hnote]
    rcases note_sent (l := l) p.1 p.2 with ⟨bytes, rfl, hwrite⟩ | hsame
    · obtain ⟨hanswered, r, huser, hordered, rfl⟩ := hg
      rw [hwrite]
      refine ⟨⟨requests ++ [r], by rw [hsent, List.map_append, List.map_singleton], ?_⟩, ?_⟩
      · intro r' hr'
        rcases List.mem_append.mp hr' with hr' | hr'
        · exact hall r' hr'
        · rw [List.mem_singleton.mp hr']
          exact ⟨huser, hordered⟩
      · rw [List.length_append, hanswered, List.length_singleton]
    · rw [hsame]
      exact ⟨⟨requests, hsent, hall⟩, h.one⟩
  exact ⟨hpatient, hkept.1, hkept.2.trans (Nat.add_le_add_right hmore 1),
    fun hret => (h.emptied_step hp hstep hret).1, fun hret => (h.emptied_step hp hstep hret).2⟩

theorem attended (h : (courteous sha256sum passwords salts t₀ n).Reachable p) :
    Attended sha256sum passwords salts t₀ p := by
  apply h.invariant (I := fun p : Host n × Traffic => Attended sha256sum passwords salts t₀ p)
  · rintro ⟨h, t⟩ ⟨hstart, rfl⟩
    have hnot : ¬ h.Returned := by
      unfold Returned
      rw [hstart.point]
      rintro (hc | ⟨hc, -⟩) <;> cases hc
    exact ⟨.init hstart.server, ⟨[], rfl, fun r hr => absurd hr List.not_mem_nil⟩, Nat.zero_le _,
      fun hret => absurd hret hnot, fun hret => absurd hret hnot⟩
  · intro p l p' hr ih hs
    exact ih.step hr.of_guard hs

end Runs

end Host

/-- What is told of the messages that carry requests is told of the requests. -/
theorem tells_of_carries {done : List RawRequest} {handed : List Handed}
    (hcarries : List.Forall₂ Carries done handed) (huser : ∀ r ∈ done, UserSends r) :
    ∀ {sent : List (UInt32 × TlvReply)}
      {history : List (Transaction UInt32 CString × Ledger UInt32 CString)},
      List.Forall₂ (fun q x => Server.Tells q.1 q.2 x)
        ((handed.map fun m => m.request.decode).zip sent) history →
      List.Forall₂ (fun q x => Server.Tells q.1.decode q.2 x) (done.zip sent) history := by
  induction hcarries with
  | nil =>
      intro sent history htells
      rw [List.map_nil, List.zip_nil_left] at htells
      cases htells
      exact .nil
  | @cons r m done handed hm _ ih =>
      intro sent history htells
      cases sent with
      | nil =>
          rw [List.zip_nil_right] at htells ⊢
          cases htells
          exact .nil
      | cons reply sent =>
          cases htells with
          | cons hx htells =>
              refine .cons (hx.congr (hm.sameFields (hm.readExtent_le ?_))) (ih ?_ htells)
              · exact huser r (List.mem_cons_self ..)
              · exact fun r' hr' => huser r' (List.mem_cons_of_mem _ hr')

/-- Users who wait for each other deal with the abstract bank. In every run of
the server in which each user writes when all earlier requests are answered,
whenever all requests are answered, none with `RC_TOO_HIGH`, the replies, in the
order in which they were sent, tell the users, in the order in which they wrote,
the transactions of the abstract bank and the balances that these leave, and the
table represents its accounts. -/
theorem users_in_turn {adminPassword : CString}
    (hsha : Sha256On sha256sum (hashInputs passwords salts))
    (hlen : ∀ p ∈ passwords, p.length ≤ maxPasswordLen)
    (hsalts : ∀ salt ∈ salts, ∃ rand, salt = generateSalt rand) {rand : ℕ → ℕ}
    (hsalt : generateSalt rand ∈ salts) (hadmin : adminPassword ∈ passwords)
    {p : Host n × Traffic} (h : (Host.courteous sha256sum passwords salts
      (adminTable sha256sum (generateSalt rand) adminPassword) n).Reachable p)
    (ha : p.2.sent.length = (replies p.1.server.actions).length)
    (hlow : ∀ r ∈ replies p.1.server.actions, r.2.retCode ≠ .tooHigh) :
    ∃ (requests : List RawRequest) (history : List (Transaction UInt32 CString))
      (L : Ledger UInt32 CString), p.2.sent = requests.map RawRequest.message ∧
      (∀ r ∈ requests, UserSends r) ∧
      (ledgerBank bankLimits (openingLedger adminPassword)).Reachable (history, L) ∧
      List.Forall₂ (fun q x => Server.Tells q.1.decode q.2 x)
        (requests.zip (replies p.1.server.actions))
        ((openingLedger adminPassword).trail bankLimits history) ∧
      Represents sha256sum passwords salts p.1.server.bank.bankAccounts L := by
  have hatt := Host.attended h
  obtain ⟨done, pending, hsent, hall, hcarries, -, hmessages⟩ := hatt.delivered h.of_guard
  have hle := Host.replies_le_messages hatt.patient
  rw [hsent, List.length_map, List.length_append] at ha
  obtain rfl : pending = [] := List.length_eq_zero_iff.mp (by omega)
  have hanswered : p.1.server.Answered := by
    unfold Server.Answered
    rw [List.length_nil] at ha
    omega
  obtain ⟨history, L, hledger, htells, hrep⟩ := Server.answered_in_order hsha hlen hsalts hsalt
    hadmin hatt.patient hanswered hlow
  rw [List.append_nil] at hsent hall
  rw [Host.messages_eq h.of_guard] at htells
  exact ⟨done, history, L, hsent, fun r hr => (hall r hr).1, hledger,
    tells_of_carries hcarries (fun r hr => (hall r hr).1) htells, hrep⟩

section Schedules

/-- Whether a step is courteous, with one of the given messages. -/
def courteousTest (messages : List (List UInt8)) (p : Host n × Traffic) : HostLabel n → Bool
  | .write bytes => decide (p.2.sent.length = (replies p.1.server.actions).length) &&
      decide (bytes ∈ messages)
  | .act _ choice => decide (choice.salt = Sample.salt) && choice.fifoOpens
  | _ => true

/-- A schedule with courteous users leads to a reachable state. -/
theorem execute_courteous {messages : List (List UInt8)} {t : Table}
    (hmessages : ∀ bytes ∈ messages,
      ∃ r, UserSends r ∧ Ordered passwords r.decode ∧ bytes = r.message)
    (hn : 0 < n) (ls : List (HostLabel n)) {α : Type} {f : Host n × Traffic → α} {a : α}
    (he : (LTS.execute (LTS.nextIf (LTS.recordNext (Host.next Sample.sha256sum) Host.note)
      (courteousTest messages)) (Host.start n t, ⟨[], 0, []⟩) ls).map f = some a) :
    ∃ p, (Host.courteous Sample.sha256sum passwords {Sample.salt} t n).Reachable p ∧ f p = a := by
  refine LTS.Reachable.exists_execute_guard (fun _ _ _ => LTS.recordNext_step fun _ _ _ h => h)
    (fun p l htest => ?_) (hostTraffic_init hn) he
  cases l with
  | write bytes =>
      obtain ⟨hanswered, hmem⟩ := Bool.and_eq_true_iff.mp htest
      exact ⟨of_decide_eq_true hanswered, hmessages bytes (of_decide_eq_true hmem)⟩
  | act i choice =>
      obtain ⟨hsalt, hopens⟩ := Bool.and_eq_true_iff.mp htest
      exact ⟨of_decide_eq_true hsalt, hopens⟩
  | _ => trivial

end Schedules

instance (req req' : TlvRequest) : Decidable (SameFields req req') :=
  decidable_of_iff (req'.type = req.type ∧ req'.length = req.length ∧
      req'.value.header = req.value.header ∧
      (req.type = .createAccount → req'.value.create = req.value.create) ∧
      (req.type = .transfer → req'.value.transfer = req.value.transfer))
    ⟨fun h => ⟨h.1, h.2.1, h.2.2.1, h.2.2.2.1, h.2.2.2.2⟩,
      fun h => ⟨h.type, h.length, h.header, h.create, h.transfer⟩⟩

namespace Sample

/-- The command line of the creation of account 2. -/
def secondArgv : List CString :=
  [bytes "0", adminPassword, bytes "0", bytes "0", bytes "2 200 secret_pass"]

/-- The command line of a transfer of 30 to account 2. -/
def transferArgv : List CString :=
  [bytes "1", password₁, bytes "0", bytes "2", bytes "2 30"]

theorem userSends_of_sameFields {argv : List CString} (req : TlvRequest)
    (hreq : Ordered Sample.passwords req)
    (h : (userMain 9 memory options argv).map
      (fun r => (r.message, decide (SameFields r.decode req))) = .ok (message argv, true)) :
    ∃ r, UserSends r ∧ Ordered Sample.passwords r.decode ∧ message argv = r.message := by
  obtain ⟨r, hr, hfields⟩ := Checks.map_eq_ok.mp h
  obtain ⟨hmessage, hsame⟩ := Prod.mk.inj hfields
  exact ⟨r, ⟨_, _, _, _, hr⟩, (of_decide_eq_true hsame).ordered hreq, hmessage.symm⟩

theorem ordered_transfer (pid : UInt32) {amount : UInt32}
    (hamount : 1 ≤ amount.toNat ∧ amount.toNat ≤ 1000000000) :
    Ordered Sample.passwords (transfer pid amount) := by
  have hsource : (1 : UInt32) < maxBankAccounts := by decide
  have hdest : 1 ≤ (2 : UInt32) ∧ (2 : UInt32) < maxBankAccounts := by decide
  exact ⟨⟨hsource, nofun, fun _ => ⟨hamount, hdest⟩⟩, nofun, .inr (.inl rfl), nofun⟩

end Sample

/-- Two offices serve in turn: the administrator creates accounts 1 and 2, and
then the owner of account 1 transfers 30 and is told the balance of 70. -/
theorem users_in_turn_two : ∃ (p : Host 2 × Traffic) (requests : List RawRequest)
    (history : List (Transaction UInt32 CString)) (L : Ledger UInt32 CString),
    p.2.sent = [Sample.message Sample.createArgv, Sample.message Sample.secondArgv,
      Sample.message Sample.transferArgv] ∧
    p.2.sent = requests.map RawRequest.message ∧
    replies p.1.server.actions =
      [(9, ⟨.createAccount, 8, ⟨⟨0, .ok⟩, 0⟩⟩), (9, ⟨.createAccount, 8, ⟨⟨0, .ok⟩, 0⟩⟩),
        (9, ⟨.transfer, 12, ⟨⟨1, .ok⟩, 70⟩⟩)] ∧
    (ledgerBank bankLimits (openingLedger Sample.adminPassword)).Reachable (history, L) ∧
    List.Forall₂ (fun q x => Server.Tells q.1.decode q.2 x)
      (requests.zip (replies p.1.server.actions))
      ((openingLedger Sample.adminPassword).trail bankLimits history) ∧
    Represents Sample.sha256sum Sample.passwords {Sample.salt}
      p.1.server.bank.bankAccounts L := by
  have hsalt : generateSalt (fun _ => 0) ∈ ({Sample.salt} : Set CString) := Sample.generateSalt_zero
  have husers : ∀ bytes ∈ [Sample.message Sample.createArgv, Sample.message Sample.secondArgv,
      Sample.message Sample.transferArgv],
      ∃ r, UserSends r ∧ Ordered Sample.passwords r.decode ∧ bytes = r.message := by
    intro bytes hbytes
    simp only [List.mem_cons, List.not_mem_nil, or_false] at hbytes
    rcases hbytes with rfl | rfl | rfl
    · exact Sample.userSends_of_sameFields (Sample.create 9 1 100 Sample.password₁)
        (Sample.ordered_create (by decide) (by decide)) (by decide +kernel)
    · exact Sample.userSends_of_sameFields (Sample.create 9 2 200 Sample.password₁)
        (Sample.ordered_create (by decide) (by decide)) (by decide +kernel)
    · exact Sample.userSends_of_sameFields (Sample.transfer 9 30)
        (Sample.ordered_transfer 9 (by decide)) (by decide +kernel)
  obtain ⟨p, hp, hf⟩ : ∃ p, (Host.courteous Sample.sha256sum Sample.passwords {Sample.salt}
      (adminTable Sample.sha256sum (generateSalt fun _ => 0) Sample.adminPassword) 2).Reachable p ∧
      (p.2.sent, replies p.1.server.actions) =
        ([Sample.message Sample.createArgv, Sample.message Sample.secondArgv,
          Sample.message Sample.transferArgv],
          [(9, ⟨.createAccount, 8, ⟨⟨0, .ok⟩, 0⟩⟩), (9, ⟨.createAccount, 8, ⟨⟨0, .ok⟩, 0⟩⟩),
            (9, ⟨.transfer, 12, ⟨⟨1, .ok⟩, 70⟩⟩)]) :=
    execute_courteous husers (by decide)
      (Host.wake ++ Host.receive (Sample.message Sample.createArgv) ++ Host.serve 0 19 ++
        Host.receive (Sample.message Sample.secondArgv) ++ Host.serve 1 10 ++ [.office 0] ++
        List.replicate 9 (.act 1 Sample.choice) ++
        Host.receive (Sample.message Sample.transferArgv) ++ Host.serve 0 25) (by decide +kernel)
  obtain ⟨hsent, hreplies⟩ := Prod.mk.inj hf
  have hlow : ∀ r ∈ replies p.1.server.actions, r.2.retCode ≠ .tooHigh := by
    rw [hreplies]
    decide
  obtain ⟨requests, history, L, hrequests, -, hledger, htells, hrep⟩ := users_in_turn
    Sample.sha256On Sample.passwords_length
    (by rintro _ rfl; exact ⟨_, Sample.generateSalt_zero.symm⟩) hsalt (.inl rfl) hp
    (by rw [hsent, hreplies]; rfl) hlow
  exact ⟨p, requests, history, L, hsent, hrequests, hreplies, hledger, htells, hrep⟩

end HomeBanking
