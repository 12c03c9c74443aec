import HomeBanking.Log
import HomeBanking.Statement

/-!
# The audit of the log

The log of the server accounts for the balances. An office logs every request it
takes and every reply it has sent, the request with the number of the office and
the reply with the pid of the client, which is also in the line of the request.
Where no two requests have the same pid, the lines of the file alone tell what
every account holds once the offices are idle.

## Implementation notes

The lines of different offices reach the file in any order, and with the lines
of the main thread and of the mutexes between them, so the file is any list of
entries that has the logged messages among its other lines.
-/

namespace HomeBanking

open Bytes

variable {n : ℕ} {sha256sum : CString → CString} {ok : TlvRequest → Prop} {t₀ : Table}

/-- The requests that the user program sends with an account id inside the array. -/
structure FromUser (req : TlvRequest) : Prop where
  range : InUserRange req
  type : req.type ∈ operations
  password : IsPassword req.value.header.password
  createPassword : req.type = .createAccount → IsPassword req.value.create.password

/-- The number of an office in the log. -/
def orderNr (i : Fin n) : Int32 := Int32.ofNat (i + 1)

/-- The reply in the memory of the server. -/
def TlvReply.raw (r : TlvReply) : RawReply :=
  ⟨⟨ofWord r.type.code, rfl⟩, ⟨ofWord r.length, rfl⟩, r.valueBytes⟩

/-- The pid that a client has put into its request, as `logReply` gets it. -/
def TlvRequest.pid (req : TlvRequest) : Int32 := req.value.header.pid.toInt32

/-- The messages that an office of the server with pid `self` logs in a step: the
request it has taken, and the reply it has sent. -/
def Label.messages (self : Int32) (s : System n) : Label n → List LogEntry
  | .give i req => (logRequestEntry self (orderNr i) req).toList
  | .act i _ =>
      match s.pc i with
      | .replyWrite _ => (logReplyEntry self (s.requests i).pid (s.offices i).reply.raw).toList
      | _ => []

/-- Every reply FIFO can be opened. -/
def Label.opens : Label n → Prop
  | .give .. => True
  | .act _ choice => choice.fifoOpens = true

/-- The runs of the offices together with the messages they have logged. -/
abbrev loggedRuns (sha256sum : CString → CString) (self : Int32) (t₀ : Table) (n : ℕ) :
    LTS (System n × List LogEntry) (Label n) :=
  ((withoutOverlaps sha256sum FromUser t₀ n).guard fun _ l => l.opens).record []
    fun s l es => es ++ l.messages self s

namespace LogEntry

def requestLine : LogEntry → Option RequestLine
  | .request _ _ l => some l
  | _ => none

/-- The pid and the line of a reply. -/
def replyLine : LogEntry → Option (Int32 × ReplyLine)
  | .reply _ id l => some (id, l)
  | _ => none

def isMessage : LogEntry → Bool
  | .request .. | .reply .. => true
  | _ => false

end LogEntry

/-- What a request with this line has moved into the account, when it was
answered with the code. -/
def movedBy (id : UInt32) (l : RequestLine) (code : UInt32) : ℤ :=
  match l.create, l.transfer with
  | some c, _ =>
      if code = RetCode.ok.code then (if c.accountId = id then (c.balance.toNat : ℤ) else 0) else 0
  | none, some t =>
      if code = RetCode.ok.code then
        (if t.accountId = id then (t.amount.toNat : ℤ) else 0) -
          if l.header.accountId = id then (t.amount.toNat : ℤ) else 0
      else if code = RetCode.tooHigh.code then
        - if l.header.accountId = id then (t.amount.toNat : ℤ) else 0
      else 0
  | none, none => 0

/-- What the messages in the log have moved into the account, each request with
the reply to the pid in its line. -/
def audit (id : UInt32) (es : List LogEntry) : ℤ :=
  ((es.filterMap LogEntry.requestLine).map fun l =>
    ((es.filterMap LogEntry.replyLine).map fun r =>
      if r.1 = l.header.pid.toInt32 then movedBy id l r.2.retCode else 0).sum).sum

example : audit 1 [.request true 1 ⟨.createAccount, 62, ⟨7, 0, [], 0⟩, some ⟨1, 100, []⟩, none⟩,
    .reply false 7 ⟨.createAccount, 8, 0, 0, none⟩] = 100 := by
  decide

/-- What is printed of a request of the user program. -/
def printedLine (req : TlvRequest) : RequestLine where
  type := req.type
  length := req.length
  header := req.value.header
  create := if req.type = .createAccount then some req.value.create else none
  transfer := if req.type = .transfer then some req.value.transfer else none

/-- What is printed of a reply. -/
def printedReply (r : TlvReply) : ReplyLine where
  type := r.type
  length := r.length
  accountId := r.accountId
  retCode := r.retCode.code
  info := if r.type = .createAccount then none else some r.info

theorem logRequest_eq {req : TlvRequest} (h : req.type ∈ operations) :
    logRequest req = some (printedLine req) := by
  unfold logRequest printedLine
  cases ht : req.type with
  | undefined code =>
      rw [ht] at h
      simp [operations] at h
  | _ => rfl

section Raw

variable (r : TlvReply)

theorem TlvReply.raw_type : r.raw.type.word 0 = r.type.code :=
  (congrArg word (List.append_nil _)).symm.trans (word_ofWord_append _ [])

theorem TlvReply.raw_length : r.raw.length.word 0 = r.length :=
  (congrArg word (List.append_nil _)).symm.trans (word_ofWord_append _ [])

theorem TlvReply.raw_value : r.raw.value.word 0 = r.accountId ∧
    r.raw.value.word 4 = r.retCode.code ∧ r.raw.value.word 8 = r.info :=
  ⟨word_ofWord_append _ _, word_ofWord_append _ _,
    (congrArg word (List.append_nil _)).symm.trans (word_ofWord_append _ [])⟩

theorem logReply_raw (h : r.type ∈ operations) : logReply r.raw = some (printedReply r) := by
  obtain ⟨hid, hcode, hinfo⟩ := r.raw_value
  have hdefined : ∀ code, r.type ≠ .undefined code := by
    rintro code hcode
    rw [hcode] at h
    simp [operations] at h
  unfold logReply printedReply
  rw [r.raw_type, ofCode_code hdefined, r.raw_length, hid, hcode, hinfo]
  cases ht : r.type with
  | undefined code => exact absurd ht (hdefined code)
  | _ => rfl

end Raw

/-- The lines tell what the request has moved. -/
theorem movedBy_printedLine (id : UInt32) (req : TlvRequest) (r : TlvReply) :
    movedBy id (printedLine req) r.retCode.code = moved id (outcomeOf req r) := by
  have hcode : ∀ rc : RetCode, r.retCode.code = rc.code ↔ r.retCode = rc := fun rc =>
    RetCode.code_injective.eq_iff
  unfold movedBy printedLine
  cases ht : req.type with
  | createAccount =>
      simp only [reduceCtorEq, if_true, if_false, hcode]
      by_cases hok : r.retCode = .ok <;> simp [moved, outcomeOf, ht, hok]
  | transfer =>
      simp only [reduceCtorEq, if_true, if_false, hcode]
      by_cases hok : r.retCode = .ok
      · simp [moved, outcomeOf, ht, hok]
      · by_cases hhigh : r.retCode = .tooHigh
        · simp [moved, outcomeOf, ht, hhigh]
        · simp [moved, outcomeOf, ht, hok, hhigh]
  | _ => simp [moved, outcomeOf, ht]

/-- The request and the reply of an exchange that an action completes. -/
def sentPair : Action → Multiset (TlvRequest × TlvReply)
  | .sent _ req reply => {(req, reply)}
  | _ => 0

def returnedPair : Action → Multiset (TlvRequest × TlvReply)
  | .returned req reply => {(req, reply)}
  | _ => 0

/-- A request that has been taken and not answered yet. -/
def taken (req : TlvRequest) (o : Office) : Multiset RequestLine :=
  match o.pc with
  | .idle => 0
  | _ => {printedLine req}

/-- A request that has returned and not been answered yet. -/
def replying (req : TlvRequest) (o : Office) : Multiset (TlvRequest × TlvReply) :=
  match o.pc with
  | .replyOpen | .replyWrite _ => {(req, o.reply)}
  | _ => 0

/-- The type of the reply has been assigned. -/
def Pc.typed : Pc → Bool
  | .idle | .activeLock .enter | .activeLoad .enter | .activeStore .enter _
  | .activeUnlock .enter | .fault => false
  | _ => true

/-- The reply FIFO is open, or could not be opened. -/
def Pc.writing : Pc → Bool
  | .replyWrite _ => true
  | _ => false

/-- The reply FIFO could not be opened. -/
def Pc.dropping : Pc → Bool
  | .replyWrite none => true
  | _ => false

/-- What a step does to the messages: it works on the request, it returns, it
opens the reply FIFO, or it sends the reply. -/
inductive Exchange (req : TlvRequest) (o : Office) (act : Action) (o' : Office) : Prop
  | works (hsent : sentPair act = 0) (hreturned : returnedPair act = 0)
      (htaken : taken req o' = taken req o) (hreplying : replying req o' = replying req o)
      (hwriting : o.pc.writing = false) (hdropping : o'.pc.dropping = false)
  | returns (hact : act = .returned req o.reply) (hpc : o.pc = .ret)
      (ho : o' = ⟨.replyOpen, o.reply⟩)
  | sends (pid : UInt32) (hact : act = .sent pid req o.reply) (hpc : o.pc = .replyWrite (some pid))
      (ho : o' = ⟨.idle, o.reply⟩)

section Steps

variable {choice : Choice} {req : TlvRequest} {b : Bank (Fin n)} {o o' : Office} {act : Action}

theorem OfficeStep.exchange (h : OfficeStep sha256sum choice req b o act o')
    (hopens : choice.fifoOpens = true) (hdropping : o.pc.dropping = false) :
    Exchange req o act o' := by
  cases h with
  | dispatch => cases ht : req.type <;> exact .works rfl rfl rfl rfl rfl rfl
  | ret => exact .returns rfl rfl rfl
  | replyUserDown r hopen => exact absurd (hopens.symm.trans hopen) (by decide)
  | replySkip => cases hdropping
  | replyWrite pid => exact .sends pid rfl rfl rfl
  | fault pc r r' hfault =>
      cases pc with
      | idle | replyOpen | replyWrite => cases hfault
      | _ => exact .works rfl rfl rfl rfl rfl rfl
  | _ => exact .works rfl rfl rfl rfl rfl rfl

theorem OfficeStep.typed (h : OfficeStep sha256sum choice req b o act o')
    (ho : o.pc.typed = true → o.reply.type = req.type) :
    o'.pc.typed = true → o'.reply.type = req.type := by
  cases h with
  | activeLock c | activeLoad c | activeStore c => cases c <;> exact ho
  | activeEntered => exact fun _ => rfl
  | fault => exact fun h => by cases h
  | replySkip | replyWrite => exact fun h => by cases h
  | _ => exact fun _ => ho rfl

end Steps

/-- The exchanges that are complete. -/
def System.sent (s : System n) : Multiset (TlvRequest × TlvReply) :=
  (s.trace.map fun e => sentPair e.2).sum

/-- The pid and the line that are logged of the reply. -/
def exchangeReply (e : TlvRequest × TlvReply) : Int32 × ReplyLine := (e.1.pid, printedReply e.2)

/-- The messages in the log are the lines of the requests that were taken and of
the replies that were sent. -/
structure Logged (s : System n) (es : List LogEntry) : Prop where
  requests : (es.filterMap LogEntry.requestLine : Multiset RequestLine) =
    s.sum taken + s.sent.map fun e => printedLine e.1
  replies : (es.filterMap LogEntry.replyLine : Multiset (Int32 × ReplyLine)) =
    s.sent.map exchangeReply
  returned : (s.trace.map fun e => returnedPair e.2).sum = s.sum replying + s.sent
  opened : ∀ i, (s.pc i).dropping = false
  wellFormed : ∀ e ∈ es, e.WellFormed

theorem FromUser.wellFormed {req : TlvRequest} (h : FromUser req) (received : Bool) (id : Int32) :
    (LogEntry.request received id (printedLine req)).WellFormed := by
  refine ⟨⟨req, logRequest_eq h.type⟩, h.password, fun c hc => ?_⟩
  obtain ⟨ht, hc⟩ := Option.ite_none_right_eq_some.mp hc
  obtain rfl := Option.some.inj hc
  exact h.createPassword ht

theorem printedReply_wellFormed {r : TlvReply} (h : r.type ∈ operations) (received : Bool)
    (id : Int32) : (LogEntry.reply received id (printedReply r)).WellFormed :=
  ⟨⟨r.raw, logReply_raw r h⟩, r.retCode.code_toNat_le.trans_lt (by decide)⟩

section Runs

variable {self : Int32} {s : System n} {es : List LogEntry}

theorem sent_perform (i : Fin n) (act : Action) (b : Bank (Fin n)) (o : Office) :
    (s.perform i act b o).sent = sentPair act + s.sent := by
  rw [System.sent, System.perform_trace, List.map_cons, List.sum_cons]
  rfl

theorem typed (h : (bankOffices sha256sum ok t₀ n).Reachable s) (i : Fin n) :
    (s.pc i).typed = true → (s.offices i).reply.type = (s.requests i).type :=
  office_invariant (I := fun _ req o => o.pc.typed = true → o.reply.type = req.type)
    (fun _ _ _ h => by cases h) (fun _ _ _ _ h => by cases h) (fun _ _ _ _ _ h => h)
    (fun _ _ _ _ _ _ ho hs => hs.typed ho) h i

theorem Logged.give (hl : Logged s es) {i : Fin n} (hidle : s.pc i = .idle) {req : TlvRequest}
    (hreq : FromUser req) :
    Logged (s.give i req) (es ++ (Label.give i req).messages self s) := by
  have htaken : taken (s.requests i) (s.offices i) = 0 := by
    unfold taken
    rw [show (s.offices i).pc = _ from hidle]
  have hreplying : replying (s.requests i) (s.offices i) = 0 := by
    unfold replying
    rw [show (s.offices i).pc = _ from hidle]
  have hmessages : (Label.give i req).messages self s =
      [.request (orderNr i ≠ self) (orderNr i) (printedLine req)] := by
    rw [Label.messages, logRequestEntry, logRequest_eq hreq.type]
    rfl
  rw [hmessages]
  refine ⟨?_, ?_, ?_, fun j => ?_, List.forall_mem_append.mpr ⟨hl.wellFormed, ?_⟩⟩
  · rw [List.filterMap_append, ← Multiset.coe_add, hl.requests, s.sum_give_idle i req taken htaken]
    exact add_right_comm _ _ _
  · rw [List.filterMap_append, ← Multiset.coe_add, hl.replies]
    exact add_zero _
  · rw [s.sum_give_idle i req replying hreplying]
    exact hl.returned.trans (congrArg (· + s.sent) (add_zero _).symm)
  · by_cases hj : j = i
    · subst j
      rw [System.give_pc_self]
      rfl
    · rw [System.give_pc_of_ne _ _ hj]
      exact hl.opened j
  · rintro e he
    obtain rfl := List.mem_singleton.mp he
    exact hreq.wellFormed _ _

theorem sum_perform_eq {M : Type} [AddCancelCommMonoid M] {g : TlvRequest → Office → M}
    {i : Fin n} {act : Action} {b : Bank (Fin n)} {o : Office}
    (h : g (s.requests i) o = g (s.requests i) (s.offices i)) :
    (s.perform i act b o).sum g = s.sum g :=
  add_right_cancel ((s.sum_perform i act b o g).trans (congrArg (s.sum g + ·) h))

theorem returned_perform (i : Fin n) (act : Action) (b : Bank (Fin n)) (o : Office) :
    ((s.perform i act b o).trace.map fun e => returnedPair e.2).sum =
      returnedPair act + (s.trace.map fun e => returnedPair e.2).sum := by
  rw [System.perform_trace, List.map_cons, List.sum_cons]

section Act

variable {i : Fin n} {act : Action} {b : Bank (Fin n)} {o : Office}

theorem Logged.opened_perform (hl : Logged s es) (ho : o.pc.dropping = false) (j : Fin n) :
    ((s.perform i act b o).pc j).dropping = false := by
  by_cases hj : j = i
  · subst j
    rwa [System.perform_pc_self]
  · rw [System.perform_pc_of_ne _ _ _ _ hj]
    exact hl.opened j

theorem Logged.works (hl : Logged s es) (hsent : sentPair act = 0)
    (hreturned : returnedPair act = 0)
    (htaken : taken (s.requests i) o = taken (s.requests i) (s.offices i))
    (hreplying : replying (s.requests i) o = replying (s.requests i) (s.offices i))
    (hdropping : o.pc.dropping = false) : Logged (s.perform i act b o) es := by
  refine ⟨?_, ?_, ?_, hl.opened_perform hdropping, hl.wellFormed⟩
  · rw [sum_perform_eq htaken, sent_perform, hsent, zero_add]
    exact hl.requests
  · rw [sent_perform, hsent, zero_add]
    exact hl.replies
  · rw [returned_perform, hreturned, zero_add, sum_perform_eq hreplying, sent_perform, hsent,
      zero_add]
    exact hl.returned

/-- A request that returns is one that waits for its answer. -/
theorem Logged.returns (hl : Logged s es) (hpc : s.pc i = .ret) :
    Logged (s.perform i (.returned (s.requests i) (s.offices i).reply) b
      ⟨.replyOpen, (s.offices i).reply⟩) es := by
  have hpc' : (s.offices i).pc = .ret := hpc
  have htaken : taken (s.requests i) ⟨.replyOpen, (s.offices i).reply⟩ =
      taken (s.requests i) (s.offices i) := by
    rw [taken, taken, hpc']
  have hreplying := s.sum_perform i (.returned (s.requests i) (s.offices i).reply) b
    ⟨.replyOpen, (s.offices i).reply⟩ replying
  rw [show replying (s.requests i) (s.offices i) = 0 by rw [replying, hpc'], add_zero] at hreplying
  refine ⟨?_, ?_, ?_, hl.opened_perform rfl, hl.wellFormed⟩
  · rw [sum_perform_eq htaken, sent_perform]
    exact hl.requests.trans (congrArg _ (congrArg _ (zero_add _).symm))
  · rw [sent_perform]
    exact hl.replies.trans (congrArg _ (zero_add _).symm)
  · rw [returned_perform, hl.returned, hreplying, sent_perform]
    simp only [returnedPair, sentPair, replying, zero_add]
    exact (add_assoc _ _ _).symm.trans (congrArg (· + s.sent) (add_comm _ _))

/-- A request that is answered is no longer in an office. -/
theorem Logged.sends (hl : Logged s es) {pid : UInt32} (hpc : s.pc i = .replyWrite (some pid))
    (htype : (s.offices i).reply.type ∈ operations) {received : Bool} {id : Int32}
    (hid : id = (s.requests i).pid) :
    Logged (s.perform i (.sent pid (s.requests i) (s.offices i).reply) b
      ⟨.idle, (s.offices i).reply⟩)
      (es ++ [.reply received id (printedReply (s.offices i).reply)]) := by
  have hpc' : (s.offices i).pc = .replyWrite (some pid) := hpc
  have htaken := s.sum_perform i (.sent pid (s.requests i) (s.offices i).reply) b
    ⟨.idle, (s.offices i).reply⟩ taken
  have hreplying := s.sum_perform i (.sent pid (s.requests i) (s.offices i).reply) b
    ⟨.idle, (s.offices i).reply⟩ replying
  rw [show taken (s.requests i) (s.offices i) = {printedLine (s.requests i)} by
    rw [taken, hpc']] at htaken
  rw [show replying (s.requests i) (s.offices i) = {(s.requests i, (s.offices i).reply)} by
    rw [replying, hpc']] at hreplying
  refine ⟨?_, ?_, ?_, hl.opened_perform rfl, List.forall_mem_append.mpr ⟨hl.wellFormed, ?_⟩⟩
  · rw [List.filterMap_append, ← Multiset.coe_add, hl.requests, sent_perform, sentPair,
      Multiset.map_add, Multiset.map_singleton, ← add_assoc, htaken]
    simp [taken, LogEntry.requestLine]
  · rw [List.filterMap_append, ← Multiset.coe_add, hl.replies, sent_perform, sentPair,
      Multiset.map_add, Multiset.map_singleton, hid]
    exact add_comm _ _
  · have hreturned : returnedPair (.sent pid (s.requests i) (s.offices i).reply) = 0 := rfl
    rw [returned_perform, hl.returned, hreturned, zero_add, sent_perform, sentPair, ← add_assoc,
      hreplying]
    exact congrArg (· + s.sent) (add_zero _).symm
  · rintro e he
    obtain rfl := List.mem_singleton.mp he
    exact printedReply_wellFormed htype _ _

/-- A step logs a message only when it sends a reply. -/
theorem Logged.perform (hl : Logged s es) {choice : Choice}
    (htype : (s.pc i).typed = true → (s.offices i).reply.type ∈ operations)
    (hstep : Exchange (s.requests i) (s.offices i) act o) :
    Logged (s.perform i act b o) (es ++ (Label.act i choice).messages self s) := by
  have hnone : (s.pc i).writing = false → (Label.act i choice).messages self s = [] := by
    intro hwriting
    unfold Label.messages
    cases hpc : s.pc i with
    | replyWrite pid =>
        rw [hpc] at hwriting
        cases hwriting
    | _ => simp only [hpc]
  cases hstep with
  | works hsent hreturned htaken hreplying hwriting hdropping =>
      rw [hnone hwriting, List.append_nil]
      exact hl.works hsent hreturned htaken hreplying hdropping
  | returns hact hpc ho =>
      rw [hnone (by rw [show s.pc i = _ from hpc]; rfl), List.append_nil, hact, ho]
      exact hl.returns hpc
  | sends pid hact hpc ho =>
      have hoperation := htype (by rw [show s.pc i = _ from hpc]; rfl)
      have hlogged : (Label.act i choice).messages self s =
          [.reply ((s.requests i).pid = self) (s.requests i).pid
            (printedReply (s.offices i).reply)] := by
        simp only [Label.messages, show s.pc i = _ from hpc]
        rw [logReplyEntry, logReply_raw _ hoperation]
        rfl
      rw [hlogged, hact, ho]
      exact hl.sends hpc hoperation rfl

end Act

/-- The offices of a logged run. -/
theorem withoutOverlaps_of_logged {p : System n × List LogEntry}
    (h : (loggedRuns sha256sum self t₀ n).Reachable p) :
    (withoutOverlaps sha256sum FromUser t₀ n).Reachable p.1 :=
  h.of_record.of_guard

theorem logged {p : System n × List LogEntry}
    (h : (loggedRuns sha256sum self t₀ n).Reachable p) : Logged p.1 p.2 := by
  induction h with
  | @init p h =>
      obtain ⟨s, es⟩ := p
      obtain ⟨⟨hbank, hidle, htrace⟩, rfl⟩ := h
      have hsent : s.sent = 0 := by
        rw [System.sent, htrace]
        rfl
      have hpc : ∀ i, (s.offices i).pc = .idle := hidle
      refine ⟨?_, ?_, ?_, fun i => ?_, fun e he => absurd he List.not_mem_nil⟩
      · rw [hsent, s.sum_eq_zero taken fun i => by rw [taken, hpc i]]
        rfl
      · rw [hsent]
        rfl
      · rw [hsent, htrace, s.sum_eq_zero replying fun i => by rw [replying, hpc i]]
        rfl
      · rw [hidle i]
        rfl
  | @step p l p' hp hs ih =>
      obtain ⟨s', es'⟩ := p'
      obtain ⟨⟨⟨hstep, hfree⟩, hopens⟩, rfl⟩ := hs
      have hr := (withoutOverlaps_of_logged hp).of_guard
      rcases bankOffices_step_cases hstep with ⟨i, req, rfl, hidle, hok, rfl⟩ |
        ⟨i, choice, act, b, o, rfl, hact, hb, rfl⟩
      · exact ih.give hidle hok
      · refine ih.perform (fun htyped => ?_) (hact.exchange hopens (ih.opened i))
        rw [typed hr i htyped]
        exact ((ok_request hr i).resolve_left hact.pc_ne_idle).type

end Runs

/-- With keys that are not repeated, the sum over the elements with the key of
one element is the term of this element. -/
theorem sum_map_ite_key {α κ M : Type} [DecidableEq κ] [AddCommMonoid M] {m : Multiset α}
    {key : α → κ} (hkeys : (m.map key).Nodup) (f : α → M) {x : α} (hx : x ∈ m) :
    (m.map fun y => if key y = key x then f y else 0).sum = f x := by
  obtain ⟨rest, rfl⟩ := Multiset.exists_cons_of_mem hx
  rw [Multiset.map_cons, Multiset.nodup_cons] at hkeys
  have hrest : rest.map (fun y => if key y = key x then f y else 0) = rest.map fun _ => 0 := by
    apply Multiset.map_congr rfl
    intro y hy
    exact if_neg fun heq : key y = key x => hkeys.1 (heq ▸ Multiset.mem_map_of_mem key hy)
  rw [Multiset.map_cons, Multiset.sum_cons, if_pos rfl, hrest, Multiset.map_const',
    Multiset.sum_replicate, smul_zero, add_zero]

/-- The audit of requests and replies in any order. -/
def joined (id : UInt32) (requests : Multiset RequestLine)
    (replies : Multiset (Int32 × ReplyLine)) : ℤ :=
  (requests.map fun l => (replies.map fun r =>
    if r.1 = l.header.pid.toInt32 then movedBy id l r.2.retCode else 0).sum).sum

theorem audit_eq_joined (id : UInt32) (es : List LogEntry) :
    audit id es = joined id (es.filterMap LogEntry.requestLine : List RequestLine)
      (es.filterMap LogEntry.replyLine : List (Int32 × ReplyLine)) := by
  simp only [audit, joined, Multiset.map_coe, Multiset.sum_coe]

/-- Only the messages count. -/
theorem filterMap_filter_isMessage {β : Type} {f : LogEntry → Option β}
    (hf : ∀ e, e.isMessage = false → f e = none) (es : List LogEntry) :
    (es.filter LogEntry.isMessage).filterMap f = es.filterMap f := by
  rw [List.filterMap_filter]
  refine List.filterMap_congr fun e _ => ?_
  cases he : e.isMessage with
  | false => simp [hf e he]
  | true => simp

section Written

variable {es es₀ : List LogEntry} (h : (es.filter LogEntry.isMessage).Perm es₀)
include h

theorem requestLines_perm :
    (es.filterMap LogEntry.requestLine).Perm (es₀.filterMap LogEntry.requestLine) := by
  have hfilter := h.filterMap LogEntry.requestLine
  rwa [filterMap_filter_isMessage fun e he => by cases e <;> first | rfl | cases he] at hfilter

theorem replyLines_perm :
    (es.filterMap LogEntry.replyLine).Perm (es₀.filterMap LogEntry.replyLine) := by
  have hfilter := h.filterMap LogEntry.replyLine
  rwa [filterMap_filter_isMessage fun e he => by cases e <;> first | rfl | cases he] at hfilter

/-- The order of the lines does not matter. -/
theorem audit_perm (id : UInt32) : audit id es = audit id es₀ := by
  rw [audit_eq_joined, audit_eq_joined, Multiset.coe_eq_coe.mpr (requestLines_perm h),
    Multiset.coe_eq_coe.mpr (replyLines_perm h)]

end Written

section Idle

variable {s : System n} {es : List LogEntry}

theorem Logged.sent_of_idle (hl : Logged s es) (hidle : ∀ i, s.pc i = .idle) :
    (es.filterMap LogEntry.requestLine : Multiset RequestLine) =
      (s.sent.map fun e => printedLine e.1) ∧
    (s.trace.map fun e => returnedOutcome e.2).sum = s.sent.map fun e => outcomeOf e.1 e.2 := by
  have hpc : ∀ i, (s.offices i).pc = .idle := hidle
  have hreturned := hl.returned
  rw [s.sum_eq_zero replying fun i => by rw [replying, hpc i], zero_add] at hreturned
  refine ⟨?_, ?_⟩
  · rw [hl.requests, s.sum_eq_zero taken fun i => by rw [taken, hpc i], zero_add]
  · have hact : ∀ act, returnedOutcome act =
        (returnedPair act).map fun e => outcomeOf e.1 e.2 := by
      intro act
      cases act <;> rfl
    rw [← hreturned, ← Multiset.coe_mapAddMonoidHom, map_list_sum, List.map_map]
    exact congrArg List.sum (List.map_congr_left fun e _ => hact e.2)

/-- The audit joins every request with its reply. -/
theorem Logged.audit_eq (hl : Logged s es) (hidle : ∀ i, s.pc i = .idle)
    (hpids : ((es.filterMap LogEntry.requestLine).map fun l => l.header.pid).Nodup) (id : UInt32) :
    audit id es = movedTotal id (s.trace.map fun e => returnedOutcome e.2).sum := by
  obtain ⟨hrequests, hreturned⟩ := hl.sent_of_idle hidle
  have hkeys : (s.sent.map fun e => e.1.pid).Nodup := by
    have hheader : (s.sent.map fun e => e.1.value.header.pid).Nodup := by
      rw [← Multiset.coe_nodup, ← Multiset.map_coe, hrequests, Multiset.map_map] at hpids
      exact hpids
    have hint := hheader.map (f := UInt32.toInt32) fun x y h => congrArg Int32.toUInt32 h
    rwa [Multiset.map_map] at hint
  have haudit : audit id es = (s.sent.map fun x => (s.sent.map fun y =>
      if y.1.pid = x.1.pid then movedBy id (printedLine x.1) y.2.retCode.code else 0).sum).sum := by
    rw [audit_eq_joined, hrequests, hl.replies, joined, Multiset.map_map]
    simp only [Function.comp_apply, Multiset.map_map]
    rfl
  rw [hreturned, movedTotal, Multiset.map_map]
  rw [haudit]
  refine congrArg Multiset.sum (Multiset.map_congr rfl fun x hx => ?_)
  rw [sum_map_ite_key hkeys (fun y => movedBy id (printedLine x.1) y.2.retCode.code) hx]
  exact movedBy_printedLine id x.1 x.2

end Idle

/-- The lines of the log account for every balance. In every run of the offices
from accounts within their limits, on requests of the user program with ids
inside the array, in which creations of one id do not overlap and every reply
FIFO can be opened, once all offices are idle: whatever entries are read out of a
file with the logged messages, in any order and among any other lines, each
account holds what it held at the start and what the audit of these entries
says, as long as no two requests in the file have the same pid. -/
theorem slog_audit {self : Int32} (hb : InBounds t₀) {p : System n × List LogEntry}
    (h : (loggedRuns sha256sum self t₀ n).Reachable p) (hidle : ∀ i, p.1.pc i = .idle)
    {es : List LogEntry} (hmessages : (es.filter LogEntry.isMessage).Perm p.2)
    (hother : ∀ e ∈ es, e.isMessage = false → e.WellFormed)
    (hpids : ((es.filterMap LogEntry.requestLine).map fun l => l.header.pid).Nodup)
    {entries : List LogEntry} (hread : ∀ e ∈ entries, e.WellFormed)
    (hfile : logFile entries = logFile es) (id : UInt32) :
    (entryBalance (p.1.table id) : ℤ) = entryBalance (t₀ id) + audit id entries := by
  have hl := logged h
  have hwritten : ∀ e ∈ es, e.WellFormed := by
    intro e he
    cases hmessage : e.isMessage with
    | false => exact hother e he hmessage
    | true => exact hl.wellFormed e (hmessages.subset (List.mem_filter.mpr ⟨he, hmessage⟩))
  obtain rfl := logFile_injOn hread hwritten hfile
  have hpids' : ((p.2.filterMap LogEntry.requestLine).map fun l => l.header.pid).Nodup :=
    ((requestLines_perm hmessages).map _).nodup_iff.mp hpids
  have hquiet : ∀ i, ¬ (p.1.pc i).accessing := fun i => by
    rw [hidle i]
    decide
  rw [audit_perm hmessages, hl.audit_eq hidle hpids', ← effects_of_idle hidle]
  exact entryBalance_effects (fun _ hr => hr.range) hb (withoutOverlaps_of_logged h) hquiet id

instance (p : CString) : Decidable (IsPassword p) :=
  decidable_of_iff (p.length ≤ maxPasswordLen ∧ 0 ∉ p)
    ⟨fun h => ⟨h.1, h.2⟩, fun h => ⟨h.length_le, h.noZero⟩⟩

instance : DecidablePred FromUser := fun req =>
  decidable_of_iff (InUserRange req ∧ req.type ∈ operations ∧
      IsPassword req.value.header.password ∧
      (req.type = .createAccount → IsPassword req.value.create.password))
    ⟨fun h => ⟨h.1, h.2.1, h.2.2.1, h.2.2.2⟩,
      fun h => ⟨h.range, h.type, h.password, h.createPassword⟩⟩

instance : DecidablePred (Label.opens (n := n))
  | .give .. => .isTrue trivial
  | .act _ choice => decEq choice.fifoOpens true

/-- The messages in the log of a server with pid 4000. Office 2 creates account 2
while office 1 creates account 1, and then transfers 30 from account 1. -/
def Sample.messages : List LogEntry :=
  [.request true 1 (printedLine (create 7 1 100 password₁)),
    .request true 2 (printedLine (create 8 2 200 password₂)),
    .reply false 8 ⟨.createAccount, 8, 0, 0, none⟩, .reply false 7 ⟨.createAccount, 8, 0, 0, none⟩,
    .request true 2 (printedLine (transfer 9 30)), .reply false 9 ⟨.transfer, 12, 1, 0, some 70⟩]

/-- The steps of the logged runs. -/
def loggable (s : System n) (l : Label n) : Bool :=
  !s.creationOverlaps l && decide l.opens && l.allowed FromUser

/-- A schedule of such steps leads to a state of the logged runs. -/
theorem logged_execute {self : Int32} (ls : List (Label n)) {α : Type}
    {f : System n × List LogEntry → α} {a : α}
    (he : (LTS.execute (LTS.recordNext (LTS.nextIf (System.next sha256sum) loggable)
      fun s l es => es ++ l.messages self s) (Sample.start n t₀, []) ls).map f = some a) :
    ∃ p, (loggedRuns sha256sum self t₀ n).Reachable p ∧ f p = a := by
  refine LTS.Reachable.exists_execute ?_
    (LTS.Reachable.init ⟨⟨rfl, fun _ => rfl, rfl⟩, rfl⟩) he
  intro p l p' h
  refine LTS.recordNext_step (fun s l s' hs => ?_) h
  obtain ⟨htest, hnext⟩ := LTS.nextIf_eq_some.mp hs
  simp only [loggable, Bool.and_eq_true, Bool.not_eq_true', decide_eq_true_eq] at htest
  exact ⟨⟨⟨hnext, Label.ok_of_allowed htest.2⟩, htest.1.1⟩, htest.1.2⟩

/-- Account 1 holds what the log of two offices says. -/
theorem slog_audit_transfer : ∃ p : System 2 × List LogEntry,
    (loggedRuns Sample.sha256sum 4000 Sample.adminOnly 2).Reachable p ∧
    (entryBalance (p.1.table 1) : ℤ) =
      0 + audit 1 (logSyncMech 0 .mutexLock .producer 7 :: Sample.messages) := by
  obtain ⟨p, hp, hf⟩ : ∃ p : System 2 × List LogEntry,
      (loggedRuns Sample.sha256sum 4000 Sample.adminOnly 2).Reachable p ∧
      (decide (∀ i, p.1.pc i = .idle), p.2) = (true, Sample.messages) :=
    logged_execute (Sample.creations 0 1 ++ Sample.serve 1 (Sample.transfer 9 30) 25)
      (by decide +kernel)
  obtain ⟨hidle, hmessages⟩ := Prod.mk.inj hf
  have hmessage : ∀ e ∈ Sample.messages, e.isMessage = true := by decide
  have hwritten : ∀ e ∈ logSyncMech 0 .mutexLock .producer 7 :: Sample.messages,
      e.WellFormed := by
    intro e he
    rcases List.mem_cons.mp he with rfl | he
    · trivial
    · exact (logged hp).wellFormed e (hmessages ▸ he)
  refine ⟨p, hp, slog_audit (inBounds_adminTable Sample.salt Sample.adminPassword) hp
    (of_decide_eq_true hidle) ?_ (fun e he _ => hwritten e he) (by decide) hwritten rfl 1⟩
  rw [hmessages]
  exact List.Perm.of_eq rfl

end HomeBanking
