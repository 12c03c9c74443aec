import HomeBanking.Stream

/-!
# Messages of any writer

`readRequestServer` checks of each of its reads only that it has returned
something. The read of the value is asked for as many bytes as the length field
says, and a message that ends early is handed over together with what earlier
messages have left in the request memory. This module proves under which
condition on the bytes that arrive neither happens.
-/

namespace HomeBanking

open Bytes

/-- How many bytes of the value the login check and the operation read. A type
that names no operation leaves it at the account id and the password. -/
def processExtent (type : OpType) (v : Block 62) : ℕ :=
  match type with
  | .undefined _ => 8 + (v.string 8).length + 1
  | _ => RawRequest.readExtent type v

/-- The reads of the message itself have stored its type and everything that is
read of its value. -/
def Handed.Filled (m : Handed) : Prop :=
  m.typeBytes = 4 ∧ processExtent m.request.decode.type m.request.value ≤ m.valueBytes

/-- The read of the value is asked for at most `sizeof(req_value_t)` bytes, and
all that is read of the messages handed over was stored for them. -/
structure Filled {n : ℕ} (p : Host n × Traffic) : Prop where
  asked : p.1.point = .readValue → p.1.asked ≤ 62
  handed : ∀ m ∈ p.2.handed, m.Filled

/-- The bytes of a value end both passwords, and contain the words that the
operation reads. -/
def Complete (type : OpType) (bytes : List UInt8) : Prop :=
  0 ∈ bytes.drop 8 ∧
    match type with
    | .createAccount => 0 ∈ bytes.drop 41
    | .transfer => 41 ≤ bytes.length
    | .balance | .shutdown => 33 ≤ bytes.length
    | .undefined _ => True

/-- A length that is stored does not exceed the memory for the value, and a value
that is stored is complete and follows a type of four bytes. -/
def Framed {n : ℕ} (p : Host n × Traffic) (l : HostLabel n) : Prop :=
  match l, p.1.point with
  | .read, .readLength => p.1.fifo.unread ≠ [] →
      ((p.1.request.length.store 0 (p.1.fifo.unread.take 4)).word 0).toNat ≤ 62
  | .read, .readValue => p.1.valueRead ≠ [] →
      p.2.typeBytes = 4 ∧ Complete p.1.request.decode.type p.1.valueRead
  | _, _ => True

/-- A value is complete when its bytes reach up to the extent. -/
theorem complete_iff (type : OpType) (m : Block 62) {bytes : List UInt8}
    (h : bytes.length ≤ 62) :
    Complete type bytes ↔ processExtent type (m.store 0 bytes) ≤ bytes.length := by
  have hlogin := m.length_string_store_lt_iff h 8
  have hcreate := m.length_string_store_lt_iff h 41
  cases type with
  | undefined =>
      simp only [Complete, processExtent, ← hlogin, and_true]
      omega
  | createAccount =>
      simp only [Complete, processExtent, RawRequest.readExtent, ← hlogin, ← hcreate]
      omega
  | _ =>
      simp only [Complete, processExtent, RawRequest.readExtent, ← hlogin]
      omega

/-- Without an operation, processing reads the login only. -/
theorem processRequest_undefined {ι : Type} (sha256sum : CString → CString) (me : ι)
    (salt : CString) {req req' : TlvRequest} {code : UInt32} (ht : req.type = .undefined code)
    (ht' : req'.type = .undefined code) (hid : req'.headerId = req.headerId)
    (hpassword : req'.value.header.password = req.value.header.password) :
    processRequest sha256sum me salt req' = processRequest sha256sum me salt req := by
  obtain ⟨type, length, ⟨pid, id, password, delay⟩, create⟩ := req
  obtain ⟨type', length', ⟨pid', id', password', delay'⟩, create'⟩ := req'
  cases ht
  cases ht'
  cases hid
  cases hpassword
  rfl

/-- Processing does not depend on the bytes behind the extent. -/
theorem processRequest_of_take {ι : Type} (sha256sum : CString → CString) (me : ι)
    (salt : CString) {r : RawRequest} {v : Block 62} {k : ℕ}
    (hk : processExtent r.decode.type r.value ≤ k) (h : r.value.1.take k = v.1.take k) :
    processRequest sha256sum me salt { r with value := v }.decode =
      processRequest sha256sum me salt r.decode := by
  cases ht : r.decode.type with
  | undefined code =>
      have hk' : 8 + (r.value.string 8).length + 1 ≤ k := by
        rw [ht] at hk
        exact hk
      exact processRequest_undefined sha256sum me salt ht ht
        (Block.word_eq_of_take (i := 4) h (by omega))
        (Block.string_eq_of_take (i := 8) h (by omega))
  | _ =>
      have hextent : RawRequest.readExtent r.decode.type r.value ≤ k := by
        rw [ht] at hk ⊢
        exact hk
      have hsame : SameFields r.decode (RawRequest.decode { r with value := v }) :=
        sameFields_of_take rfl rfl hextent h
      exact hsame.processRequest sha256sum me salt

section Runs

variable {n : ℕ} {sha256sum : CString → CString} {t₀ : Table}

/-- The runs in which every step meets the condition. -/
abbrev framedRuns (sha256sum : CString → CString) (t₀ : Table) (n : ℕ) :
    LTS (Host n × Traffic) (HostLabel n) :=
  (hostTraffic sha256sum t₀ n).guard Framed

/-- A step that reads neither a length nor a value meets the condition and keeps
the promises. -/
theorem Filled.iff_of_handed {p p' : Host n × Traffic} {l : HostLabel n} (hfilled : Filled p)
    (hasked : p'.1.point = .readValue → p.1.point = .readValue ∧ p'.1.request = p.1.request)
    (hhanded : p'.2.handed = p.2.handed) (hframed : Framed p l) : Filled p' ↔ Framed p l := by
  refine iff_of_true ⟨fun hp => ?_, ?_⟩ hframed
  · obtain ⟨hp', hrequest⟩ := hasked hp
    unfold Host.asked
    rw [hrequest]
    exact hfilled.asked hp'
  · rw [hhanded]
    exact hfilled.handed

/-- A step keeps the promises exactly when it meets the condition. -/
theorem filled_step_iff {p p' : Host n × Traffic} {l : HostLabel n} (hfilled : Filled p)
    (hs : (hostTraffic sha256sum t₀ n).step p l p') : Filled p' ↔ Framed p l := by
  obtain ⟨h, t⟩ := p
  obtain ⟨h', t'⟩ := p'
  obtain ⟨hs, rfl⟩ := hs
  dsimp only at hs
  cases Host.step_cases hs with
  | connect =>
      refine hfilled.iff_of_handed (fun hp => ?_) rfl trivial
      cases hp' : h.point <;> simp_all [LoopPoint.connect]
  | disconnect | write | main | office | act =>
      exact hfilled.iff_of_handed (fun hp => ⟨hp, rfl⟩) rfl trivial
  | again | leave | opened =>
      exact hfilled.iff_of_handed (fun hp => by cases hp) rfl trivial
  | endOfFile hp | readType _ _ _ hp =>
      exact hfilled.iff_of_handed (fun hp' => by cases hp') (by simp only [Host.note, hp])
        (by simp only [Framed, hp])
  | readLength bytes fifo s hp hread hne =>
      obtain ⟨-, hunread, rfl, -⟩ := Fifo.read_bytes hread hne
      simp only [Framed, Host.note, hp]
      exact ⟨fun hf _ => hf.asked rfl, fun hlength => ⟨fun _ => hlength hunread, hfilled.handed⟩⟩
  | readValue bytes fifo s hp hread hne =>
      obtain ⟨-, -, rfl, -⟩ := Fifo.read_bytes hread hne
      have hsize : h.valueRead.length ≤ 62 := by
        rw [Host.valueRead, List.length_take]
        exact (Nat.min_le_left _ _).trans (hfilled.asked hp)
      have hcompleted : h.completed t.typeBytes = [_] := if_neg hne
      simp only [Framed, Host.note, hp, hcompleted]
      rw [complete_iff _ h.request.value hsize]
      refine ⟨fun hf _ => hf.handed _ (List.mem_append_right _ (List.mem_singleton_self _)),
        fun hframed => ⟨by simp, fun m hm => ?_⟩⟩
      rcases List.mem_append.mp hm with hm | hm
      · exact hfilled.handed m hm
      · rw [List.mem_singleton.mp hm]
        exact hframed hne
  | readNothing s hp hnil =>
      have hvalue := Host.valueRead_eq_nil hnil
      rcases hp with hp | hp
      · have hunread : h.fifo.unread = [] := by
          rcases hnil with ⟨hp', -⟩ | ⟨hunread, -⟩
          · rw [hp] at hp'
            cases hp'
          · exact hunread
        refine hfilled.iff_of_handed (fun hp' => by cases hp') (by simp only [Host.note, hp]) ?_
        simp only [Framed, hp]
        exact fun hne => absurd hunread hne
      · refine hfilled.iff_of_handed (fun hp' => by cases hp') ?_ ?_
        · simp only [Host.note, hp, Host.completed, hvalue, if_true, List.append_nil]
        · simp only [Framed, hp]
          exact fun hne => absurd hvalue hne

/-- In the runs in which every length that is stored is at most 62 and every
value that is stored is complete and follows a type of four bytes, no read is
asked for more bytes than there is memory for, and what is processed of a message
was stored by its own reads. From a state that keeps these promises, the first
step that violates the condition breaks them. Processing does not depend on the
bytes that the reads of a message have not stored. -/
theorem messages_filled :
    (∀ p, (framedRuns sha256sum t₀ n).Reachable p → Filled p) ∧
    (∀ p l p', Filled p → (hostTraffic sha256sum t₀ n).step p l p' →
      (Filled p' ↔ Framed p l)) ∧
    ∀ (m : Handed) (v : Block 62) (me : Fin n) salt, m.Filled →
      m.request.value.1.take m.valueBytes = v.1.take m.valueBytes →
      processRequest sha256sum me salt { m.request with value := v }.decode =
        processRequest sha256sum me salt m.request.decode := by
  refine ⟨fun p hp => ?_, fun p l p' => filled_step_iff, fun m v me salt hm h =>
    processRequest_of_take sha256sum me salt hm.2 h⟩
  apply hp.invariant (I := Filled)
  · rintro ⟨h, t⟩ ⟨hstart, rfl⟩
    refine ⟨fun hp => ?_, nofun⟩
    have hpoint : h.point = .openFifo false := hstart.point
    rw [hpoint] at hp
    cases hp
  · intro p l p' _ ih hs
    exact (filled_step_iff ih hs.1).mpr hs.2

end Runs

section Schedules

instance (type : OpType) (bytes : List UInt8) : Decidable (Complete type bytes) :=
  match type with
  | .createAccount => inferInstanceAs (Decidable (_ ∧ _ ∈ _))
  | .transfer | .balance | .shutdown => inferInstanceAs (Decidable (_ ∧ _ ≤ _))
  | .undefined _ => inferInstanceAs (Decidable (_ ∧ True))

instance {n : ℕ} (p : Host n × Traffic) (l : HostLabel n) : Decidable (Framed p l) := by
  unfold Framed
  split <;> infer_instance

/-- A schedule all of whose steps meet the condition. -/
theorem execute_framedRuns {n : ℕ} {t : Table} (hn : 0 < n) (ls : List (HostLabel n)) {α : Type}
    {f : Host n × Traffic → α} {a : α}
    (he : (LTS.execute (LTS.nextIf (LTS.recordNext (Host.next Sample.sha256sum) Host.note)
      fun p l => decide (Framed p l)) (Host.start n t, ⟨[], 0, []⟩) ls).map f = some a) :
    ∃ p, (framedRuns Sample.sha256sum t n).Reachable p ∧ f p = a :=
  LTS.Reachable.exists_execute_guard (fun _ _ _ => LTS.recordNext_step fun _ _ _ h => h)
    (fun _ _ htest => of_decide_eq_true htest) (hostTraffic_init hn) he

end Schedules

namespace Sample

/-- The type of a balance check, and a length. -/
def balanceHeader (length : UInt32) : List UInt8 := ofWord 1 ++ ofWord length

end Sample

/-- A creation and a balance check are filled; a length of 100 that follows is
not. -/
theorem messages_filled_balance : ∃ p p' : Host 2 × Traffic,
    (framedRuns Sample.sha256sum Sample.adminOnly 2).Reachable p ∧ p.2.handed.length = 2 ∧
    Filled p ∧ p'.1.asked = 100 ∧ ¬ Filled p' ∧
    ∀ m ∈ p.2.handed, ∀ v : Block 62, m.request.value.1.take m.valueBytes = v.1.take m.valueBytes →
      processRequest Sample.sha256sum (0 : Fin 2) Sample.salt { m.request with value := v }.decode =
        processRequest Sample.sha256sum 0 Sample.salt m.request.decode := by
  obtain ⟨p, hp, hf⟩ : ∃ p, (framedRuns Sample.sha256sum Sample.adminOnly 2).Reachable p ∧
      (p.2.handed.length, decide (Framed p .read),
        (p.1.next Sample.sha256sum .read).map fun h => h.asked) = (2, false, some 100) :=
    execute_framedRuns (by decide) (Host.wake ++ Host.receive (Sample.message Sample.createArgv) ++
      Host.receive (Sample.message (Sample.balanceArgv "1")) ++
      [.test, .write (Sample.balanceHeader 100), .read]) (by decide +kernel)
  simp only [Prod.mk.injEq, decide_eq_false_iff_not] at hf
  obtain ⟨hhanded, hframed, hnext⟩ := hf
  obtain ⟨h', hs, hasked⟩ := Option.map_eq_some_iff.mp hnext
  obtain ⟨hruns, hstep, hsame⟩ := @messages_filled 2 Sample.sha256sum Sample.adminOnly
  have hfilled := hruns p hp
  have hviolates : ¬ Filled (h', p.1.note .read p.2) :=
    mt (hstep p .read (h', p.1.note .read p.2) hfilled ⟨hs, rfl⟩).mp hframed
  exact ⟨p, (h', p.1.note .read p.2), hp, hhanded, hfilled, hasked, hviolates, fun m hm v =>
    hsame m v 0 Sample.salt (hfilled.handed m hm)⟩

set_option synthInstance.maxSize 256 in
/-- The server asks for 100 bytes of value when the length says so. A balance
check of one byte is handed over with the account id and the password of the
client before it. -/
theorem oversized_and_leftover :
    (∃ p : Host 2 × Traffic, (hostTraffic Sample.sha256sum Sample.adminOnly 2).Reachable p ∧
      p.1.point = .readValue ∧ p.1.asked = 100) ∧
    ∃ p : Host 2 × Traffic, (hostTraffic Sample.sha256sum Sample.adminOnly 2).Reachable p ∧
      p.2.sent = [Sample.message (Sample.balanceArgv "1"), Sample.balanceHeader 1 ++ [7]] ∧
      (p.2.handed.map fun m => (m.valueBytes, m.request.decode.type, m.request.decode.headerId,
        m.request.decode.value.header.password)) =
        [(33, .balance, 1, Sample.password₁), (1, .balance, 1, Sample.password₁)] := by
  constructor
  · obtain ⟨p, hp, hf⟩ : ∃ p, (hostTraffic Sample.sha256sum Sample.adminOnly 2).Reachable p ∧
        (p.1.point, p.1.asked) = (.readValue, 100) :=
      execute_hostTraffic (by decide) (Host.wake ++
        [.test, .write (Sample.balanceHeader 100), .read, .read]) (by decide +kernel)
    exact ⟨p, hp, Prod.mk.inj hf⟩
  · obtain ⟨p, hp, hf⟩ : ∃ p, (hostTraffic Sample.sha256sum Sample.adminOnly 2).Reachable p ∧
        (p.2.sent, p.2.handed.map fun m => (m.valueBytes, m.request.decode.type,
          m.request.decode.headerId, m.request.decode.value.header.password)) =
        ([Sample.message (Sample.balanceArgv "1"), Sample.balanceHeader 1 ++ [7]],
          [(33, .balance, 1, Sample.password₁), (1, .balance, 1, Sample.password₁)]) :=
      execute_hostTraffic (by decide) (Host.wake ++
        Host.receive (Sample.message (Sample.balanceArgv "1")) ++
        Host.receive (Sample.balanceHeader 1 ++ [7])) (by decide +kernel)
    exact ⟨p, hp, Prod.mk.inj hf⟩

end HomeBanking
