import HomeBanking.Host

/-!
# The stream of requests

The messages that clients write to the FIFO, back to back, against the messages
that `readRequestServer` hands to `processRequestServer`. Each of its three
reads overwrites only the first bytes of a field of the request memory, so a
message that is handed over can end with bytes of earlier messages.
-/

namespace HomeBanking

open Bytes

/-- A message at the call of `processRequestServer`, and how many bytes its
reads of the type and of the value have stored. -/
structure Handed where
  request : RawRequest
  typeBytes : ℕ
  valueBytes : ℕ

/-- What was written to the FIFO and what was handed over; `typeBytes` is for
the message that is being read. -/
structure Traffic where
  sent : List (List UInt8)
  typeBytes : ℕ
  handed : List Handed

namespace Host

variable {n : ℕ}

/-- The bytes that a read of the value returns. -/
def valueRead (h : Host n) : List UInt8 := h.fifo.unread.take h.asked

/-- The message that a read of the value completes. -/
def completed (h : Host n) (typeBytes : ℕ) : List Handed :=
  if h.valueRead = [] then []
  else
    [⟨{ h.request with value := h.request.value.store 0 h.valueRead }, typeBytes,
      h.valueRead.length⟩]

theorem valueRead_eq_nil {h : Host n} (hnil : (h.point = .readValue ∧ h.asked = 0) ∨
    h.fifo.unread = [] ∧ h.fifo.writers = 0) : h.valueRead = [] := by
  rcases hnil with ⟨-, h0⟩ | ⟨hunread, -⟩
  · rw [valueRead, h0, List.take_zero]
  · rw [valueRead, hunread, List.take_nil]

/-- What a step adds to the traffic. -/
def note (h : Host n) (l : HostLabel n) (t : Traffic) : Traffic :=
  match l, h.point with
  | .write bytes, _ => { t with sent := t.sent ++ [bytes] }
  | .read, .readType => { t with typeBytes := (h.fifo.unread.take 4).length }
  | .read, .readValue => { t with handed := t.handed ++ h.completed t.typeBytes }
  | _, _ => t

end Host

/-- The runs of the server and its clients, with a record of their traffic. -/
abbrev hostTraffic (sha256sum : CString → CString) (t₀ : Table) (n : ℕ) :
    LTS (Host n × Traffic) (HostLabel n) :=
  (host sha256sum t₀ n).record ⟨[], 0, []⟩ Host.note

/-- Some run of the user program sends the request. -/
def UserSends (r : RawRequest) : Prop :=
  ∃ pid memory options argv, userMain pid memory options argv = .ok r

theorem UserSends.fits {r : RawRequest} (h : UserSends r) :
    33 ≤ r.decode.length.toNat ∧ r.decode.length.toNat ≤ 62 := by
  obtain ⟨_, _, _, _, hmain⟩ := h
  obtain ⟨_, huser⟩ := userRequest_of_userMain hmain
  have hextent := huser.extent
  unfold RawRequest.readExtent at hextent
  exact ⟨by omega, huser.fits⟩

/-- The message has the type, the length and the sent bytes of the request. -/
structure Carries (r : RawRequest) (m : Handed) : Prop where
  type : m.request.type = r.type
  length : m.request.length = r.length
  value : m.request.sentValue = r.sentValue

namespace Host

variable {n : ℕ} {sha256sum : CString → CString} {t₀ : Table}

/-- The FIFO and the fields read so far are what is left of the requests. -/
def Remains (h : Host n) (pending : List RawRequest) : Prop :=
  match h.point.reader with
  | .type => h.fifo.unread = (pending.map RawRequest.message).flatten
  | .length => ∃ r rest, pending = r :: rest ∧ h.request.type = r.type ∧
      h.fifo.unread = r.length.1 ++ (r.sentValue ++ (rest.map RawRequest.message).flatten)
  | .value => ∃ r rest, pending = r :: rest ∧ h.request.type = r.type ∧
      h.request.length = r.length ∧
      h.fifo.unread = r.sentValue ++ (rest.map RawRequest.message).flatten

/-- A step that reads nothing leaves what remains. -/
theorem Remains.congr {h h' : Host n} {pending : List RawRequest} (hrem : h.Remains pending)
    (hreader : h'.point.reader = h.point.reader) (hrequest : h'.request = h.request)
    (hunread : h'.fifo.unread = h.fifo.unread) : h'.Remains pending := by
  unfold Remains
  rw [hreader, hrequest, hunread]
  exact hrem

/-- A request that is written remains last. -/
theorem Remains.write {h : Host n} {pending : List RawRequest} (hrem : h.Remains pending)
    (r : RawRequest) :
    Remains { h with fifo := h.fifo.write r.message } (pending ++ [r]) := by
  have hflatten : ∀ rest : List RawRequest, ((rest ++ [r]).map RawRequest.message).flatten =
      (rest.map RawRequest.message).flatten ++ r.message := fun rest => by simp
  unfold Remains at hrem ⊢
  cases hp : h.point.reader with
  | type =>
      rw [hp] at hrem
      simp only [Fifo.write, hrem, hflatten]
  | length =>
      rw [hp] at hrem
      obtain ⟨r', rest, rfl, htype, hunread⟩ := hrem
      refine ⟨r', rest ++ [r], rfl, htype, ?_⟩
      simp only [Fifo.write, hunread, hflatten, List.append_assoc]
  | value =>
      rw [hp] at hrem
      obtain ⟨r', rest, rfl, htype, hlength, hunread⟩ := hrem
      refine ⟨r', rest ++ [r], rfl, htype, hlength, ?_⟩
      simp only [Fifo.write, hunread, hflatten, List.append_assoc]

section Reads

variable {h : Host n} {pending : List RawRequest} {bytes : List UInt8} {fifo : Fifo}

theorem Remains.readType (hrem : h.Remains pending) (hp : h.point = .readType)
    (hread : h.fifo.read 4 = some (bytes, fifo)) (hne : bytes ≠ []) (s : Server n) (k : ℕ) :
    Remains ⟨s, { h.request with type := h.request.type.store 0 bytes }, fifo, .readLength, k⟩
      pending := by
  have hunread : h.fifo.unread = (pending.map RawRequest.message).flatten := by
    simpa only [Remains, hp, LoopPoint.reader] using hrem
  cases pending with
  | nil => exact absurd hunread (Fifo.read_bytes hread hne).2.1
  | cons r rest =>
      have hfirst : h.fifo.unread = r.type.1 ++
          (r.length.1 ++ (r.sentValue ++ (rest.map RawRequest.message).flatten)) := by
        rw [hunread, List.map_cons, List.flatten_cons, RawRequest.message, List.append_assoc,
          List.append_assoc]
      rw [Fifo.read_append hfirst r.type.2 (by omega)] at hread
      cases hread
      exact ⟨r, rest, rfl, Block.store_zero _ _, rfl⟩

theorem Remains.readLength (hrem : h.Remains pending) (hp : h.point = .readLength)
    (hread : h.fifo.read 4 = some (bytes, fifo)) (s : Server n) (k : ℕ) :
    Remains ⟨s, { h.request with length := h.request.length.store 0 bytes }, fifo, .readValue, k⟩
      pending := by
  simp only [Remains, hp, LoopPoint.reader] at hrem
  obtain ⟨r, rest, rfl, htype, hunread⟩ := hrem
  rw [Fifo.read_append hunread r.length.2 (by omega)] at hread
  cases hread
  exact ⟨r, rest, rfl, htype, Block.store_zero _ _, rfl⟩

/-- The read of the value completes the first of the requests that remain. -/
theorem Remains.readValue (hrem : h.Remains pending) (hp : h.point = .readValue)
    (hfits : ∀ r ∈ pending, 0 < r.decode.length.toNat ∧ r.decode.length.toNat ≤ 62)
    (hread : h.fifo.read h.asked = some (bytes, fifo)) (s : Server n) (k typeBytes : ℕ) :
    ∃ r rest m, pending = r :: rest ∧ h.completed typeBytes = [m] ∧ Carries r m ∧
      Remains ⟨s, { h.request with value := h.request.value.store 0 bytes }, fifo, .test, k⟩
        rest := by
  simp only [Remains, hp, LoopPoint.reader] at hrem
  obtain ⟨r, rest, rfl, htype, hlength, hunread⟩ := hrem
  obtain ⟨hpos, hle⟩ := hfits r (List.mem_cons_self ..)
  have hasked : h.asked = r.decode.length.toNat := by
    simp only [asked, RawRequest.decode, hlength]
  have hsize := RawRequest.length_sentValue hle
  rw [Fifo.read_append hunread (hsize.trans hasked.symm) (by omega)] at hread
  cases hread
  have hvalue : h.valueRead = r.sentValue := by
    rw [valueRead, hunread, List.take_left' (hsize.trans hasked.symm)]
  have hne : r.sentValue ≠ [] := by
    intro hnil
    rw [hnil, List.length_nil] at hsize
    omega
  refine ⟨r, rest, _, rfl, by rw [completed, if_neg (hvalue ▸ hne)], ⟨htype, hlength, ?_⟩, rfl⟩
  have hstored := h.request.value.take_store_zero (le_of_eq hsize.symm)
    (hsize.symm ▸ hle : r.sentValue.length ≤ 62)
  have hdecode : (⟨h.request.type, h.request.length, h.request.value.store 0 h.valueRead⟩ :
      RawRequest).decode.length = r.decode.length := by
    simp only [RawRequest.decode, hlength]
  rw [RawRequest.sentValue, hdecode, hvalue, hstored, ← hsize, List.take_length]

/-- As long as requests remain there is something to read. -/
theorem Remains.unread_ne_nil (hrem : h.Remains pending)
    (hfits : ∀ r ∈ pending, 0 < r.decode.length.toNat ∧ r.decode.length.toNat ≤ 62)
    (hpending : pending ≠ []) : h.fifo.unread ≠ [] := by
  intro hnil
  cases hp : h.point.reader with
  | type =>
      simp only [Remains, hp, hnil] at hrem
      cases pending with
      | nil => exact hpending rfl
      | cons r rest =>
          have hlength := congrArg List.length hrem
          have htype : r.type.1.length = 4 := r.type.2
          simp only [List.map_cons, List.flatten_cons, RawRequest.message, List.length_append,
            List.length_nil] at hlength
          omega
  | length =>
      simp only [Remains, hp, hnil] at hrem
      obtain ⟨r, rest, -, -, hunread⟩ := hrem
      have hlength := congrArg List.length hunread
      have hfield : r.length.1.length = 4 := r.length.2
      simp only [List.length_append, List.length_nil] at hlength
      omega
  | value =>
      simp only [Remains, hp, hnil] at hrem
      obtain ⟨r, rest, rfl, -, -, hunread⟩ := hrem
      obtain ⟨hpos, hle⟩ := hfits r (List.mem_cons_self ..)
      have hlength := congrArg List.length hunread
      have hvalue := RawRequest.length_sentValue hle
      simp only [List.length_append, List.length_nil] at hlength
      omega

/-- Both fields that follow the type are there to be read. -/
theorem Remains.not_readNothing (hrem : h.Remains pending)
    (hfits : ∀ r ∈ pending, 0 < r.decode.length.toNat ∧ r.decode.length.toNat ≤ 62)
    (hp : h.point = .readLength ∨ h.point = .readValue)
    (hnil : (h.point = .readValue ∧ h.asked = 0) ∨ h.fifo.unread = [] ∧ h.fifo.writers = 0) :
    False := by
  have hpending : pending ≠ [] ∧ (h.point = .readValue → h.asked ≠ 0) := by
    rcases hp with hp | hp
    · simp only [Remains, hp, LoopPoint.reader] at hrem
      obtain ⟨r, rest, rfl, -⟩ := hrem
      exact ⟨List.cons_ne_nil _ _, fun hp' => by rw [hp] at hp'; cases hp'⟩
    · simp only [Remains, hp, LoopPoint.reader] at hrem
      obtain ⟨r, rest, rfl, -, hlength, -⟩ := hrem
      refine ⟨List.cons_ne_nil _ _, fun _ => ?_⟩
      have hpos := (hfits r (List.mem_cons_self ..)).1
      simp only [asked, RawRequest.decode, hlength] at hpos ⊢
      omega
  rcases hnil with ⟨hp', h0⟩ | ⟨hunread, -⟩
  · exact hpending.2 hp' h0
  · exact hrem.unread_ne_nil hfits hpending.1 hunread

end Reads

/-- The first requests are handed over and the others remain. -/
def Delivers (h : Host n) (t : Traffic) (requests : List RawRequest) : Prop :=
  ∃ done pending, requests = done ++ pending ∧ List.Forall₂ Carries done t.handed ∧
    h.Remains pending

theorem Delivers.congr {h h' : Host n} {t t' : Traffic} {requests : List RawRequest}
    (hdel : h.Delivers t requests) (hreader : h'.point.reader = h.point.reader)
    (hrequest : h'.request = h.request) (hunread : h'.fifo.unread = h.fifo.unread)
    (hhanded : t'.handed = t.handed) : h'.Delivers t' requests := by
  obtain ⟨done, pending, rfl, hcarries, hrem⟩ := hdel
  exact ⟨done, pending, rfl, hhanded ▸ hcarries, hrem.congr hreader hrequest hunread⟩

theorem delivers {p : Host n × Traffic} (hp : (hostTraffic sha256sum t₀ n).Reachable p) :
    ∀ requests : List RawRequest, (∀ r ∈ requests, UserSends r) →
      p.2.sent = requests.map RawRequest.message → p.1.Delivers p.2 requests := by
  apply hp.invariant (I := fun p : Host n × Traffic => ∀ requests : List RawRequest,
    (∀ r ∈ requests, UserSends r) → p.2.sent = requests.map RawRequest.message →
      p.1.Delivers p.2 requests)
  · rintro ⟨h, t⟩ ⟨hstart, rfl⟩ requests - hsent
    obtain rfl : requests = [] := List.map_eq_nil_iff.mp hsent.symm
    refine ⟨[], [], rfl, .nil, ?_⟩
    have hpoint : h.point = .openFifo false := hstart.point
    have hfifo : h.fifo = .empty := hstart.fifo
    simp only [Remains, hpoint, hfifo, LoopPoint.reader]
    rfl
  · rintro ⟨h, t⟩ l ⟨h', t'⟩ - ih ⟨hs, rfl⟩ requests huser hsent
    dsimp only at ih hs hsent ⊢
    have hfits : ∀ r ∈ requests, 0 < r.decode.length.toNat ∧ r.decode.length.toNat ≤ 62 :=
      fun r hr => ⟨by have := (huser r hr).fits; omega, (huser r hr).fits.2⟩
    cases step_cases hs with
    | write bytes =>
        obtain ⟨before, last, rfl, hbefore, hlast⟩ := List.map_eq_append_iff.mp hsent.symm
        obtain ⟨r, rfl, rfl⟩ := List.map_eq_singleton_iff.mp hlast
        obtain ⟨done, pending, rfl, hcarries, hrem⟩ :=
          ih before (fun r hr => huser r (List.mem_append_left _ hr)) hbefore.symm
        exact ⟨done, pending ++ [r], List.append_assoc .., hcarries, hrem.write r⟩
    | connect =>
        refine (ih requests huser hsent).congr ?_ rfl rfl rfl
        cases hp : h.point <;> rfl
    | disconnect | main | office | act => exact (ih requests huser hsent).congr rfl rfl rfl rfl
    | again hp | leave _ hp | opened hp =>
        exact (ih requests huser hsent).congr (by rw [hp]; rfl) rfl rfl rfl
    | endOfFile hp =>
        simp only [note, hp] at hsent ⊢
        exact (ih requests huser hsent).congr (by rw [hp]; rfl) rfl rfl rfl
    | readType bytes fifo s hp hread hne =>
        simp only [note, hp] at hsent ⊢
        obtain ⟨done, pending, rfl, hcarries, hrem⟩ := ih requests huser hsent
        exact ⟨done, pending, rfl, hcarries, hrem.readType hp hread hne s _⟩
    | readLength bytes fifo s hp hread =>
        simp only [note, hp] at hsent ⊢
        obtain ⟨done, pending, rfl, hcarries, hrem⟩ := ih requests huser hsent
        exact ⟨done, pending, rfl, hcarries, hrem.readLength hp hread s _⟩
    | readValue bytes fifo s hp hread =>
        simp only [note, hp] at hsent ⊢
        obtain ⟨done, pending, rfl, hcarries, hrem⟩ := ih requests huser hsent
        obtain ⟨r, rest, m, rfl, hcompleted, hm, hrem'⟩ := hrem.readValue hp
          (fun r hr => hfits r (List.mem_append_right _ hr)) hread s bytes.length t.typeBytes
        refine ⟨done ++ [r], rest, by simp, ?_, hrem'⟩
        rw [hcompleted]
        exact List.rel_append hcarries (.cons hm .nil)
    | readNothing s hp hnil =>
        have hsent' : t.sent = requests.map RawRequest.message := by
          rcases hp with hp | hp
          · simpa only [note, hp] using hsent
          · simpa only [note, hp] using hsent
        obtain ⟨done, pending, rfl, hcarries, hrem⟩ := ih requests huser hsent'
        exact (hrem.not_readNothing (fun r hr => hfits r (List.mem_append_right _ hr)) hp
          hnil).elim

/-- `processRequestServer` was called for what was handed over. -/
theorem messages_eq {p : Host n × Traffic} (hp : (hostTraffic sha256sum t₀ n).Reachable p) :
    p.1.server.messages = p.2.handed.map fun m => m.request.decode := by
  apply hp.invariant (I := fun p : Host n × Traffic =>
    p.1.server.messages = p.2.handed.map fun m => m.request.decode)
  · rintro ⟨h, t⟩ ⟨hstart, rfl⟩
    exact hstart.server.messages
  · rintro ⟨h, t⟩ l ⟨h', t'⟩ hreach ih ⟨hs, rfl⟩
    have hsync := synced hreach.of_record
    dsimp only at ih hs hsync ⊢
    cases step_cases hs with
    | connect | disconnect | write | again | opened => exact ih
    | leave s _ _ _ hserver =>
        obtain ⟨-, -, hmessages, -⟩ := leave_frame hserver
        exact hmessages.trans ih
    | main s hserver => exact (internal_main hserver).messages.trans ih
    | office i s hserver => exact (internal_office hserver).messages.trans ih
    | act i choice s hserver => exact (internal_act hserver).messages.trans ih
    | endOfFile hp =>
        simp only [note, hp]
        exact ih
    | readType _ _ s hp _ _ hserver | readLength _ _ s hp _ _ hserver =>
        obtain ⟨-, rfl⟩ := Server.readField_cases hserver
        simp only [note, hp]
        exact ih
    | readValue bytes fifo s hp hread hne hserver =>
        obtain ⟨-, rfl⟩ := Server.readLast_cases hserver
        obtain ⟨-, -, rfl, -⟩ := Fifo.read_bytes hread hne
        have hcompleted : h.completed t.typeBytes = [_] := if_neg hne
        simp only [note, hp, hcompleted, List.map_append, List.map_cons, List.map_nil, ih,
          Server.stores, hsync.request]
        rfl
    | readNothing s hp hnil hserver =>
        obtain ⟨-, rfl⟩ := Server.readField_cases hserver
        have hvalue := valueRead_eq_nil hnil
        rcases hp with hp | hp
        · simp only [note, hp]
          exact ih
        · simp only [note, hp, completed, hvalue, if_true, List.append_nil]
          exact ih

/-- While the server is not shut down and there is something to read, the main
thread goes on with its loop, unless it is in `processRequestServer`. -/
theorem exists_loop_step {h : Host n} (hh : (host sha256sum t₀ n).Reachable h)
    (hdown : h.server.buffer.serverDown = false) (hunread : h.fifo.unread ≠ [])
    (hm : h.server.buffer.main = .reading) :
    ∃ l, (l = .test ∨ l = .read ∨ l = .opened) ∧ (h.next sha256sum l).isSome := by
  have hsync := synced hh
  have hreader := hsync.reader
  have hbytes : ∀ k, ∃ q, h.fifo.read k = some q := fun k =>
    Option.isSome_iff_exists.mp (Fifo.read_isSome (.inl hunread))
  cases hp : h.point with
  | test =>
      refine ⟨.test, .inl rfl, ?_⟩
      simp [next, test, hp, hm, hdown]
  | readType =>
      obtain ⟨q, hq⟩ := hbytes 4
      refine ⟨.read, .inr (.inl rfl), ?_⟩
      rw [hp] at hreader
      simp only [next, hp, readType, hq, Option.bind_some]
      split
      · rfl
      · simp [Server.next, Server.readField, hm, hreader, LoopPoint.reader]
  | readLength =>
      obtain ⟨q, hq⟩ := hbytes 4
      refine ⟨.read, .inr (.inl rfl), ?_⟩
      rw [hp] at hreader
      simp only [next, hp, readLength, hq, Option.bind_some]
      split <;> simp [Server.next, Server.readField, hm, hreader, LoopPoint.reader]
  | readValue =>
      obtain ⟨q, hq⟩ := hbytes h.asked
      refine ⟨.read, .inr (.inl rfl), ?_⟩
      rw [hp] at hreader
      simp only [next, hp, readValue, hq, Option.bind_some]
      split <;> simp [Server.next, Server.readField, Server.readLast, Buffer.next, hm, hreader,
        LoopPoint.reader]
  | openFifo woken =>
      cases woken with
      | false => exact absurd (congrArg Fifo.unread (fifo_of_waiting hh hp)) hunread
      | true => exact ⟨.opened, .inr (.inr rfl), by simp [next, hp]⟩
  | left =>
      have hdown' := hsync.left hp
      rw [hdown] at hdown'
      cases hdown'

end Host

theorem Carries.decode_length {r : RawRequest} {m : Handed} (h : Carries r m) :
    r.decode.length = m.request.decode.length := by
  simp only [RawRequest.decode, h.length]

/-- What is read of a message that carries a request lies in the bytes that were
sent. -/
theorem Carries.readExtent_le {r : RawRequest} {m : Handed} (h : Carries r m)
    (huser : UserSends r) :
    RawRequest.readExtent m.request.decode.type m.request.value ≤
      m.request.decode.length.toNat := by
  obtain ⟨_, _, _, _, hmain⟩ := huser
  obtain ⟨_, hpromises⟩ := userRequest_of_userMain hmain
  have htype : m.request.decode.type = r.decode.type := by
    simp only [RawRequest.decode, h.type]
  have hvalue := h.value
  unfold RawRequest.sentValue at hvalue
  rw [← h.decode_length] at hvalue ⊢
  rw [htype, readExtent_eq_of_take hpromises.extent hvalue.symm]
  exact hpromises.extent

/-- Memory with the same sent bytes agrees on everything that is read. -/
theorem Carries.sameFields {r : RawRequest} {m : Handed} (h : Carries r m)
    (hextent : RawRequest.readExtent m.request.decode.type m.request.value ≤
      m.request.decode.length.toNat) :
    SameFields m.request.decode r.decode := by
  have hvalue := h.value
  unfold RawRequest.sentValue at hvalue
  rw [h.decode_length] at hvalue
  exact sameFields_of_take h.type.symm h.length.symm hextent hvalue

/-- As long as clients write requests of the user program, the requests are
handed over in their order, each with its type, its length and its `length`
bytes of value, until nothing is left to read; while the server is not shut down
the main thread goes on until then. What is logged and processed of a message
lies in these bytes, and does not depend on the rest of the memory. -/
theorem requests_delivered {n : ℕ} {sha256sum : CString → CString} {t₀ : Table}
    {p : Host n × Traffic} (hp : (hostTraffic sha256sum t₀ n).Reachable p)
    {requests : List RawRequest} (huser : ∀ r ∈ requests, UserSends r)
    (hsent : p.2.sent = requests.map RawRequest.message) :
    (p.1.server.messages = p.2.handed.map fun m => m.request.decode) ∧
    (∃ done pending, requests = done ++ pending ∧ List.Forall₂ Carries done p.2.handed ∧
      (p.1.fifo.unread = [] → pending = [])) ∧
    (p.1.server.buffer.serverDown = false →
      p.1.point ≠ .left ∧ (p.1.fifo.unread ≠ [] → p.1.server.buffer.main = .reading →
        ∃ l, (l = .test ∨ l = .read ∨ l = .opened) ∧ (p.1.next sha256sum l).isSome)) ∧
    ∀ m ∈ p.2.handed,
      RawRequest.readExtent m.request.decode.type m.request.value ≤
        m.request.decode.length.toNat ∧
      ∀ r, Carries r m → logRequest r.decode = logRequest m.request.decode ∧
        ∀ (me : Fin n) salt, processRequest sha256sum me salt r.decode =
          processRequest sha256sum me salt m.request.decode := by
  obtain ⟨done, pending, rfl, hcarries, hrem⟩ := Host.delivers hp requests huser hsent
  have hsync := Host.synced hp.of_record
  refine ⟨Host.messages_eq hp, ⟨done, pending, rfl, hcarries, fun hunread => ?_⟩,
    fun hdown => ⟨fun hleft => ?_, ?_⟩, fun m hm => ?_⟩
  · by_contra hpending
    refine hrem.unread_ne_nil (fun r hr => ?_) hpending hunread
    obtain ⟨hpos, hle⟩ := (huser r (List.mem_append_right _ hr)).fits
    exact ⟨by omega, hle⟩
  · have hdown' := hsync.left hleft
    rw [hdown] at hdown'
    cases hdown'
  · exact Host.exists_loop_step hp.of_record hdown
  · obtain ⟨i, rfl⟩ := List.mem_iff_get.mp hm
    have hi : i.1 < done.length := by
      rw [hcarries.length_eq]
      exact i.2
    have hextent := (hcarries.get hi i.2).readExtent_le
      (huser _ (List.mem_append_left _ (List.get_mem ..)))
    refine ⟨hextent, fun r' hr' => ?_⟩
    have hsame := hr'.sameFields hextent
    exact ⟨hsame.logRequest, fun me salt => hsame.processRequest sha256sum me salt⟩

section Schedules

variable {n : ℕ} {t : Table}

theorem hostTraffic_init (hn : 0 < n) :
    (hostTraffic Sample.sha256sum t n).init (Host.start n t, ⟨[], 0, []⟩) :=
  ⟨Host.start_start hn, rfl⟩

/-- A schedule leads to a reachable state and a record of its traffic. -/
theorem execute_hostTraffic (hn : 0 < n) (ls : List (HostLabel n)) {α : Type}
    {f : Host n × Traffic → α} {a : α}
    (he : (LTS.execute (LTS.recordNext (Host.next Sample.sha256sum) Host.note)
      (Host.start n t, ⟨[], 0, []⟩) ls).map f = some a) :
    ∃ p, (hostTraffic Sample.sha256sum t n).Reachable p ∧ f p = a :=
  LTS.Reachable.exists_execute (fun _ _ _ => LTS.recordNext_step fun _ _ _ h => h)
    (LTS.Reachable.init (hostTraffic_init hn)) he

end Schedules

namespace Sample

/-- The command line of the creation of account 1. -/
def createArgv : List CString :=
  [bytes "0", adminPassword, bytes "0", bytes "0", bytes "1 100 secret_pass"]

end Sample

/-- A balance check after a creation: the message ends with the arguments of the
creation, and only they differ from what was sent. -/
theorem requests_delivered_leftover : ∃ (p : Host 2 × Traffic) (r₁ r₂ : RawRequest),
    (hostTraffic Sample.sha256sum Sample.adminOnly 2).Reachable p ∧
    userMain 9 Sample.memory Sample.options Sample.createArgv = .ok r₁ ∧
    userMain 9 Sample.memory Sample.options (Sample.balanceArgv "1") = .ok r₂ ∧
    List.Forall₂ Carries [r₁, r₂] p.2.handed ∧
    (p.2.handed.map fun m => m.request.value.word 37) = [100, 100] ∧ r₂.value.word 37 = 0 := by
  have h₁ : (userMain 9 Sample.memory Sample.options Sample.createArgv).map
      RawRequest.message = .ok (Sample.message Sample.createArgv) := by decide +kernel
  have h₂ : (userMain 9 Sample.memory Sample.options (Sample.balanceArgv "1")).map
      (fun r => (r.message, r.value.word 37)) =
        .ok (Sample.message (Sample.balanceArgv "1"), 0) := by
    decide +kernel
  obtain ⟨p, hp, hf⟩ : ∃ p, (hostTraffic Sample.sha256sum Sample.adminOnly 2).Reachable p ∧
      (p.2.sent, p.1.fifo.unread, p.2.handed.map fun m => m.request.value.word 37) =
        ([Sample.message Sample.createArgv, Sample.message (Sample.balanceArgv "1")], [],
          [100, 100]) :=
    execute_hostTraffic (by decide) (Host.wake ++ Host.receive (Sample.message Sample.createArgv) ++
      Host.receive (Sample.message (Sample.balanceArgv "1"))) (by decide +kernel)
  simp only [Prod.mk.injEq] at hf
  obtain ⟨hsent, hunread, hwords⟩ := hf
  obtain ⟨r₁, hr₁, hmessage₁⟩ := Checks.map_eq_ok.mp h₁
  obtain ⟨r₂, hr₂, hpair⟩ := Checks.map_eq_ok.mp h₂
  obtain ⟨hmessage₂, hword⟩ := Prod.mk.inj hpair
  have huser : ∀ r ∈ [r₁, r₂], UserSends r := by
    intro r hr
    rcases List.mem_pair.mp hr with rfl | rfl
    · exact ⟨_, _, _, _, hr₁⟩
    · exact ⟨_, _, _, _, hr₂⟩
  obtain ⟨-, ⟨done, pending, hdone, hcarries, hpending⟩, -, -⟩ :=
    requests_delivered hp huser (by rw [hsent, ← hmessage₁, ← hmessage₂]; rfl)
  rw [hpending hunread, List.append_nil] at hdone
  exact ⟨p, r₁, r₂, hp, hr₁, hr₂, hdone ▸ hcarries, hwords, hword⟩

end HomeBanking
