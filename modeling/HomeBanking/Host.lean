import HomeBanking.Server
import HomeBanking.User
import HomeBanking.Lib.Fifo

/-!
# The server and its FIFO

`readRequestServer` with the FIFO it reads: clients connect, write and
disconnect, and the main thread goes through its loop of three reads, which
closes and reopens the FIFO at the end of the file. The offices work as in
`Server`, on the message that the request memory holds.

## Implementation notes

A read of the type that finds the end of the file and the close after it are
one step: no client is taken to connect, write and leave between the two, whose
message the close would discard. Opening the FIFO for reading waits until a
writer connects, and after `chmod` to 0444 no writer can connect. Reads do not
fail.
-/

namespace HomeBanking

open Bytes

/-- Where the main thread is in the loop of `readRequestServer`: at its
condition, at one of the reads, in `openFifo`, in which it is woken by the
first writer that connects, or behind the loop. -/
inductive LoopPoint
  | test
  | readType
  | readLength
  | readValue
  | openFifo (woken : Bool)
  | left
  deriving DecidableEq, Repr

def LoopPoint.connect : LoopPoint → LoopPoint
  | .openFifo _ => .openFifo true
  | point => point

/-- The field that is read next at a point of the loop. -/
def LoopPoint.reader : LoopPoint → Reader
  | .readLength => .length
  | .readValue => .value
  | _ => .type

/-- The server, its request memory and its FIFO; `lastRead` is the local
variable `n`. -/
structure Host (n : ℕ) where
  server : Server n
  request : RawRequest
  fifo : Fifo
  point : LoopPoint
  lastRead : ℕ

/-- A client connects, disconnects or writes; the main thread tests the
condition of its loop, reads, or is done with `openFifo`; any thread takes a
step that does not concern the FIFO. -/
inductive HostLabel (n : ℕ)
  | connect
  | disconnect
  | write (bytes : List UInt8)
  | test
  | read
  | opened
  | main
  | office (i : Fin n)
  | act (i : Fin n) (choice : Choice)

namespace Host

variable {n : ℕ} (sha256sum : CString → CString)

def serverStep (h : Host n) (l : ServerLabel n) : Option (Host n) :=
  (h.server.next sha256sum l).map fun s => { h with server := s }

/-- The condition of the loop. -/
def test (h : Host n) : Option (Host n) :=
  if h.point = .test ∧ h.server.buffer.main = .reading then
    if h.server.buffer.serverDown ∧ h.lastRead = 0 then
      (h.server.next sha256sum .leave).map fun s => { h with server := s, point := .left }
    else some { h with point := .readType }
  else none

/-- The read of the type; at the end of the file the FIFO is closed. -/
def readType (h : Host n) : Option (Host n) :=
  (h.fifo.read 4).bind fun p =>
    if p.1 = [] then some { h with fifo := p.2, lastRead := 0, point := .openFifo false }
    else
      let request := { h.request with type := h.request.type.store 0 p.1 }
      (h.server.next sha256sum (.readType request.decode.type)).map fun s =>
        ⟨s, request, p.2, .readLength, p.1.length⟩

def readLength (h : Host n) : Option (Host n) :=
  (h.fifo.read 4).bind fun p =>
    if p.1 = [] then
      (h.server.next sha256sum .readFails).map fun s => ⟨s, h.request, p.2, .test, 0⟩
    else
      let request := { h.request with length := h.request.length.store 0 p.1 }
      (h.server.next sha256sum (.readLength request.decode.length)).map fun s =>
        ⟨s, request, p.2, .readValue, p.1.length⟩

/-- How many bytes the read of the value asks for. -/
def asked (h : Host n) : ℕ := h.request.decode.length.toNat

/-- The read of the value, and the call of `processRequestServer`. -/
def readValue (h : Host n) : Option (Host n) :=
  (h.fifo.read h.asked).bind fun p =>
    if p.1 = [] then
      (h.server.next sha256sum .readFails).map fun s => ⟨s, h.request, p.2, .test, 0⟩
    else
      let request := { h.request with value := h.request.value.store 0 p.1 }
      (h.server.next sha256sum (.readValue request.decode.value)).map fun s =>
        ⟨s, request, p.2, .test, p.1.length⟩

/-- The next state; none when the step is not possible or has to wait. -/
def next (h : Host n) : HostLabel n → Option (Host n)
  | .connect =>
      if h.server.bank.fifoReadOnly then none
      else some { h with fifo := h.fifo.connect, point := h.point.connect }
  | .disconnect =>
      if 0 < h.fifo.writers then some { h with fifo := h.fifo.disconnect } else none
  | .write bytes =>
      if 0 < h.fifo.writers then some { h with fifo := h.fifo.write bytes } else none
  | .test => h.test sha256sum
  | .read =>
      match h.point with
      | .readType => h.readType sha256sum
      | .readLength => h.readLength sha256sum
      | .readValue => h.readValue sha256sum
      | _ => none
  | .opened => if h.point = .openFifo true then some { h with point := .test } else none
  | .main => h.serverStep sha256sum .main
  | .office i => h.serverStep sha256sum (.office i)
  | .act i choice => h.serverStep sha256sum (.act i choice)

/-- After `initServer`, up to its `openFifo`: no client is connected, and the
request memory is arbitrary. -/
structure Start (t₀ : Table) (h : Host n) : Prop where
  server : h.server.Start t₀
  request : h.server.request = h.request.decode
  fifo : h.fifo = .empty
  point : h.point = .openFifo false
  lastRead : h.lastRead = 0

end Host

/-- The runs of the server over the accounts `t₀`, with any clients. -/
def host (sha256sum : CString → CString) (t₀ : Table) (n : ℕ) :
    LTS (Host n) (HostLabel n) where
  init := Host.Start t₀
  step h l h' := h.next sha256sum l = some h'

namespace Host

variable {n : ℕ} {sha256sum : CString → CString}

/-- The branches of a step. -/
inductive Step (sha256sum : CString → CString) (h : Host n) : HostLabel n → Host n → Prop
  | connect (hopen : h.server.bank.fifoReadOnly = false) :
      Step sha256sum h .connect { h with fifo := h.fifo.connect, point := h.point.connect }
  | disconnect (hw : 0 < h.fifo.writers) :
      Step sha256sum h .disconnect { h with fifo := h.fifo.disconnect }
  | write (bytes) (hw : 0 < h.fifo.writers) :
      Step sha256sum h (.write bytes) { h with fifo := h.fifo.write bytes }
  | again (hp : h.point = .test)
      (hc : ¬ (h.server.buffer.serverDown = true ∧ h.lastRead = 0))
      (hm : h.server.buffer.main = .reading) :
      Step sha256sum h .test { h with point := .readType }
  | leave (s) (hp : h.point = .test) (hdown : h.server.buffer.serverDown = true)
      (hlast : h.lastRead = 0) (hs : h.server.next sha256sum .leave = some s) :
      Step sha256sum h .test { h with server := s, point := .left }
  | endOfFile (hp : h.point = .readType) (hunread : h.fifo.unread = [])
      (hw : h.fifo.writers = 0) :
      Step sha256sum h .read { h with lastRead := 0, point := .openFifo false }
  | readType (bytes fifo s) (hp : h.point = .readType)
      (hread : h.fifo.read 4 = some (bytes, fifo)) (hne : bytes ≠ [])
      (hs : h.server.next sha256sum (.readType (OpType.ofCode
        ((h.request.type.store 0 bytes).word 0))) = some s) :
      Step sha256sum h .read
        ⟨s, { h.request with type := h.request.type.store 0 bytes }, fifo, .readLength,
          bytes.length⟩
  | readLength (bytes fifo s) (hp : h.point = .readLength)
      (hread : h.fifo.read 4 = some (bytes, fifo)) (hne : bytes ≠ [])
      (hs : h.server.next sha256sum (.readLength ((h.request.length.store 0 bytes).word 0)) =
        some s) :
      Step sha256sum h .read
        ⟨s, { h.request with length := h.request.length.store 0 bytes }, fifo, .readValue,
          bytes.length⟩
  | readValue (bytes fifo s) (hp : h.point = .readValue)
      (hread : h.fifo.read h.asked = some (bytes, fifo)) (hne : bytes ≠ [])
      (hs : h.server.next sha256sum (.readValue (.ofBlock (h.request.value.store 0 bytes))) =
        some s) :
      Step sha256sum h .read
        ⟨s, { h.request with value := h.request.value.store 0 bytes }, fifo, .test,
          bytes.length⟩
  | readNothing (s) (hp : h.point = .readLength ∨ h.point = .readValue)
      (hnil : (h.point = .readValue ∧ h.asked = 0) ∨ h.fifo.unread = [] ∧ h.fifo.writers = 0)
      (hs : h.server.next sha256sum .readFails = some s) :
      Step sha256sum h .read ⟨s, h.request, h.fifo, .test, 0⟩
  | opened (hp : h.point = .openFifo true) : Step sha256sum h .opened { h with point := .test }
  | main (s) (hs : h.server.next sha256sum .main = some s) :
      Step sha256sum h .main { h with server := s }
  | office (i s) (hs : h.server.next sha256sum (.office i) = some s) :
      Step sha256sum h (.office i) { h with server := s }
  | act (i choice s) (hs : h.server.next sha256sum (.act i choice) = some s) :
      Step sha256sum h (.act i choice) { h with server := s }

theorem test_cases {h h' : Host n} (hs : h.test sha256sum = some h') :
    Step sha256sum h .test h' := by
  unfold test at hs
  split at hs
  · rename_i hc
    split at hs
    · rename_i hdown
      obtain ⟨s, hserver, rfl⟩ := Option.map_eq_some_iff.mp hs
      exact .leave s hc.1 hdown.1 hdown.2 hserver
    · rename_i hdown
      cases hs
      exact .again hc.1 hdown hc.2
  · cases hs

theorem readType_cases {h h' : Host n} (hp : h.point = .readType)
    (hs : h.readType sha256sum = some h') : Step sha256sum h .read h' := by
  obtain ⟨⟨bytes, fifo⟩, hread, hs⟩ := Option.bind_eq_some_iff.mp hs
  dsimp only at hs
  split at hs
  · rename_i hnil
    subst hnil
    obtain ⟨rfl, hend⟩ := Fifo.read_nil hread
    cases hs
    have hend := hend.resolve_left (by decide)
    exact .endOfFile hp hend.1 hend.2
  · rename_i hne
    obtain ⟨s, hserver, rfl⟩ := Option.map_eq_some_iff.mp hs
    exact .readType bytes fifo s hp hread hne hserver

theorem readLength_cases {h h' : Host n} (hp : h.point = .readLength)
    (hs : h.readLength sha256sum = some h') : Step sha256sum h .read h' := by
  obtain ⟨⟨bytes, fifo⟩, hread, hs⟩ := Option.bind_eq_some_iff.mp hs
  dsimp only at hs
  split at hs
  · rename_i hnil
    subst hnil
    obtain ⟨rfl, hend⟩ := Fifo.read_nil hread
    obtain ⟨s, hserver, rfl⟩ := Option.map_eq_some_iff.mp hs
    exact .readNothing s (.inl hp) (.inr (hend.resolve_left (by decide))) hserver
  · rename_i hne
    obtain ⟨s, hserver, rfl⟩ := Option.map_eq_some_iff.mp hs
    exact .readLength bytes fifo s hp hread hne hserver

theorem readValue_cases {h h' : Host n} (hp : h.point = .readValue)
    (hs : h.readValue sha256sum = some h') : Step sha256sum h .read h' := by
  obtain ⟨⟨bytes, fifo⟩, hread, hs⟩ := Option.bind_eq_some_iff.mp hs
  dsimp only at hs
  split at hs
  · rename_i hnil
    subst hnil
    obtain ⟨rfl, hend⟩ := Fifo.read_nil hread
    obtain ⟨s, hserver, rfl⟩ := Option.map_eq_some_iff.mp hs
    exact .readNothing s (.inr hp) (hend.imp_left fun h0 => ⟨hp, h0⟩) hserver
  · rename_i hne
    obtain ⟨s, hserver, rfl⟩ := Option.map_eq_some_iff.mp hs
    exact .readValue bytes fifo s hp hread hne hserver

/-- Every step is one of the listed branches. -/
theorem step_cases {h h' : Host n} {l : HostLabel n} (hs : h.next sha256sum l = some h') :
    Step sha256sum h l h' := by
  cases l with
  | connect =>
      simp only [next] at hs
      split at hs
      · cases hs
      · cases hs
        exact .connect (Bool.eq_false_iff.mpr ‹_›)
  | disconnect =>
      simp only [next] at hs
      split at hs
      · cases hs
        exact .disconnect ‹_›
      · cases hs
  | write bytes =>
      simp only [next] at hs
      split at hs
      · cases hs
        exact .write bytes ‹_›
      · cases hs
  | test => exact test_cases hs
  | read =>
      simp only [next] at hs
      split at hs
      · exact readType_cases ‹_› hs
      · exact readLength_cases ‹_› hs
      · exact readValue_cases ‹_› hs
      · cases hs
  | opened =>
      simp only [next] at hs
      split at hs
      · cases hs
        exact .opened ‹_›
      · cases hs
  | main =>
      obtain ⟨s, hserver, rfl⟩ := Option.map_eq_some_iff.mp hs
      exact .main s hserver
  | office i =>
      obtain ⟨s, hserver, rfl⟩ := Option.map_eq_some_iff.mp hs
      exact .office i s hserver
  | act i choice =>
      obtain ⟨s, hserver, rfl⟩ := Option.map_eq_some_iff.mp hs
      exact .act i choice s hserver

variable {t₀ : Table}

/-- A step of the host is one of the server or does not concern it. -/
theorem Step.server {h h' : Host n} {l : HostLabel n} (hs : Step sha256sum h l h') :
    h'.server = h.server ∨ ∃ m, h.server.next sha256sum m = some h'.server := by
  cases hs with
  | connect | disconnect | write | again | endOfFile | opened => exact .inl rfl
  | leave s _ _ _ hs | readType _ _ s _ _ _ hs | readLength _ _ s _ _ _ hs
  | readValue _ _ s _ _ _ hs | readNothing s _ _ hs | main s hs | office _ s hs | act _ _ s hs =>
      exact .inr ⟨_, hs⟩

/-- The server runs as it does on messages that come from nowhere. -/
theorem server_simulation : LTS.Simulation (host sha256sum t₀ n)
    (HomeBanking.server sha256sum (fun _ => True) t₀ n) fun h s => s = h.server where
  init h hh := ⟨h.server, hh.server, rfl⟩
  step h l h' s _ hs hsame := by
    subst hsame
    rcases (step_cases hs).server with heq | ⟨m, hm⟩
    · exact .inl heq.symm
    · exact .inr ⟨m, h'.server, ⟨hm, fun _ _ => trivial⟩, rfl⟩

theorem reachable_server {h : Host n} (hh : (host sha256sum t₀ n).Reachable h) :
    (HomeBanking.server sha256sum (fun _ => True) t₀ n).Reachable h.server := by
  obtain ⟨s, hs, rfl⟩ := server_simulation.reachable hh
  exact hs

/-- A main thread that waits for a writer has read everything. -/
theorem fifo_of_waiting {h : Host n} (hh : (host sha256sum t₀ n).Reachable h) :
    h.point = .openFifo false → h.fifo = .empty := by
  apply hh.invariant (I := fun h : Host n => h.point = .openFifo false → h.fifo = .empty)
  · intro h hh _
    exact hh.fifo
  · intro h l h' _ ih hs hp'
    cases step_cases hs with
    | connect =>
        cases hp : h.point <;> simp [LoopPoint.connect, hp] at hp'
    | disconnect hw | write _ hw =>
        rw [ih hp'] at hw
        exact absurd hw (lt_irrefl 0)
    | endOfFile _ hunread hw =>
        obtain ⟨⟨_, _⟩, _, ⟨_, _⟩, _, _⟩ := h
        cases hunread
        cases hw
        rfl
    | main | office | act => exact ih hp'
    | again | leave | readType | readLength | readValue | readNothing | opened => cases hp'

/-- What the offices and the main thread outside of its loop leave as it is. -/
structure Internal (s s' : Server n) : Prop where
  request : s'.request = s.request
  reader : s'.reader = s.reader
  messages : s'.messages = s.messages
  reading : s.buffer.main = .reading → s'.buffer.main = .reading
  serverDown : s.buffer.serverDown = true → s'.buffer.serverDown = true

theorem Internal.of_office {s : Server n} {i : Fin n} {b : Buffer n ℕ}
    (hb : s.buffer.next (.office i) = some b) (offices : Fin n → Office)
    (serving : Fin n → Option ℕ) :
    Internal s { s with buffer := b, offices := offices, serving := serving } := by
  cases Buffer.step_cases hb <;> exact ⟨rfl, rfl, rfl, id, id⟩

theorem internal_main {s s' : Server n} (hs : s.next sha256sum .main = some s') :
    Internal s s' := by
  obtain ⟨b, hb, rfl⟩ := Option.map_eq_some_iff.mp hs
  refine ⟨rfl, rfl, rfl, fun hm => ?_, ?_⟩
  · simp only [Buffer.next, Buffer.mainStep, hm] at hb
    cases hb
  · cases Buffer.step_cases hb <;> exact id

theorem internal_office {s s' : Server n} {i : Fin n}
    (hs : s.next sha256sum (.office i) = some s') : Internal s s' := by
  simp only [Server.next, Server.officeLoop] at hs
  split at hs
  · obtain ⟨b, hb, rfl⟩ := Option.map_eq_some_iff.mp hs
    exact .of_office hb _ _
  · obtain ⟨b, hb, rfl⟩ := Option.map_eq_some_iff.mp hs
    exact .of_office hb _ _
  · split at hs
    · obtain ⟨b, hb, rfl⟩ := Option.map_eq_some_iff.mp hs
      exact .of_office hb _ _
    · cases hs
  · obtain ⟨b, hb, rfl⟩ := Option.map_eq_some_iff.mp hs
    exact .of_office hb _ _

theorem internal_act {s s' : Server n} {i : Fin n} {choice : Choice}
    (hs : s.next sha256sum (.act i choice) = some s') : Internal s s' := by
  simp only [Server.next, Server.officeWork] at hs
  split at hs
  · simp only [Option.bind_eq_some_iff, Option.map_eq_some_iff] at hs
    obtain ⟨⟨act, o⟩, -, b, -, rfl⟩ := hs
    by_cases hact : act = .setServerDown
    · refine ⟨rfl, rfl, rfl, fun hm => ?_, fun _ => ?_⟩ <;>
        simp only [Server.perform, hact, if_true]
      exact hm
    · refine ⟨rfl, rfl, rfl, fun hm => ?_, fun hdown => ?_⟩ <;>
        simp only [Server.perform, hact, if_false]
      · exact hm
      · exact hdown
  · cases hs

/-- The server agrees with the request memory and with the point of the loop. -/
structure Synced (h : Host n) : Prop where
  request : h.server.request = h.request.decode
  reader : h.server.reader = h.point.reader
  reading : h.point ≠ .test → h.point ≠ .left → h.server.buffer.main = .reading
  left : h.point = .left → h.server.buffer.serverDown = true

/-- A step that does not concern the loop keeps the agreement. -/
theorem Synced.internal {h : Host n} (hsync : h.Synced) {s : Server n}
    (hs : Internal h.server s) : Synced { h with server := s } where
  request := hs.request.trans hsync.request
  reader := hs.reader.trans hsync.reader
  reading htest hleft := hs.reading (hsync.reading htest hleft)
  left hp := hs.serverDown (hsync.left hp)

theorem leave_frame {s s' : Server n} (hs : s.next sha256sum .leave = some s') :
    s'.request = s.request ∧ s'.reader = s.reader ∧ s'.messages = s.messages ∧
      s'.buffer.serverDown = s.buffer.serverDown := by
  simp only [Server.next] at hs
  split at hs
  · obtain ⟨b, hb, rfl⟩ := Option.map_eq_some_iff.mp hs
    cases Buffer.step_cases hb with
    | leave => exact ⟨rfl, rfl, rfl, rfl⟩
  · cases hs

theorem Synced.connect {h : Host n} (hsync : h.Synced) :
    Synced { h with fifo := h.fifo.connect, point := h.point.connect } := by
  obtain ⟨hrequest, hreader, hreading, hleft⟩ := hsync
  cases hp : h.point with
  | openFifo =>
      rw [hp] at hreader hreading
      exact ⟨hrequest, hreader, fun _ _ => hreading nofun nofun, nofun⟩
  | _ =>
      rw [hp] at hreader hreading hleft
      exact ⟨hrequest, hreader, hreading, hleft⟩

theorem synced {h : Host n} (hh : (host sha256sum t₀ n).Reachable h) : h.Synced := by
  apply hh.invariant (I := Host.Synced)
  · intro h hh
    refine ⟨hh.request, ?_, fun _ _ => hh.server.buffer.main, fun hp => ?_⟩
    · rw [hh.server.reader, hh.point]
      rfl
    · rw [hh.point] at hp
      cases hp
  · intro h l h' _ ih hs
    cases step_cases hs with
    | main s hserver => exact ih.internal (internal_main hserver)
    | office i s hserver => exact ih.internal (internal_office hserver)
    | act i choice s hserver => exact ih.internal (internal_act hserver)
    | disconnect | write => exact ⟨ih.request, ih.reader, ih.reading, ih.left⟩
    | connect => exact ih.connect
    | again hp _ hm => exact ⟨ih.request, ih.reader.trans (by rw [hp]; rfl), fun _ _ => hm, nofun⟩
    | leave s hp hdown _ hserver =>
        obtain ⟨hrequest, hreader, -, hdown'⟩ := leave_frame hserver
        refine ⟨hrequest.trans ih.request, hreader.trans (ih.reader.trans ?_),
          fun _ hleft => absurd rfl hleft, fun _ => hdown'.trans hdown⟩
        rw [hp]
        rfl
    | endOfFile hp | opened hp =>
        have hm := ih.reading (by simp [hp]) (by simp [hp])
        exact ⟨ih.request, ih.reader.trans (by rw [hp]; rfl), fun _ _ => hm, nofun⟩
    | readType bytes fifo s hp _ _ hserver =>
        obtain ⟨hm, rfl⟩ := Server.readField_cases hserver
        refine ⟨?_, rfl, fun _ _ => hm, nofun⟩
        simp only [Server.stores, ih.request]
        rfl
    | readLength bytes fifo s hp _ _ hserver =>
        obtain ⟨hm, rfl⟩ := Server.readField_cases hserver
        refine ⟨?_, rfl, fun _ _ => hm, nofun⟩
        simp only [Server.stores, ih.request]
        rfl
    | readValue bytes fifo s hp _ _ hserver =>
        obtain ⟨hm, rfl⟩ := Server.readLast_cases hserver
        refine ⟨?_, rfl, fun htest => absurd rfl htest, nofun⟩
        simp only [Server.stores, ih.request]
        rfl
    | readNothing s hp _ hserver =>
        obtain ⟨hm, rfl⟩ := Server.readField_cases hserver
        exact ⟨ih.request, rfl, fun _ _ => hm, nofun⟩

section Schedules

/-- The server over the accounts `t` before any client connects. -/
def start (n : ℕ) (t : Table) : Host n where
  server := { Server.start n t with request := Sample.memory.decode }
  request := Sample.memory
  fifo := .empty
  point := .openFifo false
  lastRead := 0

variable {t : Table}

theorem start_start (hn : 0 < n) : (start n t).Start t :=
  ⟨⟨Buffer.start_start hn 0, rfl, rfl, fun _ => rfl, rfl, fun _ => rfl, rfl⟩, rfl, rfl, rfl, rfl⟩

/-- A client connects and the main thread goes back to its loop. -/
def wake : List (HostLabel n) := [.connect, .opened]

/-- A connected client writes a message, which the main thread reads and queues. -/
def receive (message : List UInt8) : List (HostLabel n) :=
  [.test, .write message, .read, .read, .read] ++ List.replicate 3 .main

/-- Office `i` takes an entry and does `k` steps of its work. -/
def serve (i : Fin n) (k : ℕ) : List (HostLabel n) :=
  List.replicate 4 (.office i) ++ List.replicate k (.act i Sample.choice)

end Schedules

end Host

namespace Sample

/-- The message that the user program sends on the given command line. -/
def message (argv : List CString) : List UInt8 :=
  match userMain 9 memory options argv with
  | .ok request => request.message
  | .error _ => []

end Sample

end HomeBanking
