import HomeBanking.Host

/-!
# The end of the read loop

The loop of `readRequestServer` ends when the server is shut down and the last
read has found nothing. At the end of the file it first opens the FIFO again:
when the shutdown has made the FIFO read-only before, or does so before the next
client connects, the main thread waits for a writer that cannot come.
-/

namespace HomeBanking

namespace Host

variable {n : ℕ} {sha256sum : CString → CString} {t₀ : Table}

/-- The main thread waits for a writer, none is connected and none can connect. -/
structure WaitsForever (h : Host n) : Prop where
  point : h.point = .openFifo false
  writers : h.fifo.writers = 0
  readOnly : h.server.bank.fifoReadOnly = true

/-- The main thread finds the end of the file when the FIFO is read-only, or the
FIFO becomes read-only when the main thread waits for a writer. -/
def ShutsDoor (h : Host n) : HostLabel n → Prop
  | .read => h.point = .readType ∧ h.fifo.unread = [] ∧ h.fifo.writers = 0 ∧
      h.server.bank.fifoReadOnly = true
  | .act i _ => h.point = .openFifo false ∧ (h.server.offices i).pc = .shutdownChmod
  | _ => False

/-- Only `chmod` changes the mode of the FIFO. -/
theorem apply_fifoReadOnly {b b' : Bank (Fin n)} {i : Fin n} {act : Action}
    (hb : b.apply i act = some b') :
    (act = .chmod ∧ b'.fifoReadOnly = true) ∨
      (act ≠ .chmod ∧ b'.fifoReadOnly = b.fifoReadOnly) := by
  cases act with
  | chmod =>
      cases hb
      exact .inl ⟨rfl, rfl⟩
  | lock | lockActive =>
      simp only [Bank.apply] at hb
      split at hb
      · cases hb
        exact .inr ⟨by simp, rfl⟩
      · cases hb
  | _ =>
      cases hb
      exact .inr ⟨by simp, rfl⟩

theorem chmod_iff {choice : Choice} {req : TlvRequest} {b : Bank (Fin n)} {o o' : Office}
    {act : Action} (hstep : officeStep sha256sum choice req b o = some (act, o')) :
    act = .chmod ↔ o.pc = .shutdownChmod := by
  cases officeStep_cases _ _ _ _ hstep with
  | shutdownChmod => exact ⟨fun _ => rfl, fun _ => rfl⟩
  | dispatch => exact ⟨nofun, nofun⟩
  | fault pc r r' hf =>
      refine ⟨nofun, ?_⟩
      rintro rfl
      exact hf.elim
  | _ => exact ⟨nofun, nofun⟩

/-- What a step of the server does to the mode of the FIFO. -/
theorem server_fifoReadOnly {s s' : Server n} {l : ServerLabel n}
    (hs : s.next sha256sum l = some s') :
    (∃ i choice, l = .act i choice ∧ (s.offices i).pc = .shutdownChmod ∧
      s'.bank.fifoReadOnly = true) ∨
    (s'.bank.fifoReadOnly = s.bank.fifoReadOnly ∧
      ∀ i choice, l = .act i choice → (s.offices i).pc ≠ .shutdownChmod) := by
  cases l with
  | readType | readLength | readFails =>
      obtain ⟨-, rfl⟩ := Server.readField_cases hs
      exact .inr ⟨rfl, nofun⟩
  | readValue =>
      obtain ⟨-, rfl⟩ := Server.readLast_cases hs
      exact .inr ⟨rfl, nofun⟩
  | leave | main | office =>
      cases Server.step_cases hs <;> exact .inr ⟨rfl, nofun⟩
  | act i choice =>
      simp only [Server.next, Server.officeWork] at hs
      split at hs
      · simp only [Option.bind_eq_some_iff, Option.map_eq_some_iff] at hs
        obtain ⟨⟨act, o⟩, hstep, b, hb, rfl⟩ := hs
        rcases apply_fifoReadOnly hb with ⟨hact, hmode⟩ | ⟨hact, hmode⟩
        · exact .inl ⟨i, choice, rfl, (chmod_iff hstep).mp hact, hmode⟩
        · refine .inr ⟨hmode, fun j choice' hl => ?_⟩
          cases hl
          exact mt (chmod_iff hstep).mpr hact
      · cases hs

/-- The mode of the FIFO is never changed back. -/
theorem Step.readOnly {h h' : Host n} {l : HostLabel n} (hs : Step sha256sum h l h')
    (hmode : h.server.bank.fifoReadOnly = true) : h'.server.bank.fifoReadOnly = true := by
  rcases hs.server with heq | ⟨m, hm⟩
  · rw [heq]
    exact hmode
  · rcases server_fifoReadOnly hm with ⟨_, _, _, _, hmode'⟩ | ⟨hmode', _⟩
    · exact hmode'
    · rw [hmode', hmode]

/-- A main thread that waits forever is not woken by any step. -/
theorem Step.waitsForever {h h' : Host n} {l : HostLabel n} (hs : Step sha256sum h l h')
    (hw : h.WaitsForever) : h'.WaitsForever := by
  have hmode := hs.readOnly hw.readOnly
  obtain ⟨hpoint, hwriters, hreadOnly⟩ := hw
  cases hs with
  | connect hopen =>
      rw [hreadOnly] at hopen
      cases hopen
  | disconnect hw | write _ hw =>
      rw [hwriters] at hw
      exact absurd hw (lt_irrefl 0)
  | again hp | leave _ hp | endOfFile hp | readType _ _ _ hp | readLength _ _ _ hp
  | readValue _ _ _ hp | opened hp =>
      rw [hpoint] at hp
      cases hp
  | readNothing _ hp =>
      rw [hpoint] at hp
      rcases hp with hp | hp <;> cases hp
  | main | office | act => exact ⟨hpoint, hwriters, hmode⟩

/-- After a step that violates the condition the main thread waits forever. -/
theorem ShutsDoor.waitsForever {h h' : Host n} {l : HostLabel n}
    (hh : (host sha256sum t₀ n).Reachable h) (hshuts : h.ShutsDoor l)
    (hs : Step sha256sum h l h') : h'.WaitsForever := by
  cases hs with
  | endOfFile hp hunread hw => exact ⟨rfl, hw, hshuts.2.2.2⟩
  | readType _ _ _ _ hread hne => exact absurd hshuts.2.1 (Fifo.read_bytes hread hne).2.1
  | readLength _ _ _ hp | readValue _ _ _ hp =>
      rw [hshuts.1] at hp
      cases hp
  | readNothing _ hp =>
      rw [hshuts.1] at hp
      rcases hp with hp | hp <;> cases hp
  | act i choice s hserver =>
      have hwriters := congrArg Fifo.writers (fifo_of_waiting hh hshuts.1)
      refine ⟨hshuts.1, hwriters, ?_⟩
      rcases server_fifoReadOnly hserver with ⟨_, _, _, _, hmode⟩ | ⟨_, hpc⟩
      · exact hmode
      · exact absurd hshuts.2 (hpc i choice rfl)
  | _ => exact hshuts.elim

/-- A main thread that waits forever does so in every later state. -/
theorem WaitsForever.reaches {h h' : Host n} (hw : h.WaitsForever)
    (hr : (host sha256sum t₀ n).Reaches h h') : h'.WaitsForever := by
  induction hr with
  | refl => exact hw
  | tail _ hs ih =>
      obtain ⟨l, hl⟩ := hs
      exact (step_cases hl).waitsForever ih

section Schedules

instance (h : Host n) (l : HostLabel n) : Decidable (h.ShutsDoor l) :=
  match l with
  | .read => inferInstanceAs (Decidable (_ ∧ _ ∧ _ ∧ _))
  | .act _ _ => inferInstanceAs (Decidable (_ ∧ _))
  | .connect | .disconnect | .write _ | .test | .opened | .main | .office _ =>
      inferInstanceAs (Decidable False)

end Schedules

end Host

end HomeBanking
