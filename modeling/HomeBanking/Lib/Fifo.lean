import Mathlib.Tactic.Common

/-!
# A named pipe

The reading end of a FIFO: the bytes that were written and not yet read, and
the number of connected writers. A read returns what is there up to the number
of bytes asked for; it waits when there is nothing and a writer is connected,
and finds the end of the file when there is none.
-/

structure Fifo where
  unread : List UInt8
  writers : ℕ

namespace Fifo

def empty : Fifo := ⟨[], 0⟩

def connect (f : Fifo) : Fifo := { f with writers := f.writers + 1 }

def disconnect (f : Fifo) : Fifo := { f with writers := f.writers - 1 }

/-- A write of a connected writer appends its bytes at once. -/
def write (f : Fifo) (bytes : List UInt8) : Fifo := { f with unread := f.unread ++ bytes }

/-- Read at most `k` bytes; no result when the read has to wait. -/
def read (f : Fifo) (k : ℕ) : Option (List UInt8 × Fifo) :=
  if k = 0 then some ([], f)
  else if f.unread = [] then if f.writers = 0 then some ([], f) else none
  else some (f.unread.take k, { f with unread := f.unread.drop k })

variable {f f' : Fifo} {k : ℕ} {bytes : List UInt8}

/-- A read that returns something returns the next bytes. -/
theorem read_bytes (h : f.read k = some (bytes, f')) (hne : bytes ≠ []) :
    k ≠ 0 ∧ f.unread ≠ [] ∧ bytes = f.unread.take k ∧
      f' = { f with unread := f.unread.drop k } := by
  unfold read at h
  split at h
  · cases h
    exact absurd rfl hne
  · split at h
    · split at h
      · cases h
        exact absurd rfl hne
      · cases h
    · cases h
      exact ⟨‹_›, ‹_›, rfl, rfl⟩

/-- A read that returns nothing has asked for nothing or found the end. -/
theorem read_nil (h : f.read k = some ([], f')) :
    f' = f ∧ (k = 0 ∨ f.unread = [] ∧ f.writers = 0) := by
  unfold read at h
  split at h
  · cases h
    exact ⟨rfl, .inl ‹_›⟩
  · split at h
    · split at h
      · cases h
        exact ⟨rfl, .inr ⟨‹_›, ‹_›⟩⟩
      · cases h
    · rename_i hk hunread
      obtain ⟨htake, -⟩ := Prod.mk.inj (Option.some.inj h)
      rcases List.take_eq_nil_iff.mp htake with h0 | hnil
      · exact absurd h0 hk
      · exact absurd hnil hunread

/-- Of bytes that are there, those asked for are read. -/
theorem read_append {first rest : List UInt8} (hunread : f.unread = first ++ rest)
    (hk : first.length = k) (hpos : 0 < k) :
    f.read k = some (first, { f with unread := rest }) := by
  have hne : f.unread ≠ [] := by
    rw [hunread]
    intro hnil
    rw [(List.append_eq_nil_iff.mp hnil).1] at hk
    exact absurd hk (by simp; omega)
  rw [read, if_neg (by omega), if_neg hne, hunread, List.take_left' hk, List.drop_left' hk]

/-- Without writers no read waits. -/
theorem read_isSome (h : f.unread ≠ [] ∨ f.writers = 0) : (f.read k).isSome := by
  unfold read
  split
  · rfl
  · split
    · split
      · rfl
      · rename_i hunread hwriters
        rcases h with h | h
        · exact absurd hunread h
        · exact absurd h hwriters
    · rfl

end Fifo
