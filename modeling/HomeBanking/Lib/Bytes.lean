import Mathlib.Data.Vector.Defs
import Mathlib.Tactic.Common

/-!
# Bytes in memory

Words of four bytes, least significant first, strings that end with a zero
byte, and blocks of memory of a fixed size of which the first bytes are
overwritten.
-/

namespace Bytes

/-- The four bytes of a word. -/
def ofWord (x : UInt32) : List UInt8 :=
  [UInt8.ofNat x.toNat, UInt8.ofNat (x.toNat / 256), UInt8.ofNat (x.toNat / 65536),
    UInt8.ofNat (x.toNat / 16777216)]

/-- The word in the first four bytes. -/
def word : List UInt8 → UInt32
  | b₀ :: b₁ :: b₂ :: b₃ :: _ =>
      UInt32.ofNat (b₀.toNat + 256 * b₁.toNat + 65536 * b₂.toNat + 16777216 * b₃.toNat)
  | _ => 0

@[simp] theorem word_ofWord_append (x : UInt32) (rest : List UInt8) :
    word (ofWord x ++ rest) = x := by
  have hx := x.toNat_lt
  apply UInt32.toNat_inj.mp
  simp only [ofWord, word, List.cons_append, UInt8.toNat_ofNat', UInt32.toNat_ofNat']
  omega

theorem word_take (m : List UInt8) {k : ℕ} (hk : 4 ≤ k) : word (m.take k) = word m := by
  obtain ⟨k, rfl⟩ := Nat.exists_eq_add_of_le' hk
  rcases m with _ | ⟨b₀, _ | ⟨b₁, _ | ⟨b₂, _ | ⟨b₃, m⟩⟩⟩⟩ <;> rfl

/-- The string that starts here: the bytes before the first zero. -/
def string (m : List UInt8) : List UInt8 := m.takeWhile (· ≠ 0)

/-- What a string occupies, its zero byte included. -/
def stored (s : List UInt8) : List UInt8 := s ++ [0]

@[simp] theorem length_stored (s : List UInt8) : (stored s).length = s.length + 1 := by
  simp [stored]

/-- Whatever a string contains, it ends at its zero byte at the latest. -/
theorem length_string_stored_append_le (s rest : List UInt8) :
    (string (stored s ++ rest)).length ≤ s.length := by
  induction s with
  | nil => simp [string, stored]
  | cons b s ih =>
      by_cases hb : b = 0
      · simp [string, stored, hb]
      · have hcons : string (stored (b :: s) ++ rest) = b :: string (stored s ++ rest) := by
          simp [string, stored, hb]
        rw [hcons, List.length_cons, List.length_cons]
        exact Nat.succ_le_succ ih

/-- A string without a zero is read back as it was stored. -/
theorem string_stored_append {s : List UInt8} (hs : 0 ∉ s) (rest : List UInt8) :
    string (stored s ++ rest) = s := by
  induction s with
  | nil => rfl
  | cons b s ih =>
      obtain ⟨hb, hs⟩ := List.ne_and_not_mem_of_not_mem_cons hs
      have hcons : string (stored (b :: s) ++ rest) = b :: string (stored s ++ rest) := by
        simp [string, stored, hb.symm]
      rw [hcons, ih hs]

/-- A string that ends within the first `k` bytes is determined by them. -/
theorem string_eq_of_take {m m' : List UInt8} {k : ℕ} (h : m.take k = m'.take k)
    (hk : (string m).length < k) : string m' = string m := by
  have hm : (string m').take k = string m := by
    rw [string, List.take_takeWhile, ← h, ← List.take_takeWhile]
    exact List.take_of_length_le (Nat.le_of_lt hk)
  have hlength : ((string m').take k).length < k := hm ▸ hk
  rw [List.length_take] at hlength
  rw [← hm, List.take_of_length_le (by omega)]

/-- A string ends within the first `k` bytes when these contain a zero. -/
theorem length_string_lt_iff {m : List UInt8} {k : ℕ} (hk : k ≤ m.length) :
    (string m).length < k ↔ 0 ∈ m.take k := by
  induction m generalizing k with
  | nil =>
      have : k = 0 := Nat.le_zero.mp hk
      simp [this]
  | cons b m ih =>
      cases k with
      | zero => simp
      | succ k =>
          have hk' : k ≤ m.length := Nat.le_of_succ_le_succ hk
          by_cases hb : b = 0
          · simp [string, hb]
          · have hcons : string (b :: m) = b :: string m := by simp [string, hb]
            rw [hcons, List.length_cons, Nat.succ_lt_succ_iff, ih hk', List.take_succ_cons,
              List.mem_cons, or_iff_right (Ne.symm hb)]

/-- A block of memory. -/
abbrev Block (k : ℕ) := List.Vector UInt8 k

namespace Block

variable {k : ℕ}

/-- Store bytes from offset `i` on; what does not fit in the block is dropped. -/
def store (m : Block k) (i : ℕ) (bytes : List UInt8) : Block k :=
  ⟨(m.1.take i ++ bytes ++ m.1.drop (i + bytes.length)).take k, by
    have hm := m.2
    simp only [List.length_take, List.length_append, List.length_drop]
    omega⟩

/-- The word at offset `i`. -/
def word (m : Block k) (i : ℕ) : UInt32 := Bytes.word (m.1.drop i)

/-- The string that starts at offset `i`. -/
def string (m : Block k) (i : ℕ) : List UInt8 := Bytes.string (m.1.drop i)

/-- Bytes before the offset stay. -/
theorem take_store_of_le (m : Block k) {i j : ℕ} (bytes : List UInt8) (hj : j ≤ i) :
    (m.store i bytes).1.take j = m.1.take j := by
  have hm := m.2
  simp only [store, List.take_take, List.append_assoc]
  by_cases hjk : j ≤ k
  · rw [Nat.min_eq_left hjk, List.take_append_of_le_length (by rw [List.length_take]; omega),
      List.take_take, Nat.min_eq_left hj]
  · rw [Nat.min_eq_right (by omega),
      List.take_append_of_le_length (by rw [List.length_take]; omega), List.take_take,
      Nat.min_eq_left (by omega), List.take_of_length_le (by omega),
      List.take_of_length_le (by omega)]

/-- From the offset on, a block holds the bytes stored and then what was there. -/
theorem drop_store (m : Block k) {i : ℕ} {bytes : List UInt8} (h : i + bytes.length ≤ k) :
    (m.store i bytes).1.drop i = bytes ++ m.1.drop (i + bytes.length) := by
  have hm := m.2
  have hlength : (m.1.take i).length = i := by
    rw [List.length_take]
    omega
  simp only [store, List.append_assoc]
  rw [List.take_of_length_le, List.drop_left' hlength]
  simp only [List.length_append, List.length_take, List.length_drop]
  omega

/-- Bytes stored at the start stand before the rest of the block. -/
theorem store_zero_eq (m : Block k) {bytes : List UInt8} (h : bytes.length ≤ k) :
    (m.store 0 bytes).1 = bytes ++ m.1.drop bytes.length := by
  have hdrop : (m.store 0 bytes).1.drop 0 = bytes ++ m.1.drop (0 + bytes.length) :=
    m.drop_store (by omega)
  rwa [List.drop_zero, Nat.zero_add] at hdrop

/-- Stored at the start, the first bytes are those stored. -/
theorem take_store_zero (m : Block k) {j : ℕ} {bytes : List UInt8} (hj : j ≤ bytes.length)
    (h : bytes.length ≤ k) : (m.store 0 bytes).1.take j = bytes.take j := by
  rw [m.store_zero_eq h, List.take_append_of_le_length hj]

/-- A block that is overwritten as a whole. -/
theorem store_zero (m m' : Block k) : m.store 0 m'.1 = m' := by
  have htake := m.take_store_zero (Nat.le_of_eq m'.2.symm) (Nat.le_of_eq m'.2)
  rw [List.take_of_length_le (Nat.le_of_eq (m.store 0 m'.1).2),
    List.take_of_length_le (Nat.le_of_eq m'.2)] at htake
  exact Subtype.ext htake

theorem word_store (m : Block k) {i : ℕ} (x : UInt32) (h : i + 4 ≤ k) :
    (m.store i (ofWord x)).word i = x := by
  rw [word, m.drop_store h, word_ofWord_append]

theorem string_store (m : Block k) {i : ℕ} {s : List UInt8} (hs : 0 ∉ s)
    (h : i + s.length + 1 ≤ k) : (m.store i (stored s)).string i = s := by
  rw [string, m.drop_store (by rw [length_stored]; omega)]
  exact string_stored_append hs _

theorem length_string_store_le (m : Block k) {i : ℕ} {s : List UInt8}
    (h : i + s.length + 1 ≤ k) : ((m.store i (stored s)).string i).length ≤ s.length := by
  rw [string, m.drop_store (by rw [length_stored]; omega)]
  exact length_string_stored_append_le s _

/-- A string ends within the bytes stored when these have a zero behind its start. -/
theorem length_string_store_lt_iff (m : Block k) {bytes : List UInt8} (h : bytes.length ≤ k)
    (i : ℕ) :
    i + ((m.store 0 bytes).string i).length < bytes.length ↔ 0 ∈ bytes.drop i := by
  by_cases hi : i ≤ bytes.length
  · have hsize := (m.store 0 bytes).2
    have hroom : bytes.length - i ≤ ((m.store 0 bytes).1.drop i).length := by
      rw [List.length_drop]
      omega
    have htake : ((m.store 0 bytes).1.drop i).take (bytes.length - i) = bytes.drop i := by
      rw [← List.drop_take, m.take_store_zero (Nat.le_refl _) h, List.take_length]
    have hends := length_string_lt_iff hroom
    rw [htake] at hends
    rw [← hends, string]
    omega
  · rw [List.drop_eq_nil_of_le (by omega)]
    simp only [List.not_mem_nil, iff_false]
    omega

/-- A word is determined by the bytes up to its end. -/
theorem word_eq_of_take {k' : ℕ} {m : Block k} {m' : Block k'} {i j : ℕ}
    (h : m.1.take j = m'.1.take j) (hij : i + 4 ≤ j) : m'.word i = m.word i := by
  have hword : ∀ l : List UInt8, Bytes.word ((l.take j).drop i) = Bytes.word (l.drop i) := by
    intro l
    rw [List.drop_take]
    exact word_take _ (by omega)
  rw [word, word, ← hword m'.1, ← h, hword]

/-- A string is determined by the bytes up to its zero. -/
theorem string_eq_of_take {k' : ℕ} {m : Block k} {m' : Block k'} {i j : ℕ}
    (h : m.1.take j = m'.1.take j) (hij : i + (m.string i).length < j) :
    m'.string i = m.string i := by
  have hlength : (Bytes.string (m.1.drop i)).length < j - i := by
    change (m.string i).length < j - i
    omega
  refine Bytes.string_eq_of_take ?_ hlength
  rw [← List.drop_take, ← List.drop_take, h]

end Block

end Bytes
