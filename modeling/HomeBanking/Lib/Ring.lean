import Mathlib.Algebra.Order.Ring.Int
import Mathlib.Data.List.Basic
import Mathlib.Logic.Function.Basic

/-!
# Ring buffers

A first-in first-out queue in an array: `head` is the next cell to read, `tail`
the next one to write, and both wrap around at `size`. `Holds` relates the
array to the list of the elements that were written and not yet read; what the
other cells contain does not matter.
-/

namespace Ring

variable {α : Type*} {cells : ℤ → α} {size head tail : ℤ} {xs : List α} {x : α}

/-- The cell `k` places after `i`. -/
def cell (size i k : ℤ) : ℤ := if i + k < size then i + k else i + k - size

theorem cell_lt {i k : ℤ} (hi : i < size) (hk : k ≤ size) : cell size i k < size := by
  unfold cell
  split <;> omega

theorem cell_nonneg {i k : ℤ} (hi : 0 ≤ i) (hk : 0 ≤ k) : 0 ≤ cell size i k := by
  unfold cell
  split <;> omega

theorem cell_injective {i j k : ℤ} (hj : 0 ≤ j ∧ j < size) (hk : 0 ≤ k ∧ k < size)
    (h : cell size i j = cell size i k) : j = k := by
  unfold cell at h
  split at h <;> split at h <;> omega

/-- Walking on from a cell inside the buffer. -/
theorem cell_cell {i j k : ℤ} (hi : i < size) (hjk : j + k ≤ size) (hk : 0 ≤ k) :
    cell size (cell size i j) k = cell size i (j + k) := by
  unfold cell
  split <;> split <;> split <;> omega

/-- Walking on is the remainder by the size. -/
theorem cell_eq_emod {i k : ℤ} (h : 0 ≤ i ∧ i < size) (hk : 0 ≤ k ∧ k ≤ size) :
    cell size i k = (i + k) % size := by
  unfold cell
  split
  · exact (Int.emod_eq_of_lt (by omega) ‹_›).symm
  · have hwrap : (i + k - size) % size = (i + k) % size := Int.sub_emod_right ..
    rw [← hwrap, Int.emod_eq_of_lt (by omega) (by omega)]

/-- Stepping to the next cell is the remainder by the size. -/
theorem cell_one_eq_emod {i : ℤ} (h : 0 ≤ i) (hlt : i < size) :
    cell size i 1 = (i + 1) % size :=
  cell_eq_emod ⟨h, hlt⟩ ⟨by omega, by omega⟩

/-- The buffer holds the elements of the list, oldest first. -/
structure Holds (cells : ℤ → α) (size head tail : ℤ) (xs : List α) : Prop where
  head_nonneg : 0 ≤ head
  head_lt : head < size
  length_le : (xs.length : ℤ) ≤ size
  tail_eq : tail = cell size head xs.length
  get : ∀ k (hk : k < xs.length), cells (cell size head k) = xs[k]

/-- Equal indices inside the buffer: nothing to read. -/
theorem Holds.nil (h : 0 ≤ head) (hlt : head < size) : Holds cells size head head [] where
  head_nonneg := h
  head_lt := hlt
  length_le := by simp only [List.length_nil]; omega
  tail_eq := by simp [cell, hlt]
  get k hk := absurd hk (Nat.not_lt_zero k)

/-- With room left, the next cell to write is none of the unread ones. -/
theorem Holds.ne_tail (h : Holds cells size head tail xs) (hroom : (xs.length : ℤ) < size)
    {k : ℕ} (hk : k < xs.length) : cell size head k ≠ tail := by
  intro heq
  rw [h.tail_eq] at heq
  have := cell_injective (by omega) (by omega) heq
  omega

/-- Writing the next cell adds an element at the end. -/
theorem Holds.push (h : Holds cells size head tail xs) (hroom : (xs.length : ℤ) < size) (a : α) :
    Holds (Function.update cells tail a) size head (cell size tail 1) (xs ++ [a]) where
  head_nonneg := h.head_nonneg
  head_lt := h.head_lt
  length_le := by
    rw [List.length_append, List.length_singleton]
    push_cast
    omega
  tail_eq := by
    rw [h.tail_eq, cell_cell h.head_lt (by omega) (by omega), List.length_append,
      List.length_singleton]
    push_cast
    rfl
  get k hk := by
    rw [List.length_append, List.length_singleton] at hk
    by_cases hold : k < xs.length
    · rw [Function.update_of_ne (h.ne_tail hroom hold), List.getElem_append_left hold]
      exact h.get k hold
    · obtain rfl : k = xs.length := by omega
      rw [← h.tail_eq, Function.update_self, List.getElem_append_right (le_refl _)]
      simp

/-- The cell at `head` is the oldest element. -/
theorem Holds.cells_head (h : Holds cells size head tail (x :: xs)) : cells head = x := by
  have hget := h.get 0 (Nat.zero_lt_succ _)
  have hcell : cell size head ((0 : ℕ) : ℤ) = head := by
    simp [cell, h.head_lt]
  rwa [hcell] at hget

/-- Reading the cell at `head` removes the oldest element. -/
theorem Holds.pop (h : Holds cells size head tail (x :: xs)) :
    Holds cells size (cell size head 1) tail xs := by
  have hlen := h.length_le
  rw [List.length_cons] at hlen
  push_cast at hlen
  refine ⟨cell_nonneg h.head_nonneg (by omega), cell_lt h.head_lt (by omega), by omega, ?_,
    fun k hk => ?_⟩
  · rw [h.tail_eq, cell_cell h.head_lt (by omega) (by omega), List.length_cons]
    push_cast
    rw [add_comm]
  · have hget := h.get (k + 1) (Nat.succ_lt_succ hk)
    rw [cell_cell h.head_lt (by omega) (by omega), add_comm]
    exact hget

end Ring
