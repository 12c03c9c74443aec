import Mathlib.Algebra.BigOperators.Group.Finset.Basic
import Mathlib.Data.Fintype.BigOperators
import Mathlib.Order.WellFounded

/-!
# Finitely many threads

Sums over the threads when one of them moves, locks and the threads that hold
them, and the absence of circular waits when every thread takes its locks in
increasing order.
-/

namespace Threads

variable {ι α M : Type*}

section Sums

variable [DecidableEq ι] [AddCommMonoid M]

/-- Moving one thread replaces its own contribution to a sum over a set of
threads. -/
theorem sum_update_of_mem {s : Finset ι} {i : ι} (hi : i ∈ s) (f : ι → α) (g : ι → α → M)
    (a : α) :
    (∑ j ∈ s, g j (Function.update f i a j)) + g i (f i) = (∑ j ∈ s, g j (f j)) + g i a := by
  have hupd : ∑ j ∈ s.erase i, g j (Function.update f i a j) =
      ∑ j ∈ s.erase i, g j (f j) := by
    apply Finset.sum_congr rfl
    intro j hj
    rw [Function.update_of_ne (Finset.ne_of_mem_erase hj)]
  rw [← Finset.sum_erase_add _ _ hi, hupd,
    ← Finset.sum_erase_add _ (fun j => g j (f j)) hi, Function.update_self]
  exact add_right_comm _ _ _

/-- The same for a sum over all threads. -/
theorem sum_update [Fintype ι] (f : ι → α) (g : ι → α → M) (i : ι) (a : α) :
    (∑ j, g j (Function.update f i a j)) + g i (f i) = (∑ j, g j (f j)) + g i a :=
  sum_update_of_mem (Finset.mem_univ i) f g a

/-- A move that keeps the contribution of its thread keeps the sum. -/
theorem sum_update_of_eq [Fintype ι] (f : ι → α) (g : ι → α → M) (i : ι) (a : α)
    (h : g i a = g i (f i)) :
    (∑ j, g j (Function.update f i a j)) = ∑ j, g j (f j) := by
  apply Finset.sum_congr rfl
  intro j _
  by_cases hj : j = i
  · subst j
    rw [Function.update_self, h]
  · rw [Function.update_of_ne hj]

end Sums

section Locks

variable {Lock : Type*} {m : Lock → Option ι} {H H' : ι → Finset Lock} {i : ι}

/-- A thread that holds a lock is its registered owner. -/
def Owned (m : Lock → Option ι) (H : ι → Finset Lock) : Prop :=
  ∀ i, ∀ v ∈ H i, m v = some i

/-- The registered owner of a lock holds it: no lock is left behind. -/
def NoLeak (m : Lock → Option ι) (H : ι → Finset Lock) : Prop :=
  ∀ i v, m v = some i → v ∈ H i

/-- No two threads hold the same lock. -/
theorem Owned.eq_of_mem (h : Owned m H) {i j : ι} {v : Lock} (hi : v ∈ H i) (hj : v ∈ H j) :
    i = j :=
  Option.some.inj ((h i v hi).symm.trans (h j v hj))

theorem Owned.mono (h : Owned m H) (hself : H' i ⊆ H i) (hother : ∀ j, j ≠ i → H' j = H j) :
    Owned m H' := by
  intro j v hv
  by_cases hj : j = i
  · subst j
    exact h i v (hself hv)
  · rw [hother j hj] at hv
    exact h j v hv

theorem NoLeak.mono (h : NoLeak m H) (hself : H i ⊆ H' i) (hother : ∀ j, j ≠ i → H' j = H j) :
    NoLeak m H' := by
  intro j v hv
  by_cases hj : j = i
  · subst j
    exact hself (h i v hv)
  · rw [hother j hj]
    exact h j v hv

variable [DecidableEq Lock] {v : Lock}

/-- Taking a free lock. -/
theorem Owned.acquire (h : Owned m H) (hfree : m v = none) (hself : H' i ⊆ insert v (H i))
    (hother : ∀ j, j ≠ i → H' j = H j) : Owned (Function.update m v (some i)) H' := by
  intro j w hw
  by_cases hwv : w = v
  · subst w
    rw [Function.update_self]
    by_cases hj : j = i
    · rw [hj]
    · rw [hother j hj] at hw
      rw [h j v hw] at hfree
      cases hfree
  · rw [Function.update_of_ne hwv]
    by_cases hj : j = i
    · subst j
      exact h i w ((Finset.mem_insert.mp (hself hw)).resolve_left hwv)
    · rw [hother j hj] at hw
      exact h j w hw

theorem NoLeak.acquire (h : NoLeak m H) (hself : insert v (H i) ⊆ H' i)
    (hother : ∀ j, j ≠ i → H' j = H j) : NoLeak (Function.update m v (some i)) H' := by
  intro j w hw
  by_cases hwv : w = v
  · subst w
    rw [Function.update_self, Option.some.injEq] at hw
    subst j
    exact hself (Finset.mem_insert_self v _)
  · rw [Function.update_of_ne hwv] at hw
    by_cases hj : j = i
    · subst j
      exact hself (Finset.mem_insert_of_mem (h i w hw))
    · rw [hother j hj]
      exact h j w hw

/-- Giving back a lock that the thread holds. -/
theorem Owned.release (h : Owned m H) (hv : v ∈ H i) (hself : H' i ⊆ (H i).erase v)
    (hother : ∀ j, j ≠ i → H' j = H j) : Owned (Function.update m v none) H' := by
  intro j w hw
  have hold : w ∈ H j ∧ w ≠ v := by
    by_cases hj : j = i
    · subst j
      exact (Finset.mem_erase.mp (hself hw)).symm
    · rw [hother j hj] at hw
      refine ⟨hw, ?_⟩
      rintro rfl
      exact hj (h.eq_of_mem hw hv)
  rw [Function.update_of_ne hold.2]
  exact h j w hold.1

theorem NoLeak.release (h : NoLeak m H) (hself : (H i).erase v ⊆ H' i)
    (hother : ∀ j, j ≠ i → H' j = H j) : NoLeak (Function.update m v none) H' := by
  intro j w hw
  by_cases hwv : w = v
  · subst w
    rw [Function.update_self] at hw
    cases hw
  · rw [Function.update_of_ne hwv] at hw
    by_cases hj : j = i
    · subst j
      exact hself (Finset.mem_erase.mpr ⟨hwv, h i w hw⟩)
    · rw [hother j hj]
      exact h j w hw

end Locks

/-- With locks ordered, and every thread waiting only for locks above those
it holds, the threads of a set cannot all wait for locks held within it. -/
theorem not_all_waiting {Lock : Type*} {lt : Lock → Lock → Prop}
    (hwf : WellFounded fun v w => lt w v) (inside : ι → Prop) (holds waits : ι → Lock → Prop)
    (horder : ∀ i v w, inside i → holds i v → waits i w → lt v w)
    (hblocked : ∀ i, inside i → ∃ w j, waits i w ∧ inside j ∧ holds j w)
    (i : ι) : ¬ inside i := by
  intro hi
  have hnone : ∀ v j, inside j → ¬ holds j v := by
    intro v
    induction v using hwf.induction with
    | _ v ih =>
        intro j hj hv
        obtain ⟨w, k, hw, hk, hkw⟩ := hblocked j hj
        exact ih w (horder j v w hj hv hw) k hk hkw
  obtain ⟨w, j, _, hj, hjw⟩ := hblocked i hi
  exact hnone w j hj hjw

end Threads
