import Mathlib

/-!
# Operations with footprints

A state is seen through cells. An operation has a footprint when it leaves
every cell it does not write as it was, and when what it answers and writes is
decided by the cells it reads. Operations that write outside each other's
footprints commute.
-/

namespace Footprint

variable {σ ρ κ : Type*} {V : κ → Type*} (read : (k : κ) → σ → V k)

/-- Two states hold the same in the cells of `ks`. -/
def AgreeOn (ks : Set κ) (s t : σ) : Prop := ∀ k ∈ ks, read k s = read k t

/-- `R s r s'` says that the operation answers `r` in `s` and leaves `s'`. -/
structure Bounds (R : σ → ρ → σ → Prop) (reads writes : Set κ) : Prop where
  frame : ∀ {s r s'}, R s r s' → ∀ k, k ∉ writes → read k s' = read k s
  congr : ∀ {s r s' t}, R s r s' → AgreeOn read reads s t →
    ∃ t', R t r t' ∧ AgreeOn read writes s' t'

variable {read} {R R' : σ → ρ → σ → Prop} {reads reads' writes writes' : Set κ}

/-- An operation does not change what another one reads when it writes elsewhere. -/
theorem Bounds.agreeOn (h : Bounds read R reads writes) (hd : Disjoint writes reads')
    {s s' : σ} {r : ρ} (hs : R s r s') : AgreeOn read reads' s s' :=
  fun k hk => (h.frame hs k fun hw => Set.disjoint_left.mp hd hw hk).symm

/-- Two operations that answer in the same state and write outside each
other's footprints answer the same one after the other, in either order, and
both orders end in the same cells. -/
theorem Bounds.commute (h : Bounds read R reads writes) (h' : Bounds read R' reads' writes')
    (hreads : Disjoint writes reads') (hreads' : Disjoint writes' reads)
    (hwrites : Disjoint writes writes') {s s₁ s₂ : σ} {r r' : ρ}
    (h₁ : R s r s₁) (h₂ : R' s r' s₂) :
    ∃ s₁₂ s₂₁, R' s₁ r' s₁₂ ∧ R s₂ r s₂₁ ∧ ∀ k, read k s₁₂ = read k s₂₁ := by
  obtain ⟨s₁₂, h₁₂, hag'⟩ := h'.congr h₂ (h.agreeOn hreads h₁)
  obtain ⟨s₂₁, h₂₁, hag⟩ := h.congr h₁ (h'.agreeOn hreads' h₂)
  refine ⟨s₁₂, s₂₁, h₁₂, h₂₁, fun k => ?_⟩
  by_cases hw : k ∈ writes
  · calc read k s₁₂ = read k s₁ := h'.frame h₁₂ k (Set.disjoint_left.mp hwrites hw)
      _ = read k s₂₁ := hag k hw
  by_cases hw' : k ∈ writes'
  · calc read k s₁₂ = read k s₂ := (hag' k hw').symm
      _ = read k s₂₁ := (h.frame h₂₁ k hw).symm
  · calc read k s₁₂ = read k s₁ := h'.frame h₁₂ k hw'
      _ = read k s := h.frame h₁ k hw
      _ = read k s₂ := (h'.frame h₂ k hw').symm
      _ = read k s₂₁ := (h.frame h₂₁ k hw).symm

end Footprint
