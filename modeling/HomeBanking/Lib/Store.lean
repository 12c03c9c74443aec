import Mathlib.Data.Nat.Notation
import Mathlib.Data.Option.Basic
import Mathlib.Logic.Function.Basic

/-!
# Blocks behind unique references

Owners refer to blocks by their addresses. As long as no two owners refer to
the same block and no reference is ahead of the next address, the owners see a
plain map: allocating, storing through a reference, handing a reference over and
giving it up are updates of that map.
-/

/-- The references of the owners, the blocks they refer to, and the address of
the next block. -/
structure Store (κ β : Type*) where
  refs : κ → Option ℕ
  blocks : ℕ → β
  next : ℕ

namespace Store

variable {κ β : Type*} (s : Store κ β)

/-- The block that an owner refers to. -/
def view (a : κ) : Option β := (s.refs a).map s.blocks

/-- No block has two owners. -/
structure Unique : Prop where
  lt : ∀ a p, s.refs a = some p → p < s.next
  inj : ∀ a b p, s.refs a = some p → s.refs b = some p → a = b

variable {s} in
theorem view_eq_some {a : κ} {x : β} :
    s.view a = some x ↔ ∃ p, s.refs a = some p ∧ s.blocks p = x :=
  Option.map_eq_some_iff

def write (p : ℕ) (x : β) : Store κ β := { s with blocks := Function.update s.blocks p x }

variable {s} in
theorem Unique.write (h : s.Unique) (p : ℕ) (x : β) : (s.write p x).Unique := ⟨h.lt, h.inj⟩

variable [DecidableEq κ]

def alloc (a : κ) (x : β) : Store κ β where
  refs := Function.update s.refs a (some s.next)
  blocks := Function.update s.blocks s.next x
  next := s.next + 1

/-- The owner `a` gives its reference up. -/
def drop (a : κ) : Store κ β := { s with refs := Function.update s.refs a none }

/-- The owner `a` hands the reference `p` over to `b`. -/
def move (a b : κ) (p : ℕ) : Store κ β :=
  { s with refs := Function.update (Function.update s.refs a none) b (some p) }

variable {s} {a b : κ} {p : ℕ} {x : β}

theorem Unique.alloc (h : s.Unique) (a : κ) (x : β) : (s.alloc a x).Unique where
  lt b p hb := by
    by_cases hba : b = a
    · subst b
      obtain rfl : s.next = p := by simpa [Store.alloc] using hb
      exact Nat.lt_succ_self _
    · exact Nat.lt_succ_of_lt (h.lt b p (by simpa [Store.alloc, hba] using hb))
  inj b c p hb hc := by
    -- a reference that was there before is not the new one
    have hold : ∀ d, d ≠ a → (s.alloc a x).refs d = some p → s.refs d = some p ∧ p < s.next := by
      intro d hd hp
      have hp' : s.refs d = some p := by simpa [Store.alloc, hd] using hp
      exact ⟨hp', h.lt d p hp'⟩
    have hnew : (s.alloc a x).refs a = some p → p = s.next := by
      intro hp
      simpa [Store.alloc, eq_comm] using hp
    by_cases hba : b = a <;> by_cases hca : c = a
    · rw [hba, hca]
    · subst b
      have := (hold c hca hc).2
      have := hnew hb
      omega
    · subst c
      have := (hold b hba hb).2
      have := hnew hc
      omega
    · exact h.inj b c p (hold b hba hb).1 (hold c hca hc).1

theorem Unique.drop (h : s.Unique) (a : κ) : (s.drop a).Unique := by
  have hold : ∀ b q, (s.drop a).refs b = some q → s.refs b = some q := by
    intro b q hb
    by_cases hba : b = a
    · simp [Store.drop, hba] at hb
    · simpa [Store.drop, hba] using hb
  exact ⟨fun b q hb => h.lt b q (hold b q hb),
    fun b c q hb hc => h.inj b c q (hold b q hb) (hold c q hc)⟩

theorem Unique.move (h : s.Unique) (ha : s.refs a = some p) (b : κ) :
    (s.move a b p).Unique := by
  -- whoever has a reference now had it before, or is `b` with the one of `a`
  have hold : ∀ c q, (s.move a b p).refs c = some q →
      (c = b ∧ q = p) ∨ (c ≠ b ∧ c ≠ a ∧ s.refs c = some q) := by
    intro c q hc
    by_cases hcb : c = b
    · exact .inl ⟨hcb, by simpa [Store.move, hcb, eq_comm] using hc⟩
    · by_cases hca : c = a
      · subst c
        simp [Store.move, hcb] at hc
      · exact .inr ⟨hcb, hca, by simpa [Store.move, hcb, hca] using hc⟩
  constructor
  · intro c q hc
    rcases hold c q hc with ⟨-, rfl⟩ | ⟨-, -, hq⟩
    · exact h.lt a q ha
    · exact h.lt c q hq
  · intro c d q hc hd
    rcases hold c q hc with ⟨rfl, rfl⟩ | ⟨-, hca, hq⟩
    · rcases hold d q hd with ⟨rfl, -⟩ | ⟨-, hda, hq'⟩
      · rfl
      · exact absurd (h.inj d a q hq' ha) hda
    · rcases hold d q hd with ⟨rfl, rfl⟩ | ⟨-, -, hq'⟩
      · exact absurd (h.inj c a q hq ha) hca
      · exact h.inj c d q hq hq'

theorem Unique.view_write (h : s.Unique) (ha : s.refs a = some p) (x : β) :
    (s.write p x).view = Function.update s.view a (some x) := by
  ext1 b
  by_cases hba : b = a
  · subst b
    simp [view, Store.write, ha]
  · rw [Function.update_of_ne hba]
    cases hb : s.refs b with
    | none => simp [view, Store.write, hb]
    | some q =>
        have hqp : q ≠ p := by
          rintro rfl
          exact hba (h.inj b a q hb ha)
        simp [view, Store.write, hb, hqp]

theorem Unique.view_alloc (h : s.Unique) (a : κ) (x : β) :
    (s.alloc a x).view = Function.update s.view a (some x) := by
  ext1 b
  by_cases hba : b = a
  · subst b
    simp [view, Store.alloc]
  · rw [Function.update_of_ne hba]
    cases hb : s.refs b with
    | none => simp [view, Store.alloc, hb, hba]
    | some q => simp [view, Store.alloc, hb, hba, Nat.ne_of_lt (h.lt b q hb)]

theorem view_drop (a : κ) : (s.drop a).view = Function.update s.view a none := by
  ext1 b
  by_cases hba : b = a
  · subst b
    simp [view, Store.drop]
  · simp [view, Store.drop, hba]

theorem view_move (ha : s.refs a = some p) (b : κ) :
    (s.move a b p).view = Function.update (Function.update s.view a none) b (s.view a) := by
  ext1 c
  by_cases hcb : c = b
  · subst c
    simp [view, Store.move, ha]
  · rw [Function.update_of_ne hcb]
    by_cases hca : c = a
    · subst c
      simp [view, Store.move, hcb]
    · simp [view, Store.move, hcb, hca]

end Store
