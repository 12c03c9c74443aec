import Mathlib.Data.Set.Function
import Mathlib.Tactic.Common

/-!
# Texts that can be read back

A writing of values as texts that are put one behind the other. It can be read
back in front of some rests when the text, followed by such a rest, determines
the value and the rest. What is read back piece by piece is read back as a whole.

## Implementation notes

A text that ends at the first occurrence of a symbol can be read in front of
every rest. A quoted text that may contain its own end mark can be read back
only in front of rests that do not show this mark too early.
-/

namespace Code

variable {α β γ : Type*}

/-- What `f` writes for the values of `D` is read back in front of the rests in `P`. -/
def Readable (P : Set (List β)) (D : Set α) (f : α → List β) : Prop :=
  ∀ ⦃a⦄, a ∈ D → ∀ ⦃b⦄, b ∈ D → ∀ ⦃s⦄, s ∈ P → ∀ ⦃t⦄, t ∈ P →
    f a ++ s = f b ++ t → a = b ∧ s = t

namespace Readable

variable {P Q : Set (List β)} {D E : Set α} {f : α → List β} {d : β} {u : List β}

/-- In front of every rest. -/
theorem read (hf : Readable Set.univ D f) {a b : α} (ha : a ∈ D) (hb : b ∈ D) {s t : List β}
    (h : f a ++ s = f b ++ t) : a = b ∧ s = t :=
  hf ha hb (Set.mem_univ s) (Set.mem_univ t) h

/-- Texts of one length. -/
theorem of_length {k : ℕ} (hlength : ∀ a ∈ D, (f a).length = k) (hinj : Set.InjOn f D) :
    Readable Set.univ D f := by
  intro a ha b hb s _ t _ h
  obtain ⟨hvalue, hrest⟩ := List.append_inj h ((hlength a ha).trans (hlength b hb).symm)
  exact ⟨hinj ha hb hvalue, hrest⟩

/-- Texts none of which starts with another one. -/
theorem of_prefixFree (h : ∀ a ∈ D, ∀ b ∈ D, f a <+: f b → a = b) : Readable Set.univ D f := by
  intro a ha b hb s _ t _ heq
  have hab : a = b := by
    rcases List.append_eq_append_iff.mp heq with ⟨mid, hmid, -⟩ | ⟨mid, hmid, -⟩
    · exact h a ha b hb ⟨mid, hmid.symm⟩
    · exact (h b hb a ha ⟨mid, hmid.symm⟩).symm
  subst b
  exact ⟨rfl, List.append_cancel_left heq⟩

/-- Texts without the symbol, which stands behind them. -/
theorem of_notMem (hd : ∀ a ∈ D, d ∉ f a) (hinj : Set.InjOn f D) :
    Readable Set.univ D fun a => f a ++ [d] := by
  intro a ha b hb s _ t _ h
  simp only [List.append_assoc, List.singleton_append] at h
  rcases List.append_eq_append_iff.mp h with ⟨mid, hb', hs⟩ | ⟨mid, ha', ht⟩
  · cases mid with
    | nil =>
        rw [List.append_nil] at hb'
        exact ⟨hinj ha hb hb'.symm, (List.cons.inj hs).2⟩
    | cons e mid =>
        obtain ⟨rfl, -⟩ := List.cons.inj hs
        exact absurd (hb' ▸ List.mem_append_right _ List.mem_cons_self) (hd b hb)
  · cases mid with
    | nil =>
        rw [List.append_nil] at ha'
        exact ⟨hinj ha hb ha', (List.cons.inj ht).2.symm⟩
    | cons e mid =>
        obtain ⟨rfl, -⟩ := List.cons.inj ht
        exact absurd (ha' ▸ List.mem_append_right _ List.mem_cons_self) (hd a ha)

/-- Texts without some symbol of the words behind them. -/
theorem before (hmem : d ∈ u) (hd : ∀ a ∈ D, d ∉ f a) (hinj : Set.InjOn f D) :
    Readable Set.univ D fun a => f a ++ u := by
  obtain ⟨v, w, rfl, hv⟩ := List.eq_append_cons_of_mem hmem
  have hread : Readable Set.univ D fun a => (f a ++ v) ++ [d] := by
    apply of_notMem
    · intro a ha hmem
      rcases List.mem_append.mp hmem with h | h
      · exact hd a ha h
      · exact hv h
    · intro a ha b hb h
      exact hinj ha hb (List.append_cancel_right h)
  intro a ha b hb s _ t _ h
  have hsplit : ∀ a s, f a ++ (v ++ d :: w) ++ s = f a ++ v ++ [d] ++ (w ++ s) := by simp
  rw [hsplit, hsplit] at h
  obtain ⟨hvalue, hrest⟩ := hread.read ha hb h
  exact ⟨hvalue, List.append_cancel_left hrest⟩

/-- A text of at most `k` symbols in quotes that may contain quotes itself. -/
theorem quoted {q c : β} (hne : q ≠ c) {k : ℕ} :
    Readable {s | q ∉ s.take (k - 1)} {a | a.length ≤ k} fun a => a ++ [q, c] := by
  -- what is left of the longer text would show the quote among the next `k - 1` symbols
  have hshorter : ∀ {b mid s t : List β}, mid ≠ [] → (b ++ mid).length ≤ k →
      q ∉ s.take (k - 1) → q :: c :: s ≠ mid ++ q :: c :: t := by
    intro b mid s t hmid hlength hs h
    rcases mid with _ | ⟨_, _ | ⟨_, mid⟩⟩
    · exact hmid rfl
    · exact hne (List.cons.inj (List.cons.inj h).2).1.symm
    · obtain ⟨-, rfl⟩ := List.cons.inj (List.cons.inj h).2
      rw [List.length_append, List.length_cons, List.length_cons] at hlength
      have htake : mid ++ [q] <+: (mid ++ q :: c :: t).take (k - 1) := by
        refine List.prefix_take_iff.mpr ⟨⟨c :: t, by simp⟩, ?_⟩
        rw [List.length_append, List.length_singleton]
        omega
      exact hs (htake.subset (List.mem_append_right _ List.mem_cons_self))
  intro a ha b hb s hs t ht h
  simp only [List.append_assoc, List.cons_append, List.nil_append] at h
  rcases List.append_eq_append_iff.mp h with ⟨mid, rfl, hrest⟩ | ⟨mid, rfl, hrest⟩
  · by_cases hmid : mid = []
    · subst hmid
      simpa using hrest
    · exact absurd hrest (hshorter hmid hb hs)
  · by_cases hmid : mid = []
    · subst hmid
      simpa [eq_comm] using hrest
    · exact absurd hrest (hshorter hmid ha ht)

/-- A list of values, each behind the one before. -/
theorem flatMap_injOn (hf : Readable P D f) (hnil : [] ∈ P) (hne : ∀ a ∈ D, f a ≠ [])
    (hP : ∀ a ∈ D, ∀ s ∈ P, f a ++ s ∈ P) :
    Set.InjOn (List.flatMap f) {l | ∀ a ∈ l, a ∈ D} := by
  have hrest : ∀ l : List α, (∀ a ∈ l, a ∈ D) → l.flatMap f ∈ P := by
    intro l hl
    induction l with
    | nil => exact hnil
    | cons a l ih =>
        rw [List.flatMap_cons]
        exact hP a (hl a List.mem_cons_self) _ (ih fun b hb => hl b (List.mem_cons_of_mem _ hb))
  intro l hl l' hl' h
  induction l generalizing l' with
  | nil =>
      cases l' with
      | nil => rfl
      | cons b l' =>
          rw [List.flatMap_nil, List.flatMap_cons] at h
          exact absurd (List.append_eq_nil_iff.mp h.symm).1 (hne b (hl' b List.mem_cons_self))
  | cons a l ih =>
      have ha := hl a List.mem_cons_self
      have htail : ∀ b ∈ l, b ∈ D := fun b hb => hl b (List.mem_cons_of_mem _ hb)
      cases l' with
      | nil =>
          rw [List.flatMap_nil, List.flatMap_cons] at h
          exact absurd (List.append_eq_nil_iff.mp h).1 (hne a ha)
      | cons b l' =>
          have htail' : ∀ b ∈ l', b ∈ D := fun b hb => hl' b (List.mem_cons_of_mem _ hb)
          rw [List.flatMap_cons, List.flatMap_cons] at h
          obtain ⟨rfl, hflat⟩ :=
            hf ha (hl' b List.mem_cons_self) (hrest l htail) (hrest l' htail') h
          rw [ih htail htail' hflat]

end Readable

end Code
