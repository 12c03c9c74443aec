import Mathlib

/-!
# Labelled transition systems and guarded runs

A system is given by its initial states and its labelled steps. A guard keeps
only the steps it allows; the guarded system has the runs all of whose steps
meet the guard. Systems whose step is a partial function of the label can be
executed on a list of labels.
-/

/-- Initial states and labelled steps. -/
structure LTS (S L : Type*) where
  init : S → Prop
  step : S → L → S → Prop

namespace LTS

variable {S L S' L' : Type*} (T : LTS S L)

/-- The states that occur in some run. -/
inductive Reachable : S → Prop
  | init {s} (h : T.init s) : Reachable s
  | step {s l s'} (h : Reachable s) (hs : T.step s l s') : Reachable s'

/-- `s'` occurs in some run that starts at `s`. -/
def Reaches : S → S → Prop := Relation.ReflTransGen fun s s' => ∃ l, T.step s l s'

/-- The system restricted to the steps that meet the guard. -/
def guard (C : S → L → Prop) : LTS S L where
  init := T.init
  step s l s' := T.step s l s' ∧ C s l

variable {T}

/-- A predicate that holds initially and is kept by every step out of a
reachable state holds in every reachable state. -/
theorem Reachable.invariant {I : S → Prop} (hinit : ∀ s, T.init s → I s)
    (hstep : ∀ s l s', T.Reachable s → I s → T.step s l s' → I s')
    {s : S} (h : T.Reachable s) : I s := by
  induction h with
  | init h => exact hinit _ h
  | step h hs ih => exact hstep _ _ _ h ih hs

theorem Reachable.of_guard {C : S → L → Prop} {s : S}
    (h : (T.guard C).Reachable s) : T.Reachable s := by
  induction h with
  | init h => exact Reachable.init h
  | step _ hs ih => exact ih.step hs.1

/-- A weaker guard allows more runs. -/
theorem Reachable.guard_mono {C D : S → L → Prop} (hCD : ∀ s l, C s l → D s l)
    {s : S} (h : (T.guard C).Reachable s) : (T.guard D).Reachable s := by
  induction h with
  | init h => exact Reachable.init h
  | step _ hs ih => exact ih.step ⟨hs.1, hCD _ _ hs.2⟩

theorem Reachable.trans {s s' : S} (h : T.Reachable s) (hr : T.Reaches s s') :
    T.Reachable s' := by
  induction hr with
  | refl => exact h
  | tail _ hs ih => exact ih.step hs.choose_spec

/-- A reflexive and transitive relation kept by every step out of a reachable
state relates each reachable state to every later one. -/
theorem Reaches.relates {R : S → S → Prop} (hrefl : ∀ s, R s s)
    (htrans : ∀ s t u, R s t → R t u → R s u)
    (hstep : ∀ s l s', T.Reachable s → T.step s l s' → R s s')
    {s s' : S} (h : T.Reachable s) (hr : T.Reaches s s') : R s s' := by
  induction hr with
  | refl => exact hrefl s
  | tail hr hs ih =>
      obtain ⟨l, hl⟩ := hs
      exact htrans _ _ _ ih (hstep _ _ _ (h.trans hr) hl)

/-- What holds at a later state and not at an earlier one came to hold at some step. -/
theorem Reaches.exists_step {P : S → Prop} {s s' : S} (hr : T.Reaches s s') (hs : ¬ P s)
    (hs' : P s') : ∃ u l u', T.Reaches s u ∧ T.step u l u' ∧ T.Reaches u' s' ∧ ¬ P u ∧ P u' := by
  induction hr with
  | refl => exact absurd hs' hs
  | @tail u s' hr hstep ih =>
      by_cases hu : P u
      · obtain ⟨v, l, v', hsv, hv, hvu, hP⟩ := ih hu
        exact ⟨v, l, v', hsv, hv, hvu.tail hstep, hP⟩
      · obtain ⟨l, hl⟩ := hstep
        exact ⟨u, l, s', hr, hl, Relation.ReflTransGen.refl, hu, hs'⟩

/-- Forward simulation: each step out of a reachable state is matched by one
abstract step or by none. -/
structure Simulation (T : LTS S L) (A : LTS S' L') (R : S → S' → Prop) : Prop where
  init : ∀ s, T.init s → ∃ a, A.init a ∧ R s a
  step : ∀ s l s' a, T.Reachable s → T.step s l s' → R s a →
    R s' a ∨ ∃ m a', A.step a m a' ∧ R s' a'

theorem Simulation.reachable {A : LTS S' L'} {R : S → S' → Prop}
    (sim : Simulation T A R) {s : S} (h : T.Reachable s) :
    ∃ a, A.Reachable a ∧ R s a := by
  induction h with
  | init h =>
      obtain ⟨a, ha, hr⟩ := sim.init _ h
      exact ⟨a, Reachable.init ha, hr⟩
  | step h hs ih =>
      obtain ⟨a, ha, hr⟩ := ih
      rcases sim.step _ _ _ a h hs hr with hr' | ⟨m, a', hm, hr'⟩
      · exact ⟨a, ha, hr'⟩
      · exact ⟨a', ha.step hm, hr'⟩

/-- From related states each later concrete state is related to a later abstract one. -/
theorem Simulation.reaches {A : LTS S' L'} {R : S → S' → Prop} (sim : Simulation T A R)
    {s t : S} {a : S'} (h : T.Reachable s) (hr : T.Reaches s t) (hrel : R s a) :
    ∃ a', A.Reaches a a' ∧ R t a' := by
  induction hr with
  | refl => exact ⟨a, Relation.ReflTransGen.refl, hrel⟩
  | tail hr hs ih =>
      obtain ⟨l, hl⟩ := hs
      obtain ⟨a', ha, hrel'⟩ := ih
      rcases sim.step _ _ _ a' (h.trans hr) hl hrel' with hrel'' | ⟨m, a'', hm, hrel''⟩
      · exact ⟨a', ha, hrel''⟩
      · exact ⟨a'', ha.tail ⟨m, hm⟩, hrel''⟩

section Record

variable {R : Type*} (T) (r₀ : R) (update : S → L → R → R)

/-- The system with a record of its run, which each step updates from the state
and the label before it. -/
def record : LTS (S × R) L where
  init p := T.init p.1 ∧ p.2 = r₀
  step p l p' := T.step p.1 l p'.1 ∧ p'.2 = update p.1 l p.2

variable {T r₀ update}

theorem Reachable.of_record {p : S × R} (h : (T.record r₀ update).Reachable p) :
    T.Reachable p.1 := by
  induction h with
  | init h => exact Reachable.init h.1
  | step _ hs ih => exact ih.step hs.1

/-- Recording prevents no run. -/
theorem Reachable.exists_record {s : S} (h : T.Reachable s) :
    ∃ r, (T.record r₀ update).Reachable (s, r) := by
  induction h with
  | init h => exact ⟨r₀, Reachable.init ⟨h, rfl⟩⟩
  | step _ hs ih =>
      obtain ⟨r, hr⟩ := ih
      exact ⟨_, hr.step ⟨hs, rfl⟩⟩

end Record

section Executable

variable (next : S → L → Option S)

/-- Take the labelled steps in order; no result when one of them is disabled. -/
def execute (s : S) : List L → Option S
  | [] => some s
  | l :: ls => (next s l).bind fun s' => execute s' ls

/-- Executing a list of allowed labels stays within the reachable states. -/
theorem Reachable.execute {next : S → L → Option S}
    (hnext : ∀ s l s', next s l = some s' → T.step s l s') {s s' : S} {ls : List L}
    (h : T.Reachable s) (he : LTS.execute next s ls = some s') : T.Reachable s' := by
  induction ls generalizing s with
  | nil =>
      simp only [LTS.execute, Option.some.injEq] at he
      exact he ▸ h
  | cons l ls ih =>
      simp only [LTS.execute, Option.bind_eq_some_iff] at he
      obtain ⟨t, ht, he⟩ := he
      exact ih (h.step (hnext _ _ _ ht)) he

/-- Executing a list of labels that the system allows stays within the reachable states. -/
theorem Reachable.execute_of_forall {next : S → L → Option S} {P : L → Prop}
    (hnext : ∀ s l s', P l → next s l = some s' → T.step s l s') {s s' : S} {ls : List L}
    (h : T.Reachable s) (hls : ∀ l ∈ ls, P l) (he : LTS.execute next s ls = some s') :
    T.Reachable s' := by
  induction ls generalizing s with
  | nil => exact Option.some.inj he ▸ h
  | cons l ls ih =>
      obtain ⟨t, ht, he⟩ := Option.bind_eq_some_iff.mp he
      exact ih (h.step (hnext s l t (hls l (List.mem_cons_self ..)) ht))
        (fun l' hl' => hls l' (List.mem_cons_of_mem _ hl')) he

theorem Reaches.execute {next : S → L → Option S}
    (hnext : ∀ s l s', next s l = some s' → T.step s l s') {s s' : S} {ls : List L}
    (he : LTS.execute next s ls = some s') : T.Reaches s s' := by
  induction ls generalizing s with
  | nil =>
      simp only [LTS.execute, Option.some.injEq] at he
      exact he ▸ Relation.ReflTransGen.refl
  | cons l ls ih =>
      simp only [LTS.execute, Option.bind_eq_some_iff] at he
      obtain ⟨t, ht, he⟩ := he
      exact Relation.ReflTransGen.head ⟨l, hnext _ _ _ ht⟩ (ih he)

/-- A map of states that commutes with every step commutes with every execution. -/
theorem execute_map {next : S → L → Option S} {f : S → S} {I : S → Prop} {P : L → Prop}
    (hcomm : ∀ s l, I s → P l → next (f s) l = (next s l).map f)
    (hI : ∀ s l s', I s → P l → next s l = some s' → I s') {s : S} {ls : List L} (hs : I s)
    (hls : ∀ l ∈ ls, P l) : LTS.execute next (f s) ls = (LTS.execute next s ls).map f := by
  induction ls generalizing s with
  | nil => rfl
  | cons l ls ih =>
      have hl := hls l (List.mem_cons_self ..)
      simp only [LTS.execute, hcomm s l hs hl, Option.bind_map, Option.map_bind]
      refine Option.bind_congr fun s' hs' => ?_
      exact ih (hI s l s' hs hl hs') fun l' hl' => hls l' (List.mem_cons_of_mem _ hl')

/-- What every step adds to a quantity adds up over an execution. -/
theorem execute_sum {next : S → L → Option S} {M : Type*} [AddCommMonoid M] {m : S → M}
    {gain : L → M} (hstep : ∀ s l s', next s l = some s' → m s' = m s + gain l) {s s' : S}
    {ls : List L} (he : LTS.execute next s ls = some s') :
    m s' = m s + (ls.map gain).sum := by
  induction ls generalizing s with
  | nil =>
      obtain rfl := Option.some.inj he
      simp
  | cons l ls ih =>
      obtain ⟨t, ht, he⟩ := Option.bind_eq_some_iff.mp he
      rw [ih he, hstep s l t ht, List.map_cons, List.sum_cons, add_assoc]

/-- A measure that sinks in every step, but for what the labels add, bounds the
length of an execution. -/
theorem execute_length_le {next : S → L → Option S} {m : S → ℕ} {gain : L → ℕ}
    (hstep : ∀ s l s', next s l = some s' → m s' < m s + gain l) {s s' : S} {ls : List L}
    (he : LTS.execute next s ls = some s') :
    ls.length + m s' ≤ m s + (ls.map gain).sum := by
  induction ls generalizing s with
  | nil =>
      obtain rfl := Option.some.inj he
      exact Nat.le_of_eq (Nat.zero_add (m s))
  | cons l ls ih =>
      obtain ⟨t, ht, he⟩ := Option.bind_eq_some_iff.mp he
      have hlt := hstep s l t ht
      have hle := ih he
      rw [List.length_cons, List.map_cons, List.sum_cons]
      omega

/-- The steps that pass a test on the state and the label. -/
def nextIf (C : S → L → Bool) (s : S) (l : L) : Option S :=
  if C s l then next s l else none

theorem nextIf_eq_some {next : S → L → Option S} {C : S → L → Bool} {s s' : S} {l : L} :
    nextIf next C s l = some s' ↔ C s l = true ∧ next s l = some s' := by
  unfold nextIf
  split
  · simp [*]
  · simp [*]

/-- The value of a projection at the end of an execution is that of a
reachable state. -/
theorem Reachable.exists_execute {next : S → L → Option S} {α : Type*} {f : S → α} {a : α}
    (hnext : ∀ s l s', next s l = some s' → T.step s l s') {s : S} {ls : List L}
    (h : T.Reachable s) (he : (LTS.execute next s ls).map f = some a) :
    ∃ s', T.Reachable s' ∧ f s' = a := by
  obtain ⟨s', hs', hf⟩ := Option.map_eq_some_iff.mp he
  exact ⟨s', h.execute hnext hs', hf⟩

/-- An execution all of whose steps pass a test stays within a guarded system. -/
theorem Reachable.exists_execute_guard {next : S → L → Option S} {C : S → L → Prop}
    {test : S → L → Bool} {α : Type*} {f : S → α} {a : α}
    (hnext : ∀ s l s', next s l = some s' → T.step s l s')
    (htest : ∀ s l, test s l = true → C s l) {s : S} {ls : List L} (h : T.init s)
    (he : (LTS.execute (nextIf next test) s ls).map f = some a) :
    ∃ s', (T.guard C).Reachable s' ∧ f s' = a := by
  refine Reachable.exists_execute ?_ (Reachable.init h) he
  intro t l t' ht
  obtain ⟨hpass, hs⟩ := nextIf_eq_some.mp ht
  exact ⟨hnext t l t' hs, htest t l hpass⟩

/-- A step together with the update of the record. -/
def recordNext {R : Type*} (update : S → L → R → R) (p : S × R) (l : L) : Option (S × R) :=
  (next p.1 l).map fun s => (s, update p.1 l p.2)

theorem recordNext_step {R : Type*} {next : S → L → Option S} {r₀ : R} {update : S → L → R → R}
    (hnext : ∀ s l s', next s l = some s' → T.step s l s') {p p' : S × R} {l : L}
    (h : recordNext next update p l = some p') : (T.record r₀ update).step p l p' := by
  obtain ⟨s, hs, rfl⟩ := Option.map_eq_some_iff.mp h
  exact ⟨hnext _ _ _ hs, rfl⟩

/-- An execution in two parts leads to a reachable state and from there to a
later one. -/
theorem Reachable.exists_execute_reaches {next : S → L → Option S} {α β : Type*}
    {f : S → α} {g : S → β} {a : α} {b : β}
    (hnext : ∀ s l s', next s l = some s' → T.step s l s') {s : S} {ls ls' : List L}
    (h : T.Reachable s)
    (he : ((LTS.execute next s ls).bind fun s' =>
      (LTS.execute next s' ls').map fun s'' => (f s', g s'')) = some (a, b)) :
    ∃ s' s'', T.Reachable s' ∧ T.Reaches s' s'' ∧ f s' = a ∧ g s'' = b := by
  obtain ⟨s', hs', he⟩ := Option.bind_eq_some_iff.mp he
  obtain ⟨s'', hs'', hfg⟩ := Option.map_eq_some_iff.mp he
  obtain ⟨hf, hg⟩ := Prod.mk.inj hfg
  exact ⟨s', s'', h.execute hnext hs', Reaches.execute hnext hs'', hf, hg⟩

end Executable

end LTS
