import Mathlib.Algebra.Ring.Int.Defs
import Mathlib.Data.List.TakeWhile
import Mathlib.Tactic.Common

/-!
# Text of C strings

The number conversions and the splitting of the C library, on strings as the
lists of their bytes without the terminating zero. A `long` has 64 bits.
-/

namespace Text

def isSpace (b : UInt8) : Bool := b = 32 || (9 ≤ b && b ≤ 13)

def isDigit (b : UInt8) : Bool := 48 ≤ b && b ≤ 57

/-- The number that decimal digits stand for. -/
def decimal (digits : List UInt8) : ℕ :=
  digits.foldl (fun n d => 10 * n + (d.toNat - 48)) 0

/-- What `strtol` gives back: the number, whether `endp` is behind `str`, and
whether it sets `errno` to `ERANGE`. -/
structure Number where
  value : ℤ
  found : Bool
  outOfRange : Bool
  deriving DecidableEq, Repr

/-- The optional sign in front of a number. -/
def splitSign : List UInt8 → Bool × List UInt8
  | 45 :: s => (true, s)
  | 43 :: s => (false, s)
  | s => (false, s)

/-- `strtol(s, &endp, 10)`. -/
def strtol (s : List UInt8) : Number :=
  let (negative, s) := splitSign (s.dropWhile isSpace)
  let digits := s.takeWhile isDigit
  let n : ℤ := if negative then -decimal digits else decimal digits
  if digits = [] then ⟨0, false, false⟩
  else if n < -2 ^ 63 then ⟨-2 ^ 63, true, true⟩
  else if 2 ^ 63 ≤ n then ⟨2 ^ 63 - 1, true, true⟩
  else ⟨n, true, false⟩

/-- The number a text stands for, digits with an optional sign and nothing else;
none for any other text. -/
def numeral (s : List UInt8) : Option ℤ :=
  let (negative, digits) := splitSign s
  if digits ≠ [] ∧ digits.all isDigit then
    some (if negative then -decimal digits else decimal digits)
  else none

/-- `atoi(s)`, stored in 32 bits. -/
def atoi (s : List UInt8) : UInt32 := UInt32.ofInt (strtol s).value

/-- `strtok(s, delim)` with one delimiter: the next token and the rest of the
string, which a call with NULL continues; none when no token is left. -/
def strtok (delim : UInt8) (s : List UInt8) : Option (List UInt8 × List UInt8) :=
  let s := s.dropWhile (· = delim)
  if s = [] then none
  else some (s.takeWhile (· ≠ delim), (s.dropWhile (· ≠ delim)).drop 1)

/-- The tokens that successive calls of `strtok` return. -/
def tokens (delim : UInt8) (s : List UInt8) : List (List UInt8) :=
  (s.splitOn delim).filter (· ≠ [])

section Tokens

variable {delim : UInt8} {s t rest : List UInt8}

@[simp] theorem tokens_nil : tokens delim [] = [] := by
  simp [tokens]

@[simp] theorem tokens_cons_self : tokens delim (delim :: s) = tokens delim s := by
  simp [tokens, List.splitOn_cons_eq_if_modifyHead]

theorem tokens_dropWhile : tokens delim (s.dropWhile (· = delim)) = tokens delim s := by
  induction s with
  | nil => rfl
  | cons b s ih =>
      by_cases hb : b = delim
      · subst b
        rw [List.dropWhile_cons_of_pos (by simp), ih, tokens_cons_self]
      · rw [List.dropWhile_cons_of_neg (by simpa using hb)]

/-- A text without delimiters is its own token. -/
theorem tokens_of_notMem (hne : t ≠ []) (ht : delim ∉ t) : tokens delim t = [t] := by
  simp [tokens, List.splitOn_eq_singleton ht, hne]

/-- The text before the first delimiter is the first token. -/
theorem tokens_append (hne : t ≠ []) (ht : delim ∉ t) :
    tokens delim (t ++ delim :: rest) = t :: tokens delim rest := by
  simp [tokens, List.splitOn_append_cons_self_of_not_mem ht, hne]

/-- With no delimiter in front, the first token ends at the next one. -/
theorem tokens_of_head (hne : s ≠ []) (hhead : s.head hne ≠ delim) :
    tokens delim s =
      s.takeWhile (· ≠ delim) :: tokens delim ((s.dropWhile (· ≠ delim)).drop 1) := by
  have ht : delim ∉ s.takeWhile (· ≠ delim) := by
    intro hmem
    simpa using List.mem_takeWhile_imp hmem
  have hne' : s.takeWhile (· ≠ delim) ≠ [] := by
    obtain ⟨b, s', rfl⟩ := List.exists_cons_of_ne_nil hne
    rw [List.takeWhile_cons_of_pos (by simpa using hhead)]
    exact List.cons_ne_nil _ _
  have hsplit : s.takeWhile (· ≠ delim) ++ s.dropWhile (· ≠ delim) = s :=
    List.takeWhile_append_dropWhile
  cases hrest : s.dropWhile (· ≠ delim) with
  | nil =>
      rw [hrest, List.append_nil] at hsplit
      rw [List.drop_nil, tokens_nil, ← tokens_of_notMem hne' ht, hsplit]
  | cons b rest =>
      obtain rfl : b = delim := by
        have hstop := List.head?_dropWhile_not (· ≠ delim) s
        rw [hrest] at hstop
        simpa using hstop
      rw [hrest] at hsplit
      rw [List.drop_one, List.tail_cons, ← tokens_append hne' ht, hsplit]

theorem strtok_eq_none : strtok delim s = none ↔ tokens delim s = [] := by
  rw [← tokens_dropWhile]
  simp only [strtok]
  split
  · rename_i hnil
    simp [hnil]
  · rename_i hne
    have hhead := List.head_dropWhile_not (· = delim) hne
    rw [tokens_of_head hne (by simpa using hhead)]
    simp

/-- A call of `strtok` takes the first token off. -/
theorem tokens_of_strtok (h : strtok delim s = some (t, rest)) :
    tokens delim s = t :: tokens delim rest := by
  rw [← tokens_dropWhile]
  simp only [strtok] at h
  split at h
  · cases h
  · rename_i hne
    have hhead := List.head_dropWhile_not (· = delim) hne
    cases h
    exact tokens_of_head hne (by simpa using hhead)

/-- The bytes of a token come from the text. -/
theorem subset_of_strtok (h : strtok delim s = some (t, rest)) : t ⊆ s ∧ rest ⊆ s := by
  simp only [strtok] at h
  split at h
  · cases h
  · cases h
    have hdrop := List.dropWhile_sublist (· = delim) (l := s)
    exact ⟨((List.takeWhile_sublist _).trans hdrop).subset,
      (((List.drop_sublist 1 _).trans (List.dropWhile_sublist _)).trans hdrop).subset⟩

theorem length_splitOn : (s.splitOn delim).length = s.count delim + 1 := by
  induction s with
  | nil => simp
  | cons b s ih =>
      rw [List.splitOn_cons_eq_if_modifyHead, List.count_cons]
      split
      · rw [List.length_cons, ih]
      · rw [List.length_modifyHead, ih]

/-- Delimiters stand between tokens only: none in front, none at the end and no
two next to each other. -/
structure Separated (delim : UInt8) (s : List UInt8) : Prop where
  head : s.head? ≠ some delim
  last : s.getLast? ≠ some delim
  adjacent : ¬ [delim, delim] <:+: s

/-- The pieces between the delimiters are not empty when the text does not start
with a delimiter and those behind the first one are not. -/
theorem forall_splitOn_ne_nil : (∀ piece ∈ s.splitOn delim, piece ≠ []) ↔
    s ≠ [] ∧ s.head? ≠ some delim ∧ ∀ piece ∈ (s.splitOn delim).tail, piece ≠ [] := by
  cases s with
  | nil => simp
  | cons b s =>
      rw [List.splitOn_cons_eq_if_modifyHead]
      obtain ⟨piece, pieces, hpieces⟩ := List.exists_cons_of_ne_nil (s.splitOn_ne_nil delim)
      split
      · rename_i hb
        have hb : b = delim := eq_of_beq hb
        simp [hb]
      · rename_i hb
        have hb : b ≠ delim := fun h => hb (beq_iff_eq.mpr h)
        simp [hpieces, hb]

theorem forall_tail_splitOn_ne_nil : (∀ piece ∈ (s.splitOn delim).tail, piece ≠ []) ↔
    s.getLast? ≠ some delim ∧ ¬ [delim, delim] <:+: s := by
  induction s with
  | nil => simp
  | cons b s ih =>
      rw [List.splitOn_cons_eq_if_modifyHead, List.infix_cons_iff]
      split
      · rename_i hb
        obtain rfl : b = delim := eq_of_beq hb
        rw [List.tail_cons, forall_splitOn_ne_nil, ih]
        cases s with
        | nil => simp
        | cons c s => simp [eq_comm, and_left_comm]
      · rename_i hb
        have hb : b ≠ delim := fun h => hb (beq_iff_eq.mpr h)
        rw [List.tail_modifyHead, ih]
        cases s with
        | nil => simp [hb, hb.symm]
        | cons c s => simp [hb.symm]

/-- There is one token more than there are delimiters exactly when these stand
between tokens only. -/
theorem length_tokens_iff (hne : s ≠ []) :
    (tokens delim s).length = s.count delim + 1 ↔ Separated delim s := by
  rw [← length_splitOn, tokens, List.length_filter_eq_length_iff]
  simp only [decide_eq_true_eq]
  rw [forall_splitOn_ne_nil, forall_tail_splitOn_ne_nil]
  constructor
  · rintro ⟨-, hhead, hlast, hadjacent⟩
    exact ⟨hhead, hlast, hadjacent⟩
  · rintro ⟨hhead, hlast, hadjacent⟩
    exact ⟨hne, hhead, hlast, hadjacent⟩

end Tokens

section Numerals

variable {s : List UInt8} {n : ℤ}

theorem isSpace_of_isDigit {b : UInt8} (h : isDigit b = true) : isSpace b = false := by
  simp only [isDigit, isSpace, Bool.and_eq_true, Bool.or_eq_false_iff, Bool.and_eq_false_iff,
    decide_eq_true_eq, decide_eq_false_iff_not, UInt8.le_iff_toNat_le, ← UInt8.toNat_inj] at h ⊢
  change 48 ≤ b.toNat ∧ b.toNat ≤ 57 at h
  change ¬ b.toNat = 32 ∧ (¬ 9 ≤ b.toNat ∨ ¬ b.toNat ≤ 13)
  omega

/-- A numeral is a sign and digits. -/
theorem digits_of_numeral (h : numeral s = some n) : ∃ negative digits,
    splitSign s = (negative, digits) ∧ digits ≠ [] ∧ (∀ b ∈ digits, isDigit b = true) ∧
      n = if negative then -(decimal digits : ℤ) else decimal digits := by
  rcases hs : splitSign s with ⟨negative, digits⟩
  simp only [numeral, hs] at h
  split at h
  · rename_i hdigits
    exact ⟨negative, digits, rfl, hdigits.1, List.all_eq_true.mp hdigits.2,
      (Option.some.inj h).symm⟩
  · cases h

/-- No white space stands in front of a numeral. -/
theorem dropWhile_isSpace_of_numeral (h : numeral s = some n) : s.dropWhile isSpace = s := by
  obtain ⟨negative, digits, hs, -, hdigits, -⟩ := digits_of_numeral h
  cases s with
  | nil => rfl
  | cons b s =>
      have hspace : isSpace b = false := by
        unfold splitSign at hs
        split at hs
        · rename_i heq
          obtain ⟨rfl, -⟩ := List.cons.inj heq
          decide
        · rename_i heq
          obtain ⟨rfl, -⟩ := List.cons.inj heq
          decide
        · cases hs
          exact isSpace_of_isDigit (hdigits b List.mem_cons_self)
      exact List.dropWhile_cons_of_neg (by simp [hspace])

/-- `strtol` reads the number of a numeral, up to the limits of a `long`. -/
theorem strtol_of_numeral (h : numeral s = some n) :
    (strtol s).value = max (-2 ^ 63) (min n (2 ^ 63 - 1)) := by
  obtain ⟨negative, digits, hs, hne, hdigits, hn⟩ := digits_of_numeral h
  simp only [strtol, dropWhile_isSpace_of_numeral h, hs, List.takeWhile_eq_self_iff.mpr hdigits,
    ← hn, if_neg hne]
  split
  · change (-2 ^ 63 : ℤ) = _
    omega
  · split
    · change (2 ^ 63 - 1 : ℤ) = _
      omega
    · change n = _
      omega

theorem toNat_ofInt (n : ℤ) : ((UInt32.ofInt n).toNat : ℤ) = n % 2 ^ 32 := by
  have hlt : (n % 2 ^ 32).toNat < 2 ^ 32 := by omega
  rw [UInt32.ofInt, UInt32.toNat_ofNat_of_lt' hlt]
  omega

/-- The conversion is exact for the numbers of 32 bits, and for no other. -/
theorem numeral_eq_atoi_iff : numeral s = some ((atoi s).toNat : ℤ) ↔
    ∃ n, numeral s = some n ∧ 0 ≤ n ∧ n < 2 ^ 32 := by
  constructor
  · intro h
    have hlt := (atoi s).toNat_lt
    exact ⟨_, h, by omega, by omega⟩
  · rintro ⟨n, h, hnonneg, hlt⟩
    rw [h, atoi, strtol_of_numeral h, toNat_ofInt]
    congr 1
    omega

end Numerals

end Text
