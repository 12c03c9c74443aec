import HomeBanking.Lib.Text
import HomeBanking.Lib.Code
import Mathlib.Data.List.DropRight
import Mathlib.Data.Nat.Digits.Lemmas

/-!
# Formatted output of the C library

The conversions of `printf` for numbers and strings, with their field width,
and what can be read back of them: a number is the numeral that was printed, and
a field ends where the format goes on with a byte that it cannot contain.
-/

namespace Printf

open Text Code

/-- The bytes of a text in the source, which is stored as UTF-8. -/
def text (s : String) : List UInt8 := s.toUTF8.data.toList

def digit (d : ℕ) : UInt8 := UInt8.ofNat (48 + d)

/-- The decimal digits of a natural number, at least one. -/
def digits (n : ℕ) : List UInt8 :=
  if n = 0 then [digit 0] else (Nat.digits 10 n).reverse.map digit

def sign (x : ℤ) : List UInt8 := if x < 0 then [45] else []

/-- `%d`, `%u` and `%lu`. -/
def number (x : ℤ) : List UInt8 := sign x ++ digits x.natAbs

/-- `%0*d`: zeros between the sign and the digits. -/
def zeroPadded (width : ℕ) (x : ℤ) : List UInt8 :=
  sign x ++ (List.replicate (width - (number x).length) (digit 0) ++ digits x.natAbs)

/-- `%*s`, and around a number `%*d` and `%*u`. -/
def padLeft (width : ℕ) (s : List UInt8) : List UInt8 :=
  List.replicate (width - s.length) 32 ++ s

/-- `%-*s`. -/
def padRight (width : ℕ) (s : List UInt8) : List UInt8 :=
  s ++ List.replicate (width - s.length) 32

/-- What `snprintf` leaves in a buffer of the given size, and `printf("%s")` shows
of it: the text is cut to fit, and ends at a zero byte. -/
def snprintf (size : ℕ) (s : List UInt8) : List UInt8 := (s.take (size - 1)).takeWhile (· ≠ 0)

theorem toNat_digit {d : ℕ} (h : d < 10) : (digit d).toNat = 48 + d := by
  rw [digit, UInt8.toNat_ofNat']
  omega

theorem isDigit_digit {d : ℕ} (h : d < 10) : isDigit (digit d) = true := by
  have hd := toNat_digit h
  simp only [isDigit, Bool.and_eq_true, decide_eq_true_eq, UInt8.le_iff_toNat_le, hd]
  change 48 ≤ 48 + d ∧ 48 + d ≤ 57
  omega

theorem digits_ne_nil (n : ℕ) : digits n ≠ [] := by
  unfold digits
  split
  · exact List.cons_ne_nil _ _
  · rename_i hn
    rw [ne_eq, List.map_eq_nil_iff, List.reverse_eq_nil_iff]
    exact Nat.digits_ne_nil_iff_ne_zero.mpr hn

theorem isDigit_of_mem_digits {n : ℕ} {b : UInt8} (h : b ∈ digits n) : isDigit b = true := by
  unfold digits at h
  split at h
  · obtain rfl := List.mem_singleton.mp h
    exact isDigit_digit (by omega)
  · obtain ⟨d, hd, rfl⟩ := List.mem_map.mp h
    exact isDigit_digit (Nat.digits_lt_base (by omega) (List.mem_reverse.mp hd))

theorem decimal_map_digit {l : List ℕ} (h : ∀ d ∈ l, d < 10) :
    decimal (l.reverse.map digit) = Nat.ofDigits 10 l := by
  rw [decimal, List.foldl_map, List.foldl_reverse, Nat.ofDigits_eq_foldr]
  induction l with
  | nil => rfl
  | cons d l ih =>
      have hd := toNat_digit (h d List.mem_cons_self)
      rw [List.foldr_cons, List.foldr_cons, ih fun e he => h e (List.mem_cons_of_mem _ he), hd]
      simp only [Nat.cast_id]
      omega

theorem decimal_digits (n : ℕ) : decimal (digits n) = n := by
  unfold digits
  split
  · rename_i hn
    rw [hn]
    rfl
  · rw [decimal_map_digit fun d hd => Nat.digits_lt_base (by omega) hd, Nat.ofDigits_digits]

theorem decimal_zeros_append (k : ℕ) (s : List UInt8) :
    decimal (List.replicate k (digit 0) ++ s) = decimal s := by
  induction k with
  | zero => rfl
  | succ k ih => exact ih

theorem length_digits_le {n k : ℕ} (hk : 0 < k) (h : n < 10 ^ k) : (digits n).length ≤ k := by
  unfold digits
  split
  · exact hk
  · rw [List.length_map, List.length_reverse]
    exact (Nat.digits_length_le_iff (by omega) n).mpr h

theorem zeroPadded_digits (width : ℕ) (x : ℤ) : ∃ ds, zeroPadded width x = sign x ++ ds ∧
    ds ≠ [] ∧ (∀ b ∈ ds, isDigit b = true) ∧ decimal ds = x.natAbs := by
  refine ⟨_, rfl, ?_, ?_, ?_⟩
  · exact List.append_ne_nil_of_right_ne_nil _ (digits_ne_nil _)
  · intro b hb
    rcases List.mem_append.mp hb with h | h
    · rw [List.eq_of_mem_replicate h]
      exact isDigit_digit (by omega)
    · exact isDigit_of_mem_digits h
  · rw [decimal_zeros_append, decimal_digits]

theorem number_eq_zeroPadded (x : ℤ) : number x = zeroPadded 0 x := by
  rw [zeroPadded, Nat.zero_sub]
  rfl

/-- What is printed for a number stands for this number. -/
theorem numeral_zeroPadded (width : ℕ) (x : ℤ) : numeral (zeroPadded width x) = some x := by
  obtain ⟨ds, hds, hne, hdigit, hvalue⟩ := zeroPadded_digits width x
  have hall : ds ≠ [] ∧ ds.all isDigit = true := ⟨hne, List.all_eq_true.mpr hdigit⟩
  rw [hds]
  by_cases hx : x < 0
  · have hsign : splitSign (sign x ++ ds) = (true, ds) := by
      rw [sign, if_pos hx]
      rfl
    simp only [numeral, hsign, if_pos hall, hvalue, if_true, Option.some.injEq]
    omega
  · have hsign : splitSign (sign x ++ ds) = (false, ds) := by
      rw [sign, if_neg hx, List.nil_append]
      unfold splitSign
      split
      · exact absurd (hdigit 45 List.mem_cons_self) (by decide)
      · exact absurd (hdigit 43 List.mem_cons_self) (by decide)
      · rfl
    simp only [numeral, hsign, if_pos hall, hvalue, Option.some.injEq, Bool.false_eq_true,
      if_false]
    omega

theorem zeroPadded_injective (width : ℕ) : Function.Injective (zeroPadded width) := by
  intro x y h
  have hx := numeral_zeroPadded width x
  rw [h, numeral_zeroPadded] at hx
  exact (Option.some.inj hx).symm

theorem number_injective : Function.Injective number := by
  intro x y h
  rw [number_eq_zeroPadded, number_eq_zeroPadded] at h
  exact zeroPadded_injective 0 h

/-- The bytes of a number. -/
theorem mem_zeroPadded {width : ℕ} {x : ℤ} {b : UInt8} (h : b ∈ zeroPadded width x) :
    isDigit b = true ∨ b = 45 := by
  obtain ⟨ds, hds, -, hdigit, -⟩ := zeroPadded_digits width x
  rw [hds] at h
  rcases List.mem_append.mp h with h | h
  · unfold sign at h
    split at h
    · exact .inr (List.mem_singleton.mp h)
    · cases h
  · exact .inl (hdigit b h)

theorem mem_number {x : ℤ} {b : UInt8} (h : b ∈ number x) : isDigit b = true ∨ b = 45 := by
  rw [number_eq_zeroPadded] at h
  exact mem_zeroPadded h

/-- A number starts with a digit or its sign. -/
theorem head?_zeroPadded_append {width : ℕ} {x : ℤ} {s : List UInt8} {b : UInt8}
    (h : (zeroPadded width x ++ s).head? = some b) : isDigit b = true ∨ b = 45 := by
  obtain ⟨ds, hds, hne, -, -⟩ := zeroPadded_digits width x
  have hnumber : zeroPadded width x ≠ [] := hds ▸ List.append_ne_nil_of_right_ne_nil _ hne
  rw [List.head?_append_of_ne_nil _ hnumber] at h
  exact mem_zeroPadded (List.mem_of_mem_head? h)

theorem length_number_le {x : ℤ} {k : ℕ} (hk : 0 < k) (h : x.natAbs < 10 ^ k) :
    (number x).length ≤ k + 1 := by
  have hdigits := length_digits_le hk h
  have hsign : (sign x).length ≤ 1 := by
    unfold sign
    split
    · exact Nat.le_refl 1
    · exact Nat.zero_le 1
  rw [number, List.length_append]
  omega

theorem length_zeroPadded (width : ℕ) (x : ℤ) :
    (zeroPadded width x).length = max width (number x).length := by
  simp only [zeroPadded, number, List.length_append, List.length_replicate]
  omega

theorem length_padLeft (width : ℕ) (s : List UInt8) :
    (padLeft width s).length = max width s.length := by
  rw [padLeft, List.length_append, List.length_replicate]
  omega

theorem length_padRight (width : ℕ) (s : List UInt8) :
    (padRight width s).length = max width s.length := by
  rw [padRight, List.length_append, List.length_replicate]
  omega

theorem mem_padLeft {width : ℕ} {s : List UInt8} {b : UInt8} (h : b ∈ padLeft width s) :
    b = 32 ∨ b ∈ s :=
  (List.mem_append.mp h).imp_left List.eq_of_mem_replicate

theorem mem_padRight {width : ℕ} {s : List UInt8} {b : UInt8} (h : b ∈ padRight width s) :
    b ∈ s ∨ b = 32 :=
  (List.mem_append.mp h).imp_right List.eq_of_mem_replicate

/-- Behind the spaces stands what was printed, when it does not start with one. -/
theorem padLeft_injOn (width : ℕ) : Set.InjOn (padLeft width) {s | s.head? ≠ some 32} := by
  have hback : ∀ s : List UInt8, s.head? ≠ some 32 →
      (padLeft width s).dropWhile (· = 32) = s := by
    intro s hs
    rw [padLeft, List.dropWhile_append_of_pos fun b hb => by
      simpa using List.eq_of_mem_replicate hb]
    cases s with
    | nil => rfl
    | cons b s => exact List.dropWhile_cons_of_neg (by simpa using hs)
  intro s hs t ht h
  rw [← hback s hs, h, hback t ht]

theorem padRight_injOn (width : ℕ) : Set.InjOn (padRight width) {s | s.getLast? ≠ some 32} := by
  have hreverse : ∀ s : List UInt8, (padRight width s).reverse = padLeft width s.reverse := by
    intro s
    simp [padRight, padLeft]
  intro s hs t ht h
  have hreversed : padLeft width s.reverse = padLeft width t.reverse := by
    rw [← hreverse, h, hreverse]
  exact List.reverse_injective
    (padLeft_injOn width (by simpa using hs) (by simpa using ht) hreversed)

theorem snprintf_eq {size : ℕ} {s : List UInt8} (hlength : s.length < size) (hzero : 0 ∉ s) :
    snprintf size s = s := by
  rw [snprintf, List.take_of_length_le (by omega), List.takeWhile_eq_self_iff]
  intro b hb
  simpa using fun h : b = 0 => hzero (h ▸ hb)

section Fields

variable {width : ℕ} {u s t : List UInt8} {x y : ℤ}

/-- A number is read back in front of words with a byte that no number has. -/
theorem read_zeroPadded (hu : ∃ d ∈ u, isDigit d = false ∧ d ≠ 45)
    (h : zeroPadded width x ++ (u ++ s) = zeroPadded width y ++ (u ++ t)) : x = y ∧ s = t := by
  obtain ⟨d, hmem, hdigit, hminus⟩ := hu
  have hread : Readable Set.univ Set.univ fun x => zeroPadded width x ++ u := by
    refine Readable.before hmem (fun x _ hx => ?_) (zeroPadded_injective width).injOn
    rcases mem_zeroPadded hx with hx | hx
    · rw [hdigit] at hx
      cases hx
    · exact hminus hx
  rw [← List.append_assoc, ← List.append_assoc] at h
  exact hread.read (Set.mem_univ x) (Set.mem_univ y) h

theorem read_number (hu : ∃ d ∈ u, isDigit d = false ∧ d ≠ 45)
    (h : number x ++ (u ++ s) = number y ++ (u ++ t)) : x = y ∧ s = t := by
  rw [number_eq_zeroPadded, number_eq_zeroPadded] at h
  exact read_zeroPadded hu h

theorem head?_number_ne (x : ℤ) : (number x).head? ≠ some 32 := by
  intro h
  rcases mem_number (List.mem_of_mem_head? h) with h | h
  · exact absurd h (by decide)
  · exact absurd h (by decide)

theorem read_padLeft_number (hu : ∃ d ∈ u, isDigit d = false ∧ d ≠ 45 ∧ d ≠ 32)
    (h : padLeft width (number x) ++ (u ++ s) = padLeft width (number y) ++ (u ++ t)) :
    x = y ∧ s = t := by
  obtain ⟨d, hmem, hdigit, hminus, hspace⟩ := hu
  have hread : Readable Set.univ Set.univ fun x => padLeft width (number x) ++ u := by
    refine Readable.before hmem (fun x _ hx => ?_) fun x _ y _ h => ?_
    · rcases mem_padLeft hx with hx | hx
      · exact hspace hx
      · rcases mem_number hx with hx | hx
        · rw [hdigit] at hx
          cases hx
        · exact hminus hx
    · exact number_injective (padLeft_injOn width (head?_number_ne x) (head?_number_ne y) h)
  rw [← List.append_assoc, ← List.append_assoc] at h
  exact hread.read (Set.mem_univ x) (Set.mem_univ y) h

section Words

variable {α : Type*} {D : Set α} {f : α → List UInt8}

/-- Words that fit in their field, and do not start with a blank. -/
theorem readable_padLeft (hlength : ∀ a ∈ D, (f a).length ≤ width)
    (hhead : ∀ a ∈ D, (f a).head? ≠ some 32) (hinj : Set.InjOn f D) :
    Readable Set.univ D fun a => padLeft width (f a) := by
  apply Readable.of_length (k := width)
  · intro a ha
    rw [length_padLeft, Nat.max_eq_left (hlength a ha)]
  · intro a ha b hb h
    exact hinj ha hb (padLeft_injOn width (hhead a ha) (hhead b hb) h)

/-- Words that fit in their field, and do not end with a blank. -/
theorem readable_padRight (hlength : ∀ a ∈ D, (f a).length ≤ width)
    (hlast : ∀ a ∈ D, (f a).getLast? ≠ some 32) (hinj : Set.InjOn f D) :
    Readable Set.univ D fun a => padRight width (f a) := by
  apply Readable.of_length (k := width)
  · intro a ha
    rw [length_padRight, Nat.max_eq_left (hlength a ha)]
  · intro a ha b hb h
    exact hinj ha hb (padRight_injOn width (hlast a ha) (hlast b hb) h)

end Words

end Fields

/-- At least `least` and at most `most` bytes, and `b` is not among them. -/
structure Fits (b : UInt8) (least most : ℕ) (s : List UInt8) : Prop where
  notMem : b ∉ s
  least_le : least ≤ s.length
  le_most : s.length ≤ most

section Sizes

variable {b : UInt8} {width k l k' l' : ℕ} {s t : List UInt8} {x : ℤ}

theorem Fits.append (hs : Fits b k l s) (ht : Fits b k' l' t) :
    Fits b (k + k') (l + l') (s ++ t) := by
  refine ⟨fun h => ?_, ?_, ?_⟩
  · rcases List.mem_append.mp h with h | h
    · exact hs.notMem h
    · exact ht.notMem h
  · rw [List.length_append]
    exact Nat.add_le_add hs.least_le ht.least_le
  · rw [List.length_append]
    exact Nat.add_le_add hs.le_most ht.le_most

theorem Fits.weaken (hs : Fits b k l s) (hk : k' ≤ k) (hl : l ≤ l') : Fits b k' l' s :=
  ⟨hs.notMem, hk.trans hs.least_le, hs.le_most.trans hl⟩

theorem fits_text {str : String} (h : b ∉ text str ∧ k ≤ (text str).length ∧
    (text str).length ≤ l) : Fits b k l (text str) :=
  ⟨h.1, h.2.1, h.2.2⟩

/-- The numbers of up to 64 bits. -/
theorem fits_zeroPadded (hb : isDigit b = false ∧ b ≠ 45) (hx : x.natAbs < 10 ^ 20)
    (hwidth : width ≤ 21) : Fits b width 21 (zeroPadded width x) := by
  have hnumber : (number x).length ≤ 21 := length_number_le (by omega) hx
  refine ⟨fun h => ?_, ?_, ?_⟩
  · rcases mem_zeroPadded h with h | h
    · rw [hb.1] at h
      cases h
    · exact hb.2 h
  · rw [length_zeroPadded]
    exact Nat.le_max_left _ _
  · rw [length_zeroPadded]
    exact Nat.max_le.mpr ⟨hwidth, hnumber⟩

theorem fits_number (hb : isDigit b = false ∧ b ≠ 45) (hx : x.natAbs < 10 ^ 20) :
    Fits b 0 21 (number x) := by
  rw [number_eq_zeroPadded]
  exact fits_zeroPadded hb hx (Nat.zero_le _)

theorem Fits.padLeft (hs : Fits b k l s) (hb : b ≠ 32) (hwidth : width ≤ l) :
    Fits b width l (padLeft width s) := by
  refine ⟨fun h => ?_, ?_, ?_⟩
  · rcases mem_padLeft h with h | h
    · exact hb h
    · exact hs.notMem h
  · rw [length_padLeft]
    exact Nat.le_max_left _ _
  · rw [length_padLeft]
    exact Nat.max_le.mpr ⟨hwidth, hs.le_most⟩

theorem Fits.padRight (hs : Fits b k l s) (hb : b ≠ 32) (hwidth : width ≤ l) :
    Fits b width l (padRight width s) := by
  refine ⟨fun h => ?_, ?_, ?_⟩
  · rcases mem_padRight h with h | h
    · exact hs.notMem h
    · exact hb h
  · rw [length_padRight]
    exact Nat.le_max_left _ _
  · rw [length_padRight]
    exact Nat.max_le.mpr ⟨hwidth, hs.le_most⟩

end Sizes

end Printf
