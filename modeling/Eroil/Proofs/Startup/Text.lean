import Mathlib.Data.List.TakeWhile
import Eroil.Model.Address

/-! # The texts of the files that a node reads when it starts

A file is a list of lines, with or without a newline behind the last one. `getlines` finds the
lines, `stoi` the numbers that were written into them.
-/

namespace Eroil.Addr

/-! ## Lines -/

/-- The text of a file. -/
def fileText (lines : List (List Char)) (ended : Bool) : List Char :=
  ['\n'].intercalate lines ++ if ended then ['\n'] else []

/-- Reading a file line by line gives its lines, up to empty ones. -/
theorem getlines_fileText {lines : List (List Char)} (whole : ∀ line ∈ lines, '\n' ∉ line)
    (ended : Bool) :
    (getlines '\n' (fileText lines ended)).filter (· ≠ []) = lines.filter (· ≠ []) := by
  have trimmed (pieces : List (List Char)) :
      (if pieces.getLast? = some [] then pieces.dropLast else pieces).filter (· ≠ []) =
        pieces.filter (· ≠ []) := by
    split
    · next last =>
      obtain ⟨front, rfl⟩ := List.getLast?_eq_some_iff.mp last
      simp
    · rfl
  rw [getlines, trimmed]
  by_cases empty : lines = []
  · subst empty
    cases ended <;> rfl
  · cases ended with
    | false =>
      rw [fileText, if_neg Bool.false_ne_true, List.append_nil,
        List.splitOn_intercalate _ whole empty]
    | true =>
      rw [fileText, if_pos rfl, List.splitOn_append_cons_self,
        List.splitOn_intercalate _ whole empty, List.filter_append]
      exact List.append_nil _

/-! ## Numbers -/

private theorem isDigit_range {c : Char} (digit : c.isDigit = true) :
    48 ≤ c.toNat ∧ c.toNat ≤ 57 := by
  simp only [Char.isDigit, Bool.and_eq_true, decide_eq_true_eq] at digit
  exact ⟨UInt32.le_iff_toNat_le.mp digit.1, UInt32.le_iff_toNat_le.mp digit.2⟩

/-- The value of some digits, as `stoi` adds it up. -/
theorem foldl_digits (digits : List Char) (start : ℕ) :
    digits.foldl (fun (value : ℤ) c => 10 * value + (c.toNat - '0'.toNat : ℕ)) start =
      (Nat.ofDigitChars 10 digits start : ℕ) := by
  induction digits generalizing start with
  | nil => rfl
  | cons c rest ih =>
    rw [List.foldl_cons, Nat.ofDigitChars_cons, ← ih]
    push_cast
    rfl

/-- `stoi` reads digits as the number that they stand for. -/
private theorem stoi_digits {digits : List Char} (all : ∀ c ∈ digits, c.isDigit = true)
    (some_ : digits ≠ [])
    (small : Nat.ofDigitChars 10 digits 0 < 2 ^ 31) :
    stoi digits = some (Nat.ofDigitChars 10 digits 0 : ℤ) := by
  obtain ⟨first, rest, rfl⟩ := List.exists_cons_of_ne_nil some_
  have range := isDigit_range (all first List.mem_cons_self)
  have noSpace : isSpace first = false := by
    have notBlank : first ≠ ' ' := by
      rintro rfl
      exact absurd range.1 (by decide)
    simp only [isSpace, notBlank, false_or, decide_eq_false_iff_not]
    omega
  have noSign : takeSign (first :: rest) = (false, first :: rest) := by
    unfold takeSign
    split
    · next same =>
      obtain ⟨rfl, _⟩ := List.cons.inj same
      exact absurd range.1 (by decide)
    · next same =>
      obtain ⟨rfl, _⟩ := List.cons.inj same
      exact absurd range.1 (by decide)
    · rfl
  have whole : (first :: rest).takeWhile Char.isDigit = first :: rest :=
    List.takeWhile_eq_self_iff.mpr all
  have bounds : -2 ^ 31 ≤ (Nat.ofDigitChars 10 (first :: rest) 0 : ℤ) ∧
      (Nat.ofDigitChars 10 (first :: rest) 0 : ℤ) < 2 ^ 31 := by omega
  rw [stoi, List.dropWhile_cons_of_neg (by simp [noSpace]), noSign]
  simp only [whole, some_, if_false, Bool.false_eq_true]
  rw [show (0 : ℤ) = ((0 : ℕ) : ℤ) from rfl, foldl_digits, if_pos bounds]

theorem stoi_toDigits (zeros : ℕ) {n : ℕ} (small : n < 2 ^ 31) :
    stoi (List.replicate zeros '0' ++ Nat.toDigits 10 n) = some (n : ℤ) := by
  have value : Nat.ofDigitChars 10 (List.replicate zeros '0' ++ Nat.toDigits 10 n) 0 = n := by
    rw [Nat.ofDigitChars_append, Nat.ofDigitChars_replicate_zero, Nat.mul_zero,
      Nat.ofDigitChars_ten_toDigits]
  rw [stoi_digits ?_ ?_ (value.symm ▸ small), value]
  · intro c member
    rcases List.mem_append.mp member with zero | digit
    · rw [List.eq_of_mem_replicate zero]
      rfl
    · exact Nat.isDigit_of_mem_toDigits (by decide) le_rfl digit
  · exact List.append_ne_nil_of_right_ne_nil _ Nat.toDigits_ne_nil

theorem stoi_port (port : UInt16) : stoi (Nat.toDigits 10 port.toNat) = some (port.toNat : ℤ) :=
  stoi_toDigits 0 (Nat.lt_trans port.toNat_lt (by decide))

/-- A signed number. -/
def intText (value : ℤ) : List Char :=
  if value < 0 then '-' :: Nat.toDigits 10 value.natAbs else Nat.toDigits 10 value.natAbs

theorem stoi_intText {value : ℤ} (lower : -2 ^ 31 ≤ value) (upper : value < 2 ^ 31) :
    stoi (intText value) = some value := by
  by_cases negative : value < 0
  · have digits : (Nat.toDigits 10 value.natAbs).takeWhile Char.isDigit =
        Nat.toDigits 10 value.natAbs :=
      List.takeWhile_eq_self_iff.mpr fun c member =>
        Nat.isDigit_of_mem_toDigits (by decide) le_rfl member
    have magnitude : -((value.natAbs : ℕ) : ℤ) = value := by omega
    rw [intText, if_pos negative, stoi, List.dropWhile_cons_of_neg (by decide)]
    simp only [takeSign, digits, Nat.toDigits_ne_nil, if_false, if_true]
    rw [show (0 : ℤ) = ((0 : ℕ) : ℤ) from rfl, foldl_digits, Nat.ofDigitChars_ten_toDigits, magnitude,
      if_pos ⟨lower, upper⟩]
  · have same : ((value.natAbs : ℕ) : ℤ) = value := by omega
    rw [intText, if_neg negative, ← same]
    exact stoi_toDigits 0 (by omega)

end Eroil.Addr
