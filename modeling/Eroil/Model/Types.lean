import Mathlib.Tactic.Ring

/-! # Constants and label header of the message layer

`types/const_types.h` and `types/label_io_types.h`. Sizes are those of the x86-64 layout that the
source pins with `static_assert`. Unsigned machine words are naturals; arithmetic that can wrap
is written with `wrap64` or `wrap32` at the place where the source computes it.
-/

namespace Eroil

abbrev Label := Int32
abbrev NodeId := Int32
abbrev HandleUid := ℕ

def invalidLabel : Label := -1
def invalidNode : NodeId := -1

def maxLabels : ℕ := 200
def magicNum : ℕ := 0x4C4F5245
def version : ℕ := 1

def maxLabelSize : ℕ := 1024 * 1024
def shmBlockSize : ℕ := 128 * (1024 * 1024)

/-- Result of an unsigned 64-bit computation. -/
def wrap64 (value : ℕ) : ℕ := value % 2 ^ 64

/-- Result of an unsigned 32-bit computation. -/
def wrap32 (value : ℕ) : ℕ := value % 2 ^ 32

theorem wrap64_of_lt {value : ℕ} (small : value < 2 ^ 64) : wrap64 value = value :=
  Nat.mod_eq_of_lt small

theorem wrap32_of_lt {value : ℕ} (small : value < 2 ^ 32) : wrap32 value = value :=
  Nat.mod_eq_of_lt small

/-- `sizeof(io::LabelHeader)`: two 16-bit fields are padded to four bytes. -/
def sizeofLabelHeader : ℕ := 28

end Eroil
