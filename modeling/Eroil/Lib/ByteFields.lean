import Eroil.Lib.ByteMemory

/-! # Fixed-width fields of a byte string

A structure that is sent as its memory is a concatenation of little-endian words. A field is read
by its offset and width; the lemmas say which part of a concatenation it lies in.
-/

namespace Eroil.Lib

/-- The word of the given width at the given offset. -/
def field (bytes : List UInt8) (offset width : ℕ) : ℕ :=
  ByteMemory.decode ((bytes.drop offset).take width)

theorem field_append_left {first : List UInt8} {offset width : ℕ}
    (inside : offset + width ≤ first.length) (second : List UInt8) :
    field (first ++ second) offset width = field first offset width := by
  have enough : width ≤ (first.drop offset).length := by
    rw [List.length_drop]
    omega
  rw [field, List.drop_append_of_le_length (by omega), List.take_append_of_le_length enough, field]

theorem field_append_right (first second : List UInt8) (offset width : ℕ) :
    field (first ++ second) (first.length + offset) width = field second offset width := by
  rw [field, List.drop_length_add_append, field]

theorem field_encode {value width : ℕ} (small : value < 256 ^ width) :
    field (ByteMemory.encode width value) 0 width = value := by
  have whole : (ByteMemory.encode width value).take width = ByteMemory.encode width value :=
    List.take_of_length_le (by rw [ByteMemory.length_encode])
  rw [field, List.drop_zero, whole, ByteMemory.decode_encode, Nat.mod_eq_of_lt small]

/-- A field of one element of an array whose elements all have the same size. -/
theorem field_flatMap {α : Type*} {encode : α → List UInt8} {size : ℕ}
    (sized : ∀ item, (encode item).length = size) (items : List α) (index : Fin items.length)
    {offset width : ℕ} (inside : offset + width ≤ size) :
    field (items.flatMap encode) (size * index + offset) width =
      field (encode (items.get index)) offset width := by
  induction items with
  | nil => exact index.elim0
  | cons item rest ih =>
    rw [List.flatMap_cons]
    cases index using Fin.cases with
    | zero => simpa using field_append_left (by rw [sized]; exact inside) _
    | succ index =>
      have position :
          size * (index.succ : ℕ) + offset = (encode item).length + (size * index + offset) := by
        rw [sized, Fin.val_succ, Nat.mul_succ]
        omega
      rw [position, field_append_right, ih index]
      rfl

end Eroil.Lib
