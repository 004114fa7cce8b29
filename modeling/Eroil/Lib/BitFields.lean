import Mathlib.Data.Nat.Bitwise
import Mathlib.Data.Int.ModEq
import Eroil.Lib.ByteMemory

/-! # Bit fields of records in byte memory

Bits are numbered through memory with the least significant bit of each byte first, as a
little-endian compiler allocates them. A bit field is an interval of the bits of a record; storing
it replaces these bits and no others. A record is written by a list of stores, of which the last one
that touches a field decides what a load of it returns.
-/

namespace Eroil.Lib

namespace ByteMemory

/-- One bit of memory. -/
def bit (memory : ByteMemory) (position : ℕ) : Bool :=
  (memory (position / 8)).toNat.testBit (position % 8)

/-- The number held by an interval of bits. -/
def loadBits (memory : ByteMemory) (first width : ℕ) : ℕ :=
  Nat.ofBits fun index : Fin width => memory.bit (first + index)

/-- Replace an interval of bits by the low bits of a number. -/
def storeBits (memory : ByteMemory) (first width raw : ℕ) : ByteMemory := fun address =>
  UInt8.ofNat <| Nat.ofBits fun index : Fin 8 =>
    if first ≤ 8 * address + index ∧ 8 * address + index < first + width then
      raw.testBit (8 * address + index - first)
    else memory.bit (8 * address + index)

theorem bit_storeBits (memory : ByteMemory) (first width raw position : ℕ) :
    (memory.storeBits first width raw).bit position =
      if first ≤ position ∧ position < first + width then raw.testBit (position - first)
      else memory.bit position := by
  have inByte : position % 8 < 8 := Nat.mod_lt _ (by decide)
  have whole : 8 * (position / 8) + position % 8 = position := Nat.div_add_mod position 8
  have kept (byte : ℕ) : (byte % 2 ^ 8).testBit (position % 8) = byte.testBit (position % 8) := by
    rw [Nat.testBit_mod_two_pow, decide_eq_true inByte, Bool.true_and]
  rw [bit, storeBits, UInt8.toNat_ofNat', kept, Nat.testBit_ofBits_lt _ _ inByte]
  simp only [whole]

/-- A load depends on the loaded bits only. -/
theorem loadBits_congr {left right : ByteMemory} {first width : ℕ}
    (agree : ∀ position, first ≤ position → position < first + width →
      left.bit position = right.bit position) :
    left.loadBits first width = right.loadBits first width := by
  apply congrArg Nat.ofBits
  funext index
  exact agree _ (by omega) (by omega)

theorem loadBits_storeBits_self (memory : ByteMemory) (first width raw : ℕ) :
    (memory.storeBits first width raw).loadBits first width = raw % 2 ^ width := by
  apply Nat.eq_of_testBit_eq
  intro position
  rw [Nat.testBit_mod_two_pow, loadBits]
  by_cases inside : position < width
  · have shifted : first + position - first = position := by omega
    rw [Nat.testBit_ofBits_lt _ _ inside, bit_storeBits, if_pos ⟨by omega, by omega⟩, shifted]
    simp [inside]
  · rw [Nat.testBit_ofBits_ge _ _ (by omega)]
    simp [inside]

theorem loadBits_storeBits_of_apart (memory : ByteMemory) {first width other span : ℕ} (raw : ℕ)
    (apart : first + width ≤ other ∨ other + span ≤ first) :
    (memory.storeBits other span raw).loadBits first width = memory.loadBits first width := by
  apply loadBits_congr
  intro position low high
  rw [bit_storeBits, if_neg (by omega)]

end ByteMemory

/-- Where a member of a record lies: its first bit, counted from the record's first byte, and its
width. -/
structure BitField where
  offset : ℕ
  width : ℕ
deriving DecidableEq

namespace BitField

/-- Two members that share no bit. -/
def apart (left right : BitField) : Bool :=
  left.offset + left.width ≤ right.offset || right.offset + right.width ≤ left.offset

/-- A member that ends within a record of the given size in bytes. -/
def within (size : ℕ) (field : BitField) : Bool := field.offset + field.width ≤ 8 * size

/-- A member of a record that is itself a member. -/
def nested (first : ℕ) (field : BitField) : BitField := ⟨first + field.offset, field.width⟩

/-- An unsigned member of the record at an address. -/
def load (field : BitField) (memory : ByteMemory) (address : ℕ) : ℕ :=
  memory.loadBits (8 * address + field.offset) field.width

/-- A signed member of the record at an address, in two's complement. -/
def loadSigned (field : BitField) (memory : ByteMemory) (address : ℕ) : ℤ :=
  (field.load memory address : ℤ).bmod (2 ^ field.width)

/-- An assignment keeps the low bits of the value. -/
def store (field : BitField) (value : ℤ) (address : ℕ) (memory : ByteMemory) : ByteMemory :=
  memory.storeBits (8 * address + field.offset) field.width (value % 2 ^ field.width).toNat

theorem load_store_self (field : BitField) (value : ℤ) (address : ℕ) (memory : ByteMemory) :
    field.load (field.store value address memory) address = (value % 2 ^ field.width).toNat := by
  have positive : (0 : ℤ) < 2 ^ field.width := Int.pow_pos (by decide)
  have low := Int.emod_lt_of_pos value positive
  have natural := Int.toNat_of_nonneg (Int.emod_nonneg value positive.ne')
  rw [load, store, ByteMemory.loadBits_storeBits_self]
  apply Nat.mod_eq_of_lt
  have cast : ((2 ^ field.width : ℕ) : ℤ) = 2 ^ field.width := by push_cast; rfl
  omega

theorem load_store_of_apart {field other : BitField} (apart : field.apart other = true) (value : ℤ)
    (address : ℕ) (memory : ByteMemory) :
    field.load (other.store value address memory) address = field.load memory address := by
  simp only [BitField.apart, Bool.or_eq_true, decide_eq_true_eq] at apart
  exact ByteMemory.loadBits_storeBits_of_apart _ _ (by omega)

theorem load_lt (field : BitField) (memory : ByteMemory) (address : ℕ) :
    field.load memory address < 2 ^ field.width :=
  Nat.ofBits_lt_two_pow _

/-- A member of a record depends on the record's bytes only. -/
theorem load_congr {field : BitField} {left right : ByteMemory} {address size : ℕ}
    (within : field.within size = true)
    (agree : ∀ position, 8 * address ≤ position → position < 8 * (address + size) →
      left.bit position = right.bit position) :
    field.load left address = field.load right address := by
  have ends := of_decide_eq_true within
  apply ByteMemory.loadBits_congr
  intro position low high
  exact agree position (by omega) (by omega)

end BitField

/-- One assignment to a member of a record. -/
structure FieldStore where
  field : BitField
  value : ℤ

/-- Carry out assignments in order on the record at an address. -/
def storeAll (address : ℕ) (stores : List FieldStore) (memory : ByteMemory) : ByteMemory :=
  stores.foldl (fun memory store => store.field.store store.value address memory) memory

section

variable (address : ℕ) {field : BitField} (memory : ByteMemory)

/-- Assignments to other members leave a member alone. -/
theorem load_storeAll_of_apart (stores : List FieldStore)
    (apart : (stores.map FieldStore.field).all field.apart = true) :
    field.load (storeAll address stores memory) address = field.load memory address := by
  induction stores generalizing memory with
  | nil => rfl
  | cons store stores ih =>
    simp only [List.map_cons, List.all_cons, Bool.and_eq_true] at apart
    change field.load (storeAll address stores _) address = _
    rw [ih _ apart.2, BitField.load_store_of_apart apart.1]

/-- The last assignment that touches a member decides it. -/
theorem load_storeAll {stores : List FieldStore} (index : ℕ) {value : ℤ}
    (found : stores[index]? = some ⟨field, value⟩)
    (last : ((stores.map FieldStore.field).drop (index + 1)).all field.apart = true) :
    field.load (storeAll address stores memory) address = (value % 2 ^ field.width).toNat := by
  obtain ⟨inside, here⟩ := List.getElem?_eq_some_iff.mp found
  have split : stores = stores.take index ++ ⟨field, value⟩ :: stores.drop (index + 1) := by
    rw [← here, List.getElem_cons_drop, List.take_append_drop]
  rw [split, storeAll, List.foldl_append, List.foldl_cons]
  change field.load (storeAll address _ _) address = _
  rw [load_storeAll_of_apart address _ _ (by rwa [List.map_drop]), BitField.load_store_self]

/-- An unsigned member wide enough for a number reads it back. -/
theorem load_storeAll_of_lt {stores : List FieldStore} (index : ℕ) {value : ℕ}
    (found : stores[index]? = some ⟨field, (value : ℤ)⟩)
    (last : ((stores.map FieldStore.field).drop (index + 1)).all field.apart = true)
    (fits : value < 2 ^ field.width) :
    field.load (storeAll address stores memory) address = value := by
  have cast : ((2 ^ field.width : ℕ) : ℤ) = 2 ^ field.width := by push_cast; rfl
  rw [load_storeAll address memory index found last, Int.emod_eq_of_lt (by omega) (by omega),
    Int.toNat_natCast]

/-- A signed member reads back what the last assignment's value is in two's complement. -/
theorem loadSigned_storeAll {stores : List FieldStore} (index : ℕ) {value : ℤ}
    (found : stores[index]? = some ⟨field, value⟩)
    (last : ((stores.map FieldStore.field).drop (index + 1)).all field.apart = true) :
    field.loadSigned (storeAll address stores memory) address = value.bmod (2 ^ field.width) := by
  have natural : ((value % 2 ^ field.width).toNat : ℤ) = value % (2 ^ field.width : ℕ) := by
    rw [Int.toNat_of_nonneg (Int.emod_nonneg value (Int.pow_pos (by decide)).ne')]
    push_cast
    rfl
  rw [BitField.loadSigned, load_storeAll address memory index found last, natural, Int.emod_bmod]

/-- Assignments to members of one record leave memory outside it alone. -/
theorem bit_storeAll_outside (stores : List FieldStore) {size position : ℕ}
    (within : (stores.map FieldStore.field).all (BitField.within size) = true)
    (outside : position < 8 * address ∨ 8 * (address + size) ≤ position) :
    (storeAll address stores memory).bit position = memory.bit position := by
  induction stores generalizing memory with
  | nil => rfl
  | cons store stores ih =>
    simp only [List.map_cons, List.all_cons, Bool.and_eq_true] at within
    have ends := of_decide_eq_true within.1
    change (storeAll address stores _).bit position = _
    rw [ih _ within.2]
    change (ByteMemory.storeBits _ _ _ _).bit position = _
    rw [ByteMemory.bit_storeBits, if_neg (by omega)]

end

/-- A member's declared type, by its size in bits, and its width, which is smaller for a bit
field. -/
structure Member where
  unit : ℕ
  width : ℕ

/-- A member starts at the first free bit if it fits into the unit of its type there, else at the
next unit. -/
def Member.start (member : Member) (used : ℕ) : ℕ :=
  if used % member.unit + member.width ≤ member.unit then used
  else (used / member.unit + 1) * member.unit

/-- Members are laid out in declaration order. -/
def layout (used : ℕ) : List Member → List BitField
  | [] => []
  | member :: rest =>
      ⟨member.start used, member.width⟩ :: layout (member.start used + member.width) rest

/-- Size in bytes of a record with these members, a multiple of its alignment. -/
def recordSize (align : ℕ) (fields : List BitField) : ℕ :=
  let used := (fields.getLast?.map fun field => field.offset + field.width).getD 0
  (used + 8 * align - 1) / (8 * align) * align

end Eroil.Lib
