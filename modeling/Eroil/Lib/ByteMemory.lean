import Mathlib.Data.List.Basic
import Mathlib.Tactic.Ring

/-! # Byte memory with little-endian words

Memory is a total map from addresses to bytes; interval checks are the business of the model
that uses it. A bulk store replaces one interval and nothing else. Words of any width are stored
least significant byte first.
-/

namespace Eroil.Lib

abbrev ByteMemory := ℕ → UInt8

namespace ByteMemory

/-- Read a consecutive byte interval. -/
def load (memory : ByteMemory) (address length : ℕ) : List UInt8 :=
  (List.range length).map (fun index => memory (address + index))

/-- Replace the bytes of one interval. -/
def store (memory : ByteMemory) (address : ℕ) (bytes : List UInt8) : ByteMemory := fun query =>
  if address ≤ query ∧ query < address + bytes.length then bytes.getD (query - address) 0
  else memory query

@[simp] theorem length_load (memory : ByteMemory) (address length : ℕ) :
    (memory.load address length).length = length := by
  simp [load]

/-- A load depends on the loaded interval only. -/
theorem load_congr {left right : ByteMemory} {address length : ℕ}
    (agree : ∀ query, address ≤ query → query < address + length → left query = right query) :
    left.load address length = right.load address length := by
  apply List.map_congr_left
  intro index member
  have bound := List.mem_range.mp member
  exact agree _ (by omega) (by omega)

/-- Equal bytes at different addresses load equally. -/
theorem load_shifted {left right : ByteMemory} {address other length : ℕ}
    (agree : ∀ index < length, left (address + index) = right (other + index)) :
    left.load address length = right.load other length := by
  apply List.map_congr_left
  intro index member
  exact agree index (List.mem_range.mp member)

/-- A part of a loaded interval is the load of that part. -/
theorem load_slice (memory : ByteMemory) (address : ℕ) {length skip count : ℕ}
    (inside : skip + count ≤ length) :
    ((memory.load address length).drop skip).take count = memory.load (address + skip) count := by
  apply List.ext_getElem
  · simp only [List.length_take, List.length_drop, length_load]
    omega
  · intro index _ _
    simp only [load, List.getElem_take, List.getElem_drop, List.getElem_map, List.getElem_range,
      Nat.add_assoc]

/-- Stores leave every byte outside their interval alone. -/
theorem store_outside (memory : ByteMemory) (address query : ℕ) (bytes : List UInt8)
    (outside : query < address ∨ address + bytes.length ≤ query) :
    memory.store address bytes query = memory query := by
  rw [store, if_neg (by omega)]

theorem load_store_disjoint (memory : ByteMemory) (address length target : ℕ) (bytes : List UInt8)
    (disjoint : address + length ≤ target ∨ target + bytes.length ≤ address) :
    (memory.store target bytes).load address length = memory.load address length := by
  apply load_congr
  intro query lower upper
  exact store_outside _ _ _ _ (by omega)

/-- Loading a stored interval returns the stored bytes. -/
theorem load_store_same (memory : ByteMemory) (address : ℕ) (bytes : List UInt8) :
    (memory.store address bytes).load address bytes.length = bytes := by
  apply List.ext_getElem
  · simp
  · intro index _ bound
    simp only [load, List.getElem_map, List.getElem_range, store]
    rw [if_pos (by omega), Nat.add_sub_cancel_left]
    simp only [List.getD_eq_getElem?_getD, List.getElem?_eq_getElem bound, Option.getD_some]

/-- Adjacent intervals load as one. -/
theorem load_append (memory : ByteMemory) (address first second : ℕ) :
    memory.load address first ++ memory.load (address + first) second =
      memory.load address (first + second) := by
  simp only [load, List.range_add, List.map_append, List.map_map, Function.comp_def, Nat.add_assoc]

/-- Adjacent intervals can be stored one after the other. -/
theorem store_append (memory : ByteMemory) (address : ℕ) (first second : List UInt8) :
    (memory.store address first).store (address + first.length) second =
      memory.store address (first ++ second) := by
  funext query
  simp only [store, List.length_append, List.getD_eq_getElem?_getD]
  by_cases late : address + first.length ≤ query
  · have skip : query - address - first.length = query - (address + first.length) := by omega
    rw [if_neg (show ¬ (address ≤ query ∧ query < address + first.length) by omega),
      List.getElem?_append_right (by omega), skip]
    by_cases inside : query < address + first.length + second.length
    · rw [if_pos ⟨late, inside⟩, if_pos (by omega)]
    · rw [if_neg (by omega), if_neg (by omega)]
  · rw [if_neg (by omega)]
    by_cases inside : address ≤ query
    · rw [if_pos (by omega), if_pos (by omega), List.getElem?_append_left (by omega)]
    · rw [if_neg (by omega), if_neg (by omega)]

theorem store_nil (memory : ByteMemory) (address : ℕ) : memory.store address [] = memory := by
  funext query
  rw [store, List.length_nil, if_neg (by omega)]

/-- The little-endian bytes of a number, truncated to the width. -/
def encode : ℕ → ℕ → List UInt8
  | 0, _ => []
  | width + 1, value => UInt8.ofNat (value % 256) :: encode width (value / 256)

/-- The number that a little-endian byte list denotes. -/
def decode : List UInt8 → ℕ
  | [] => 0
  | byte :: rest => byte.toNat + 256 * decode rest

@[simp] theorem length_encode (width value : ℕ) : (encode width value).length = width := by
  induction width generalizing value with
  | zero => rfl
  | succ width ih => simp only [encode, List.length_cons, ih]

theorem decode_encode (width value : ℕ) : decode (encode width value) = value % 256 ^ width := by
  induction width generalizing value with
  | zero => simp [encode, decode, Nat.mod_one]
  | succ width ih =>
    have byte : (UInt8.ofNat (value % 256)).toNat = value % 256 := by
      rw [UInt8.toNat_ofNat_of_lt']
      exact Nat.mod_lt _ (by decide)
    rw [encode, decode, ih, byte, Nat.pow_succ, Nat.mul_comm (256 ^ width) 256, Nat.mod_mul]

/-- Read a little-endian word of the given width in bytes. -/
def loadWord (memory : ByteMemory) (address width : ℕ) : ℕ := decode (memory.load address width)

/-- Store a little-endian word of the given width in bytes. -/
def storeWord (memory : ByteMemory) (address width value : ℕ) : ByteMemory :=
  memory.store address (encode width value)

theorem loadWord_congr {left right : ByteMemory} {address width : ℕ}
    (agree : ∀ query, address ≤ query → query < address + width → left query = right query) :
    left.loadWord address width = right.loadWord address width :=
  congrArg decode (load_congr agree)

theorem loadWord_shifted {left right : ByteMemory} {address other width : ℕ}
    (agree : ∀ index < width, left (address + index) = right (other + index)) :
    left.loadWord address width = right.loadWord other width :=
  congrArg decode (load_shifted agree)

theorem loadWord_storeWord_same (memory : ByteMemory) (address width value : ℕ)
    (fits : value < 256 ^ width) :
    (memory.storeWord address width value).loadWord address width = value := by
  have same := load_store_same memory address (encode width value)
  rw [length_encode] at same
  rw [loadWord, storeWord, same, decode_encode, Nat.mod_eq_of_lt fits]

theorem loadWord_storeWord_disjoint (memory : ByteMemory) (address width target other value : ℕ)
    (disjoint : address + width ≤ target ∨ target + other ≤ address) :
    (memory.storeWord target other value).loadWord address width = memory.loadWord address width := by
  rw [loadWord, storeWord, load_store_disjoint _ _ _ _ _ (by rwa [length_encode])]
  rfl

theorem storeWord_outside (memory : ByteMemory) (address width value query : ℕ)
    (outside : query < address ∨ address + width ≤ query) :
    memory.storeWord address width value query = memory query :=
  store_outside _ _ _ _ (by rwa [length_encode])

end ByteMemory

end Eroil.Lib
