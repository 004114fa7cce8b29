import Eroil.Lib.ByteFields
import Eroil.Model.Types

/-! # The header of a label

`types/label_io_types.h`. A label travels as the memory of its header followed by its data, on
sockets and through shared memory alike. Padding bytes of a header are written as zero and never
read.
-/

namespace Eroil

open Lib

/-- `io::LabelFlag`. -/
inductive LabelFlag where
  | data
  | connect
  | disconnect
  | ping
deriving DecidableEq

def LabelFlag.value : LabelFlag → ℕ
  | .data => 1
  | .connect => 2
  | .disconnect => 4
  | .ping => 8

/-- `io::LabelHeader`. -/
structure LabelHeader where
  magic : ℕ
  version : ℕ
  sourceId : NodeId
  flags : ℕ
  label : Label
  labelSize : ℕ
  recvOffset : ℕ
deriving DecidableEq

def LabelHeader.bytes (header : LabelHeader) : List UInt8 :=
  ByteMemory.encode 4 header.magic ++ ByteMemory.encode 2 header.version ++ [0, 0] ++
    ByteMemory.encode 4 header.sourceId.toUInt32.toNat ++
      ByteMemory.encode 2 header.flags ++ [0, 0] ++
    ByteMemory.encode 4 header.label.toUInt32.toNat ++ ByteMemory.encode 4 header.labelSize ++
    ByteMemory.encode 4 header.recvOffset

@[simp] theorem LabelHeader.length_bytes (header : LabelHeader) :
    header.bytes.length = sizeofLabelHeader := by
  simp [LabelHeader.bytes, sizeofLabelHeader]

/-- The header that 28 bytes of memory hold. -/
def LabelHeader.ofBytes (memory : List UInt8) : LabelHeader where
  magic := field memory 0 4
  version := field memory 4 2
  sourceId := (UInt32.ofNat (field memory 8 4)).toInt32
  flags := field memory 12 2
  label := (UInt32.ofNat (field memory 16 4)).toInt32
  labelSize := field memory 20 4
  recvOffset := field memory 24 4

/-- `io::has_flag`. -/
def hasFlag (flags : ℕ) (flag : LabelFlag) : Bool := flags &&& flag.value != 0

/-- The arguments of one call of `distribute_recvd_label`; the size is the length of the buffer. -/
structure Dispatch where
  sourceId : NodeId
  label : Label
  buf : List UInt8
  recvOffset : ℕ
deriving DecidableEq

end Eroil
