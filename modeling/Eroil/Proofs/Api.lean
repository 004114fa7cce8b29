import Eroil.Model.Api

/-! # Where the C API agrees with the C++ API

A size in words becomes the size in bytes that it stands for, a size that every limit refuses, or,
from 2^30 + 1 to 2^30 + 2^18 words, an acceptable size that is 2^32 bytes too small. The two APIs
can only differ there; where no buffer is sent, neither of them reads the size.
-/

namespace Eroil

open Lib

/-- The limits of `Manager::open_send` and `Manager::open_recv` on a buffer size. -/
def SizeOk (size : ℕ) : Prop := 0 < size ∧ size ≤ maxLabelSize

namespace Nae

/-- The size that a number of words stands for. -/
def bytes (words : Int32) : ℕ := (4 * words.toInt).toNat

/-- The sizes in words that wrap to an acceptable size. -/
def Wraps (words : Int32) : Prop := 2 ^ 30 < words.toInt ∧ words.toInt ≤ 2 ^ 30 + 2 ^ 18

/-- What the multiplication and the conversions make of a size in words. -/
theorem wordBytes_cases (words : Int32) :
    (words.toInt < 2 ^ 29 ∧ wordBytes words = bytes words) ∨
    (2 ^ 29 ≤ words.toInt ∧ ¬ Wraps words ∧ ¬ SizeOk (wordBytes words)) ∨
    (Wraps words ∧ SizeOk (wordBytes words) ∧ wordBytes words + 2 ^ 32 = bytes words) := by
  have product : (words * 4).toInt = (words.toInt * 4).bmod (2 ^ 32) := Int32.toInt_mul words 4
  have high := words.toInt_lt
  have low := words.le_toInt
  by_cases positive : words > 0
  · have above : 0 < words.toInt := Int32.lt_iff_toInt_lt.mp positive
    rw [wordBytes, if_pos positive, toSize, product, bytes]
    simp only [Wraps, SizeOk, maxLabelSize, Int.bmod_def]
    omega
  · have below : words.toInt ≤ 0 := Int32.le_iff_toInt_le.mp (Int32.not_lt.mp positive)
    left
    rw [wordBytes, if_neg positive, bytes]
    omega

private theorem wordBytes_of_small {words : Int32} (small : words.toInt < 2 ^ 29) :
    wordBytes words = bytes words := by
  rcases wordBytes_cases words with ⟨-, same⟩ | ⟨large, -⟩ | ⟨wraps, -⟩
  · exact same
  · omega
  · simp only [Wraps] at wraps
    omega

/-- From 2^29 words on, an acceptable size is the product less 2^32. -/
private theorem wordBytes_eq_iff_of_large {words : Int32} {size : ℕ} (large : 2 ^ 29 ≤ words.toInt)
    (acceptable : SizeOk size) : wordBytes words = size ↔ bytes words = size + 2 ^ 32 := by
  rcases wordBytes_cases words with ⟨small, -⟩ | ⟨-, fits, refused⟩ | ⟨-, -, shifted⟩
  · omega
  · constructor
    · rintro rfl
      exact absurd acceptable refused
    · simp only [Wraps, SizeOk, bytes, maxLabelSize] at *
      omega
  · omega

end Nae

theorem OpenSendData.accepted_iff (data : OpenSendData) :
    data.accepted = true ↔
      (¬ data.label ≤ invalidLabel ∧ data.buf.isSome = true) ∧ SizeOk data.bufSize := by
  simp only [OpenSendData.accepted, SizeOk, Bool.and_eq_true, Bool.not_eq_true',
    decide_eq_false_iff_not, bne_iff_ne, ne_eq, not_lt, and_assoc, Nat.pos_iff_ne_zero]

theorem OpenReceiveData.accepted_iff (data : OpenReceiveData) :
    data.accepted = true ↔
      (¬ data.label ≤ invalidLabel ∧ data.buf.isSome = true ∧ data.bufSlots ≠ 0) ∧
        SizeOk data.bufSize := by
  simp only [OpenReceiveData.accepted, SizeOk, Bool.and_eq_true, Bool.not_eq_true',
    decide_eq_false_iff_not, bne_iff_ne, ne_eq, not_lt, Nat.pos_iff_ne_zero]
  tauto

namespace Node

variable (node : Node)

/-- Two openings for sending have one outcome iff they are the same or both refused. -/
private theorem openSend_eq_iff (left right : OpenSendData) :
    node.openSend left = node.openSend right ↔
      left = right ∨ ¬ left.accepted = true ∧ ¬ right.accepted = true := by
  constructor
  · intro same
    have objects := congrArg (fun result => result.1.sendObjects) same
    simp only [Node.openSend, Node.uniqueId] at objects
    split at objects
    case isTrue =>
      split at objects
      case isTrue =>
        left
        simpa using objects
      case isFalse => simp at objects
    case isFalse refused =>
      split at objects
      case isTrue => simp at objects
      case isFalse other => exact .inr ⟨refused, other⟩
  · rintro (rfl | ⟨refused, other⟩)
    · rfl
    · rw [Node.openSend, Node.openSend, if_neg refused, if_neg other]

/-- Two openings for receiving have one outcome iff they are the same or both refused. -/
private theorem openRecv_eq_iff (left right : OpenReceiveData) :
    node.openRecv left = node.openRecv right ↔
      left = right ∨ ¬ left.accepted = true ∧ ¬ right.accepted = true := by
  constructor
  · intro same
    have objects := congrArg (fun result => result.1.recvObjects) same
    simp only [Node.openRecv, Node.uniqueId] at objects
    split at objects
    case isTrue =>
      split at objects
      case isTrue =>
        left
        simpa [RecvHandle.new] using objects
      case isFalse => simp at objects
    case isFalse refused =>
      split at objects
      case isTrue => simp at objects
      case isFalse other => exact .inr ⟨refused, other⟩
  · rintro (rfl | ⟨refused, other⟩)
    · rfl
    · rw [Node.openRecv, Node.openRecv, if_neg refused, if_neg other]

end Node

namespace Library

variable (library : Library)

private theorem openSendLabel_eq_iff (left right : SendOpening) :
    library.openSendLabel left = library.openSendLabel right ↔
      library.ready? = none ∨ left.data = right.data ∨
        ¬ left.data.accepted = true ∧ ¬ right.data.accepted = true := by
  unfold openSendLabel
  cases library.ready? with
  | none => simp
  | some node =>
    simp only [reduceCtorEq, false_or]
    rw [← node.openSend_eq_iff]
    constructor
    · intro same
      simp only [Prod.mk.injEq, Library.mk.injEq, Option.some.injEq, true_and] at same
      exact Prod.ext same.1 same.2
    · intro same
      rw [same]

private theorem openRecvLabel_eq_iff (left right : RecvRequest) :
    library.openRecvLabel left = library.openRecvLabel right ↔
      library.ready? = none ∨ Eroil.openRecvLabel left = Eroil.openRecvLabel right ∨
        ¬ (Eroil.openRecvLabel left).accepted = true ∧
          ¬ (Eroil.openRecvLabel right).accepted = true := by
  unfold openRecvLabel
  cases library.ready? with
  | none => simp
  | some node =>
    simp only [reduceCtorEq, false_or]
    rw [← node.openRecv_eq_iff]
    constructor
    · intro same
      simp only [Prod.mk.injEq, Library.mk.injEq, Option.some.injEq, true_and] at same
      exact Prod.ext same.1 same.2
    · intro same
      rw [same]

/-- A ready library's manager is the one it guards. -/
theorem manager_of_ready {node : Node} (ready : library.ready? = some node) :
    library.manager = some node := by
  unfold ready? at ready
  split at ready
  · exact ready
  · cases ready

/-- A refused opening for sending leaves everything as it was. -/
private theorem openSendLabel_refused {opening : SendOpening}
    (refused : ¬ opening.data.accepted = true) :
    library.openSendLabel opening = (library, none) := by
  unfold openSendLabel
  split
  · rfl
  case h_2 node ready =>
    rw [Node.openSend, if_neg refused]
    simp only [← library.manager_of_ready ready]

/-- A refused opening for receiving leaves everything as it was. -/
private theorem openRecvLabel_refused {request : RecvRequest}
    (refused : ¬ (Eroil.openRecvLabel request).accepted = true) :
    library.openRecvLabel request = (library, none) := by
  unfold openRecvLabel
  split
  · rfl
  case h_2 node ready =>
    rw [Node.openRecv, if_neg refused]
    simp only [← library.manager_of_ready ready]

end Library

namespace Nae

/-- Either the size is the same or both are refused, unless it wraps where all else is
acceptable. -/
theorem size_agrees_iff (words : Int32) (acceptable : Prop) :
    (wordBytes words = bytes words ∨
        ¬ (acceptable ∧ SizeOk (wordBytes words)) ∧ ¬ (acceptable ∧ SizeOk (bytes words))) ↔
      ¬ (acceptable ∧ Wraps words) := by
  rcases wordBytes_cases words with ⟨small, same⟩ | ⟨large, fits, refused⟩ | ⟨wraps, fits, shifted⟩
  · have noWrap : ¬ Wraps words := fun wraps => by
      simp only [Wraps] at wraps
      omega
    simp [same, noWrap]
  · have tooBig : ¬ SizeOk (bytes words) := by
      simp only [SizeOk, bytes, maxLabelSize]
      omega
    simp [refused, fits, tooBig]
  · have different : wordBytes words ≠ bytes words := by omega
    have tooBig : ¬ SizeOk (bytes words) := by
      simp only [SizeOk, maxLabelSize]
      omega
    simp [different, fits, wraps, tooBig]

/-- `NAE_Open_Send_Label`'s arguments for `open_send_label`, with the size in bytes. -/
def SendOpening.inBytes (opening : SendOpening) : Cpp.SendOpening where
  label := opening.iLabel
  buf := opening.pSendBuffer
  size := bytes opening.iSizeInWords
  offsetMode := opening.iOffsetMode
  sem := opening.iSem
  iosb := opening.pIosb
  numIosb := count opening.iNumIosbs

/-- `NAE_Open_Receive_Label`'s arguments for `open_recv_label`, with the size in bytes. -/
def RecvOpening.inBytes (opening : RecvOpening) : Cpp.RecvOpening where
  label := opening.iLabel
  buf := opening.pBuffer
  size := bytes opening.iSizeInWords
  numSlots := count opening.iNumSlots
  auxBuf := opening.pAuxBuffer
  sem := opening.iSem
  iosb := opening.pIosb
  numIosb := count opening.iNumIosbs
  signalMode := opening.iSignalMode

/-- `NAE_Send_Label`'s arguments for `send_label`, with the size in bytes. -/
def SendRequest.inBytes (request : SendRequest) : Eroil.SendRequest where
  buf := request.pBuffer
  bufSize := bytes request.iMsgSizeInWords
  sendOffset := offsetBytes request.iSendOffsetInBytes
  recvOffset := offsetBytes request.iReceiveOffsetInBytes

variable (library : Library)

/-- `NAE_Open_Send_Label` behaves like `open_send_label` and refuses sizes above the limit. -/
def OpenSendAgrees (opening : SendOpening) : Prop :=
  openSendLabel library opening = Cpp.openSendLabel library opening.inBytes ∧
    (maxLabelSize < bytes opening.iSizeInWords → openSendLabel library opening = (library, none))

/-- `NAE_Open_Receive_Label` behaves like `open_recv_label` and refuses sizes above the limit. -/
def OpenReceiveAgrees (opening : RecvOpening) : Prop :=
  openReceiveLabel library opening = Cpp.openRecvLabel library opening.inBytes ∧
    (maxLabelSize < bytes opening.iSizeInWords → openReceiveLabel library opening = (library, none))

/-- `NAE_Send_Label` behaves like `send_label` and refuses sizes above the limit. -/
def SendAgrees (memory : ByteMemory) (handle : Option SendHandle) (request : SendRequest) : Prop :=
  sendLabel library memory handle request = Cpp.sendLabel library memory handle request.inBytes ∧
    (maxLabelSize < bytes request.iMsgSizeInWords →
      sendLabel library memory handle request = none)

/-- A size above the limit that a send lets pass: with a buffer, one that wraps to the size of the
handle; without, any, as the buffer of the handle is sent. -/
def SizeSlips (handle : SendHandle) (request : SendRequest) : Prop :=
  if request.pBuffer.isSome = true then
    bytes request.iMsgSizeInWords = handle.data.bufSize + 2 ^ 32
  else maxLabelSize < bytes request.iMsgSizeInWords

theorem openSendAgrees_iff (opening : SendOpening) :
    OpenSendAgrees library opening ↔
      ¬ (library.ready?.isSome = true ∧ ¬ opening.iLabel ≤ invalidLabel ∧
        opening.pSendBuffer.isSome = true ∧ Wraps opening.iSizeInWords) := by
  have agrees : openSendLabel library opening = Cpp.openSendLabel library opening.inBytes ↔
      library.ready? = none ∨ ¬ ((¬ opening.iLabel ≤ invalidLabel ∧
        opening.pSendBuffer.isSome = true) ∧ Wraps opening.iSizeInWords) := by
    rw [← size_agrees_iff, openSendLabel, Cpp.openSendLabel, library.openSendLabel_eq_iff,
      OpenSendData.accepted_iff, OpenSendData.accepted_iff]
    simp [Library.SendOpening.data, SendOpening.inBytes]
  have refused (large : maxLabelSize < bytes opening.iSizeInWords)
      (same : openSendLabel library opening = Cpp.openSendLabel library opening.inBytes) :
      openSendLabel library opening = (library, none) := by
    rw [same]
    apply library.openSendLabel_refused
    rw [OpenSendData.accepted_iff]
    exact fun accepted => absurd accepted.2.2 (Nat.not_le.mpr large)
  rw [OpenSendAgrees, and_iff_left_of_imp (fun same large => refused large same), agrees]
  cases library.ready? <;> simp [and_assoc]

theorem openReceiveAgrees_iff (opening : RecvOpening) :
    OpenReceiveAgrees library opening ↔
      ¬ (library.ready?.isSome = true ∧ ¬ opening.iLabel ≤ invalidLabel ∧
        opening.pBuffer.isSome = true ∧ 0 < opening.iNumSlots ∧ Wraps opening.iSizeInWords) := by
  have slots : (count opening.iNumSlots).toNat ≠ 0 ↔ 0 < opening.iNumSlots := by
    unfold count
    split
    case isTrue positive =>
      have above : 0 < opening.iNumSlots.toInt := Int32.lt_iff_toInt_lt.mp positive
      rw [Int32.toNat_toUInt32_of_le (Int32.le_of_lt positive)]
      change opening.iNumSlots.toInt.toNat ≠ 0 ↔ 0 < opening.iNumSlots
      simp only [iff_true_intro positive, iff_true]
      omega
    case isFalse zero => simpa using zero
  have agrees : openReceiveLabel library opening = Cpp.openRecvLabel library opening.inBytes ↔
      library.ready? = none ∨ ¬ ((¬ opening.iLabel ≤ invalidLabel ∧
        opening.pBuffer.isSome = true ∧ (count opening.iNumSlots).toNat ≠ 0) ∧
          Wraps opening.iSizeInWords) := by
    rw [← size_agrees_iff, openReceiveLabel, Cpp.openRecvLabel, library.openRecvLabel_eq_iff,
      OpenReceiveData.accepted_iff, OpenReceiveData.accepted_iff]
    simp [Eroil.openRecvLabel, RecvOpening.inBytes]
  have refused (large : maxLabelSize < bytes opening.iSizeInWords)
      (same : openReceiveLabel library opening = Cpp.openRecvLabel library opening.inBytes) :
      openReceiveLabel library opening = (library, none) := by
    rw [same]
    apply library.openRecvLabel_refused
    rw [OpenReceiveData.accepted_iff]
    exact fun accepted => absurd accepted.2.2 (Nat.not_le.mpr large)
  rw [OpenReceiveAgrees, and_iff_left_of_imp (fun same large => refused large same), agrees, slots]
  cases library.ready? <;> simp [and_assoc]

/-- The manager drops a given buffer whose size is not that of the handle. -/
private theorem sendLabel_eq_none_iff {memory : ByteMemory} {handle : SendHandle} {buf : ℕ}
    {request : Eroil.SendRequest} (myId : NodeId) (given : request.buf = some buf)
    (opened : SizeOk handle.data.bufSize) :
    Eroil.sendLabel myId memory (some handle) request = none ↔
      request.bufSize ≠ handle.data.bufSize := by
  have positive := opened.1
  simp only [Eroil.sendLabel, Eroil.SendRequest.source, given]
  split
  case isTrue refused =>
    simp only [true_iff]
    omega
  case isFalse passed =>
    simp only [reduceCtorEq, false_iff]
    omega

/-- Without a buffer the size in the request does not matter. -/
private theorem sendLabel_without_buf {memory : ByteMemory} {handle : Option SendHandle}
    {left right : Eroil.SendRequest} (myId : NodeId) (noBuf : left.buf = none ∧ right.buf = none)
    (offsets : left.sendOffset = right.sendOffset ∧ left.recvOffset = right.recvOffset) :
    Eroil.sendLabel myId memory handle left = Eroil.sendLabel myId memory handle right := by
  cases handle with
  | none => rfl
  | some handle =>
    simp only [Eroil.sendLabel, Eroil.SendRequest.source, Eroil.SendRequest.offsets, noBuf, offsets]

/-- Without a buffer the manager sends that of the handle. -/
private theorem sendLabel_without_buf_ne_none {memory : ByteMemory} {handle : SendHandle}
    {request : Eroil.SendRequest} (myId : NodeId) (noBuf : request.buf = none)
    (opened : handle.data.accepted = true) :
    Eroil.sendLabel myId memory (some handle) request ≠ none := by
  obtain ⟨⟨-, given⟩, sizes⟩ := (OpenSendData.accepted_iff _).mp opened
  obtain ⟨buf, has⟩ := Option.isSome_iff_exists.mp given
  have positive : ¬ (handle.data.bufSize ≤ 0 ∨ handle.data.bufSize ≠ handle.data.bufSize) := by
    have := sizes.1
    omega
  simp only [Eroil.sendLabel, Eroil.SendRequest.source, noBuf, if_neg positive, has]
  exact Option.some_ne_none _

theorem sendAgrees_iff {memory : ByteMemory} {handle : Option SendHandle}
    (opened : ∀ open_ ∈ handle, open_.data.accepted = true) (request : SendRequest) :
    SendAgrees library memory handle request ↔
      ¬ (library.ready?.isSome = true ∧ ∃ open_ ∈ handle, SizeSlips open_ request) := by
  simp only [SendAgrees, SizeSlips, sendLabel, Cpp.sendLabel, Library.sendLabel]
  cases library.ready? with
  | none => simp
  | some node =>
    cases handle with
    | none => simp [Eroil.sendLabel]
    | some handle =>
      have accepted := opened handle rfl
      have sizes := ((OpenSendData.accepted_iff _).mp accepted).2
      simp only [Option.isSome_some, true_and, Option.mem_some_iff, exists_eq_left']
      cases buffer : request.pBuffer with
      | none =>
        simp only [Option.isSome_none, Bool.false_eq_true, if_false]
        constructor
        · rintro ⟨-, refuses⟩ above
          exact sendLabel_without_buf_ne_none _ rfl accepted (refuses above)
        · intro fits
          exact ⟨sendLabel_without_buf _ ⟨rfl, buffer⟩ ⟨rfl, rfl⟩, fun above => absurd above fits⟩
      | some buf =>
        have dropped (size : ℕ) : Eroil.sendLabel library.id memory (some handle)
            ⟨some buf, size, offsetBytes request.iSendOffsetInBytes,
              offsetBytes request.iReceiveOffsetInBytes⟩ = none ↔ size ≠ handle.data.bufSize :=
          sendLabel_eq_none_iff library.id rfl sizes
        simp only [SendRequest.inBytes, buffer, Option.isSome_some, if_true]
        have limit := sizes.2
        by_cases small : request.iMsgSizeInWords.toInt < 2 ^ 29
        · have same := wordBytes_of_small small
          have noWrap : bytes request.iMsgSizeInWords ≠ handle.data.bufSize + 2 ^ 32 := by
            simp only [bytes]
            omega
          rw [same]
          simp only [true_and, noWrap, not_false_eq_true, iff_true]
          intro above
          exact (dropped _).mpr (by omega)
        · have cppNone := (dropped (bytes request.iMsgSizeInWords)).mpr (by
            simp only [bytes, maxLabelSize] at limit ⊢
            omega)
          rw [cppNone, and_iff_left_of_imp (fun none _ => none), dropped]
          exact not_congr (wordBytes_eq_iff_of_large (by omega) sizes)

/-- The three C functions agree with the C++ ones exactly where a size that wraps to an acceptable
one meets nothing else that refuses the call; a size above the limit is not looked at where a send
names no buffer. -/
theorem api_agrees_iff (library : Library) :
    (∀ opening : SendOpening, OpenSendAgrees library opening ↔
      ¬ (library.ready?.isSome = true ∧ ¬ opening.iLabel ≤ invalidLabel ∧
        opening.pSendBuffer.isSome = true ∧ Wraps opening.iSizeInWords)) ∧
    (∀ opening : RecvOpening, OpenReceiveAgrees library opening ↔
      ¬ (library.ready?.isSome = true ∧ ¬ opening.iLabel ≤ invalidLabel ∧
        opening.pBuffer.isSome = true ∧ 0 < opening.iNumSlots ∧ Wraps opening.iSizeInWords)) ∧
    (∀ (memory : ByteMemory) (handle : Option SendHandle) (request : SendRequest),
      (∀ open_ ∈ handle, open_.data.accepted = true) →
      (SendAgrees library memory handle request ↔
        ¬ (library.ready?.isSome = true ∧ ∃ open_ ∈ handle, SizeSlips open_ request))) :=
  ⟨openSendAgrees_iff library, openReceiveAgrees_iff library,
    fun _ _ request opened => sendAgrees_iff library opened request⟩

/-- A library that is ready, with no handle open. -/
def readyLibrary : Library where
  id := 1
  initialized := true
  manager := some (.initial ⟨fun _ => 0, fun _ => default, fun _ => 0⟩)

/-- An opening of label 5 with a buffer of the given number of words. -/
def wordsOpening (words : Int32) : SendOpening where
  iLabel := 5
  pSendBuffer := some 4096
  iSizeInWords := words
  iOffsetMode := 1
  iSem := none
  pIosb := none
  iNumIosbs := 0

/-- A handle for label 5 with a buffer of two words. -/
def wordsHandle : SendHandle where
  uid := 1
  data := { label := 5, buf := some 4096, bufSize := 8, isOffset := false, sem := none, iosb := none,
            numIosb := 0, iosbIndex := 0 }

theorem api_agrees_iff_two_words :
    OpenSendAgrees readyLibrary (wordsOpening 2) ∧
      SendAgrees readyLibrary (fun _ => 7) (some wordsHandle) ⟨some 8192, 2, 0, 0⟩ :=
  ⟨((api_agrees_iff readyLibrary).1 (wordsOpening 2)).mpr
      (fun wraps => absurd wraps.2.2.2.1 (by decide)),
    ((api_agrees_iff readyLibrary).2.2 (fun _ => 7) (some wordsHandle) ⟨some 8192, 2, 0, 0⟩
      (by simp [wordsHandle]; decide)).mpr (by
        rintro ⟨-, opened, found, same⟩
        cases found
        exact absurd (show bytes 2 = 8 + 2 ^ 32 from same) (by decide))⟩

/-- A size of 2^30 + 1 words opens a buffer of four bytes. -/
theorem api_disagrees : ¬ ∀ (library : Library) (opening : SendOpening),
    OpenSendAgrees library opening := by
  intro claim
  exact (openSendAgrees_iff readyLibrary (wordsOpening 1073741825)).mp (claim _ _)
    ⟨rfl, by decide, rfl, by decide, by decide⟩

end Nae

end Eroil
