import Eroil.Lib.Pieces
import Eroil.Model.Socket.Transfer
import Eroil.Proofs.Socket.Dispatch

/-! # What `send_all` and `recv_all` do with their buffers

Both loops are followed from any number of bytes already transferred, so the offset into the buffer
is right after every history of results. Of the results of the operating system a call uses the
shortest part that fills its buffer or ends it; what it reports follows from that part. The list
models of the two calls return the same.
-/

namespace Eroil

open Lib Pieces

/-- The bytes that a result of `::send` stands for. -/
def OsSend.count : OsSend → ℕ
  | .sent count => count
  | .error _ => 0

/-- Nothing sent, or an error other than an interruption. -/
def OsSend.Ends : OsSend → Prop
  | .sent count => count = 0
  | .error errno => errno ≠ .eintr

/-- The end of the stream, or an error other than an interruption. -/
def OsRecv.Ends (result : OsRecv) : Prop := ¬ result.quiet = true

namespace TcpClient

/-- All bytes that a sequence of results of `::send` stands for. -/
def sent (results : List OsSend) : ℕ := (results.map OsSend.count).sum

/-- All bytes in a sequence of results of `::recv`. -/
def delivered (results : List OsRecv) : List UInt8 := results.flatMap OsRecv.bytes

/-- With `total` bytes sent, these results fill the rest of the buffer or end the call. -/
abbrev SendStops (size total : ℕ) : List OsSend → Prop := Stops OsSend.count OsSend.Ends size total

/-- With `total` bytes received, these results fill the rest of the buffer or end the call. -/
abbrev RecvStops (size total : ℕ) : List OsRecv → Prop :=
  Stops (fun result => result.bytes.length) OsRecv.Ends size total

/-- The operating system accepts no more than it is offered. -/
def SendsFit (size : ℕ) : ℕ → List OsSend → Prop
  | _, [] => True
  | total, .sent count :: results =>
      total < size → count ≤ size - total ∧ (0 < count → SendsFit size (total + count) results)
  | total, .error errno :: results => errno = .eintr → SendsFit size total results

/-- The operating system delivers no more than it is asked for. -/
def RecvsFit (size : ℕ) : ℕ → List OsRecv → Prop
  | _, [] => True
  | total, .received bytes :: results =>
      total < size → bytes.length ≤ size - total ∧
        (0 < bytes.length → RecvsFit size (total + bytes.length) results)
  | total, .error errno :: results => errno = .eintr → RecvsFit size total results

/-! ## `send_all` -/

/-- What holds of a call of `send_all` that starts its loop with `total` bytes sent and uses some of
the results. -/
structure Sends (memory : ByteMemory) (ptr size total : ℕ) (results used : List OsSend)
    (run : SendRun) : Prop where
  consumes : Consumes (SendStops size total) results used
  returned : run.code.isSome = true ↔ SendStops size total used
  bytes : run.bytes = total + sent used
  stream : run.stream = memory.load (ptr + total) (sent used)
  high : run.bytes ≤ size
  done : run.code = some .none ↔ run.bytes = size
  connected : run.connected = false ↔ .sent 0 ∈ used ∨
    ∃ errno, .error errno ∈ used ∧ isFatalSendErr errno = true
  onList : sendAllLoop (memory.load (ptr + total) (size - total)) used =
    run.code.map fun code => ⟨code, run.connected, run.stream⟩

variable {memory : ByteMemory} {ptr out size total : ℕ}

theorem load_eq_nil_iff (memory : ByteMemory) (ptr size total : ℕ) :
    memory.load (ptr + total) (size - total) = [] ↔ ¬ total < size := by
  rw [← List.length_eq_zero_iff, ByteMemory.length_load]
  omega

/-- A call that asks for nothing more. -/
theorem Sends.filled (filled : total = size) (results : List OsSend) :
    Sends memory ptr size total results [] ⟨some .none, total, true, []⟩ where
  consumes := .nil (.inl (stops_nil.mpr filled.ge))
  returned := by simp [filled]
  bytes := rfl
  stream := rfl
  high := filled.le
  done := by simp [filled]
  connected := by simp
  onList := by simp [sendAllLoop, ByteMemory.load, filled]

/-- A call that waits for its next result. -/
theorem Sends.waiting (more : total < size) :
    Sends memory ptr size total [] [] ⟨none, total, true, []⟩ where
  consumes := .nil (.inr rfl)
  returned := by simp [more]
  bytes := rfl
  stream := rfl
  high := more.le
  done := by simp [more.ne]
  connected := by simp
  onList := by simp [sendAllLoop, load_eq_nil_iff, more]

/-- A call that returns early. -/
theorem Sends.ended {result : OsSend} {code : SockErr} {connected : Bool} (more : total < size)
    (ends : result.Ends) (failed : code ≠ .none)
    (lost : connected = false ↔ .sent 0 = result ∨
      ∃ errno, .error errno = result ∧ isFatalSendErr errno = true)
    (onList : sendAllLoop (memory.load (ptr + total) (size - total)) [result] =
      some ⟨code, connected, []⟩) (results : List OsSend) :
    Sends memory ptr size total (result :: results) [result] ⟨some code, total, connected, []⟩ := by
  have nothing : sent [result] = 0 := by
    cases result with
    | sent count => exact ends
    | error errno => rfl
  refine ⟨.singleton (by simpa using more) (stops_singleton ends) results, ?_, ?_, ?_, more.le,
    ?_, ?_, onList⟩
  · simpa using stops_singleton ends
  · rw [nothing, Nat.add_zero]
  · rw [nothing]
    rfl
  · simp [failed, more.ne]
  · simpa only [List.mem_singleton] using lost

/-- A call that goes on after a result. -/
theorem Sends.next {result : OsSend} {results used : List OsSend} {run : SendRun}
    (more : total < size) (goesOn : ¬ result.Ends)
    (rest : Sends memory ptr size (total + result.count) results used run)
    (onList : sendAllLoop (memory.load (ptr + total) (size - total)) (result :: used) =
      (sendAllLoop (memory.load (ptr + (total + result.count)) (size - (total + result.count)))
        used).map fun outcome =>
          { outcome with wrote := memory.load (ptr + total) result.count ++ outcome.wrote }) :
    Sends memory ptr size total (result :: results) (result :: used)
      { run with stream := memory.load (ptr + total) result.count ++ run.stream } := by
  have open_ : ¬ SendStops size total [] := by simpa using more
  refine ⟨.cons open_ (stops_cons goesOn) rest.consumes,
    rest.returned.trans (stops_cons goesOn used).symm, ?_, ?_, rest.high, rest.done, ?_, ?_⟩
  · rw [rest.bytes, sent, sent, List.map_cons, List.sum_cons, Nat.add_assoc]
  · rw [rest.stream, ← Nat.add_assoc, ByteMemory.load_append]
    rfl
  · have notClosed : result ≠ .sent 0 := by
      rintro rfl
      exact goesOn rfl
    have notFatal (errno : Errno) (same : result = .error errno) : isFatalSendErr errno ≠ true := by
      subst same
      rw [of_not_not goesOn]
      decide
    rw [rest.connected]
    simp only [List.mem_cons, notClosed.symm, false_or]
    constructor
    · rintro (closed | ⟨errno, listed, fatal⟩)
      · exact .inl closed
      · exact .inr ⟨errno, .inr listed, fatal⟩
    · rintro (closed | ⟨errno, here | listed, fatal⟩)
      · exact .inl closed
      · exact absurd fatal (notFatal errno here.symm)
      · exact .inr ⟨errno, listed, fatal⟩
  · rw [onList, rest.onList, Option.map_map]
    rfl

theorem sends_sendAllFrom (memory : ByteMemory) (ptr : ℕ) {size total : ℕ} {results : List OsSend}
    (room : total ≤ size) (fits : SendsFit size total results) :
    ∃ used, Sends memory ptr size total results used (sendAllFrom memory ptr size total results) := by
  induction results generalizing total with
  | nil =>
    unfold sendAllFrom
    split
    case isTrue more => exact ⟨[], .waiting more⟩
    case isFalse whole => exact ⟨[], .filled (by omega) []⟩
  | cons result results ih =>
    unfold sendAllFrom
    split
    case isFalse whole => exact ⟨[], .filled (by omega) _⟩
    case isTrue more =>
      have some_ : memory.load (ptr + total) (size - total) ≠ [] :=
        mt (load_eq_nil_iff memory ptr size total).mp (not_not_intro more)
      cases result with
      | sent count =>
        obtain ⟨bound, fits⟩ := fits more
        dsimp only
        split
        case isTrue positive =>
          obtain ⟨used, rest⟩ := ih (by omega) (fits positive)
          refine ⟨.sent count :: used, .next more positive.ne' rest ?_⟩
          have split : memory.load (ptr + total) (size - total) = memory.load (ptr + total) count ++
              memory.load (ptr + (total + count)) (size - (total + count)) := by
            rw [← Nat.add_assoc, ByteMemory.load_append]
            congr 1
            omega
          have length : (memory.load (ptr + total) count).length = count := ByteMemory.length_load ..
          rw [sendAllLoop, if_neg some_, if_pos positive, split, List.drop_left' length,
            List.take_left' length]
          rfl
        case isFalse none =>
          obtain rfl : count = 0 := by omega
          have ends : (OsSend.sent 0).Ends := rfl
          refine ⟨[.sent 0], .ended more ends (by decide) (by simp) ?_ results⟩
          rw [sendAllLoop, if_neg some_]
          rfl
      | error errno =>
        dsimp only
        split
        case isTrue interrupted =>
          obtain ⟨used, rest⟩ := ih room (fits interrupted)
          refine ⟨.error errno :: used, ?_⟩
          have goesOn : ¬ (OsSend.error errno).Ends := not_not_intro interrupted
          refine (Sends.next more goesOn rest ?_)
          rw [sendAllLoop, if_neg some_, if_pos interrupted]
          exact (Option.map_id' ..).symm
        case isFalse other =>
          have ends : (OsSend.error errno).Ends := other
          refine ⟨[.error errno], .ended more ends (mapErr_ne_none errno) (by simp) ?_ results⟩
          rw [sendAllLoop, if_neg some_, if_neg other, if_pos rfl]

/-! ## `recv_all` -/

/-- What holds of a call of `recv_all` that starts its loop with `total` bytes received and uses
some of the results. -/
structure Receives (out size total : ℕ) (memory : ByteMemory) (results used : List OsRecv)
    (run : RecvRun) : Prop where
  consumes : Consumes (RecvStops size total) results used
  returned : run.code.isSome = true ↔ RecvStops size total used
  bytes : run.bytes = total + (delivered used).length
  stored : run.memory = memory.store (out + total) (delivered used)
  high : run.bytes ≤ size
  done : run.code = some .none ↔ run.bytes = size
  connected : run.connected = false ↔ .received [] ∈ used
  onList : recvAllLoop (size - total) results =
    run.code.map fun code => ⟨code, run.connected, delivered used, results.drop used.length⟩

theorem Receives.filled (filled : total = size) (memory : ByteMemory) (results : List OsRecv) :
    Receives out size total memory results [] ⟨some .none, total, true, memory⟩ where
  consumes := .nil (.inl (stops_nil.mpr filled.ge))
  returned := by simp [filled]
  bytes := rfl
  stored := (ByteMemory.store_nil _ _).symm
  high := filled.le
  done := by simp [filled]
  connected := by simp
  onList := by
    rw [filled, Nat.sub_self, recvAllLoop]
    rfl

theorem Receives.waiting (more : total < size) (memory : ByteMemory) :
    Receives out size total memory [] [] ⟨none, total, true, memory⟩ where
  consumes := .nil (.inr rfl)
  returned := by simp [more]
  bytes := rfl
  stored := (ByteMemory.store_nil _ _).symm
  high := more.le
  done := by simp [more.ne]
  connected := by simp
  onList := by
    obtain ⟨missing, left⟩ := Nat.exists_eq_add_of_lt more
    rw [show size - total = missing + 1 by omega]
    rfl

/-- A call that returns early. -/
theorem Receives.ended {result : OsRecv} {code : SockErr} {connected : Bool} (more : total < size)
    (ends : result.Ends) (failed : code ≠ .none)
    (lost : connected = false ↔ .received [] = result) (memory : ByteMemory) (results : List OsRecv)
    (onList : recvAllLoop (size - total) (result :: results) =
      some ⟨code, connected, [], results⟩) :
    Receives out size total memory (result :: results) [result]
      ⟨some code, total, connected, memory⟩ := by
  have nothing : delivered [result] = [] := by
    cases result with
    | received bytes => simpa [OsRecv.Ends, OsRecv.quiet, delivered, OsRecv.bytes] using ends
    | error errno => rfl
  refine ⟨.singleton (by simpa using more) (stops_singleton ends) results, ?_, ?_, ?_,
    more.le, ?_, ?_,
    ?_⟩
  · simpa using stops_singleton ends
  · rw [nothing]
    rfl
  · rw [nothing, ByteMemory.store_nil]
  · simp [failed, more.ne]
  · simpa only [List.mem_singleton] using lost
  · rw [nothing]
    exact onList

/-- A call that goes on after a result. -/
theorem Receives.next {result : OsRecv} {results used : List OsRecv} {run : RecvRun}
    (more : total < size) (goesOn : result.quiet = true)
    (rest : Receives out size (total + result.bytes.length)
      (memory.store (out + total) result.bytes) results used run)
    (onList : recvAllLoop (size - total) (result :: results) =
      (recvAllLoop (size - (total + result.bytes.length)) results).map fun outcome =>
        { outcome with got := result.bytes ++ outcome.got }) :
    Receives out size total memory (result :: results) (result :: used) run := by
  have waiting : ¬ RecvStops size total [] := by simpa using more
  have goes : ¬ result.Ends := not_not_intro goesOn
  have first : delivered (result :: used) = result.bytes ++ delivered used := List.flatMap_cons
  refine ⟨.cons waiting (stops_cons goes) rest.consumes,
    rest.returned.trans (stops_cons goes used).symm, ?_, ?_, rest.high, rest.done, ?_, ?_⟩
  · rw [rest.bytes, first, List.length_append, Nat.add_assoc]
  · rw [rest.stored, first, ← Nat.add_assoc, ByteMemory.store_append]
  · have open_ : .received [] ≠ result := by
      rintro rfl
      cases goesOn
    rw [rest.connected, List.mem_cons, or_iff_right open_]
  · rw [onList, rest.onList, Option.map_map, first]
    rfl

theorem receives_recvAllFrom (out : ℕ) {size total : ℕ} (memory : ByteMemory)
    {results : List OsRecv} (room : total ≤ size) (fits : RecvsFit size total results) :
    ∃ used, Receives out size total memory results used
      (recvAllFrom out size total memory results) := by
  induction results generalizing total memory with
  | nil =>
    unfold recvAllFrom
    split
    case isTrue more => exact ⟨[], .waiting more memory⟩
    case isFalse whole => exact ⟨[], .filled (by omega) memory []⟩
  | cons result results ih =>
    unfold recvAllFrom
    split
    case isFalse whole => exact ⟨[], .filled (by omega) memory _⟩
    case isTrue more =>
      obtain ⟨missing, left⟩ : ∃ missing, size - total = missing + 1 := ⟨size - total - 1, by omega⟩
      cases result with
      | received bytes =>
        obtain ⟨bound, fits⟩ := fits more
        dsimp only
        split
        case isTrue positive =>
          obtain ⟨used, rest⟩ := ih (memory.store (out + total) bytes) (by omega) (fits positive)
          have some_ : bytes ≠ [] := List.length_pos_iff.mp positive
          have goesOn : (OsRecv.received bytes).quiet = true := by simpa [OsRecv.quiet] using some_
          have behind : missing + 1 - bytes.length = size - (total + bytes.length) := by omega
          refine ⟨.received bytes :: used, .next more goesOn rest ?_⟩
          rw [left, recvAllLoop, if_neg some_, if_neg (by omega), behind]
          rfl
        case isFalse none =>
          obtain rfl : bytes = [] := List.eq_nil_of_length_eq_zero (by omega)
          have ends : (OsRecv.received []).Ends := Bool.false_ne_true
          refine ⟨[.received []], .ended more ends (by decide) (by simp) memory results ?_⟩
          rw [left, recvAllLoop, if_pos rfl]
      | error errno =>
        dsimp only
        split
        case isTrue interrupted =>
          obtain ⟨used, rest⟩ := ih memory room (fits interrupted)
          have goesOn : (OsRecv.error errno).quiet = true := by simpa [OsRecv.quiet] using interrupted
          have same : memory.store (out + total) (OsRecv.error errno).bytes = memory :=
            ByteMemory.store_nil _ _
          refine ⟨.error errno :: used, .next more goesOn (by rw [same]; exact rest) ?_⟩
          rw [left, recvAllLoop, if_pos interrupted, ← left]
          exact (Option.map_id' ..).symm
        case isFalse other =>
          have ends : (OsRecv.error errno).Ends := by simpa [OsRecv.Ends, OsRecv.quiet] using other
          refine ⟨[.error errno],
            .ended more ends (mapErr_ne_none errno) (by simp) memory results ?_⟩
          rw [left, recvAllLoop, if_neg other]

/-! ## Whole calls -/

theorem sendAllBuffer_eq (memory : ByteMemory) (ptr : ℕ) (positive : 0 < size)
    (limit : size ≤ 2 ^ 31 - 1) (results : List OsSend) :
    sendAllBuffer true memory ptr size results = sendAllFrom memory ptr size 0 results := by
  rw [sendAllBuffer, if_neg (by decide), if_neg (by omega), if_neg (by omega)]

theorem recvAllBuffer_eq (memory : ByteMemory) (out : ℕ) (positive : 0 < size)
    (limit : size ≤ 2 ^ 31 - 1) (results : List OsRecv) :
    recvAllBuffer true memory out size results = recvAllFrom out size 0 memory results := by
  rw [recvAllBuffer, if_neg (by decide), if_neg (by omega), if_neg (by omega)]

/-- `send_all` on a buffer is `send_all` on the list of its bytes, with the results that it uses. -/
theorem sendAll_eq_sendAllBuffer (memory : ByteMemory) (ptr : ℕ) (positive : 0 < size)
    (limit : size ≤ 2 ^ 31 - 1) {results : List OsSend} (fits : SendsFit size 0 results) :
    ∃ used, Consumes (SendStops size 0) results used ∧
      sendAll true (memory.load ptr size) used =
        (sendAllBuffer true memory ptr size results).code.map fun code =>
          ⟨code, (sendAllBuffer true memory ptr size results).connected,
            (sendAllBuffer true memory ptr size results).stream⟩ := by
  obtain ⟨used, sends⟩ := sends_sendAllFrom memory ptr (Nat.zero_le size) fits
  have checked : refuses true (memory.load ptr size) = none := by
    rw [refuses, ByteMemory.length_load, if_neg (by decide), if_neg (by omega), if_neg (by omega)]
  refine ⟨used, sends.consumes, ?_⟩
  rw [sendAllBuffer_eq memory ptr positive limit, sendAll, checked]
  exact sends.onList

/-- `recv_all` into a buffer is `recv_all` on the list of its bytes. -/
theorem recvAll_eq_recvAllBuffer (memory : ByteMemory) (out : ℕ) (positive : 0 < size)
    (limit : size ≤ 2 ^ 31 - 1) {results : List OsRecv} (fits : RecvsFit size 0 results) :
    ∃ used, Consumes (RecvStops size 0) results used ∧
      recvAll true size results =
        (recvAllBuffer true memory out size results).code.map fun code =>
          ⟨code, (recvAllBuffer true memory out size results).connected, delivered used,
            results.drop used.length⟩ := by
  obtain ⟨used, receives⟩ := receives_recvAllFrom out memory (Nat.zero_le size) fits
  refine ⟨used, receives.consumes, ?_⟩
  rw [recvAllBuffer_eq memory out positive limit, recvAll, if_neg (by decide), if_neg (by omega),
    if_neg (by omega)]
  exact receives.onList

/-- With any results of the operating system, each call uses the shortest part of them that fills
its buffer or ends it, and returns iff there is such a part. `send_all` hands over the first bytes
of its buffer, as many as the results stand for and as it reports; `recv_all` stores the bytes of
the results from the start of its buffer on, reports their number and touches no others. Both return
`None` iff that is the whole buffer, and give the connection up iff one of the results says so. -/
theorem send_all_recv_all_contiguous (memory : ByteMemory) (ptr : ℕ) {size : ℕ} (positive : 0 < size)
    (limit : size ≤ 2 ^ 31 - 1) :
    (∀ results, SendsFit size 0 results → ∃ used, Consumes (SendStops size 0) results used ∧
      let run := sendAllBuffer true memory ptr size results
      (run.code.isSome = true ↔ SendStops size 0 used) ∧ run.bytes = sent used ∧
        run.stream = memory.load ptr run.bytes ∧ run.bytes ≤ size ∧
        (run.code = some .none ↔ run.bytes = size) ∧
        (run.connected = false ↔ .sent 0 ∈ used ∨
          ∃ errno, .error errno ∈ used ∧ isFatalSendErr errno = true)) ∧
    (∀ results, RecvsFit size 0 results → ∃ used, Consumes (RecvStops size 0) results used ∧
      let run := recvAllBuffer true memory ptr size results
      (run.code.isSome = true ↔ RecvStops size 0 used) ∧
        run.bytes = (delivered used).length ∧ run.memory = memory.store ptr (delivered used) ∧
        run.bytes ≤ size ∧ (run.code = some .none ↔ run.bytes = size) ∧
        (run.connected = false ↔ .received [] ∈ used) ∧
        ∀ query, query < ptr ∨ ptr + run.bytes ≤ query → run.memory query = memory query) := by
  constructor
  · intro results fits
    obtain ⟨used, sends⟩ := sends_sendAllFrom memory ptr (Nat.zero_le size) fits
    refine ⟨used, sends.consumes, ?_⟩
    rw [sendAllBuffer_eq memory ptr positive limit]
    have bytes := sends.bytes
    rw [Nat.zero_add] at bytes
    refine ⟨sends.returned, bytes, ?_, sends.high, sends.done, sends.connected⟩
    rw [bytes]
    exact sends.stream
  · intro results fits
    obtain ⟨used, receives⟩ := receives_recvAllFrom ptr memory (Nat.zero_le size) fits
    refine ⟨used, receives.consumes, ?_⟩
    rw [recvAllBuffer_eq memory ptr positive limit]
    have bytes := receives.bytes
    have stored := receives.stored
    rw [Nat.zero_add] at bytes
    rw [Nat.add_zero] at stored
    refine ⟨receives.returned, bytes, stored, receives.high, receives.done, receives.connected, ?_⟩
    intro query outside
    rw [stored]
    exact ByteMemory.store_outside _ _ _ _ (by omega)

theorem send_all_recv_all_contiguous_three :
    (sendAllBuffer true (fun _ => 7) 100 3 [.sent 2, .error .eintr, .sent 1, .sent 0]).code =
        some .none ∧
      (recvAllBuffer true (fun _ => 7) 100 3 [.received [1, 2], .received []]).code ≠ some .none := by
  have both := send_all_recv_all_contiguous (fun _ => 7) 100 (show 0 < 3 by decide) (by decide)
  constructor
  · obtain ⟨_, _, _, _, _, _, done, _⟩ :=
      both.1 [.sent 2, .error .eintr, .sent 1, .sent 0] (by simp [SendsFit])
    exact done.mpr rfl
  · obtain ⟨_, _, _, _, _, _, done, _⟩ := both.2 [.received [1, 2], .received []] (by simp [RecvsFit])
    exact fun filled => absurd (done.mp filled) (by decide)

end TcpClient

end Eroil
