import Eroil.Lib.Machine
import Eroil.Model.LogThreads
import Eroil.Proofs.EventLog

/-! # What the event log prints while it is written

A writer marks the record as invalid before it touches it and puts its number there when it is
through; the reader takes a copy only if it finds the same number before and after. As long as no
call claims a slot that another call has not left yet, a line that is printed is that of one call,
as if the calls had run one after the other.
-/

namespace Eroil.EvtLog

open Lib

/-! ## The stores of a call -/

namespace Cell

theorem copy_comm (first second : Cell) (source target : EventRecord) :
    first.copy source (second.copy source target) =
      second.copy source (first.copy source target) := by
  cases first <;> cases second <;> try rfl
  next index other =>
    by_cases same : index = other
    · rw [same]
    · simp only [copy]
      rw [Function.update_comm same]

theorem copy_copy (cell : Cell) (source target : EventRecord) :
    cell.copy source (cell.copy source target) = cell.copy source target := by
  cases cell <;> try rfl
  simp only [copy, Function.update_idem]

@[simp] theorem copy_commitSeq (cell : Cell) (source target : EventRecord) :
    (cell.copy source target).commitSeq = target.commitSeq := by
  cases cell <;> rfl

/-- Storing some payload bytes. -/
private theorem foldl_payload (indices : List (Fin payloadBytes)) (source record : EventRecord) :
    ∃ payload, ((indices.map Cell.payload).map (⟨·, source⟩)).foldl CellStore.apply record =
        { record with payload := payload } ∧
      ∀ index, (index ∈ indices → payload index = source.payload index) ∧
        (index ∉ indices → payload index = record.payload index) := by
  induction indices generalizing record with
  | nil => exact ⟨record.payload, rfl, fun index => ⟨fun member => (List.not_mem_nil member).elim,
      fun _ => rfl⟩⟩
  | cons first rest ih =>
    obtain ⟨payload, stored, values⟩ := ih ((Cell.payload first).copy source record)
    refine ⟨payload, stored, fun index => ⟨fun member => ?_, fun missing => ?_⟩⟩
    · by_cases later : index ∈ rest
      · exact (values index).1 later
      · obtain rfl := (List.mem_cons.mp member).resolve_right later
        exact ((values index).2 later).trans (Function.update_self _ _ _)
    · obtain ⟨other, later⟩ := not_or.mp (mt List.mem_cons.mpr missing)
      exact ((values index).2 later).trans (Function.update_of_ne other _ _)

theorem foldl_payloads (source record : EventRecord) :
    (payloads.map (⟨·, source⟩)).foldl CellStore.apply record =
      { record with payload := source.payload } := by
  obtain ⟨payload, stored, values⟩ := foldl_payload (List.finRange payloadBytes) source record
  rw [payloads, stored, funext fun index => (values index).1 (List.mem_finRange index)]

end Cell

/-- All stores of a call together leave what the call does alone. -/
theorem EventLog.step_eq_stores (log : EventLog) (call : LogCall) :
    log.step call = log.commit
      { call.stores.foldl CellStore.apply (log.evtLogs log.slot) with commitSeq := log.seq } := by
  cases call with
  | payload event bytes now =>
    rcases bytes with _ | _ | ⟨byte, bytes⟩
    · simp only [LogCall.stores, List.foldl_append, List.map_cons, List.foldl_cons,
        Cell.foldl_payloads]
      rfl
    · simp only [LogCall.stores, List.foldl_append, List.map_cons, List.foldl_cons,
        Cell.foldl_payloads]
      rfl
    · simp only [LogCall.stores, List.foldl_append, List.map_cons, List.foldl_cons,
        Cell.foldl_payloads]
      rfl
  | hot event now => rfl
  | hotNoTime event => rfl

/-- The record is printed as the line of the call. -/
def LogCall.Shows (call : LogCall) (record : EventRecord) : Prop :=
  ∀ seq, recordText record seq = call.text seq.toNat

/-- Whatever was in the record, after the stores of a call it is printed as that call. -/
private theorem LogCall.shows_stores (call : LogCall) (record : EventRecord) :
    call.Shows (call.stores.foldl CellStore.apply record) := by
  obtain ⟨written, same, _, text⟩ := EventLog.step_spec ⟨1, 0, fun _ => record⟩ call
  rw [EventLog.step_eq_stores] at same
  have slot :=
    congrArg (fun log : EventLog => log.evtLogs (EventLog.slot ⟨1, 0, fun _ => record⟩)) same
  simp only [EventLog.commit, if_true] at slot
  intro seq
  rw [← text seq, ← slot]
  rfl

/-! ## The threads -/

/-- The number of a call that has one. -/
def WriterPc.number : WriterPc → Option UInt32
  | .called => none
  | .numbered seq => some seq
  | .claimed seq _ => some seq
  | .writing seq _ _ => some seq
  | .done seq _ => some seq

/-- The slot that a call is at work on. -/
def WriterPc.claim : WriterPc → Option ℕ
  | .claimed _ slot => some slot
  | .writing _ slot _ => some slot
  | _ => none

namespace LogThreads

variable {threads : LogThreads}

/-- The call has been through, with this number and in this slot. -/
def Finished (threads : LogThreads) (call : LogCall) (seq : UInt32) (slot : ℕ) : Prop :=
  ∃ index : ℕ, threads.writers[index]? = some ⟨call, .done seq slot⟩

/-- The numbers have not come round, and no call claims the slot that another one is at work on. -/
def Apart (threads : LogThreads) : Action → Prop
  | .write index => ∀ writer, threads.writers[index]? = some writer →
      (writer.pc = .called → threads.log.seq.toNat < 2 ^ 32 - 1) ∧
        ∀ seq, writer.pc = .numbered seq → ∀ other ∈ threads.writers,
          other.pc.claim ≠ some threads.log.slot
  | _ => True

/-- The calls have different numbers, and those at work have different slots. -/
structure Claims (threads : LogThreads) : Prop where
  started : 1 ≤ threads.log.seq.toNat
  numbered : ∀ (index : ℕ) writer seq, threads.writers[index]? = some writer →
    writer.pc.number = some seq → 1 ≤ seq.toNat ∧ seq.toNat < threads.log.seq.toNat
  distinct : ∀ (first second : ℕ) one other seq, threads.writers[first]? = some one →
    threads.writers[second]? = some other → one.pc.number = some seq →
    other.pc.number = some seq → first = second
  exclusive : ∀ (first second : ℕ) one other slot, threads.writers[first]? = some one →
    threads.writers[second]? = some other → one.pc.claim = some slot →
    other.pc.claim = some slot → first = second

/-- What the records hold: marked as invalid while a call writes, what its stores will make the line
of the call; and with a number, the line of the call that has it. -/
structure Records (threads : LogThreads) : Prop where
  writing : ∀ (index : ℕ) call seq slot left,
    threads.writers[index]? = some ⟨call, .writing seq slot left⟩ →
      (threads.log.evtLogs slot).commitSeq = 0 ∧
        call.Shows (left.foldl CellStore.apply (threads.log.evtLogs slot))
  committed : ∀ slot, (threads.log.evtLogs slot).commitSeq ≠ 0 →
    ∃ call, threads.Finished call (threads.log.evtLogs slot).commitSeq slot ∧
      call.Shows (threads.log.evtLogs slot)

/-- The reader has a faithful copy as long as the number stands, and has printed calls that were
through, slot after slot. -/
structure Reads (threads : LogThreads) : Prop where
  copying : ∀ index seq snapshot copied, threads.reader = .copying index seq snapshot copied →
    seq ≠ 0 ∧ (∃ call, threads.Finished call seq index) ∧
      ((threads.log.evtLogs index).commitSeq = seq →
        ∀ cell ∈ copied, cell.copy (threads.log.evtLogs index) snapshot = snapshot)
  printed : ∀ line ∈ threads.printed,
    ∃ call, threads.Finished call line.seq line.index ∧ line.text = call.text line.seq.toNat
  ordered : (threads.printed.map Line.index).Pairwise (· < ·)
  behind : ∀ line ∈ threads.printed,
    (∀ index, threads.reader = .looking index → line.index < index) ∧
      ∀ index seq snapshot copied, threads.reader = .copying index seq snapshot copied →
        line.index < index

/-! ## A call goes on -/

/-- The writers after one of them has gone on. -/
theorem lookup_set {writers : List Writer} {index : ℕ} {old new : Writer}
    (found : writers[index]? = some old) {other : ℕ} {writer : Writer} :
    (writers.set index new)[other]? = some writer ↔
      other = index ∧ writer = new ∨ other ≠ index ∧ writers[other]? = some writer := by
  rw [List.getElem?_set]
  have inside := (List.getElem?_eq_some_iff.mp found).1
  by_cases same : index = other
  · subst same
    simp [inside, eq_comm]
  · simp [same, Ne.symm same]

/-- A call that was not through leaves those that were. -/
theorem Finished.set {index : ℕ} {old new : Writer} (found : threads.writers[index]? = some old)
    (open_ : ∀ seq slot, old.pc ≠ .done seq slot) {call : LogCall} {seq : UInt32} {slot : ℕ}
    (finished : threads.Finished call seq slot) {log : EventLog} :
    Finished { threads with log := log, writers := threads.writers.set index new } call seq slot := by
  obtain ⟨place, entry⟩ := finished
  refine ⟨place, (lookup_set found).mpr (.inr ⟨?_, entry⟩)⟩
  rintro rfl
  cases found.symm.trans entry
  exact open_ seq slot rfl

/-- What one step of a call does to the log and where it gets. -/
inductive Goes (log : EventLog) (call : LogCall) : WriterPc → EventLog → WriterPc → Prop
  | number : Goes log call .called { log with seq := log.seq + 1 } (.numbered log.seq)
  | claim (seq : UInt32) :
      Goes log call (.numbered seq) { log with idx := wrap64 (log.idx + 1) } (.claimed seq log.slot)
  | mark (seq : UInt32) (slot : ℕ) :
      Goes log call (.claimed seq slot)
        (setRecord log slot { log.evtLogs slot with commitSeq := 0 }) (.writing seq slot call.stores)
  | store (seq : UInt32) (slot : ℕ) (store : CellStore) (left : List CellStore) :
      Goes log call (.writing seq slot (store :: left))
        (setRecord log slot (store.apply (log.evtLogs slot))) (.writing seq slot left)
  | commit (seq : UInt32) (slot : ℕ) :
      Goes log call (.writing seq slot [])
        (setRecord log slot { log.evtLogs slot with commitSeq := seq }) (.done seq slot)

theorem write_cases (threads : LogThreads) (index : ℕ) :
    threads.write index = threads ∨ ∃ writer log pc, threads.writers[index]? = some writer ∧
      Goes threads.log writer.call writer.pc log pc ∧ threads.write index =
        { threads with
          log := log
          writers := threads.writers.set index { writer with pc := pc } } := by
  unfold write
  split
  · exact .inl rfl
  · next writer found =>
    obtain ⟨call, pc⟩ := writer
    cases pc with
    | called => exact .inr ⟨_, _, _, found, .number, rfl⟩
    | numbered seq => exact .inr ⟨_, _, _, found, .claim seq, rfl⟩
    | claimed seq slot => exact .inr ⟨_, _, _, found, .mark seq slot, rfl⟩
    | writing seq slot left =>
      cases left with
      | nil => exact .inr ⟨_, _, _, found, .commit seq slot, rfl⟩
      | cons store left => exact .inr ⟨_, _, _, found, .store seq slot store left, rfl⟩
    | done seq slot => exact .inl rfl

namespace Goes

variable {log after : EventLog} {call : LogCall} {pc later : WriterPc}

theorem not_done (goes : Goes log call pc after later) (seq : UInt32) (slot : ℕ) :
    pc ≠ .done seq slot := by
  rintro rfl
  cases goes

private theorem number_cases (goes : Goes log call pc after later) :
    (pc = .called ∧ later.number = some log.seq ∧ after.seq = log.seq + 1) ∨
      (later.number = pc.number ∧ after.seq = log.seq) := by
  cases goes with
  | number => exact .inl ⟨rfl, rfl, rfl⟩
  | claim | mark | store | commit => exact .inr ⟨rfl, rfl⟩

private theorem claim_cases (goes : Goes log call pc after later) {slot : ℕ}
    (claimed : later.claim = some slot) :
    pc.claim = some slot ∨ (∃ seq, pc = .numbered seq) ∧ slot = log.slot := by
  cases goes with
  | number | commit => cases claimed
  | claim seq =>
    cases claimed
    exact .inr ⟨⟨seq, rfl⟩, rfl⟩
  | mark | store => exact .inl claimed

end Goes

theorem Claims.write (claims : Claims threads) {index : ℕ} (apart : threads.Apart (.write index)) :
    Claims (threads.write index) := by
  rcases write_cases threads index with same | ⟨writer, log, pc, found, goes, same⟩
  · rw [same]
    exact claims
  rw [same]
  obtain ⟨room, free⟩ := apart writer found
  -- The number of the call that goes on is the one it had, or the next of `m_seq`.
  have numbers : (pc.number = some threads.log.seq ∧ log.seq.toNat = threads.log.seq.toNat + 1) ∨
      (pc.number = writer.pc.number ∧ log.seq = threads.log.seq) := by
    refine goes.number_cases.imp_left ?_
    rintro ⟨called, number, next⟩
    refine ⟨number, ?_⟩
    have small := room called
    rw [next, UInt32.toNat_add, UInt32.toNat_one]
    omega
  have numberClash {other : ℕ} {entry : Writer} {seq : UInt32} (different : other ≠ index)
      (place : threads.writers[other]? = some entry) (theirs : entry.pc.number = some seq)
      (ours : pc.number = some seq) : False := by
    rcases numbers with ⟨fresh, _⟩ | ⟨kept, _⟩
    · cases fresh.symm.trans ours
      exact Nat.lt_irrefl _ (claims.numbered other entry _ place theirs).2
    · exact different (claims.distinct _ _ _ _ seq place found theirs (kept.symm.trans ours))
  have claimClash {other : ℕ} {entry : Writer} {slot : ℕ} (different : other ≠ index)
      (place : threads.writers[other]? = some entry) (theirs : entry.pc.claim = some slot)
      (ours : pc.claim = some slot) : False := by
    rcases goes.claim_cases ours with before | ⟨⟨seq, numbered⟩, rfl⟩
    · exact different (claims.exclusive _ _ _ _ slot place found theirs before)
    · exact free seq numbered entry (List.mem_of_getElem? place) theirs
  refine ⟨?_, ?_, ?_, ?_⟩
  · rcases numbers with ⟨_, next⟩ | ⟨_, next⟩
    · exact next ▸ Nat.le_add_left 1 _
    · exact next ▸ claims.started
  · intro other entry seq place number
    show 1 ≤ seq.toNat ∧ seq.toNat < log.seq.toNat
    rcases (lookup_set found).mp place with ⟨rfl, rfl⟩ | ⟨_, place⟩
    · rcases numbers with ⟨fresh, next⟩ | ⟨kept, next⟩
      · cases fresh.symm.trans number
        exact ⟨claims.started, by omega⟩
      · rw [next]
        exact claims.numbered other writer seq found (kept.symm.trans number)
    · obtain ⟨positive, small⟩ := claims.numbered other entry seq place number
      refine ⟨positive, ?_⟩
      rcases numbers with ⟨_, next⟩ | ⟨_, next⟩
      · omega
      · rwa [next]
  · intro first second one other seq here there oneNumber otherNumber
    rcases (lookup_set found).mp here with ⟨rfl, rfl⟩ | ⟨differs, onePlace⟩ <;>
      rcases (lookup_set found).mp there with ⟨rfl, rfl⟩ | ⟨different, otherPlace⟩
    · rfl
    · exact (numberClash different otherPlace otherNumber oneNumber).elim
    · exact (numberClash differs onePlace oneNumber otherNumber).elim
    · exact claims.distinct _ _ _ _ seq onePlace otherPlace oneNumber otherNumber
  · intro first second one other slot here there oneClaim otherClaim
    rcases (lookup_set found).mp here with ⟨rfl, rfl⟩ | ⟨differs, onePlace⟩ <;>
      rcases (lookup_set found).mp there with ⟨rfl, rfl⟩ | ⟨different, otherPlace⟩
    · rfl
    · exact (claimClash different otherPlace otherClaim oneClaim).elim
    · exact (claimClash differs onePlace oneClaim otherClaim).elim
    · exact claims.exclusive _ _ _ _ slot onePlace otherPlace oneClaim otherClaim

/-- A new call has no number and no slot. -/
theorem lookup_call {call : LogCall} {index : ℕ} {writer : Writer}
    (place : (threads.step (.call call)).writers[index]? = some writer)
    (known : writer.pc ≠ .called) : threads.writers[index]? = some writer := by
  simp only [step, List.getElem?_append] at place
  split at place
  · exact place
  · cases List.mem_singleton.mp (List.mem_of_getElem? place)
    exact absurd rfl known

theorem Finished.call {call : LogCall} {seq : UInt32} {slot : ℕ}
    (finished : threads.Finished call seq slot) (next : LogCall) :
    Finished (threads.step (.call next)) call seq slot := by
  obtain ⟨index, place⟩ := finished
  exact ⟨index, List.getElem?_append_left (List.getElem?_eq_some_iff.mp place).1 ▸ place⟩

theorem Claims.call (claims : Claims threads) (call : LogCall) :
    Claims (threads.step (.call call)) := by
  have numbered {index : ℕ} {writer : Writer} {seq : UInt32}
      (place : (threads.step (.call call)).writers[index]? = some writer)
      (number : writer.pc.number = some seq) : threads.writers[index]? = some writer := by
    refine lookup_call place ?_
    intro called
    rw [called] at number
    cases number
  have claimed {index : ℕ} {writer : Writer} {slot : ℕ}
      (place : (threads.step (.call call)).writers[index]? = some writer)
      (claim : writer.pc.claim = some slot) : threads.writers[index]? = some writer := by
    refine lookup_call place ?_
    intro called
    rw [called] at claim
    cases claim
  refine ⟨claims.started, ?_, ?_, ?_⟩
  · intro index writer seq place number
    exact claims.numbered index writer seq (numbered place number) number
  · intro first second one other seq here there oneNumber otherNumber
    exact claims.distinct first second one other seq (numbered here oneNumber)
      (numbered there otherNumber) oneNumber otherNumber
  · intro first second one other slot here there oneClaim otherClaim
    exact claims.exclusive first second one other slot (claimed here oneClaim)
      (claimed there otherClaim) oneClaim otherClaim

theorem evtLogs_setRecord (log : EventLog) (slot query : ℕ) (record : EventRecord) :
    (setRecord log slot record).evtLogs query =
      if query = slot then record else log.evtLogs query :=
  Function.update_apply ..

theorem Records.call (records : Records threads) (call : LogCall) :
    Records (threads.step (.call call)) where
  writing index other seq slot left place :=
    records.writing index other seq slot left (lookup_call place (by rintro ⟨⟩))
  committed slot numbered := by
    obtain ⟨other, finished, shows_⟩ := records.committed slot numbered
    exact ⟨other, finished.call call, shows_⟩

/-- A call at work on a slot stores something in its record, which stays marked. -/
theorem Records.rewrite (records : Records threads) (claims : Claims threads) {index slot : ℕ}
    {call : LogCall} {before : WriterPc} (found : threads.writers[index]? = some ⟨call, before⟩)
    (claim : before.claim = some slot) {record : EventRecord} {left : List CellStore}
    (marked : record.commitSeq = 0) (coming : call.Shows (left.foldl CellStore.apply record))
    (seq : UInt32) :
    Records { threads with
      log := setRecord threads.log slot record
      writers := threads.writers.set index ⟨call, .writing seq slot left⟩ } where
  writing other entry number query rest place := by
    rw [evtLogs_setRecord]
    rcases (lookup_set found).mp place with ⟨rfl, ⟨⟩⟩ | ⟨different, older⟩
    · rw [if_pos rfl]
      exact ⟨marked, coming⟩
    · rw [if_neg]
      · exact records.writing other entry number query rest older
      · rintro rfl
        exact different (claims.exclusive _ _ _ _ query older found rfl claim)
  committed query numbered := by
    rw [evtLogs_setRecord] at numbered ⊢
    split at numbered
    · exact absurd marked numbered
    · next different =>
      rw [if_neg different]
      obtain ⟨other, through, shows_⟩ := records.committed query numbered
      refine ⟨other, through.set found ?_, shows_⟩
      rintro _ _ rfl
      cases claim

theorem Records.write (records : Records threads) (claims : Claims threads) (index : ℕ) :
    Records (threads.write index) := by
  rcases write_cases threads index with same | ⟨⟨call, before⟩, log, pc, found, goes, same⟩
  · rw [same]
    exact records
  have finished {other : LogCall} {seq : UInt32} {slot : ℕ}
      (through : threads.Finished other seq slot) :
      Finished { threads with log := log, writers := threads.writers.set index ⟨call, pc⟩ }
        other seq slot := through.set found goes.not_done
  rw [same]
  dsimp only at goes
  cases goes with
  | number | claim seq =>
    refine ⟨?_, ?_⟩
    · intro other entry seq slot left place
      rcases (lookup_set found).mp place with ⟨_, ⟨⟩⟩ | ⟨_, older⟩
      exact records.writing other entry seq slot left older
    · intro slot numbered
      obtain ⟨other, through, shows_⟩ := records.committed slot numbered
      exact ⟨other, finished through, shows_⟩
  | mark seq slot => exact records.rewrite claims found rfl rfl (call.shows_stores _) seq
  | store seq slot store left =>
    obtain ⟨marked, coming⟩ := records.writing index call seq slot _ found
    exact records.rewrite claims found rfl ((Cell.copy_commitSeq ..).trans marked) coming seq
  | commit seq slot =>
    obtain ⟨_, complete⟩ := records.writing index call seq slot [] found
    refine ⟨?_, ?_⟩
    · intro other entry number query left place
      rw [evtLogs_setRecord]
      rcases (lookup_set found).mp place with ⟨_, ⟨⟩⟩ | ⟨different, older⟩
      rw [if_neg]
      · exact records.writing other entry number query left older
      · rintro rfl
        exact different (claims.exclusive _ _ _ _ query older found rfl rfl)
    · intro query numbered
      rw [evtLogs_setRecord] at numbered ⊢
      by_cases here : query = slot
      · subst here
        rw [if_pos rfl]
        exact ⟨call, ⟨index, (lookup_set found).mpr (.inl ⟨rfl, rfl⟩)⟩, complete⟩
      · rw [if_neg here] at numbered ⊢
        obtain ⟨other, through, shows_⟩ := records.committed query numbered
        exact ⟨other, finished through, shows_⟩

/-! ## The reader -/

/-- A complete copy is printed like the record. -/
theorem recordText_copied {record snapshot : EventRecord}
    (copied : ∀ cell ∈ Cell.all, cell.copy record snapshot = snapshot) (seq : UInt32) :
    recordText snapshot seq = recordText record seq := by
  have tick : record.tick = snapshot.tick := congrArg (·.tick) (copied .tick (by decide))
  have a : record.a = snapshot.a := congrArg (·.a) (copied .a (by decide))
  have b : record.b = snapshot.b := congrArg (·.b) (copied .b (by decide))
  have c : record.c = snapshot.c := congrArg (·.c) (copied .c (by decide))
  have kind : record.kind = snapshot.kind := congrArg (·.kind) (copied .kind (by decide))
  have severity : record.severity = snapshot.severity :=
    congrArg (·.severity) (copied .severity (by decide))
  have category : record.category = snapshot.category :=
    congrArg (·.category) (copied .category (by decide))
  have flags : record.flags = snapshot.flags := congrArg (·.flags) (copied .flags (by decide))
  have payloadLen : record.payloadLen = snapshot.payloadLen :=
    congrArg (·.payloadLen) (copied .payloadLen (by decide))
  have payload : record.payload = snapshot.payload := by
    funext index
    have byte := congrArg (fun record => record.payload index)
      (copied (.payload index) (by simp [Cell.all, Cell.payloads]))
    simpa [Cell.copy] using byte
  unfold recordText
  rw [tick, a, b, c, kind, severity, category, flags, payloadLen, payload]

/-- The number of a call that has been through comes to no other record. -/
private theorem Claims.not_committed (claims : Claims threads) {index : ℕ} {writer : Writer}
    {seq : UInt32}
    (found : threads.writers[index]? = some writer) (number : writer.pc.number = some seq)
    (open_ : ∀ seq slot, writer.pc ≠ .done seq slot) {call : LogCall} {slot : ℕ} :
    ¬ threads.Finished call seq slot := by
  rintro ⟨other, place⟩
  obtain rfl := claims.distinct _ _ _ _ seq found place number rfl
  cases found.symm.trans place
  exact open_ seq slot rfl

theorem Reads.write (reads : Reads threads) (claims : Claims threads) (records : Records threads)
    (index : ℕ) : Reads (threads.write index) := by
  rcases write_cases threads index with same | ⟨⟨call, before⟩, log, pc, found, goes, same⟩
  · rw [same]
    exact reads
  have finished {other : LogCall} {seq : UInt32} {slot : ℕ}
      (through : threads.Finished other seq slot) :
      Finished { threads with log := log, writers := threads.writers.set index ⟨call, pc⟩ }
        other seq slot := through.set found goes.not_done
  -- The number stands only in a record that the call leaves alone.
  have stands {query : ℕ} {seq : UInt32} {other : LogCall} (numbered : seq ≠ 0)
      (through : threads.Finished other seq query) (holds : (log.evtLogs query).commitSeq = seq) :
      log.evtLogs query = threads.log.evtLogs query := by
    dsimp only at goes
    cases goes with
    | number | claim => rfl
    | mark own slot =>
      rw [evtLogs_setRecord] at holds ⊢
      split at holds
      · exact absurd holds.symm numbered
      · next different => exact if_neg different
    | store own slot store left =>
      rw [evtLogs_setRecord] at holds ⊢
      split at holds
      · have marked := (records.writing index call own slot _ found).1
        exact absurd (holds.symm.trans ((Cell.copy_commitSeq ..).trans marked)) numbered
      · next different => exact if_neg different
    | commit own slot =>
      rw [evtLogs_setRecord] at holds ⊢
      split at holds
      · cases holds
        exact absurd through (claims.not_committed found rfl (by rintro _ _ ⟨⟩))
      · next different => exact if_neg different
  rw [same]
  refine ⟨?_, ?_, reads.ordered, reads.behind⟩
  · intro query seq snapshot copied reader
    obtain ⟨numbered, ⟨other, through⟩, copies⟩ := reads.copying query seq snapshot copied reader
    refine ⟨numbered, ⟨other, finished through⟩, fun same => ?_⟩
    have kept := stands numbered through same
    rw [kept] at same ⊢
    exact copies same
  · intro line member
    obtain ⟨other, through, text⟩ := reads.printed line member
    exact ⟨other, finished through, text⟩

theorem Reads.call (reads : Reads threads) (call : LogCall) : Reads (threads.step (.call call)) where
  copying index seq snapshot copied reader := by
    obtain ⟨numbered, ⟨other, through⟩, copies⟩ := reads.copying index seq snapshot copied reader
    exact ⟨numbered, ⟨other, through.call call⟩, copies⟩
  printed line member := by
    obtain ⟨other, through, text⟩ := reads.printed line member
    exact ⟨other, through.call call, text⟩
  ordered := reads.ordered
  behind := reads.behind

/-- The pass goes on to another place. -/
theorem Reads.moves (reads : Reads threads) {reader : ReaderPc}
    (copying : ∀ index seq snapshot copied, reader = .copying index seq snapshot copied →
      seq ≠ 0 ∧ (∃ call, threads.Finished call seq index) ∧
        ((threads.log.evtLogs index).commitSeq = seq →
          ∀ cell ∈ copied, cell.copy (threads.log.evtLogs index) snapshot = snapshot))
    (behind : ∀ line ∈ threads.printed,
      (∀ index, reader = .looking index → line.index < index) ∧
        ∀ index seq snapshot copied, reader = .copying index seq snapshot copied →
          line.index < index) : Reads { threads with reader := reader } where
  copying := copying
  printed := reads.printed
  ordered := reads.ordered
  behind := behind

theorem Reads.look (reads : Reads threads) (records : Records threads) : Reads threads.look := by
  unfold LogThreads.look
  split
  · next index here =>
    have behind (line : Line) (member : line ∈ threads.printed) : line.index < index :=
      (reads.behind line member).1 index here
    split
    · dsimp only
      split
      · refine reads.moves (by rintro _ _ _ _ ⟨⟩) fun line member => ⟨?_, by rintro _ _ _ _ ⟨⟩⟩
        rintro _ ⟨⟩
        exact Nat.lt_succ_of_lt (behind line member)
      · next numbered =>
        refine reads.moves ?_ fun line member => ⟨by rintro _ ⟨⟩, ?_⟩
        · rintro _ _ _ _ ⟨⟩
          obtain ⟨call, through, _⟩ := records.committed index numbered
          exact ⟨numbered, ⟨call, through⟩, fun _ _ member => by cases member⟩
        · rintro _ _ _ _ ⟨⟩
          exact behind line member
    · exact reads
  · exact reads

theorem Reads.copy (reads : Reads threads) (cell : Cell) : Reads (threads.copy cell) := by
  unfold LogThreads.copy
  split
  · exact reads
  · next index seq snapshot copied here =>
    obtain ⟨numbered, through, copies⟩ := reads.copying index seq snapshot copied here
    refine reads.moves ?_ fun line member => ⟨by rintro _ ⟨⟩, ?_⟩
    · rintro _ _ _ _ ⟨⟩
      refine ⟨numbered, through, fun same => ?_⟩
      intro other member
      rcases List.mem_cons.mp member with rfl | earlier
      · exact Cell.copy_copy ..
      · rw [Cell.copy_comm, copies same other earlier]
    · rintro _ _ _ _ ⟨⟩
      exact (reads.behind line member).2 index seq snapshot copied here

theorem Reads.confirm (reads : Reads threads) (records : Records threads) :
    Reads threads.confirm := by
  unfold LogThreads.confirm
  split
  · exact reads
  · next index seq snapshot copied here =>
    obtain ⟨numbered, _, copies⟩ := reads.copying index seq snapshot copied here
    have behind (line : Line) (member : line ∈ threads.printed) : line.index < index :=
      (reads.behind line member).2 index seq snapshot copied here
    split
    · next complete =>
      split
      · refine reads.moves (by rintro _ _ _ _ ⟨⟩) fun line member => ⟨?_, by rintro _ _ _ _ ⟨⟩⟩
        rintro _ ⟨⟩
        exact Nat.lt_succ_of_lt (behind line member)
      · next same =>
        have same : (threads.log.evtLogs index).commitSeq = seq := (not_not.mp same).symm
        obtain ⟨call, through, shows_⟩ := records.committed index (same ▸ numbered)
        rw [same] at through
        have text : recordText snapshot seq = call.text seq.toNat :=
          (recordText_copied (fun cell member => copies same cell (complete cell member)) seq).trans
            (shows_ seq)
        refine ⟨by rintro _ _ _ _ ⟨⟩, ?_, ?_, ?_⟩
        · intro line member
          rcases List.mem_append.mp member with earlier | last
          · exact reads.printed line earlier
          · cases List.mem_singleton.mp last
            exact ⟨call, through, text⟩
        · rw [List.map_append, List.pairwise_append]
          refine ⟨reads.ordered, by simp, ?_⟩
          intro earlier member last final
          obtain ⟨line, printed, rfl⟩ := List.mem_map.mp member
          cases List.mem_singleton.mp final
          exact behind line printed
        · intro line member
          refine ⟨?_, by rintro _ _ _ _ ⟨⟩⟩
          rintro _ ⟨⟩
          rcases List.mem_append.mp member with earlier | last
          · exact Nat.lt_succ_of_lt (behind line earlier)
          · cases List.mem_singleton.mp last
            exact Nat.lt_succ_self index
    · exact reads

/-! ## Runs -/

structure Sound (threads : LogThreads) : Prop where
  claims : Claims threads
  records : Records threads
  reads : Reads threads

theorem Sound.initial : Sound initial where
  claims := ⟨le_rfl, by rintro _ _ _ ⟨⟩, by rintro _ _ _ _ _ ⟨⟩, by rintro _ _ _ _ _ ⟨⟩⟩
  records := ⟨by rintro _ _ _ _ _ ⟨⟩, fun _ numbered => absurd rfl numbered⟩
  reads := ⟨by rintro _ _ _ _ ⟨⟩, by rintro _ ⟨⟩, .nil, by rintro _ ⟨⟩⟩

/-- The reader leaves the log and the calls alone. -/
theorem Sound.reader {after : LogThreads} (sound : Sound threads) (log : after.log = threads.log)
    (writers : after.writers = threads.writers) (reads : Reads after) : Sound after := by
  obtain ⟨log', writers', reader, printed⟩ := after
  dsimp only at log writers
  subst log writers
  obtain ⟨claims, records, -⟩ := sound
  exact
    { claims := ⟨claims.started, claims.numbered, claims.distinct, claims.exclusive⟩
      records := ⟨records.writing, records.committed⟩
      reads := reads }

theorem look_fields (threads : LogThreads) :
    threads.look.log = threads.log ∧ threads.look.writers = threads.writers := by
  unfold look
  split
  · split <;> exact ⟨rfl, rfl⟩
  · exact ⟨rfl, rfl⟩

theorem copy_fields (threads : LogThreads) (cell : Cell) :
    (threads.copy cell).log = threads.log ∧ (threads.copy cell).writers = threads.writers := by
  unfold copy
  split <;> exact ⟨rfl, rfl⟩

theorem confirm_fields (threads : LogThreads) :
    threads.confirm.log = threads.log ∧ threads.confirm.writers = threads.writers := by
  unfold confirm
  split
  · exact ⟨rfl, rfl⟩
  · split <;> exact ⟨rfl, rfl⟩

theorem Sound.step (sound : Sound threads) (action : Action) (apart : threads.Apart action) :
    Sound (threads.step action) := by
  have ⟨claims, records, reads⟩ := sound
  cases action with
  | call call => exact ⟨claims.call call, records.call call, reads.call call⟩
  | write index =>
    exact ⟨claims.write apart, records.write claims index, reads.write claims records index⟩
  | look => exact sound.reader (look_fields _).1 (look_fields _).2 (reads.look records)
  | copy cell => exact sound.reader (copy_fields _ cell).1 (copy_fields _ cell).2 (reads.copy cell)
  | confirm => exact sound.reader (confirm_fields _).1 (confirm_fields _).2 (reads.confirm records)

/-- While any number of threads log, `write_evtlog` prints whole lines of calls that are through, at
most one of each call: as long as no call claims the slot of a call that is still at work, and fewer
than `2 ^ 32 - 1` numbers have been given out. -/
theorem lines_whole (run : Reaches step Apart initial threads) :
    (∀ line ∈ threads.printed, ∃ call, threads.Finished call line.seq line.index ∧
      line.text = call.text line.seq.toNat) ∧
    (threads.printed.map Line.seq).Nodup := by
  have sound := run.invariant Sound .initial fun _ action sound apart => sound.step action apart
  refine ⟨sound.reads.printed, ?_⟩
  have ordered := List.pairwise_map.mp sound.reads.ordered
  refine List.pairwise_map.mpr (ordered.imp_of_mem ?_)
  intro first second here there before same
  obtain ⟨_, ⟨one, oneEntry⟩, _⟩ := sound.reads.printed first here
  obtain ⟨_, ⟨other, otherEntry⟩, _⟩ := sound.reads.printed second there
  obtain rfl := sound.claims.distinct _ _ _ _ second.seq oneEntry otherEntry (congrArg some same) rfl
  have entry := oneEntry.symm.trans otherEntry
  simp only [Option.some.injEq, Writer.mk.injEq, WriterPc.done.injEq] at entry
  exact Nat.ne_of_lt before entry.2.2

/-- One call that writes its record, while the reader takes a copy of an earlier one. -/
def overlapping : List Action :=
  Action.call (.hot (eventOf .router) 7) :: List.replicate 13 (.write 0) ++
    [.look, .call (.hotNoTime (eventOf .socket)), .write 1, .write 1, .write 1] ++
    Cell.all.map .copy ++ [.write 1, .confirm]

/-- No call is at work on the slot that is given out next. -/
def checkApart (threads : LogThreads) : Action → Bool
  | .write _ => threads.log.seq.toNat < 2 ^ 32 - 1 &&
      threads.writers.all fun writer => writer.pc.claim != some threads.log.slot
  | _ => true

private theorem checkApart_sound (threads : LogThreads) (action : Action)
    (passes : threads.checkApart action = true) : threads.Apart action := by
  cases action with
  | write index =>
    simp only [checkApart, Bool.and_eq_true, decide_eq_true_eq, List.all_eq_true,
      bne_iff_ne] at passes
    intro writer _
    exact ⟨fun _ => passes.1, fun _ _ => passes.2⟩
  | call | look | copy | confirm => trivial

theorem lines_whole_overlapping :
    (overlapping.foldl step initial).printed.map Line.seq = [1] ∧
      ∃ line ∈ (overlapping.foldl step initial).printed, ∃ call : LogCall,
        line.text = call.text line.seq.toNat := by
  have run : Reaches step Apart initial (overlapping.foldl step initial) :=
    .of_allSteps checkApart_sound overlapping initial (by decide +kernel)
  have printed : (overlapping.foldl step initial).printed.map Line.seq = [1] := by decide +kernel
  obtain ⟨line, member, _⟩ := List.mem_map.mp (printed ▸ List.mem_singleton_self 1)
  obtain ⟨call, _, text⟩ := (lines_whole run).1 line member
  exact ⟨printed, line, member, call, text⟩

/-! ## Threads that do not disturb each other -/

/-- The number of a record plays no part in the stores to its other members. -/
private theorem foldl_commitSeq (stores : List CellStore) (record : EventRecord) (seq : UInt32) :
    stores.foldl CellStore.apply { record with commitSeq := seq } =
      { stores.foldl CellStore.apply record with commitSeq := seq } := by
  induction stores generalizing record with
  | nil => rfl
  | cons store rest ih =>
    rw [List.foldl_cons, List.foldl_cons, ← ih]
    congr 1
    obtain ⟨cell, source⟩ := store
    cases cell <;> rfl

/-- A call goes on with these stores one after the other. -/
private theorem write_stores (threads : LogThreads) {index : ℕ} {call : LogCall}
    {seq : UInt32} {slot : ℕ}
    {left : List CellStore} (found : threads.writers[index]? = some ⟨call, .writing seq slot left⟩) :
    (List.replicate left.length (.write index)).foldl step threads =
      { threads with
        log := setRecord threads.log slot (left.foldl CellStore.apply (threads.log.evtLogs slot))
        writers := threads.writers.set index ⟨call, .writing seq slot []⟩ } := by
  have inside := (List.getElem?_eq_some_iff.mp found).1
  induction left generalizing threads with
  | nil =>
    have record : setRecord threads.log slot (threads.log.evtLogs slot) = threads.log := by
      rw [setRecord, Function.update_eq_self]
    have entry : threads.writers.set index ⟨call, .writing seq slot []⟩ = threads.writers := by
      rw [← (List.getElem?_eq_some_iff.mp found).2, List.set_getElem_self]
    simp only [List.length_nil, List.replicate_zero, List.foldl_nil, record, entry]
  | cons store left ih =>
    let next : LogThreads :=
      { threads with
        log := setRecord threads.log slot (store.apply (threads.log.evtLogs slot))
        writers := threads.writers.set index ⟨call, .writing seq slot left⟩ }
    have first : threads.step (.write index) = next := by
      simp only [step, write, found, next]
    rw [List.length_cons, List.replicate_succ, List.foldl_cons, first,
      ih next ((lookup_set found).mpr (.inl ⟨rfl, rfl⟩)) (by simpa [next] using inside)]
    simp only [next, setRecord, Function.update_self, Function.update_idem, List.set_set,
      List.foldl_cons]

/-- The steps of a call that nobody disturbs. -/
def callSteps (index : ℕ) (call : LogCall) : List Action :=
  .call call :: List.replicate (call.stores.length + 4) (.write index)

private theorem run_callSteps (threads : LogThreads) (call : LogCall) :
    ∃ writer, (callSteps threads.writers.length call).foldl step threads =
      { threads with log := threads.log.step call, writers := threads.writers ++ [writer] } := by
  have length (writer : Writer) :
      (threads.writers ++ [writer])[threads.writers.length]? = some writer :=
    List.getElem?_concat_length
  have replaced (old new : Writer) :
      (threads.writers ++ [old]).set threads.writers.length new = threads.writers ++ [new] := by
    simp
  let counted : EventLog :=
    { threads.log with seq := threads.log.seq + 1, idx := wrap64 (threads.log.idx + 1) }
  let marked : LogThreads :=
    { threads with
      log := setRecord counted threads.log.slot
        { threads.log.evtLogs threads.log.slot with commitSeq := 0 }
      writers := threads.writers ++
        [⟨call, .writing threads.log.seq threads.log.slot call.stores⟩] }
  have begins : (List.replicate 3 (.write threads.writers.length)).foldl step
      (threads.step (.call call)) = marked := by
    simp only [List.replicate_succ, List.replicate_zero, List.foldl_cons, List.foldl_nil, step, write,
      length, replaced]
    rfl
  refine ⟨⟨call, .done threads.log.seq threads.log.slot⟩, ?_⟩
  have steps : call.stores.length + 4 = 3 + call.stores.length + 1 := by omega
  rw [callSteps, List.foldl_cons, steps, List.replicate_add, List.replicate_add, List.foldl_append,
    List.foldl_append, begins, write_stores marked (length _), EventLog.step_eq_stores]
  simp only [List.replicate_succ, List.replicate_zero, List.foldl_cons, List.foldl_nil, step, write,
    marked, replaced, length, setRecord, Function.update_self, Function.update_idem,
    foldl_commitSeq, EventLog.commit]
  congr 2
  funext query
  rw [Function.update_apply]

/-- Calls one after the other, the first of them the writer at `index`. -/
def serialSteps (index : ℕ) : List LogCall → List Action
  | [] => []
  | call :: calls => callSteps index call ++ serialSteps (index + 1) calls

private theorem run_serialSteps (calls : List LogCall) (threads : LogThreads) :
    ∃ writers, (serialSteps threads.writers.length calls).foldl step threads =
      { threads with log := threads.log.run calls, writers := threads.writers ++ writers } := by
  induction calls generalizing threads with
  | nil => exact ⟨[], by rw [List.append_nil]; rfl⟩
  | cons call calls ih =>
    obtain ⟨writer, first⟩ := run_callSteps threads call
    obtain ⟨writers, rest⟩ := ih
      { threads with log := threads.log.step call, writers := threads.writers ++ [writer] }
    refine ⟨writer :: writers, ?_⟩
    rw [List.length_append, List.length_singleton] at rest
    rw [serialSteps, List.foldl_append, first, rest]
    simp only [List.append_assoc, List.singleton_append, EventLog.run, List.foldl_cons]

/-- The steps for one slot of a pass; those after the first do nothing when the slot is skipped. -/
def slotSteps : List Action := .look :: Cell.all.map .copy ++ [.confirm]

private theorem run_copies (cells : List Cell) (threads : LogThreads) {index : ℕ} {seq : UInt32}
    {snapshot : EventRecord} {copied : List Cell}
    (reader : threads.reader = .copying index seq snapshot copied) :
    (cells.map Action.copy).foldl step threads =
      { threads with
        reader := .copying index seq
          (cells.foldl (fun snapshot cell => cell.copy (threads.log.evtLogs index) snapshot) snapshot)
          (cells.reverse ++ copied) } := by
  induction cells generalizing threads snapshot copied with
  | nil =>
    rw [List.map_nil, List.foldl_nil, List.foldl_nil, List.reverse_nil, List.nil_append, ← reader]
  | cons cell cells ih =>
    rw [List.map_cons, List.foldl_cons]
    have first : threads.step (.copy cell) =
        { threads with
          reader := .copying index seq (cell.copy (threads.log.evtLogs index) snapshot)
            (cell :: copied) } := by
      simp only [step, copy, reader]
    rw [first, ih _ rfl, List.reverse_cons, List.append_assoc]
    rfl

/-- A member that has been copied stays as it is when others are. -/
private theorem foldl_copied (record : EventRecord) (cells : List Cell) (snapshot : EventRecord)
    {cell : Cell}
    (member : cell ∈ cells ∨ cell.copy record snapshot = snapshot) :
    cell.copy record (cells.foldl (fun snapshot cell => cell.copy record snapshot) snapshot) =
      cells.foldl (fun snapshot cell => cell.copy record snapshot) snapshot := by
  induction cells generalizing snapshot with
  | nil => exact member.resolve_left List.not_mem_nil
  | cons first rest ih =>
    refine ih _ ?_
    rcases member with member | same
    · rcases List.mem_cons.mp member with rfl | later
      · exact .inr (Cell.copy_copy _ _ _)
      · exact .inl later
    · exact .inr (by rw [Cell.copy_comm, same])

private theorem skip_looking (cells : List Cell) (threads : LogThreads) {index : ℕ}
    (reader : threads.reader = .looking index) :
    (cells.map Action.copy ++ [Action.confirm]).foldl step threads = threads := by
  induction cells with
  | nil => simp only [List.map_nil, List.nil_append, List.foldl_cons, List.foldl_nil, step,
    confirm, reader]
  | cons cell cells ih =>
    have first : threads.step (.copy cell) = threads := by simp only [step, copy, reader]
    rw [List.map_cons, List.cons_append, List.foldl_cons, first, ih]

/-- A slot that nobody writes meanwhile is printed as it stands. -/
private theorem run_slotSteps {threads : LogThreads} {index : ℕ}
    (reader : threads.reader = .looking index)
    (inside : index < eventLogCapacity) :
    ∃ lines : List Line, lines.map Line.text = (shown (threads.log.evtLogs index)).toList ∧
      slotSteps.foldl step threads =
        { threads with
          reader := .looking (index + 1)
          printed := threads.printed ++ lines } := by
  rw [slotSteps, List.cons_append, List.foldl_cons]
  by_cases unused : (threads.log.evtLogs index).commitSeq = 0
  · have first : threads.step .look = { threads with reader := .looking (index + 1) } := by
      simp only [step, look, reader, inside, unused, if_true]
    refine ⟨[], by simp [shown, unused], ?_⟩
    rw [first, skip_looking _ _ rfl, List.append_nil]
  · have first : threads.step .look =
        { threads with
          reader := .copying index (threads.log.evtLogs index).commitSeq .zero [] } := by
      simp only [step, look, reader, inside, unused, if_true, if_false]
    rw [first, List.foldl_append, run_copies _ _ rfl]
    have complete : ∀ cell ∈ Cell.all, cell ∈ Cell.all.reverse ++ [] := fun cell member => by
      rw [List.append_nil]
      exact List.mem_reverse.mpr member
    refine ⟨[⟨index, (threads.log.evtLogs index).commitSeq,
      recordText (threads.log.evtLogs index) (threads.log.evtLogs index).commitSeq⟩],
      by simp [shown, unused], ?_⟩
    rw [List.foldl_cons, List.foldl_nil]
    simp only [step, confirm, if_pos complete, ne_eq, not_true, if_false]
    rw [recordText_copied fun cell member => foldl_copied _ _ _ (.inl member)]

private theorem run_pass (indices : ℕ) {threads : LogThreads} (reader : threads.reader = .looking 0)
    (inside : indices ≤ eventLogCapacity) :
    ∃ lines : List Line,
      lines.map Line.text =
        (List.range indices).filterMap (fun index => shown (threads.log.evtLogs index)) ∧
      (List.replicate indices slotSteps).flatten.foldl step threads =
        { threads with
          reader := .looking indices
          printed := threads.printed ++ lines } := by
  induction indices with
  | zero => exact ⟨[], rfl, by rw [List.append_nil, ← reader]; rfl⟩
  | succ index ih =>
    obtain ⟨lines, texts, before⟩ := ih (Nat.le_of_succ_le inside)
    let next : LogThreads :=
      { threads with reader := .looking index, printed := threads.printed ++ lines }
    have here : next.reader = .looking index := rfl
    obtain ⟨more, text, last⟩ := run_slotSteps here inside
    refine ⟨lines ++ more, ?_, ?_⟩
    · rw [List.map_append, texts, text, List.range_succ, List.filterMap_append, List.filterMap_cons]
      cases shown (threads.log.evtLogs index) <;> rfl
    · rw [List.replicate_succ', List.flatten_append, List.foldl_append, before,
        List.flatten_singleton,
        last, List.append_assoc]

/-- When the calls come one after the other and then the pass, the threads together do what
the writers and `write_evtlog` do as single steps. -/
theorem serial_refines (calls : List LogCall) :
    let after :=
      (serialSteps 0 calls ++ (List.replicate eventLogCapacity slotSteps).flatten).foldl step
      initial
    after.log = EventLog.initial.run calls ∧
      after.printed.map Line.text = (EventLog.initial.run calls).recordTexts := by
  obtain ⟨writers, written⟩ := run_serialSteps calls initial
  let logged : LogThreads :=
    { initial with log := initial.log.run calls, writers := initial.writers ++ writers }
  have first : logged.reader = .looking 0 := rfl
  obtain ⟨lines, texts, pass⟩ := run_pass eventLogCapacity first le_rfl
  intro after
  have split : after = (List.replicate eventLogCapacity slotSteps).flatten.foldl step
      ((serialSteps 0 calls).foldl step initial) := List.foldl_append
  rw [split, show (serialSteps 0 calls).foldl step initial = _ from written, pass]
  exact ⟨rfl, texts⟩

end LogThreads

end Eroil.EvtLog
