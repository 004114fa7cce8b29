import Eroil.Proofs.Router.SendNode

/-! # Handles that an application holds

An application opens and closes handles; a handle is open from the call that returned it to the call
that closes it. The uid of a handle is a 64-bit counter cut to 32 bits, and an open call looks its
handle up by uid after a registration that may have been refused. So a call returns a handle of its
own as long as the uid it draws is not that of a handle which is still open.
-/

namespace Eroil

open Lib HandleRoute

/-- The open handles of one side are those that the router has registered. -/
def Held (handles : AList (fun _ : HandleUid => HandleRef)) (opened : List HandleRef) : Prop :=
  ∀ ref, ref ∈ opened ↔ ∃ uid, handles.lookup uid = some ref

variable {ρ : Type} [HandleRoute ρ] {routes : Routes ρ}
  {handles : AList (fun _ : HandleUid => HandleRef)} {view : HandleRef → Option HandleView}
  {opened : List HandleRef}

namespace Routes

/-- What registering a handle finds under its uid afterwards: the handle that had the uid before,
nothing, or the new handle. -/
theorem storeHandle_cases (routes : Routes ρ) (handles : AList (fun _ : HandleUid => HandleRef))
    (uid : HandleUid) (ref : HandleRef) (label : Label) (size : ℕ) :
    let stored := (Router.storeHandle routes handles uid ref (routes.addMember label size uid)).2
    (uid ∈ handles ∧ stored = handles) ∨
      (uid ∉ handles ∧ ∀ query, stored.lookup query = handles.lookup query) ∨
      (uid ∉ handles ∧ stored = handles.insert uid ref) := by
  unfold Router.storeHandle
  by_cases taken : uid ∈ handles
  · exact .inl ⟨taken, by rw [if_pos taken]⟩
  · right
    rw [if_neg taken]
    cases accepted : (routes.addMember label size uid).2 with
    | true => exact .inr ⟨taken, by simp⟩
    | false =>
      refine .inl ⟨taken, fun query => ?_⟩
      simp only [Bool.false_eq_true, if_false]
      by_cases same : query = uid
      · subst same
        rw [AList.lookup_erase, AList.lookup_eq_none.mpr taken]
      · rw [AList.lookup_erase_ne same, AList.lookup_insert_ne same]

end Routes

namespace Held

/-- Registering a handle opens what the caller then finds under its uid. -/
theorem storeHandle (held : Held handles opened) (uid : HandleUid) (ref : HandleRef) (label : Label)
    (size : ℕ) :
    let stored := (Router.storeHandle routes handles uid ref (routes.addMember label size uid)).2
    Held stored ((stored.lookup uid).toList ++ opened) := by
  intro stored query
  rcases routes.storeHandle_cases handles uid ref label size with
    ⟨taken, same⟩ | ⟨fresh, same⟩ | ⟨fresh, inserted⟩
  · obtain ⟨old, found⟩ := Option.isSome_iff_exists.mp (AList.lookup_isSome.mpr taken)
    rw [show stored = handles from same, found]
    rw [← held query]
    constructor
    · intro member
      rcases List.mem_cons.mp member with rfl | earlier
      · exact (held _).mpr ⟨uid, found⟩
      · exact earlier
    · exact List.mem_cons_of_mem _
  · rw [show stored.lookup uid = none from (same uid).trans (AList.lookup_eq_none.mpr fresh)]
    rw [Option.toList_none, List.nil_append, held query]
    constructor
    · rintro ⟨key, found⟩
      exact ⟨key, (same key).trans found⟩
    · rintro ⟨key, found⟩
      exact ⟨key, (same key).symm.trans found⟩
  · rw [show stored = handles.insert uid ref from inserted, AList.lookup_insert]
    constructor
    · intro member
      rcases List.mem_cons.mp member with rfl | earlier
      · exact ⟨uid, AList.lookup_insert _⟩
      · obtain ⟨key, found⟩ := (held query).mp earlier
        have different : key ≠ uid := by
          rintro rfl
          rw [AList.lookup_eq_none.mpr fresh] at found
          cases found
        exact ⟨key, by rw [AList.lookup_insert_ne different]; exact found⟩
    · rintro ⟨key, found⟩
      by_cases same : key = uid
      · subst same
        rw [AList.lookup_insert] at found
        cases found
        exact List.mem_cons_self
      · rw [AList.lookup_insert_ne same] at found
        exact List.mem_cons_of_mem _ ((held query).mpr ⟨key, found⟩)

/-- Dropping a handle closes it and no other. -/
theorem dropHandle (held : Held handles opened) (consistent : Consistent routes handles view)
    {ref : HandleRef} {object : HandleView} (seen : view ref = some object)
    (removed : Routes ρ × Bool) :
    Held (Router.dropHandle routes handles object.uid ref removed).2 (opened.filter (· ≠ ref)) := by
  have own : ∀ {uid}, handles.lookup uid = some ref → uid = object.uid := by
    intro uid found
    obtain ⟨object', _, seen', named, _⟩ := consistent.stored uid ref found
    cases seen.symm.trans seen'
    exact named.symm
  intro query
  rw [List.mem_filter, held query]
  unfold Router.dropHandle
  split
  · next registered =>
    constructor
    · rintro ⟨⟨uid, found⟩, different⟩
      have other : uid ≠ object.uid := by
        rintro rfl
        rw [registered] at found
        cases found
        simp at different
      exact ⟨uid, by rw [AList.lookup_erase_ne other]; exact found⟩
    · rintro ⟨uid, found⟩
      have other : uid ≠ object.uid := by
        rintro rfl
        rw [AList.lookup_erase] at found
        cases found
      rw [AList.lookup_erase_ne other] at found
      refine ⟨⟨uid, found⟩, ?_⟩
      simp only [ne_eq, decide_not, Bool.not_eq_eq_eq_not, Bool.not_true, decide_eq_false_iff_not]
      rintro rfl
      exact other (own found)
  · next unregistered =>
    constructor
    · exact fun there => there.1
    · rintro ⟨uid, found⟩
      refine ⟨⟨uid, found⟩, ?_⟩
      simp only [ne_eq, decide_not, Bool.not_eq_eq_eq_not, Bool.not_true, decide_eq_false_iff_not]
      rintro rfl
      exact unregistered (own found ▸ found)

/-- An object that does not exist is not held. -/
theorem filter_unseen (held : Held handles opened) (consistent : Consistent routes handles view)
    {ref : HandleRef} (unseen : view ref = none) : Held handles (opened.filter (· ≠ ref)) := by
  intro query
  rw [List.mem_filter, held query]
  constructor
  · exact fun there => there.1
  · rintro ⟨uid, found⟩
    refine ⟨⟨uid, found⟩, ?_⟩
    simp only [ne_eq, decide_not, Bool.not_eq_eq_eq_not, Bool.not_true, decide_eq_false_iff_not]
    rintro rfl
    obtain ⟨_, _, seen, _⟩ := consistent.stored uid query found
    rw [unseen] at seen
    cases seen

end Held

namespace Consistent

/-- A handle object that was just created is not registered yet. -/
theorem unregistered (consistent : Consistent routes handles view) {ref : HandleRef}
    (unseen : view ref = none) (uid : HandleUid) : handles.lookup uid ≠ some ref := by
  intro found
  obtain ⟨_, _, seen, _⟩ := consistent.stored uid ref found
  rw [unseen] at seen
  cases seen

/-- A uid is free exactly if no registered object has it. -/
theorem fresh_iff (consistent : Consistent routes handles view) {uid : HandleUid} :
    uid ∉ handles ↔ ∀ key ref object, handles.lookup key = some ref → view ref = some object →
      object.uid ≠ uid := by
  constructor
  · rintro fresh key ref object found seen rfl
    obtain ⟨object', _, seen', named, _⟩ := consistent.stored key ref found
    cases seen.symm.trans seen'
    rw [named, ← AList.lookup_isSome, found] at fresh
    exact fresh rfl
  · intro free taken
    obtain ⟨ref, found⟩ := Option.isSome_iff_exists.mp (AList.lookup_isSome.mpr taken)
    obtain ⟨object, _, seen, named, _⟩ := consistent.stored uid ref found
    exact free uid ref object found seen named

end Consistent

/-- Two open handles of one side do not share a uid. -/
theorem Held.distinct (held : Held handles opened) (consistent : Consistent routes handles view)
    {first second : HandleRef} {object object' : HandleView} (isOpen : first ∈ opened)
    (isOpen' : second ∈ opened) (seen : view first = some object) (seen' : view second = some object')
    (same : object.uid = object'.uid) : first = second := by
  obtain ⟨key, found⟩ := (held first).mp isOpen
  obtain ⟨key', found'⟩ := (held second).mp isOpen'
  obtain ⟨object₁, _, seen₁, named, _⟩ := consistent.stored key first found
  obtain ⟨object₂, _, seen₂, named', _⟩ := consistent.stored key' second found'
  cases seen.symm.trans seen₁
  cases seen'.symm.trans seen₂
  have keys : key = key' := named.symm.trans (same.trans named')
  rw [keys, found'] at found
  exact (Option.some.inj found).symm

/-- The caller finds its own handle or nothing under a free uid, and an open handle of another call
under a taken one. -/
theorem Held.found (held : Held handles opened) (consistent : Consistent routes handles view)
    {ref : HandleRef} (unseen : view ref = none) (uid : HandleUid) (label : Label) (size : ℕ) :
    let stored := (Router.storeHandle routes handles uid ref (routes.addMember label size uid)).2
    (uid ∉ handles → ∀ other, stored.lookup uid = some other → other = ref ∧ ref ∉ opened) ∧
      (uid ∈ handles → ∃ other, stored.lookup uid = some other ∧ other ∈ opened) := by
  intro stored
  have closed : ref ∉ opened := by
    rw [held ref]
    rintro ⟨key, registered⟩
    exact consistent.unregistered unseen key registered
  rcases routes.storeHandle_cases handles uid ref label size with
    ⟨taken, same⟩ | ⟨fresh, same⟩ | ⟨fresh, inserted⟩
  · refine ⟨fun free => absurd taken free, fun _ => ?_⟩
    obtain ⟨old, registered⟩ := Option.isSome_iff_exists.mp (AList.lookup_isSome.mpr taken)
    exact ⟨old, (congrArg (AList.lookup uid) same).trans registered, (held old).mpr ⟨uid, registered⟩⟩
  · refine ⟨fun _ other registered => ?_, fun taken => absurd taken fresh⟩
    rw [show stored.lookup uid = none from
      (same uid).trans (AList.lookup_eq_none.mpr fresh)] at registered
    cases registered
  · refine ⟨fun _ other registered => ?_, fun taken => absurd taken fresh⟩
    rw [show stored = handles.insert uid ref from inserted, AList.lookup_insert] at registered
    cases registered
    exact ⟨rfl, closed⟩

namespace Session

structure Inv (session : Session) : Prop where
  send : Consistent session.node.router.routes.send session.node.router.sendHandles
    (Node.sendView session.node.sendObjects)
  recv : Consistent session.node.router.routes.recv session.node.router.recvHandles
    (Node.recvView session.node.recvObjects)
  sendHeld : Held session.node.router.sendHandles session.sendOpen
  recvHeld : Held session.node.router.recvHandles session.recvOpen

variable {session : Session}

theorem Inv.initial (world : RecvWorld) : Inv (.initial world) where
  send := .empty _
  recv := .empty _
  sendHeld _ := by simp [Session.initial, Node.initial, Router.empty]
  recvHeld _ := by simp [Session.initial, Node.initial, Router.empty]

theorem Inv.openSend (inv : Inv session) (data : OpenSendData) :
    Inv (session.step (.openSend data)) := by
  simp only [step, Node.openSend]
  split
  · have extended := inv.send.mono
      (Node.sendView_append session.node.sendObjects ⟨wrap32 session.node.nextId, data⟩)
    exact ⟨extended.storeHandle (Node.sendView_concat _ _), inv.recv,
      inv.sendHeld.storeHandle _ _ _ _, inv.recvHeld⟩
  · exact inv

theorem Inv.openRecv (inv : Inv session) (data : OpenReceiveData) :
    Inv (session.step (.openRecv data)) := by
  simp only [step, Node.openRecv]
  split
  · have extended := inv.recv.mono
      (Node.recvView_append session.node.recvObjects (.new (wrap32 session.node.nextId) data))
    exact ⟨inv.send, extended.storeHandle (Node.recvView_concat _ _), inv.sendHeld,
      inv.recvHeld.storeHandle _ _ _ _⟩
  · exact inv

theorem Inv.closeSend (inv : Inv session) (ref : HandleRef) :
    Inv (session.step (.closeSend ref)) := by
  simp only [step, Node.closeSend]
  split
  · next missing =>
    have unseen : Node.sendView session.node.sendObjects ref = none := by
      rw [Node.sendView, missing]; rfl
    exact ⟨inv.send, inv.recv, inv.sendHeld.filter_unseen inv.send unseen, inv.recvHeld⟩
  · next handle found =>
    have seen : Node.sendView session.node.sendObjects ref =
        some ⟨handle.uid, handle.data.label, handle.data.bufSize⟩ := by rw [Node.sendView, found]; rfl
    exact ⟨inv.send.dropHandle seen, inv.recv, inv.sendHeld.dropHandle inv.send seen _, inv.recvHeld⟩

theorem Inv.closeRecv (inv : Inv session) (ref : HandleRef) :
    Inv (session.step (.closeRecv ref)) := by
  simp only [step, Node.closeRecv]
  split
  · next missing =>
    have unseen : Node.recvView session.node.recvObjects ref = none := by
      rw [Node.recvView, missing]; rfl
    exact ⟨inv.send, inv.recv, inv.sendHeld, inv.recvHeld.filter_unseen inv.recv unseen⟩
  · next handle found =>
    have seen : Node.recvView session.node.recvObjects ref =
        some ⟨handle.uid, handle.data.label, handle.data.bufSize⟩ := by rw [Node.recvView, found]; rfl
    exact ⟨inv.send, inv.recv.dropHandle seen, inv.sendHeld, inv.recvHeld.dropHandle inv.recv seen _⟩

theorem Inv.step (session : Session) (call : Call) (inv : Inv session) : Inv (session.step call) := by
  cases call with
  | openSend data => exact inv.openSend data
  | closeSend ref => exact inv.closeSend ref
  | openRecv data => exact inv.openRecv data
  | closeRecv ref => exact inv.closeRecv ref

/-- The uid that the next open call draws is not the uid of an open send handle. -/
def FreshSend (session : Session) : Prop :=
  ∀ ref ∈ session.sendOpen, ∀ handle, session.node.sendObjects[ref]? = some handle →
    handle.uid ≠ wrap32 session.node.nextId

def FreshRecv (session : Session) : Prop :=
  ∀ ref ∈ session.recvOpen, ∀ handle, session.node.recvObjects[ref]? = some handle →
    handle.uid ≠ wrap32 session.node.nextId

private theorem Inv.freshSend_iff (inv : Inv session) :
    FreshSend session ↔ wrap32 session.node.nextId ∉ session.node.router.sendHandles := by
  rw [inv.send.fresh_iff]
  constructor
  · intro fresh key ref object found seen
    obtain ⟨handle, there, rfl⟩ := Option.map_eq_some_iff.mp seen
    exact fresh ref ((inv.sendHeld ref).mpr ⟨key, found⟩) handle there
  · intro fresh ref member handle there
    obtain ⟨key, found⟩ := (inv.sendHeld ref).mp member
    exact fresh key ref _ found (by rw [Node.sendView, there, Option.map_some])

private theorem Inv.freshRecv_iff (inv : Inv session) :
    FreshRecv session ↔ wrap32 session.node.nextId ∉ session.node.router.recvHandles := by
  rw [inv.recv.fresh_iff]
  constructor
  · intro fresh key ref object found seen
    obtain ⟨handle, there, rfl⟩ := Option.map_eq_some_iff.mp seen
    exact fresh ref ((inv.recvHeld ref).mpr ⟨key, found⟩) handle there
  · intro fresh ref member handle there
    obtain ⟨key, found⟩ := (inv.recvHeld ref).mp member
    exact fresh key ref _ found (by rw [Node.recvView, there, Option.map_some])

/-- The call returns null, or a handle with its own data that was not open before. -/
def OwnSend (session : Session) (data : OpenSendData) : Prop :=
  ∀ ref, (session.node.openSend data).2 = some ref →
    (∃ handle, (session.node.openSend data).1.sendObjects[ref]? = some handle ∧ handle.data = data) ∧
      ref ∉ session.sendOpen

def OwnRecv (session : Session) (data : OpenReceiveData) : Prop :=
  ∀ ref, (session.node.openRecv data).2 = some ref →
    (∃ handle, (session.node.openRecv data).1.recvObjects[ref]? = some handle ∧ handle.data = data) ∧
      ref ∉ session.recvOpen

private theorem Inv.ownSend_iff (inv : Inv session) (data : OpenSendData) :
    OwnSend session data ↔ (data.accepted = true → FreshSend session) := by
  rw [inv.freshSend_iff]
  cases accepted : data.accepted with
  | false =>
    have nothing : (session.node.openSend data).2 = none := by simp [Node.openSend, accepted]
    simp [OwnSend, nothing]
  | true =>
    have unseen : Node.sendView session.node.sendObjects session.node.sendObjects.length = none := by
      rw [Node.sendView, List.getElem?_eq_none (Nat.le_refl _)]
      rfl
    have found :=
      inv.sendHeld.found inv.send unseen (wrap32 session.node.nextId) data.label data.bufSize
    unfold OwnSend Node.openSend
    rw [if_pos accepted]
    constructor
    · intro own _ taken
      obtain ⟨other, registered, opened⟩ := found.2 taken
      exact (own other registered).2 opened
    · intro fresh ref registered
      obtain ⟨rfl, closed⟩ := found.1 (fresh rfl) ref registered
      exact ⟨⟨_, List.getElem?_concat_length, rfl⟩, closed⟩

private theorem Inv.ownRecv_iff (inv : Inv session) (data : OpenReceiveData) :
    OwnRecv session data ↔ (data.accepted = true → FreshRecv session) := by
  rw [inv.freshRecv_iff]
  cases accepted : data.accepted with
  | false =>
    have nothing : (session.node.openRecv data).2 = none := by simp [Node.openRecv, accepted]
    simp [OwnRecv, nothing]
  | true =>
    have unseen : Node.recvView session.node.recvObjects session.node.recvObjects.length = none := by
      rw [Node.recvView, List.getElem?_eq_none (Nat.le_refl _)]
      rfl
    have found :=
      inv.recvHeld.found inv.recv unseen (wrap32 session.node.nextId) data.label data.bufSize
    unfold OwnRecv Node.openRecv
    rw [if_pos accepted]
    constructor
    · intro own _ taken
      obtain ⟨other, registered, opened⟩ := found.2 taken
      exact (own other registered).2 opened
    · intro fresh ref registered
      obtain ⟨rfl, closed⟩ := found.1 (fresh rfl) ref registered
      exact ⟨⟨_, List.getElem?_concat_length, rfl⟩, closed⟩

/-- Open handles of one side have different uids. -/
def DistinctUids (session : Session) : Prop :=
  (∀ first ∈ session.sendOpen, ∀ second ∈ session.sendOpen, ∀ handle handle',
      session.node.sendObjects[first]? = some handle →
        session.node.sendObjects[second]? = some handle' →
      handle.uid = handle'.uid → first = second) ∧
    ∀ first ∈ session.recvOpen, ∀ second ∈ session.recvOpen, ∀ handle handle',
      session.node.recvObjects[first]? = some handle →
        session.node.recvObjects[second]? = some handle' →
      handle.uid = handle'.uid → first = second

theorem Inv.distinctUids (inv : Inv session) : DistinctUids session := by
  constructor
  · intro first isOpen second isOpen' handle handle' found found' same
    exact inv.sendHeld.distinct inv.send isOpen isOpen' (by rw [Node.sendView, found]; rfl)
      (by rw [Node.sendView, found']; rfl) same
  · intro first isOpen second isOpen' handle handle' found found' same
    exact inv.recvHeld.distinct inv.recv isOpen isOpen' (by rw [Node.recvView, found]; rfl)
      (by rw [Node.recvView, found']; rfl) same

/-- After any calls, open handles of one side have different uids, and an open call returns null or
a handle of its own if and only if its data is refused or the uid it draws is free. -/
theorem opens_return_own_iff (world : RecvWorld) (calls : List Call) :
    let session := calls.foldl step (.initial world)
    DistinctUids session ∧
      (∀ data, OwnSend session data ↔ (data.accepted = true → FreshSend session)) ∧
      ∀ data, OwnRecv session data ↔ (data.accepted = true → FreshRecv session) := by
  intro session
  have run : Reaches step (fun _ _ => True) (.initial world) session :=
    Reaches.foldl calls (fun _ _ _ => trivial) _
  have inv := run.invariant Inv (.initial world) fun session call inv _ => inv.step session call
  exact ⟨inv.distinctUids, inv.ownSend_iff, inv.ownRecv_iff⟩

section Exhausted

/-- Label 5 with four bytes, the same label with eight, and label 6. -/
def keptData : OpenSendData := ⟨5, some 0, 4, false, none, none, 0, 0⟩
def refusedData : OpenSendData := ⟨5, some 0, 8, false, none, none, 0, 0⟩
def lateData : OpenSendData := ⟨6, some 0, 4, false, none, none, 0, 0⟩

/-- One handle stays open while calls with another size for its label are refused. -/
def keptSession : Session := (Session.initial ⟨fun _ => 0, fun _ => default, fun _ => 0⟩).step
  (.openSend keptData)

/-- A refused call leaves the router alone and uses up an id. -/
private theorem refused_openSend {node : Node} {uid count : ℕ}
    (router : node.router = keptSession.node.router)
    (next : node.nextId = count) (small : count + 1 < 2 ^ 64) (cut : wrap32 count = uid)
    (fresh : uid ≠ 1) :
    (node.openSend refusedData).2 = none ∧
      (node.openSend refusedData).1 = { node with
        nextId := count + 1
        sendObjects := node.sendObjects ++ [⟨uid, refusedData⟩] } := by
  have accepted : refusedData.accepted = true := by decide
  have unused : uid ∉ keptSession.node.router.sendHandles := by
    intro taken
    exact fresh (List.mem_singleton.mp taken)
  have found : keptSession.node.router.routes.send.table.lookup 5 = some ⟨5, 4, [1], [], []⟩ := by
    decide
  have stored := keptSession.node.router.routes.send.storeHandle_refused 5 8 uid
    node.sendObjects.length unused found (by decide)
  have registered : node.router.registerSendPublisher node.sendObjects.length ⟨uid, refusedData⟩ =
      node.router := by
    simp only [Router.registerSendPublisher, Routes.addSendPublisher, router]
    rw [show refusedData.label = 5 from rfl, show refusedData.bufSize = 8 from rfl, stored]
  have opened : node.openSend refusedData =
      ({ node with nextId := count + 1, sendObjects := node.sendObjects ++ [⟨uid, refusedData⟩] },
        node.router.sendHandles.lookup uid) := by
    simp only [Node.openSend, accepted, if_true, Node.uniqueId, next, cut, registered,
      wrap64_of_lt small, Router.getSendHandle]
    rw [next, cut]
  rw [opened]
  exact ⟨by rw [router]; exact AList.lookup_eq_none.mpr unused, rfl⟩

/-- The state after any number of refused calls that does not wrap the 32 bits. -/
private theorem exhausted (count : ℕ) (small : count < 2 ^ 32) :
    let session := (List.replicate count (Call.openSend refusedData)).foldl step keptSession
    session.node.nextId = count + 2 ∧ session.node.router = keptSession.node.router ∧
      session.sendOpen = [0] ∧ session.node.sendObjects[0]? = some ⟨1, keptData⟩ := by
  induction count with
  | zero => exact ⟨rfl, rfl, rfl, rfl⟩
  | succ count ih =>
    obtain ⟨next, router, opened, first⟩ := ih (by omega)
    rw [List.replicate_succ', List.foldl_append, List.foldl_cons, List.foldl_nil]
    generalize (List.replicate count (Call.openSend refusedData)).foldl step keptSession =
      session at *
    -- The counter may have reached `2^32`, which is cut to zero; it cannot have come back to one.
    have unused : wrap32 (count + 2) ≠ 1 := by
      unfold wrap32
      omega
    obtain ⟨nothing, after⟩ := refused_openSend router next (by omega) rfl unused
    have length : 0 < session.node.sendObjects.length := (List.getElem?_eq_some_iff.mp first).1
    simp only [step, nothing, after, Option.toList_none, List.nil_append]
    exact ⟨trivial, router, opened, by rw [List.getElem?_append_left length]; exact first⟩

/-- When the counter comes back to the uid of the handle that is open, a call for another label
returns that handle. -/
private theorem exhausted_openSend {count : ℕ} (small : count < 2 ^ 32)
    (again : wrap32 (count + 2) = 1) :
    ¬OwnSend ((List.replicate count (Call.openSend refusedData)).foldl step keptSession)
      lateData := by
  obtain ⟨next, router, opened, _⟩ := exhausted count small
  generalize (List.replicate count (Call.openSend refusedData)).foldl step keptSession = session at *
  have kept : keptSession.node.router.sendHandles.lookup 1 = some 0 := by decide
  have taken : (1 : HandleUid) ∈ session.node.router.sendHandles := by
    rw [router, ← AList.lookup_isSome, kept, Option.isSome_some]
  have accepted : lateData.accepted = true := by decide
  have cut : wrap32 session.node.nextId = 1 := by rw [next, again]
  have returned : (session.node.openSend lateData).2 = some 0 := by
    simp only [Node.openSend, accepted, if_true, Node.uniqueId, cut, Router.registerSendPublisher,
      Router.storeHandle, taken, Router.getSendHandle]
    rw [cut, router]
    exact kept
  intro own
  apply (own 0 returned).2
  rw [opened]
  exact List.mem_singleton.mpr rfl

/-- After `2^32` calls that drew a uid, an open call returns a handle that is still open. -/
theorem open_returns_open_handle :
    ∃ (world : RecvWorld) (calls : List Call),
      ¬∀ data, OwnSend (calls.foldl step (.initial world)) data := by
  obtain ⟨count, small, again⟩ : ∃ count, count < 2 ^ 32 ∧ wrap32 (count + 2) = 1 :=
    ⟨2 ^ 32 - 1, by omega, by unfold wrap32; omega⟩
  refine ⟨⟨fun _ => 0, fun _ => default, fun _ => 0⟩,
    .openSend keptData :: List.replicate count (.openSend refusedData), fun own => ?_⟩
  have late := own lateData
  rw [List.foldl_cons] at late
  exact exhausted_openSend small again late

end Exhausted

end Session

end Eroil
