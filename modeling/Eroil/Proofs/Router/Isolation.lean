import Eroil.Proofs.Router.Close
import Eroil.Proofs.Router.Places

/-! # Subscribers do not disturb each other

All receive handles of a node write to one memory, one set of IOSB arrays and one set of
semaphores, and their deliveries interleave with each other and with everything else the node does.
A handle whose places are apart from those of the handles written to goes through such a run as if
it were alone.
-/

namespace Eroil

open Lib

namespace Traffic

variable {book : AddressBook} {traffic : Traffic} {ref : HandleRef} {handle : RecvHandle}
  {request : RecvRequest}

/-- The message that a step writes for a subscriber, and the subscriber. -/
def serves (traffic : Traffic) : Action → Option (Arrival × HandleRef)
  | .writeNext index =>
      match traffic.distributions[index]? with
      | some ⟨arrival, next :: _⟩ => some (arrival, next)
      | _ => none
  | _ => none

/-- What a step does to one handle. -/
def opsOn (traffic : Traffic) (ref : HandleRef) (action : Action) : List RecvHandle.Op :=
  match action with
  | .call (.callRecv other call) _ => if other = ref then [.call call] else []
  | action =>
      match traffic.serves action with
      | some (arrival, next) => if next = ref then [.deliver arrival] else []
      | none => []

/-- A step either writes for one subscriber, or it writes to no memory of the application. -/
theorem step_serves (book : AddressBook) (traffic : Traffic) (action : Action) :
    (∃ arrival next, traffic.serves action = some (arrival, next) ∧
        (traffic.step book action).node = traffic.node.deliverTo arrival next) ∨
      traffic.serves action = none ∧
        (traffic.step book action).node.world = traffic.node.world := by
  cases action with
  | call action whole => exact .inr ⟨rfl, traffic.node.step_world book whole⟩
  | snapshot arrival =>
    refine .inr ⟨rfl, ?_⟩
    simp only [step, snapshot]
    split <;> rfl
  | writeNext index =>
    simp only [serves, step]
    cases found : traffic.distributions[index]? with
    | none => exact .inr ⟨rfl, by simp only [writeNext, found]⟩
    | some call =>
      obtain ⟨arrival, left⟩ := call
      cases left with
      | nil => exact .inr ⟨rfl, by simp only [writeNext, found]⟩
      | cons next rest => exact .inl ⟨arrival, next, rfl, by simp only [writeNext, found]⟩
  | build myId label uid sendBuf seq =>
    refine .inr ⟨rfl, ?_⟩
    simp only [step, build]
    split <;> rfl
  | enqueue index now =>
    refine .inr ⟨rfl, ?_⟩
    simp only [step, enqueue]
    split
    · split <;> rfl
    · rfl
  | work index action =>
    refine .inr ⟨rfl, ?_⟩
    simp only [step, work]
    split
    · split <;> rfl
    · rfl

/-- Writing for one subscriber is its own delivery, and no other object changes. -/
private theorem deliverTo_object {node : Node} (arrival : Arrival) (next : HandleRef)
    (found : node.recvObjects[ref]? = some handle) :
    (node.deliverTo arrival next).recvObjects[ref]? =
      some (if next = ref then (handle.deliver arrival node.world).2 else handle) := by
  unfold Node.deliverTo
  by_cases here : next = ref
  · subst here
    have bound := (List.getElem?_eq_some_iff.mp found).1
    simp only [found, ↓reduceIte, List.getElem?_set_self bound]
  · rw [if_neg here]
    split
    · exact found
    · rw [List.getElem?_set_ne here]
      exact found

/-- An existing object changes by the operations of the step on it. -/
theorem step_object (book : AddressBook) (action : Action)
    (found : traffic.node.recvObjects[ref]? = some handle) :
    (traffic.step book action).node.recvObjects[ref]? =
      some ((traffic.opsOn ref action).foldl RecvHandle.step (traffic.node.world, handle)).2 := by
  cases action with
  | writeNext index =>
    rcases step_serves book traffic (.writeNext index) with
      ⟨arrival, next, serves, same⟩ | ⟨silent, _⟩
    · rw [same, deliverTo_object arrival next found]
      simp only [opsOn, serves]
      split <;> rfl
    · have kept : traffic.step book (.writeNext index) = traffic := by
        simp only [step, writeNext]
        split
        · next call => simp [serves, call] at silent
        · rfl
      rw [kept, found]
      simp only [opsOn, silent, List.foldl_nil]
  | call action whole =>
    cases action with
    | callRecv other call =>
      simp only [step, Node.step, Node.callRecv, opsOn]
      by_cases here : other = ref
      · subst here
        have bound := (List.getElem?_eq_some_iff.mp found).1
        simp only [found, ↓reduceIte, List.getElem?_set_self bound]
        rfl
      · rw [if_neg here]
        split
        · exact found
        · rw [List.getElem?_set_ne here]
          exact found
    | openRecv request =>
      simp only [step, Node.step, Node.openRecv]
      split
      · exact (List.getElem?_append_left (List.getElem?_eq_some_iff.mp found).1).trans found
      · exact found
    | openSend data =>
      exact (congrArg (·.2.2[ref]?) (Node.recvPart_openSend traffic.node data)).trans found
    | closeSend other =>
      exact (congrArg (·.2.2[ref]?) (Node.recvPart_closeSend traffic.node other)).trans found
    | closeRecv other =>
      simp only [step, Node.step, Node.closeRecv]
      split <;> exact found
    | distribute arrival => cases whole
    | addSubscriber source label size =>
      exact (congrArg (·.2.2[ref]?)
        (Node.recvPart_addSubscriber book traffic.node source label size.toNat)).trans found
    | removeSubscriber source label =>
      exact (congrArg (·.2.2[ref]?)
        (Node.recvPart_removeSubscriber book traffic.node source label)).trans found
    | openSendShm id opened => exact found
    | upsertSocket id sock => exact found
  | snapshot arrival =>
    simp only [step, snapshot]
    split <;> exact found
  | build myId label uid sendBuf seq =>
    simp only [step, build]
    split <;> exact found
  | enqueue index now =>
    simp only [step, enqueue]
    split
    · split <;> exact found
    · exact found
  | work index action =>
    simp only [step, work]
    split
    · split <;> exact found
    · exact found

/-- A new object is one that the application just opened. -/
private theorem step_created (book : AddressBook) (action : Action)
    (absent : traffic.node.recvObjects[ref]? = none)
    (found : (traffic.step book action).node.recvObjects[ref]? = some handle) :
    ∃ uid request, (openRecvLabel request).accepted = true ∧
      handle = .new uid (openRecvLabel request) := by
  have same (objects : List RecvHandle) (length : objects.length = traffic.node.recvObjects.length) :
      objects[ref]? = none := by
    rw [List.getElem?_eq_none_iff] at absent ⊢
    omega
  have other (kept : (traffic.step book action).node.recvObjects.length =
      traffic.node.recvObjects.length) : False := by
    cases (same _ kept).symm.trans found
  cases action with
  | call action whole =>
    cases action with
    | openRecv request =>
      simp only [step, Node.step, Node.openRecv] at found
      split at found
      · next accepted =>
        have late := List.getElem?_eq_none_iff.mp absent
        refine ⟨traffic.node.uniqueId.1, request, accepted, ?_⟩
        rw [show traffic.node.uniqueId.2.recvObjects = traffic.node.recvObjects from rfl,
          List.getElem?_append_right late] at found
        exact List.mem_singleton.mp (List.mem_of_getElem? found)
      · cases absent.symm.trans found
    | callRecv index call =>
      refine (other ?_).elim
      simp only [step, Node.step, Node.callRecv]
      split
      · rfl
      · exact List.length_set
    | closeRecv index =>
      refine (other ?_).elim
      simp only [step, Node.step, Node.closeRecv]
      split <;> rfl
    | distribute arrival => cases whole
    | openSend data =>
      exact (other (congrArg (·.2.2.length) (Node.recvPart_openSend traffic.node data))).elim
    | closeSend index =>
      exact (other (congrArg (·.2.2.length) (Node.recvPart_closeSend traffic.node index))).elim
    | addSubscriber source label size =>
      exact (other (congrArg (·.2.2.length)
        (Node.recvPart_addSubscriber book traffic.node source label size.toNat))).elim
    | removeSubscriber source label =>
      exact (other (congrArg (·.2.2.length)
        (Node.recvPart_removeSubscriber book traffic.node source label))).elim
    | openSendShm id opened => exact (other rfl).elim
    | upsertSocket id sock => exact (other rfl).elim
  | snapshot arrival =>
    refine (other ?_).elim
    simp only [step, snapshot]
    split <;> rfl
  | writeNext index =>
    refine (other ?_).elim
    simp only [step, writeNext]
    split
    · simp only [Node.deliverTo]
      split
      · rfl
      · exact List.length_set
    · rfl
  | build myId label uid sendBuf seq =>
    refine (other ?_).elim
    simp only [step, build]
    split <;> rfl
  | enqueue index now =>
    refine (other ?_).elim
    simp only [step, enqueue]
    split
    · split <;> rfl
    · rfl
  | work index action =>
    refine (other ?_).elim
    simp only [step, work]
    split
    · split <;> rfl
    · rfl

/-- An unfinished distribution serves the subscribers of its snapshot. -/
private theorem step_distributions (book : AddressBook) (traffic : Traffic) (action : Action)
    {call : Distribution} (member : call ∈ (traffic.step book action).distributions)
    (pending : ref ∈ call.left) :
    (∃ earlier ∈ traffic.distributions, earlier.arrival = call.arrival ∧ ref ∈ earlier.left) ∨
      ∃ subscribers, traffic.node.router.recvSubscribers call.arrival.label
        call.arrival.buf.length = some subscribers ∧ ref ∈ subscribers := by
  cases action with
  | snapshot arrival =>
    simp only [step, snapshot] at member
    split at member
    · exact .inl ⟨call, member, rfl, pending⟩
    · next subscribers taken =>
      rcases List.mem_append.mp member with old | new
      · exact .inl ⟨call, old, rfl, pending⟩
      · obtain rfl := List.mem_singleton.mp new
        exact .inr ⟨subscribers, taken, pending⟩
  | writeNext index =>
    simp only [step, writeNext] at member
    split at member
    · next arrival first left current =>
      rcases List.mem_or_eq_of_mem_set member with old | rfl
      · exact .inl ⟨call, old, rfl, pending⟩
      · exact .inl ⟨_, List.mem_of_getElem? current, rfl, List.mem_cons_of_mem _ pending⟩
    · exact .inl ⟨call, member, rfl, pending⟩
  | call | build | enqueue | work =>
    exact .inl ⟨call, by simpa [step] using member, rfl, pending⟩

/-- Every handle object is sane, and a distribution has only subscribers left whose slots have the
size of its message. -/
structure Serving (traffic : Traffic) : Prop where
  sane : ∀ (ref : HandleRef) (handle : RecvHandle),
    traffic.node.recvObjects[ref]? = some handle → handle.Sane
  sized : ∀ call ∈ traffic.distributions, ∀ ref ∈ call.left, ∃ handle,
    traffic.node.recvObjects[ref]? = some handle ∧
      handle.data.bufSize = call.arrival.buf.length

theorem Serving.initial (world : RecvWorld) (sendWorld : SendWorld) :
    Serving (Traffic.initial world sendWorld) where
  sane _ _ found := by cases found
  sized _ member := by cases member

theorem Serving.step (serving : Serving traffic) (inv : Inv book traffic) (action : Action) :
    Serving (traffic.step book action) where
  sane := by
    intro ref handle found
    cases before : traffic.node.recvObjects[ref]? with
    | none =>
      obtain ⟨uid, request, accepted, rfl⟩ := step_created book action before found
      exact .new uid request accepted
    | some old =>
      have changed := step_object book action before
      rw [found] at changed
      rw [Option.some.inj changed]
      have sane : RecvHandle.Sane (traffic.node.world, old).2 := serving.sane ref old before
      exact sane.run _
  sized := by
    intro call member ref pending
    have sized : ∃ handle, traffic.node.recvObjects[ref]? = some handle ∧
        handle.data.bufSize = call.arrival.buf.length := by
      rcases step_distributions book traffic action member pending with
        ⟨earlier, listed, same, waiting⟩ | ⟨subscribers, taken, subscribed⟩
      · rw [← same]
        exact serving.sized earlier listed ref waiting
      · obtain ⟨handle, found, _, _, size⟩ := inv.recv.subscriber taken subscribed
        exact ⟨handle, found, size⟩
    obtain ⟨old, found, size⟩ := sized
    exact ⟨_, step_object book action found, (RecvHandle.run_bufSize _ _).trans size⟩

theorem Reachable.serving (reachable : Reachable book traffic) : Serving traffic := by
  obtain ⟨world, sendWorld, run⟩ := reachable
  refine (run.invariant (fun state => Inv book state ∧ Serving state)
    ⟨.initial book world sendWorld, .initial world sendWorld⟩ ?_).2
  intro state action good _
  exact ⟨good.1.step action, good.2.step good.1 action⟩

theorem Reachable.step (reachable : Reachable book traffic) (action : Action) :
    Reachable book (traffic.step book action) := by
  obtain ⟨world, sendWorld, run⟩ := reachable
  exact ⟨world, sendWorld, .tail run trivial⟩

/-- The step writes for the handle `ref`, or for one whose places are apart from its own; a message
that is written starts at the beginning of the slot. -/
def Separate (ref : HandleRef) (traffic : Traffic) (action : Action) : Prop :=
  ∀ arrival next, traffic.serves action = some (arrival, next) →
    arrival.recvOffset = 0 ∧
      (next ≠ ref → ∀ mine other, traffic.node.recvObjects[ref]? = some mine →
        traffic.node.recvObjects[next]? = some other → Disjoint mine.owns other.owns)

/-- The handle `ref` among the others is like one in a world of its own. -/
def Follows (traffic : Traffic) (ref : HandleRef) (alone : RecvWorld × RecvHandle) : Prop :=
  ∃ handle, traffic.node.recvObjects[ref]? = some handle ∧
    Tracks RecvWorld.view RecvHandle.owns (traffic.node.world, handle) alone

theorem opsOn_of_serves {arrival : Arrival} {next : HandleRef} {action : Action}
    (serves : traffic.serves action = some (arrival, next)) :
    traffic.opsOn ref action = if next = ref then [.deliver arrival] else [] := by
  cases action with
  | writeNext index => simp only [opsOn, serves]
  | call | snapshot | build | enqueue | work => cases serves

theorem opsOn_of_silent {action : Action} (silent : traffic.serves action = none) :
    traffic.opsOn ref action = [] ∨ ∃ call, traffic.opsOn ref action = [.call call] := by
  cases action with
  | call action whole =>
    cases action with
    | callRecv other call =>
      by_cases here : other = ref
      · exact .inr ⟨call, if_pos here⟩
      · exact .inl (if_neg here)
    | _ => exact .inl rfl
  | writeNext index => exact .inl (by simp only [opsOn, silent])
  | snapshot | build | enqueue | work => exact .inl rfl

/-- The message of a step has the size of the slots of its subscriber. -/
theorem Serving.served (serving : Serving traffic) {arrival : Arrival} {next : HandleRef}
    {action : Action} (serves : traffic.serves action = some (arrival, next)) :
    ∃ handle, traffic.node.recvObjects[next]? = some handle ∧
      arrival.buf.length = handle.data.bufSize := by
  cases action with
  | writeNext index =>
    simp only [Traffic.serves] at serves
    split at serves
    · next call left current =>
      cases serves
      obtain ⟨handle, found, size⟩ :=
        serving.sized _ (List.mem_of_getElem? current) _ List.mem_cons_self
      exact ⟨handle, found, size.symm⟩
    · cases serves
  | call | snapshot | build | enqueue | work => cases serves

/-- A step among the others is the same step alone. -/
theorem Follows.step {alone : RecvWorld × RecvHandle} (follows : Follows traffic ref alone)
    (serving : Serving traffic) {action : Action} (separate : Separate ref traffic action) :
    Follows (traffic.step book action) ref
      ((traffic.opsOn ref action).foldl RecvHandle.step alone) := by
  obtain ⟨mine, found, tracks⟩ := follows
  have component : mine = alone.2 := tracks.component
  have object := step_object book action found
  refine ⟨_, object, ?_⟩
  rcases step_serves book traffic action with ⟨arrival, next, serves, same⟩ | ⟨silent, world⟩
  · obtain ⟨start, apart⟩ := separate arrival next serves
    obtain ⟨other, stored, size⟩ := serving.served serves
    have ops : traffic.opsOn ref action = if next = ref then [.deliver arrival] else [] :=
      opsOn_of_serves serves
    have world : (traffic.step book action).node.world =
        (other.deliver arrival traffic.node.world).1 := by
      rw [same]
      simp only [Node.deliverTo, stored]
    have sane := serving.sane next other stored
    rw [ops, world]
    by_cases here : next = ref
    · subst here
      cases found.symm.trans stored
      rw [if_pos rfl]
      exact tracks.own (component ▸ RecvHandle.isLocal_deliver sane start size)
    · rw [if_neg here]
      refine tracks.foreign (RecvHandle.isLocal_deliver sane start size) ?_
      rw [← component]
      exact fun _ mem => Set.disjoint_left.mp (apart here mine other found stored) mem
  · rw [world]
    have calls : traffic.opsOn ref action = [] ∨ ∃ call, traffic.opsOn ref action = [.call call] :=
      opsOn_of_silent silent
    rcases calls with none | ⟨call, one⟩
    · rw [none]
      exact tracks
    · rw [one]
      exact tracks.own (RecvHandle.isLocal_call alone.2 call)

/-- A node with the record of what happened to one of its handles. -/
structure Watched where
  traffic : Traffic
  ops : List RecvHandle.Op

def Watched.step (book : AddressBook) (ref : HandleRef) (watched : Watched) (action : Action) :
    Watched :=
  ⟨watched.traffic.step book action, watched.ops ++ watched.traffic.opsOn ref action⟩

/-- A step delivers whole messages only. -/
theorem Follows.whole {alone : RecvWorld × RecvHandle} (follows : Follows traffic ref alone)
    (serving : Serving traffic) {action : Action} (separate : Separate ref traffic action) :
    ∀ op ∈ traffic.opsOn ref action, RecvHandle.Whole alone.2.data.bufSize op := by
  intro op member
  obtain ⟨mine, found, tracks⟩ := follows
  rcases serves : traffic.serves action with _ | ⟨arrival, next⟩
  · have calls : traffic.opsOn ref action = [] ∨ ∃ call, traffic.opsOn ref action = [.call call] :=
      opsOn_of_silent serves
    rcases calls with none | ⟨call, one⟩
    · rw [none] at member
      cases member
    · rw [one] at member
      obtain rfl := List.mem_singleton.mp member
      trivial
  · rw [opsOn_of_serves serves] at member
    split at member
    · next here =>
      subst here
      obtain rfl := List.mem_singleton.mp member
      obtain ⟨other, stored, size⟩ := serving.served serves
      cases found.symm.trans stored
      have component : mine = alone.2 := tracks.component
      exact ⟨(separate arrival next serves).1, component ▸ size⟩
    · cases member

/-- What a watched run keeps: its state is reachable, the handle is as if alone, and it was handed
whole messages. -/
theorem Follows.run (reachable : Reachable book traffic)
    (found : traffic.node.recvObjects[ref]? = some handle) {later : Watched}
    (run : Reaches (Watched.step book ref) (fun watched => Separate ref watched.traffic)
      ⟨traffic, []⟩ later) :
    Reachable book later.traffic ∧
      Follows later.traffic ref (later.ops.foldl RecvHandle.step (traffic.node.world, handle)) ∧
      ∀ op ∈ later.ops, RecvHandle.Whole handle.data.bufSize op := by
  refine run.invariant (fun watched => Reachable book watched.traffic ∧
    Follows watched.traffic ref
      (watched.ops.foldl RecvHandle.step (traffic.node.world, handle)) ∧
    ∀ op ∈ watched.ops, RecvHandle.Whole handle.data.bufSize op) ?_ ?_
  · exact ⟨reachable, ⟨handle, found, .refl _⟩, by simp⟩
  · rintro watched action ⟨reachable, follows, whole⟩ separate
    have serving := reachable.serving
    refine ⟨reachable.step action, ?_, fun op member => ?_⟩
    · simp only [Watched.step, List.foldl_append]
      exact follows.step serving separate
    · rcases List.mem_append.mp member with old | new
      · exact whole op old
      · have size := RecvHandle.run_bufSize watched.ops (traffic.node.world, handle)
        exact size ▸ follows.whole serving separate op new

/-- A message for both subscribers. -/
def pairSteps : List Action :=
  [.snapshot (RecvHandle.arrivalOf [1, 2]), .writeNext 0, .writeNext 0]

/-- The state in which a request was just accepted. -/
theorem open_found (accepted : (openRecvLabel request).accepted = true) :
    (traffic.step book (.call (.openRecv request) rfl)).node.recvObjects[
        traffic.node.recvObjects.length]? =
      some (.new traffic.node.uniqueId.1 (openRecvLabel request)) := by
  simp only [step, Node.step, Node.openRecv, accepted, ↓reduceIte]
  exact List.getElem?_concat_length

/-- A handle that represents a mailbox when alone represents it among the others. -/
theorem Follows.mailbox {alone : RecvWorld × RecvHandle} {capacity size : ℕ}
    {mailbox : Mailbox capacity} (follows : Follows traffic ref alone)
    (represents : RecvHandle.Represents alone.1 alone.2 size mailbox) :
    ∃ handle base, traffic.node.recvObjects[ref]? = some handle ∧ handle.data.buf = some base ∧
      handle.isIdle = mailbox.idle ∧ handle.data.recvCount = mailbox.queue.length ∧
      handle.data.bufIndex < capacity ∧
      ∀ rank < handle.data.recvCount, mailbox.queue.items[rank]? =
        some (traffic.node.world.memory.load (base +
          (handle.data.bufIndex + capacity - handle.data.recvCount + rank) % capacity * size)
          size) := by
  obtain ⟨world, handle⟩ := alone
  obtain ⟨mine, object, tracks⟩ := follows
  obtain rfl : mine = handle := tracks.component
  obtain ⟨base, buffer, holds⟩ := represents.stored
  have count := represents.count
  refine ⟨mine, base, object, buffer, represents.idle, count, holds.inside, ?_⟩
  intro rank present
  rw [count] at present ⊢
  rw [holds.stored rank present]
  have slots : mine.data.bufSlots = capacity := represents.bufSlots.1
  have bufSize : mine.data.bufSize = size := represents.bufSize.1
  have inside : SlotRing.slotOf capacity mine.data.bufIndex mailbox.queue.length rank <
      mine.data.bufSlots := by
    rw [slots]
    exact SlotRing.slotOf_lt (Nat.zero_lt_of_lt holds.inside)
  have same := RecvHandle.slotAt_agree tracks.places buffer inside
  rw [bufSize] at same
  exact congrArg some same.symm

end Traffic

end Eroil
