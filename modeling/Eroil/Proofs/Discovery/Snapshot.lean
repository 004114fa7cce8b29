import Eroil.Proofs.Discovery.Update

/-! # Broadcasts tell which labels a node receives

A message that was sent is read back as it was, and the map that the receiver builds from it holds
the open receive labels of the sender with their sizes, as long as they fit in the message.
-/

namespace Eroil

open Lib HandleRoute

namespace BroadcastMessage

@[simp] theorem length_labelBytes (info : LabelInfo) :
    (labelBytes info).length = sizeofLabelInfo := by
  simp [labelBytes, sizeofLabelInfo]

@[simp] theorem length_snapshotBytes (snapshot : LabelsSnapshot) :
    (snapshotBytes snapshot).length = sizeofLabelsSnapshot := by
  simp [snapshotBytes, sizeofLabelsSnapshot, List.length_flatMap, Nat.mul_comm]

@[simp] theorem length_bytes (msg : BroadcastMessage) :
    msg.bytes.length = sizeofBroadcastMessage := by
  simp only [bytes, List.length_append, ByteMemory.length_encode, length_snapshotBytes,
    List.length_cons, List.length_nil, sizeofBroadcastMessage]

theorem field_word32 (word : UInt32) (rest : List UInt8) :
    UInt32.ofNat (field (ByteMemory.encode 4 word.toNat ++ rest) 0 4) = word := by
  rw [field_append_left (by simp), field_encode word.toNat_lt]
  exact UInt32.ofNat_toNat

private theorem labelAt_labelBytes (info : LabelInfo) : labelAt (labelBytes info) 0 = info := by
  have label := field_word32 info.label.toUInt32 (ByteMemory.encode 4 info.size.toNat)
  have size : UInt32.ofNat (field (labelBytes info) (0 + 4) 4) = info.size := by
    have right := field_append_right (ByteMemory.encode 4 info.label.toUInt32.toNat)
      (ByteMemory.encode 4 info.size.toNat) 0 4
    rw [ByteMemory.length_encode] at right
    rw [labelBytes, right, field_encode info.size.toNat_lt]
    exact UInt32.ofNat_toNat
  rw [labelAt, size, labelBytes, label]
  rfl

theorem labelAt_append_left {first : List UInt8} {offset : ℕ} (inside : offset + 8 ≤ first.length)
    (second : List UInt8) : labelAt (first ++ second) offset = labelAt first offset := by
  rw [labelAt, labelAt, field_append_left (by omega), field_append_left (by omega)]

theorem labelAt_append_right (first second : List UInt8) (offset : ℕ) :
    labelAt (first ++ second) (first.length + offset) = labelAt second offset := by
  rw [labelAt, labelAt, field_append_right, Nat.add_assoc, field_append_right]

private theorem labelAt_flatMap (infos : List LabelInfo) (index : Fin infos.length) :
    labelAt (infos.flatMap labelBytes) (sizeofLabelInfo * index) = infos.get index := by
  have word : ∀ offset, offset + 4 ≤ sizeofLabelInfo →
      field (infos.flatMap labelBytes) (sizeofLabelInfo * index + offset) 4 =
        field (labelBytes (infos.get index)) offset 4 := fun offset inside =>
    field_flatMap length_labelBytes infos index inside
  have label := word 0 (by decide)
  rw [Nat.add_zero] at label
  rw [labelAt, word 4 (by decide), label]
  exact labelAt_labelBytes (infos.get index)

/-- A snapshot is read back from the place where it was stored. -/
theorem snapshotAt_bytes (first : List UInt8) (snapshot : LabelsSnapshot) (rest : List UInt8) :
    snapshotAt (first ++ (snapshotBytes snapshot ++ rest)) first.length = snapshot := by
  have gen : UInt64.ofNat (field (first ++ (snapshotBytes snapshot ++ rest)) first.length 8) =
      snapshot.gen := by
    have skipped := field_append_right first (snapshotBytes snapshot ++ rest) 0 8
    rw [Nat.add_zero] at skipped
    rw [skipped, snapshotBytes, List.append_assoc, field_append_left (by simp),
      field_encode snapshot.gen.toNat_lt]
    exact UInt64.ofNat_toNat
  have labels : ∀ index : Fin maxLabels,
      labelAt (first ++ (snapshotBytes snapshot ++ rest))
        (first.length + 8 + sizeofLabelInfo * index) =
        snapshot.labels[index] := by
    intro index
    have position : sizeofLabelInfo * (index : ℕ) + 8 ≤
        (snapshot.labels.toList.flatMap labelBytes).length := by
      have bound := index.isLt
      simp [List.length_flatMap, sizeofLabelInfo]
      omega
    have found := labelAt_flatMap snapshot.labels.toList (index.cast (by simp))
    have skipped := labelAt_append_right (ByteMemory.encode 8 snapshot.gen.toNat)
      (snapshot.labels.toList.flatMap labelBytes ++ rest) (sizeofLabelInfo * index)
    rw [ByteMemory.length_encode] at skipped
    rw [Nat.add_assoc, labelAt_append_right, snapshotBytes, List.append_assoc, skipped,
      labelAt_append_left position]
    simpa using found
  have all :
      (Vector.ofFn fun index : Fin maxLabels => labelAt (first ++ (snapshotBytes snapshot ++ rest))
      (first.length + 8 + sizeofLabelInfo * index)) = snapshot.labels := by
    apply Vector.ext
    intro index bound
    rw [Vector.getElem_ofFn]
    exact labels ⟨index, bound⟩
  rw [snapshotAt, gen, all]

/-- A message is read back from the memory that it was sent as, whatever follows there. -/
theorem ofBytes_bytes (msg : BroadcastMessage) (rest : List UInt8) :
    ofBytes (msg.bytes ++ rest) = msg := by
  have id := field_word32 msg.id.toUInt32
    ([0, 0, 0, 0] ++ (snapshotBytes msg.sendLabels ++ (snapshotBytes msg.recvLabels ++ rest)))
  have send := snapshotAt_bytes (ByteMemory.encode 4 msg.id.toUInt32.toNat ++ [0, 0, 0, 0])
    msg.sendLabels (snapshotBytes msg.recvLabels ++ rest)
  have recv := snapshotAt_bytes (ByteMemory.encode 4 msg.id.toUInt32.toNat ++ [0, 0, 0, 0] ++
    snapshotBytes msg.sendLabels) msg.recvLabels rest
  have start : (ByteMemory.encode 4 msg.id.toUInt32.toNat ++ [0, 0, 0, 0]).length = 8 := by
    rw [List.length_append, ByteMemory.length_encode]
    rfl
  rw [List.length_append, start, length_snapshotBytes] at recv
  rw [start] at send
  simp only [List.append_assoc] at send recv
  rw [ofBytes, bytes]
  simp only [List.append_assoc]
  rw [id, send, recv]
  rfl


theorem snapshotAt_append_left {first : List UInt8} {offset : ℕ}
    (inside : offset + sizeofLabelsSnapshot ≤ first.length) (second : List UInt8) :
    snapshotAt (first ++ second) offset = snapshotAt first offset := by
  have size : sizeofLabelsSnapshot = 8 + 8 * maxLabels := rfl
  have gen := field_append_left (show offset + 8 ≤ first.length by omega) second
  have labels : (fun index : Fin maxLabels => labelAt (first ++ second)
      (offset + 8 + sizeofLabelInfo * index)) = fun index : Fin maxLabels =>
        labelAt first (offset + 8 + sizeofLabelInfo * index) := by
    funext index
    apply labelAt_append_left
    have bound := index.isLt
    simp only [sizeofLabelInfo]
    omega
  rw [snapshotAt, snapshotAt, gen, labels]

/-- A message is read from as many bytes as it has. -/
theorem ofBytes_append {first : List UInt8} (enough : sizeofBroadcastMessage ≤ first.length)
    (second : List UInt8) : ofBytes (first ++ second) = ofBytes first := by
  have size : sizeofBroadcastMessage = 8 + sizeofLabelsSnapshot + sizeofLabelsSnapshot := rfl
  rw [ofBytes, ofBytes, field_append_left (by omega), snapshotAt_append_left (by omega),
    snapshotAt_append_left (by omega)]

/-- The loop of `recv_broadcast` that builds the map. -/
def collect (recv : AList (fun _ : Label => UInt32)) (infos : List LabelInfo) :
    AList (fun _ : Label => UInt32) :=
  infos.foldl (fun recv info =>
    if info.label > invalidLabel then
      if info.label ∈ recv then recv else recv.insert info.label info.size
    else recv) recv

theorem recv_eq_collect (msg : BroadcastMessage) :
    msg.recv = collect ∅ msg.recvLabels.labels.toList := rfl

theorem collect_cons (recv : AList (fun _ : Label => UInt32)) (info : LabelInfo)
    (infos : List LabelInfo) :
    (collect recv (info :: infos) = collect recv infos ∧
        (info.label ≤ invalidLabel ∨ info.label ∈ recv)) ∨
      (collect recv (info :: infos) = collect (recv.insert info.label info.size) infos ∧
        invalidLabel < info.label ∧ info.label ∉ recv) := by
  rw [collect, List.foldl_cons]
  split_ifs with valid known
  · exact .inl ⟨rfl, .inr known⟩
  · exact .inr ⟨rfl, valid, known⟩
  · exact .inl ⟨rfl, .inl (Int32.not_lt.mp valid)⟩

/-- Every entry of the map was there before or comes from a valid entry of the list. -/
theorem collect_sound (infos : List LabelInfo) (recv : AList (fun _ : Label => UInt32))
    {label : Label}
    {size : UInt32} (found : (collect recv infos).lookup label = some size) :
    recv.lookup label = some size ∨ (⟨label, size⟩ : LabelInfo) ∈ infos ∧ invalidLabel < label := by
  induction infos generalizing recv with
  | nil => exact .inl found
  | cons info rest ih =>
    rcases collect_cons recv info rest with ⟨same, _⟩ | ⟨inserted, valid, _⟩
    · rw [same] at found
      exact (ih _ found).imp_right fun there => ⟨List.mem_cons_of_mem _ there.1, there.2⟩
    · rw [inserted] at found
      rcases ih _ found with earlier | ⟨later, high⟩
      · by_cases own : label = info.label
        · subst own
          rw [AList.lookup_insert] at earlier
          cases earlier
          exact .inr ⟨List.mem_cons_self, valid⟩
        · rw [AList.lookup_insert_ne own] at earlier
          exact .inl earlier
      · exact .inr ⟨List.mem_cons_of_mem _ later, high⟩

/-- No valid label of the list is missed. -/
theorem collect_complete (infos : List LabelInfo) (recv : AList (fun _ : Label => UInt32))
    {label : Label}
    (listed : label ∈ recv ∨ invalidLabel < label ∧ ∃ info ∈ infos, info.label = label) :
    label ∈ collect recv infos := by
  induction infos generalizing recv with
  | nil =>
    rcases listed with earlier | ⟨_, _, member, _⟩
    · exact earlier
    · cases member
  | cons info rest ih =>
    rcases collect_cons recv info rest with ⟨same, reason⟩ | ⟨inserted, _, _⟩
    · rw [same]
      apply ih
      rcases listed with earlier | ⟨valid, other, member, rfl⟩
      · exact .inl earlier
      · rcases List.mem_cons.mp member with rfl | later
        · exact .inl (reason.resolve_left (Int32.not_le.mpr valid))
        · exact .inr ⟨valid, other, later, rfl⟩
    · rw [inserted]
      apply ih
      rcases listed with earlier | ⟨valid, other, member, rfl⟩
      · exact .inl (AList.mem_insert _ |>.mpr (.inr earlier))
      · rcases List.mem_cons.mp member with rfl | later
        · exact .inl (AList.mem_insert _ |>.mpr (.inl rfl))
        · exact .inr ⟨valid, other, later, rfl⟩

/-- The map holds at most one entry for each entry of the list. -/
private theorem collect_length (infos : List LabelInfo) (recv : AList (fun _ : Label => UInt32)) :
    (collect recv infos).entries.length ≤ recv.entries.length + infos.length := by
  induction infos generalizing recv with
  | nil => exact Nat.le_refl _
  | cons info rest ih =>
    rw [List.length_cons]
    rcases collect_cons recv info rest with ⟨same, _⟩ | ⟨inserted, _, fresh⟩
    · rw [same]
      have bound := ih recv
      omega
    · rw [inserted]
      have bound := ih (recv.insert info.label info.size)
      rw [AList.entries_insert_of_notMem fresh, List.length_cons] at bound
      omega

end BroadcastMessage

namespace Routes

variable {ρ : Type} [HandleRoute ρ] {routes : Routes ρ}

private theorem getLabelsSorted_toArray : routes.getLabelsSorted.toArray =
    (routes.getLabels.toList.mergeSort fun a b => a.label ≤ b.label).toArray := by
  rw [getLabelsSorted]

/-- The valid entries of a snapshot are the first routes of the table, whatever the sorting does. -/
theorem mem_getLabelsSorted {label : Label} {size : UInt32} (valid : invalidLabel < label) :
    (⟨label, size⟩ : LabelInfo) ∈ routes.getLabelsSorted.toList ↔
      ∃ entry ∈ routes.table.entries.take maxLabels, labelInfo entry = ⟨label, size⟩ := by
  have sorted : (⟨label, size⟩ : LabelInfo) ∈ routes.getLabelsSorted.toList ↔
      (⟨label, size⟩ : LabelInfo) ∈ routes.getLabels.toList := by
    rw [← Vector.toList_toArray, getLabelsSorted_toArray, List.mem_mergeSort]
  have kept : (⟨label, size⟩ : LabelInfo) ∈ routes.getLabels.toList ↔
      (⟨label, size⟩ : LabelInfo) ∈
        routes.getLabels.toList.filter fun info => decide (invalidLabel < info.label) := by
    rw [List.mem_filter]
    exact (and_iff_left (decide_eq_true valid)).symm
  rw [sorted, kept, getLabels_valid, List.mem_map]
  constructor
  · rintro ⟨entry, member, named⟩
    exact ⟨entry, List.mem_of_mem_filter member, named⟩
  · rintro ⟨entry, member, named⟩
    have key : entry.1 = label := congrArg LabelInfo.label named
    exact ⟨entry, List.mem_filter.mpr ⟨member, by rw [key]; exact decide_eq_true valid⟩, named⟩

/-- What the receiver makes of a snapshot. -/
theorem collect_snapshot {label : Label} {size : UInt32} :
    (BroadcastMessage.collect ∅ routes.getLabelsSorted.toList).lookup label = some size ↔
      invalidLabel < label ∧
        ∃ entry ∈ routes.table.entries.take maxLabels, labelInfo entry = ⟨label, size⟩ := by
  constructor
  · intro found
    rcases BroadcastMessage.collect_sound _ _ found with nothing | ⟨member, valid⟩
    · simp at nothing
    · exact ⟨valid, (mem_getLabelsSorted valid).mp member⟩
  · rintro ⟨valid, entry, member, named⟩
    have listed : (⟨label, size⟩ : LabelInfo) ∈ routes.getLabelsSorted.toList :=
      (mem_getLabelsSorted valid).mpr ⟨entry, member, named⟩
    have present := BroadcastMessage.collect_complete routes.getLabelsSorted.toList ∅
      (.inr ⟨valid, _, listed, rfl⟩)
    obtain ⟨size', found⟩ := Option.isSome_iff_exists.mp (AList.lookup_isSome.mpr present)
    -- Labels of the table are distinct, so the entry that was found is the one that was listed.
    rcases BroadcastMessage.collect_sound _ _ found with nothing | ⟨member', _⟩
    · simp at nothing
    · obtain ⟨other, there, named'⟩ := (mem_getLabelsSorted valid).mp member'
      have keys : other.1 = entry.1 :=
        (congrArg LabelInfo.label named').trans (congrArg LabelInfo.label named).symm
      have same : other = entry := routes.table.nodupKeys.eq_of_fst_eq (List.mem_of_mem_take there)
        (List.mem_of_mem_take member) keys
      have sizes : size' = size := by
        rw [same, named] at named'
        exact (congrArg LabelInfo.size named').symm
      rw [found, sizes]

end Routes

namespace Node

variable {book : AddressBook} {node : Node}

/-- A registered receive handle has the label and the size. -/
def OpenRecv (node : Node) (label : Label) (size : ℕ) : Prop :=
  ∃ uid ref handle, node.router.recvHandles.lookup uid = some ref ∧
    node.recvObjects[ref]? = some handle ∧ handle.data.label = label ∧ handle.data.bufSize = size

/-- Open receive labels are the labels of the receive routes. -/
theorem RecvInv.openRecv_iff (inv : RecvInv node) {label : Label} {size : ℕ} :
    OpenRecv node label size ↔
      ∃ route, node.router.routes.recv.table.lookup label = some route ∧ route.labelSize = size := by
  constructor
  · rintro ⟨uid, ref, handle, registered, there, rfl, rfl⟩
    obtain ⟨object, route, seen, _, found, listed⟩ := inv.consistent.stored uid ref registered
    rw [recvView, there, Option.map_some] at seen
    cases seen
    obtain ⟨ref', object', registered', seen', _, _, sized⟩ :=
      inv.consistent.routed _ route uid found listed
    cases registered.symm.trans registered'
    rw [recvView, there, Option.map_some] at seen'
    cases seen'
    exact ⟨route, found, sized.symm⟩
  · rintro ⟨route, found, rfl⟩
    obtain ⟨uid, listed⟩ := List.exists_mem_of_ne_nil _ (inv.consistent.nonempty label route found)
    obtain ⟨ref, object, registered, seen, _, labelled, sized⟩ :=
      inv.consistent.routed label route uid found listed
    obtain ⟨handle, there, rfl⟩ := Option.map_eq_some_iff.mp seen
    exact ⟨uid, ref, handle, registered, there, labelled, sized⟩

/-- Open labels are valid and their sizes fit in the 32 bits of a message. -/
private theorem RecvInv.openRecv_bounds (inv : RecvInv node) {label : Label} {size : ℕ}
    (opened : OpenRecv node label size) : invalidLabel < label ∧ size < 2 ^ 32 := by
  obtain ⟨uid, ref, handle, _, there, rfl, rfl⟩ := opened
  have accepted := (inv.valid handle (List.mem_of_getElem? there)).accepted
  simp only [OpenReceiveData.accepted, Bool.and_eq_true, Bool.not_eq_true', decide_eq_false_iff_not]
    at accepted
  refine ⟨Int32.not_le.mp accepted.1.1.1.1, ?_⟩
  have bound := Nat.not_lt.mp accepted.1.2
  have small : maxLabelSize < 2 ^ 32 := by decide
  omega

/-- The receive labels of a node as another node reads them from its broadcast. -/
def announced (myId : NodeId) (node : Node) (memory : List UInt8) : AList (fun _ : Label => UInt32) :=
  (BroadcastMessage.ofBytes (Listener.recvInto memory
    (.datagram (BroadcastMessage.ofRouter myId node.router).bytes))).recv

theorem announced_eq (myId : NodeId) (node : Node) (memory : List UInt8) :
    announced myId node memory =
      BroadcastMessage.collect ∅ node.router.routes.recv.getLabelsSorted.toList := by
  have whole : (BroadcastMessage.ofRouter myId node.router).bytes.take
      BroadcastMessage.sizeofBroadcastMessage = (BroadcastMessage.ofRouter myId node.router).bytes :=
    List.take_of_length_le (by rw [BroadcastMessage.length_bytes])
  rw [announced, Listener.recvInto, whole, BroadcastMessage.ofBytes_bytes,
    BroadcastMessage.recv_eq_collect]
  rfl

theorem RecvInv.announced_iff (inv : RecvInv node) (myId : NodeId) (memory : List UInt8)
    {label : Label} {size : ℕ} :
    ((announced myId node memory).lookup label).map UInt32.toNat = some size ↔
      ∃ route, (⟨label, route⟩ : Sigma fun _ : Label => RecvRoute) ∈
          node.router.routes.recv.table.entries.take maxLabels ∧ route.labelSize = size := by
  rw [Option.map_eq_some_iff, announced_eq]
  have fits : ∀ {label : Label} {route : RecvRoute},
      (⟨label, route⟩ : Sigma fun _ : Label => RecvRoute) ∈
        node.router.routes.recv.table.entries.take maxLabels →
      invalidLabel < label ∧ (UInt32.ofNat route.labelSize).toNat = route.labelSize := by
    intro label route member
    have found : node.router.routes.recv.table.lookup label = some route :=
      AList.mem_lookup_iff.mpr (List.mem_of_mem_take member)
    obtain ⟨valid, small⟩ := inv.openRecv_bounds (inv.openRecv_iff.mpr ⟨route, found, rfl⟩)
    exact ⟨valid, UInt32.toNat_ofNat_of_lt' small⟩
  constructor
  · rintro ⟨size', found, rfl⟩
    obtain ⟨_, ⟨label', route⟩, member, named⟩ := Routes.collect_snapshot.mp found
    cases named
    exact ⟨route, member, (fits member).2.symm⟩
  · rintro ⟨route, member, rfl⟩
    refine ⟨UInt32.ofNat route.labelSize, ?_, (fits member).2⟩
    exact Routes.collect_snapshot.mpr ⟨(fits member).1, ⟨label, route⟩, member, rfl⟩

/-- What a broadcast says about receive labels is true, and it is complete if the open labels fit in
the message. -/
theorem announced_exact (reachable : Reachable book node) (myId : NodeId) (memory : List UInt8) :
    (∀ label size, ((announced myId node memory).lookup label).map UInt32.toNat = some size →
        OpenRecv node label size) ∧
      ∀ labels : List Label, (∀ label size, OpenRecv node label size → label ∈ labels) →
        labels.length ≤ maxLabels → ∀ label size,
        (((announced myId node memory).lookup label).map UInt32.toNat = some size ↔
          OpenRecv node label size) := by
  have inv := reachable.recvInv
  have sound :
      ∀ label size, ((announced myId node memory).lookup label).map UInt32.toNat = some size →
      OpenRecv node label size := by
    intro label size found
    obtain ⟨route, member, sized⟩ := (inv.announced_iff myId memory).mp found
    exact inv.openRecv_iff.mpr ⟨route, AList.mem_lookup_iff.mpr (List.mem_of_mem_take member), sized⟩
  refine ⟨sound, fun labels covers few label size => ⟨sound label size, fun opened => ?_⟩⟩
  -- Every route has an open label, so there are no more routes than labels.
  have within : node.router.routes.recv.table.keys ⊆ labels := by
    intro key member
    obtain ⟨route, found⟩ := Option.isSome_iff_exists.mp (AList.lookup_isSome.mpr member)
    exact covers key route.labelSize (inv.openRecv_iff.mpr ⟨route, found, rfl⟩)
  have count := (List.subperm_of_subset node.router.routes.recv.table.keys_nodup within).length_le
  have room : node.router.routes.recv.table.entries.length ≤ maxLabels := by
    simp only [AList.keys, List.keys, List.length_map] at count
    omega
  obtain ⟨route, found, sized⟩ := inv.openRecv_iff.mp opened
  apply (inv.announced_iff myId memory).mpr
  refine ⟨route, ?_, sized⟩
  rw [List.take_of_length_le room]
  exact AList.mem_lookup_iff.mp found

section Crowd

/-- A request for four bytes of one label. -/
def crowdRequest (label : ℕ) : RecvRequest :=
  ⟨Int32.ofNat label, some 0, 4, 1, none, none, none, 0, .everyMessage⟩

/-- A node that has opened the labels below a bound, one after the other. -/
def crowd (book : AddressBook) : ℕ → Node
  | 0 => .initial ⟨fun _ => 0, fun _ => default, fun _ => 0⟩
  | count + 1 => (crowd book count).step book (.openRecv (crowdRequest count))

theorem crowd_reachable (book : AddressBook) (count : ℕ) : Reachable book (crowd book count) := by
  induction count with
  | zero => exact ⟨_, .refl⟩
  | succ count ih =>
    obtain ⟨world, run⟩ := ih
    exact ⟨world, run.tail trivial⟩

theorem toInt_ofNat {label : ℕ} (small : label < 2 ^ 31) : (Int32.ofNat label).toInt = label :=
  Int32.toInt_ofNat_of_lt small

private theorem crowdRequest_accepted {label : ℕ} (small : label < 2 ^ 31) :
    (openRecvLabel (crowdRequest label)).accepted = true := by
  have valid : ¬Int32.ofNat label ≤ invalidLabel := by
    rw [Int32.le_iff_toInt_le, toInt_ofNat small]
    have minus : invalidLabel.toInt = -1 := by decide
    omega
  simp [OpenReceiveData.accepted, openRecvLabel, crowdRequest, valid, maxLabelSize]

/-- What the openings leave in the router. -/
private theorem crowd_routes (book : AddressBook) {count : ℕ} (small : count < 2 ^ 31) :
    (crowd book count).nextId = count + 1 ∧
      (∀ uid ∈ (crowd book count).router.recvHandles, uid ≤ count) ∧
      ∀ label < 2 ^ 31, (crowd book count).router.routes.recv.table.lookup (Int32.ofNat label) =
        if label < count then some ⟨Int32.ofNat label, 4, [label + 1]⟩ else none := by
  induction count with
  | zero =>
    exact ⟨rfl, fun _ member => by simp [crowd, initial, Router.empty] at member, fun _ _ => rfl⟩
  | succ count ih =>
    obtain ⟨next, uids, lookups⟩ := ih (by omega)
    have accepted := crowdRequest_accepted (show count < 2 ^ 31 by omega)
    have uid : wrap32 (count + 1) = count + 1 := wrap32_of_lt (by omega)
    have fresh : count + 1 ∉ (crowd book count).router.recvHandles := by
      intro member
      exact Nat.not_succ_le_self count (uids _ member)
    have missing := lookups count (by omega)
    rw [if_neg (Nat.lt_irrefl count)] at missing
    -- The label has no route yet, so the handle gets one of its own.
    obtain ⟨gen, stored⟩ :=
      (crowd book count).router.routes.recv.storeHandle_first (Int32.ofNat count) 4
      (count + 1) (crowd book count).recvObjects.length fresh missing
    have opened : crowd book (count + 1) = ((crowd book count).openRecv
        (openRecvLabel (crowdRequest count))).1 := rfl
    rw [Node.openRecv, if_pos accepted] at opened
    simp only [uniqueId, next, uid, Router.registerRecvSubscriber, Routes.addRecvSubscriber,
      RecvHandle.new, openRecvLabel, crowdRequest] at opened
    rw [stored] at opened
    rw [opened]
    refine ⟨wrap64_of_lt (by omega), ?_, ?_⟩
    · intro uid member
      rcases (AList.mem_insert _).mp member with rfl | earlier
      · exact Nat.le_refl _
      · exact Nat.le_succ_of_le (uids uid earlier)
    · intro label bound
      by_cases same : label = count
      · subst same
        rw [AList.lookup_insert, if_pos (Nat.lt_succ_self label)]
        rfl
      · have different : Int32.ofNat label ≠ Int32.ofNat count := by
          intro equal
          have values := congrArg Int32.toInt equal
          rw [toInt_ofNat bound, toInt_ofNat (by omega)] at values
          omega
        rw [AList.lookup_insert_ne different, lookups label bound]
        by_cases below : label < count
        · rw [if_pos below, if_pos (by omega)]
        · rw [if_neg below, if_neg (by omega)]

private theorem crowd_open (book : AddressBook) {count label : ℕ} (small : count < 2 ^ 31)
    (opened : label < count) : OpenRecv (crowd book count) (Int32.ofNat label) 4 := by
  apply (crowd_reachable book count).recvInv.openRecv_iff.mpr
  have found := (crowd_routes book small).2.2 label (by omega)
  rw [if_pos opened] at found
  exact ⟨_, found, rfl⟩

/-- No message holds more labels than fit in it. -/
private theorem announced_length (myId : NodeId) (node : Node) (memory : List UInt8) :
    (announced myId node memory).entries.length ≤ maxLabels := by
  rw [announced_eq]
  have bound := BroadcastMessage.collect_length node.router.routes.recv.getLabelsSorted.toList ∅
  simpa using bound

/-- No node is known. -/
def strangers : AddressBook := ⟨fun _ => .none, fun _ _ => rfl⟩

theorem announced_exact_crowd :
    Reachable strangers (crowd strangers 3) ∧
      ∀ label size,
        (((announced 1 (crowd strangers 3) []).lookup label).map UInt32.toNat = some size ↔
        OpenRecv (crowd strangers 3) label size) := by
  refine ⟨crowd_reachable strangers 3, ?_⟩
  apply (announced_exact (crowd_reachable strangers 3) 1 []).2 [2, 1, 0] ?_ (by decide)
  intro label size opened
  obtain ⟨route, found, _⟩ := (crowd_reachable strangers 3).recvInv.openRecv_iff.mp opened
  have member : label ∈ (crowd strangers 3).router.routes.recv.table :=
    AList.lookup_isSome.mp (by rw [found]; rfl)
  exact member

/-- With one open label more than fits, the broadcast leaves out one of them. -/
theorem announced_drops_label :
    Reachable strangers (crowd strangers (maxLabels + 1)) ∧
      ¬∀ label size,
        (((announced 1 (crowd strangers (maxLabels + 1)) []).lookup label).map UInt32.toNat =
          some size ↔ OpenRecv (crowd strangers (maxLabels + 1)) label size) := by
  refine ⟨crowd_reachable _ _, fun exact => ?_⟩
  have small : maxLabels + 1 < 2 ^ 31 := by simp [maxLabels]
  have within : (List.range (maxLabels + 1)).map Int32.ofNat ⊆
      (announced 1 (crowd strangers (maxLabels + 1)) []).keys := by
    intro label member
    obtain ⟨number, below, rfl⟩ := List.mem_map.mp member
    have opened := crowd_open strangers small (List.mem_range.mp below)
    obtain ⟨size, found, _⟩ := Option.map_eq_some_iff.mp ((exact _ 4).mpr opened)
    apply AList.mem_keys.mp
    rw [← AList.lookup_isSome, found, Option.isSome_some]
  have nodup : ((List.range (maxLabels + 1)).map Int32.ofNat).Nodup := by
    apply List.nodup_range.map_on
    intro first member second member' equal
    have bound := List.mem_range.mp member
    have bound' := List.mem_range.mp member'
    have values := congrArg Int32.toInt equal
    rw [toInt_ofNat (by omega), toInt_ofNat (by omega)] at values
    omega
  have count := (List.subperm_of_subset nodup within).length_le
  have few := announced_length 1 (crowd strangers (maxLabels + 1)) []
  simp only [List.length_map, List.length_range, AList.keys, List.keys] at count
  omega

end Crowd

end Node

end Eroil
