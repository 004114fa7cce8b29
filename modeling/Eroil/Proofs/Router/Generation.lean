import Eroil.Lib.Stamp
import Eroil.Proofs.Discovery.Update

/-! # What a generation number tells about a label list

A generation advances when a route is created or erased and at no other time; sizes never change
while a route lives. Two points of a run with the same generation therefore have the same list of
labels, provided the counter did not run through all of its values in between.
-/

namespace Eroil

open Lib HandleRoute

namespace Routes

variable {ρ : Type} [HandleRoute ρ] {routes before after : Routes ρ}

/-- The size with which a label is announced, if it has a route. -/
def announced (routes : Routes ρ) (label : Label) : Option ℕ :=
  (routes.table.lookup label).map labelSize

/-- The set of routed labels. -/
def routed (routes : Routes ρ) : Finset Label := routes.table.keys.toFinset

theorem mem_routed {label : Label} :
    label ∈ routes.routed ↔ (routes.announced label).isSome = true := by
  rw [routed, List.mem_toFinset, announced, Option.isSome_map, AList.lookup_isSome, AList.mem_keys]

private theorem routed_of_announced (same : ∀ label, after.announced label = before.announced label) :
    after.routed = before.routed := by
  ext label
  rw [mem_routed, mem_routed, same]

/-- A route may be replaced by one of the same size. -/
theorem announced_insert {label : Label} {route new : ρ}
    (found : routes.table.lookup label = some route)
    (size : labelSize new = labelSize route) (gen : ℕ) (query : Label) :
    (⟨routes.table.insert label new, gen⟩ : Routes ρ).announced query = routes.announced query := by
  by_cases same : query = label
  · subst same
    rw [announced, announced, AList.lookup_insert, found, Option.map_some, Option.map_some, size]
  · rw [announced, announced, AList.lookup_insert_ne same]

/-- What a call can do to one half: keep the list, or change the set of labels and advance the
generation. -/
inductive Turn (before after : Routes ρ) : Prop
  | kept (gen : after.gen = before.gen)
    (same : ∀ label, after.announced label = before.announced label)
  | changed (gen : after.gen = wrap64 (before.gen + 1)) (different : after.routed ≠ before.routed)

namespace Turn

theorem refl (routes : Routes ρ) : Turn routes routes := .kept rfl fun _ => rfl

theorem addMember (routes : Routes ρ) (label : Label) (size : ℕ) (uid : HandleUid) :
    Turn routes (routes.addMember label size uid).1 := by
  cases found : routes.table.lookup label with
  | none =>
    have added : (routes.addMember label size uid).1 =
        ⟨routes.table.insert label (setMembers (create label size) [uid]),
          wrap64 (routes.gen + 1)⟩ := by
      simp [Routes.addMember, has, found, createRoute]
    rw [added]
    refine .changed rfl fun same => ?_
    have new : label ∈ routes.routed := by
      rw [← same, mem_routed, announced, AList.lookup_insert]
      rfl
    rw [mem_routed, announced, found] at new
    cases new
  | some route =>
    simp only [Routes.addMember, has, found, Option.isSome_some, ↓reduceIte]
    split_ifs
    · exact .refl routes
    · exact .refl routes
    · exact .kept rfl (announced_insert found (labelSize_setMembers route _) routes.gen)

theorem removeMember (routes : Routes ρ) (label : Label) (uid : HandleUid) :
    Turn routes (routes.removeMember label uid).1 := by
  cases found : routes.table.lookup label with
  | none =>
    simp only [Routes.removeMember, found]
    exact .refl routes
  | some route =>
    simp only [Routes.removeMember, found]
    split_ifs
    · refine .changed rfl fun same => ?_
      have old : label ∈ routes.routed := by
        rw [mem_routed, announced, found]
        rfl
      rw [← same, mem_routed, announced, AList.lookup_erase] at old
      cases old
    · exact .kept rfl (announced_insert found (labelSize_setMembers route _) routes.gen)
    · exact .refl routes

theorem storeHandle {handles : AList (fun _ : HandleUid => HandleRef)} (routes : Routes ρ)
    (label : Label) (size : ℕ) (uid : HandleUid) (ref : HandleRef) :
    Turn routes (Router.storeHandle routes handles uid ref (routes.addMember label size uid)).1 := by
  unfold Router.storeHandle
  split_ifs
  · exact .refl routes
  · exact .addMember routes label size uid
  · exact .addMember routes label size uid

theorem dropHandle {handles : AList (fun _ : HandleUid => HandleRef)} (routes : Routes ρ)
    (label : Label) (uid : HandleUid) (ref : HandleRef) :
    Turn routes (Router.dropHandle routes handles uid ref (routes.removeMember label uid)).1 := by
  unfold Router.dropHandle
  split_ifs
  · exact .removeMember routes label uid
  · exact .refl routes

/-- Subscriber lists do not show in the announced labels. -/
theorem of_map {before after : Routes SendRoute} (gen : after.gen = before.gen)
    (update : Label → SendRoute → SendRoute)
    (lookup : ∀ label, after.table.lookup label = (before.table.lookup label).map (update label))
    (kept : ∀ label (route : SendRoute), route.SameHandles (update label route)) :
    Turn before after := by
  refine .kept gen fun label => ?_
  rw [announced, announced, lookup, Option.map_map]
  refine Option.map_congr fun route _ => ?_
  exact (kept label route).labelSize

end Turn

/-! ## Halves along a run -/

variable {half : ℕ → Routes ρ} {first last : ℕ}

/-- The generation counts the changes of the set of labels, starting from one. -/
theorem gen_eq (start : (half 0).gen = 1) (turns : ∀ n < last, Turn (half n) (half (n + 1))) :
    (half last).gen = wrap64 (1 + changes (fun n => (half n).routed) last) := by
  induction last with
  | zero =>
    rw [start]
    rfl
  | succ last ih =>
    have before := ih fun n small => turns n (by omega)
    rcases turns last (Nat.lt_succ_self last) with ⟨gen, same⟩ | ⟨gen, different⟩
    · rw [gen, before, changes_succ_of_eq (routed_of_announced same)]
    · rw [gen, before, changes_succ_of_ne different, wrap64, wrap64, wrap64, Nat.mod_add_mod]
      rfl

/-- As long as no label comes or goes, the announced sizes stay. -/
private theorem announced_of_changes_eq (turns : ∀ n < last, Turn (half n) (half (n + 1)))
    (ordered : first ≤ last)
    (same : changes (fun n => (half n).routed) first = changes (fun n => (half n).routed) last)
    (label : Label) : (half last).announced label = (half first).announced label := by
  refine invariant_of_changes_eq (fun n => (half n).announced label = (half first).announced label)
    ordered same rfl fun n small routed before => ?_
  rcases turns n small with ⟨_, kept⟩ | ⟨_, different⟩
  · rw [kept, before]
  · exact absurd routed different

/-! ## The label array depends on the announced sizes only -/

theorem mem_map_labelInfo {info : LabelInfo} : info ∈ routes.table.entries.map labelInfo ↔
    ∃ size, routes.announced info.label = some size ∧ UInt32.ofNat size = info.size := by
  simp only [List.mem_map, announced, Option.map_eq_some_iff]
  constructor
  · rintro ⟨entry, member, rfl⟩
    exact ⟨_, ⟨entry.2, AList.mem_lookup_iff.mpr member, rfl⟩, rfl⟩
  · rintro ⟨size, ⟨route, found, rfl⟩, same⟩
    refine ⟨⟨info.label, route⟩, AList.mem_lookup_iff.mp found, ?_⟩
    rw [labelInfo, same]

theorem nodup_labels (routes : Routes ρ) :
    ((routes.table.entries.map labelInfo).map LabelInfo.label).Nodup := by
  rw [List.map_map]
  exact routes.table.keys_nodup

theorem nodup_map_labelInfo (routes : Routes ρ) : (routes.table.entries.map labelInfo).Nodup :=
  routes.nodup_labels.of_map _

private theorem perm_labelInfo (same : ∀ label, after.announced label = before.announced label) :
    (after.table.entries.map labelInfo).Perm (before.table.entries.map labelInfo) := by
  rw [List.perm_ext_iff_of_nodup after.nodup_map_labelInfo before.nodup_map_labelInfo]
  intro info
  rw [mem_map_labelInfo, mem_map_labelInfo, same]

private theorem perm_getLabels (same : ∀ label, after.announced label = before.announced label)
    (room : before.table.entries.length ≤ maxLabels) :
    after.getLabels.toList.Perm before.getLabels.toList := by
  have perm := perm_labelInfo same
  have lengths : after.table.entries.length = before.table.entries.length := by
    simpa using perm.length_eq
  rw [getLabels_toList, getLabels_toList, List.take_of_length_le room,
    List.take_of_length_le (lengths.trans_le room), lengths]
  exact perm.append_right _

/-- What holds of any two equivalent elements in their order holds after a stable sort as well. -/
private theorem pairwise_mergeSort_stable {α : Type*} {le : α → α → Bool} {kept : α → α → Prop}
    (trans : ∀ a b c, le a b → le b c → le a c) (total : ∀ a b, le a b || le b a) {list : List α}
    (order : list.Pairwise fun a b => le a b → le b a → kept a b) :
    (list.mergeSort le).Pairwise fun a b => le a b ∧ (le b a → kept a b) := by
  have distinct : (list.zipIdx.mergeSort (List.zipIdxLE le)).Pairwise fun a b => a.2 ≠ b.2 := by
    rw [← List.pairwise_map]
    refine ((List.mergeSort_perm _ _).map Prod.snd).nodup_iff.mpr ?_
    rw [List.zipIdx_map_snd]
    exact List.nodup_range'
  rw [← List.mergeSort_zipIdx, List.pairwise_map]
  refine List.Pairwise.imp_of_mem ?_ ((List.pairwise_mergeSort (List.zipIdxLE_trans trans)
    (List.zipIdxLE_total total) list.zipIdx).and distinct)
  rintro ⟨a, i⟩ ⟨b, j⟩ here there ⟨before, apart⟩
  obtain ⟨inside, same⟩ := List.mem_zipIdx' (List.mem_mergeSort.mp here)
  obtain ⟨inside', same'⟩ := List.mem_zipIdx' (List.mem_mergeSort.mp there)
  simp only [List.zipIdxLE, Bool.if_false_right, Bool.and_eq_true, decide_eq_true_eq] at before
  refine ⟨before.1, fun swaps => ?_⟩
  have earlier : i ≤ j := by simpa [swaps] using before.2
  have ordered := List.pairwise_iff_getElem.mp order i j inside inside'
    (Nat.lt_of_le_of_ne earlier apart)
  rw [← same, ← same'] at ordered
  exact ordered before.1 swaps

/-- Of two entries of the array with the same label, the second is empty. -/
private theorem getLabels_pairwise (routes : Routes ρ) :
    routes.getLabels.toList.Pairwise fun a b => a.label = b.label → b = {} := by
  have distinct : (routes.table.entries.map labelInfo).Pairwise fun a b => a.label ≠ b.label :=
    List.pairwise_map.mp routes.nodup_labels
  rw [getLabels_toList, List.pairwise_append]
  refine ⟨?_, ?_, ?_⟩
  · rw [List.map_take]
    exact (distinct.sublist (List.take_sublist ..)).imp fun apart same => absurd same apart
  · exact List.pairwise_replicate.mpr (.inr fun _ => rfl)
  · intro _ _ empty member _
    exact List.eq_of_mem_replicate member

/-- The array is sorted, and an entry with the label of the empty ones stays before them. -/
private theorem getLabelsSorted_pairwise (routes : Routes ρ) :
    routes.getLabelsSorted.toList.Pairwise fun a b =>
      a.label ≤ b.label ∧ (b.label ≤ a.label → b = {}) := by
  have pairwise := @pairwise_mergeSort_stable LabelInfo (fun a b => decide (a.label ≤ b.label))
    (fun _ b => b = {}) (by simpa using fun a b c => Int32.le_trans)
    (by simpa using fun a b => Int32.le_total ..) routes.getLabels.toList
    (routes.getLabels_pairwise.imp fun same lower upper =>
      same (Int32.le_antisymm (of_decide_eq_true lower) (of_decide_eq_true upper)))
  simp only [decide_eq_true_eq] at pairwise
  exact pairwise

/-- The sorted array is determined by the announced sizes. -/
private theorem getLabelsSorted_eq (same : ∀ label, after.announced label = before.announced label)
    (room : before.table.entries.length ≤ maxLabels) :
    after.getLabelsSorted = before.getLabelsSorted := by
  have perm : after.getLabelsSorted.toList.Perm before.getLabelsSorted.toList :=
    (List.mergeSort_perm _ _).trans ((perm_getLabels same room).trans (List.mergeSort_perm _ _).symm)
  have unique : after.getLabelsSorted.toList = before.getLabelsSorted.toList := by
    refine perm.eq_of_pairwise (fun a b _ _ forth back => ?_) after.getLabelsSorted_pairwise
      before.getLabelsSorted_pairwise
    rw [back.2 forth.1, forth.2 back.1]
  exact Vector.toArray_inj.mp (congrArg List.toArray unique)

end Routes

namespace Router

theorem Turn.addSubscriber (router : Router) (kind : Transport) (label : Label) (size : ℕ)
    (dst : NodeId) :
    Routes.Turn router.routes.send (router.addSubscriber kind label size dst).routes.send := by
  unfold Router.addSubscriber
  split_ifs
  · refine .of_map (router.routes.send.addSendSubscriber_gen kind label size dst) _
      (router.routes.send.addSendSubscriber_lookup kind label size dst) fun query route => ?_
    split_ifs
    · exact .subscribe route kind size dst
    · exact ⟨rfl, rfl, rfl⟩
  · exact .refl _

theorem Turn.removeSubscriber (router : Router) (kind : Transport) (label : Label) (dst : NodeId) :
    Routes.Turn router.routes.send (router.removeSubscriber kind label dst).routes.send := by
  refine .of_map (router.routes.send.removeSendSubscriber_gen kind label dst) _
    (router.routes.send.removeSendSubscriber_lookup kind label dst) fun query route => ?_
  split_ifs
  · exact .unsubscribe route kind dst
  · exact ⟨rfl, rfl, rfl⟩

private theorem call_turn_send (objects : Objects) (router : Router) (call : Call) :
    Routes.Turn router.routes.send (router.call objects call).routes.send := by
  cases call with
  | registerSendPublisher handle =>
    cases handle with
    | none => exact .refl _
    | some ref => exact .storeHandle router.routes.send _ _ _ ref
  | unregisterSendPublisher handle =>
    cases handle with
    | none => exact .refl _
    | some ref => exact .dropHandle router.routes.send _ _ ref
  | registerRecvSubscriber handle => cases handle <;> exact .refl _
  | unregisterRecvSubscriber handle => cases handle <;> exact .refl _
  | addLocalSendSubscriber label size dst => exact Turn.addSubscriber router .shm label size dst
  | addRemoteSendSubscriber label size dst => exact Turn.addSubscriber router .socket label size dst
  | removeLocalSendSubscriber label dst => exact Turn.removeSubscriber router .shm label dst
  | removeRemoteSendSubscriber label dst => exact Turn.removeSubscriber router .socket label dst
  | upsertSocket id sock => exact .refl _
  | openSendShm id opened => exact .refl _

private theorem call_turn_recv (objects : Objects) (router : Router) (call : Call) :
    Routes.Turn router.routes.recv (router.call objects call).routes.recv := by
  have added : ∀ kind label size dst,
      (router.addSubscriber kind label size dst).routes.recv = router.routes.recv := by
    intro kind label size dst
    unfold Router.addSubscriber
    split_ifs <;> rfl
  cases call with
  | registerRecvSubscriber handle =>
    cases handle with
    | none => exact .refl _
    | some ref => exact .storeHandle router.routes.recv _ _ _ ref
  | unregisterRecvSubscriber handle =>
    cases handle with
    | none => exact .refl _
    | some ref => exact .dropHandle router.routes.recv _ _ ref
  | registerSendPublisher handle => cases handle <;> exact .refl _
  | unregisterSendPublisher handle => cases handle <;> exact .refl _
  | addLocalSendSubscriber label size dst =>
    exact (added .shm label size dst).symm ▸ Routes.Turn.refl _
  | addRemoteSendSubscriber label size dst =>
    exact (added .socket label size dst).symm ▸ Routes.Turn.refl _
  | removeLocalSendSubscriber label dst => exact .refl _
  | removeRemoteSendSubscriber label dst => exact .refl _
  | upsertSocket id sock => exact .refl _
  | openSendShm id opened => exact .refl _

/-- The router after the first calls of a run. -/
def after (objects : Objects) (calls : List Call) (count : ℕ) : Router :=
  (calls.take count).foldl (Router.call objects) .empty

theorem after_succ (objects : Objects) {calls : List Call} {count : ℕ}
    (within : count < calls.length) :
    after objects calls (count + 1) = (after objects calls count).call objects calls[count] := by
  rw [after, List.take_add_one, List.getElem?_eq_getElem within, Option.toList_some,
    List.foldl_append, ← after]
  rfl

/-- What the generation of one half says about two points of a run. -/
structure Stamped {ρ : Type} [HandleRoute ρ] (half : ℕ → Routes ρ) (first last : ℕ) : Prop where
  same : (half first).gen = (half last).gen →
    (half first).getLabelsSorted = (half last).getLabelsSorted
  grows : ∀ middle, first ≤ middle → middle ≤ last →
    (half middle).routed ≠ (half first).routed → (half first).gen < (half last).gen

theorem stamped {ρ : Type} [HandleRoute ρ] {half : ℕ → Routes ρ} {first last total : ℕ}
    (start : (half 0).gen = 1) (turns : ∀ n < total, Routes.Turn (half n) (half (n + 1)))
    (few : changes (fun n => (half n).routed) total + 1 < 2 ^ 64)
    (room : (half first).table.entries.length ≤ maxLabels)
    (ordered : first ≤ last) (within : last ≤ total) : Stamped half first last := by
  have turns' (n : ℕ) (bound : n ≤ total) : ∀ m < n, Routes.Turn (half m) (half (m + 1)) :=
    fun m small => turns m (by omega)
  have mono := changes_mono (fun n => (half n).routed) within
  have mono' := changes_mono (fun n => (half n).routed) ordered
  have genFirst := Routes.gen_eq start (turns' first (by omega))
  have genLast := Routes.gen_eq start (turns' last within)
  rw [wrap64_of_lt (by omega)] at genFirst genLast
  constructor
  · intro equal
    have count :
        changes (fun n => (half n).routed) first = changes (fun n => (half n).routed) last := by
      omega
    exact (Routes.getLabelsSorted_eq
      (Routes.announced_of_changes_eq (turns' last within) ordered count) room).symm
  · intro middle lower upper different
    have more : changes (fun n => (half n).routed) first < changes (fun n => (half n).routed) last :=
      changes_lt lower upper different
    omega

/-- In a run that never routes too many labels and whose route sets change fewer than `2 ^ 64 - 1`
times: equal generations mean equal label arrays, and a set of labels that differed in between means
a larger generation. -/
theorem labels_stamped (objects : Objects) (calls : List Call)
    (room : ∀ count ≤ calls.length,
      (after objects calls count).routes.send.table.entries.length ≤ maxLabels ∧
        (after objects calls count).routes.recv.table.entries.length ≤ maxLabels)
    (fewSend :
      changes (fun n => (after objects calls n).routes.send.routed) calls.length + 1 < 2 ^ 64)
    (fewRecv :
      changes (fun n => (after objects calls n).routes.recv.routed) calls.length + 1 < 2 ^ 64)
    {first last : ℕ} (ordered : first ≤ last) (within : last ≤ calls.length) :
    Stamped (fun n => (after objects calls n).routes.send) first last ∧
      Stamped (fun n => (after objects calls n).routes.recv) first last := by
  constructor
  · refine stamped rfl (fun n small => ?_) fewSend (room first (by omega)).1 ordered within
    rw [after_succ objects small]
    exact call_turn_send objects _ _
  · refine stamped rfl (fun n small => ?_) fewRecv (room first (by omega)).2 ordered within
    rw [after_succ objects small]
    exact call_turn_recv objects _ _

/-! ## The last change before the counter is used up -/

/-- One handle of each kind. -/
def lone : Objects :=
  ⟨fun _ => ⟨7, ⟨5, some 64, 4, false, none, none, 0, 0⟩⟩,
    fun _ => .new 7 (openRecvLabel ⟨5, some 64, 4, 1, none, none, none, 0, .overwrite⟩)⟩

theorem labels_stamped_lone :
    Stamped (fun n => (after lone [.registerSendPublisher (some 0)] n).routes.send) 0 1 := by
  have two : ∀ {count}, count ≤ 1 → count = 0 ∨ count = 1 := by omega
  refine (labels_stamped lone [.registerSendPublisher (some 0)] ?_ (by decide) (by decide)
    (Nat.zero_le 1) (le_refl 1)).1
  intro count within
  rcases two within with rfl | rfl <;> decide

/-- The handle is opened and closed in turn. -/
def reopening (count : ℕ) : List Call :=
  (List.range count).map fun n =>
    if n % 2 = 0 then .registerSendPublisher (some 0) else .unregisterSendPublisher (some 0)

/-- A router without handles. -/
def quiet (gen : ℕ) : Router := ⟨⟨⟨∅, gen⟩, .empty⟩, .empty, ∅, ∅⟩

private theorem quiet_reopen (gen : ℕ) :
    ((quiet gen).call lone (.registerSendPublisher (some 0))).call lone
      (.unregisterSendPublisher (some 0)) = quiet (wrap64 (wrap64 (gen + 1) + 1)) := rfl

theorem reopening_odd (pairs : ℕ) :
    reopening (2 * pairs + 1) = reopening (2 * pairs) ++ [.registerSendPublisher (some 0)] := by
  simp [reopening, List.range_succ]

theorem reopening_even (pairs : ℕ) : (reopening (2 * pairs)).foldl (Router.call lone) .empty =
    quiet (wrap64 (1 + 2 * pairs)) := by
  induction pairs with
  | zero => rfl
  | succ pairs ih =>
    have next : reopening (2 * (pairs + 1)) =
        reopening (2 * pairs + 1) ++ [.unregisterSendPublisher (some 0)] := by
      rw [Nat.mul_succ, reopening, List.range_succ, List.map_append, ← reopening]
      simp
    rw [next, reopening_odd, List.foldl_append, List.foldl_append, ih]
    simp only [List.foldl_cons, List.foldl_nil]
    rw [quiet_reopen]
    congr 1
    simp only [wrap64, Nat.mod_add_mod]
    congr 1

theorem after_reopening {total count : ℕ} (within : count ≤ total) :
    after lone (reopening total) count = (reopening count).foldl (Router.call lone) .empty := by
  rw [after, reopening, ← List.map_take, List.take_range, Nat.min_eq_left within, ← reopening]

private theorem after_reopening_even {total pairs : ℕ} (within : 2 * pairs ≤ total) :
    after lone (reopening total) (2 * pairs) = quiet (wrap64 (1 + 2 * pairs)) := by
  rw [after_reopening within, reopening_even]

theorem after_reopening_odd {total pairs : ℕ} (within : 2 * pairs + 1 ≤ total) :
    after lone (reopening total) (2 * pairs + 1) =
      (quiet (wrap64 (1 + 2 * pairs))).call lone (.registerSendPublisher (some 0)) := by
  rw [after_reopening within, reopening_odd, List.foldl_append, reopening_even]
  rfl

private theorem reopening_room {total count : ℕ} (within : count ≤ total) :
    (after lone (reopening total) count).routes.send.table.entries.length ≤ maxLabels ∧
      (after lone (reopening total) count).routes.recv.table.entries.length ≤ maxLabels := by
  obtain ⟨pairs, rfl | rfl⟩ : ∃ pairs, count = 2 * pairs ∨ count = 2 * pairs + 1 :=
    ⟨count / 2, by omega⟩
  · rw [after_reopening_even within]
    exact ⟨Nat.zero_le _, Nat.zero_le _⟩
  · rw [after_reopening_odd within]
    exact ⟨(show 1 ≤ maxLabels by decide), Nat.zero_le _⟩

private theorem lone_valid : (∀ ref, invalidLabel < (lone.send ref).data.label) ∧
    ∀ ref, invalidLabel < (lone.recv ref).data.label :=
  ⟨fun _ => show invalidLabel < 5 by decide, fun _ => show invalidLabel < 5 by decide⟩

/-- With `2 ^ 64 - 1` changes the generation, which starts at one, has come back to zero. -/
theorem generation_wraps :
    ¬ ∀ (objects : Objects) (calls : List Call),
      (∀ ref, invalidLabel < (objects.send ref).data.label) →
      (∀ ref, invalidLabel < (objects.recv ref).data.label) →
      (∀ count ≤ calls.length,
        (after objects calls count).routes.send.table.entries.length ≤ maxLabels ∧
          (after objects calls count).routes.recv.table.entries.length ≤ maxLabels) →
      changes (fun n => (after objects calls n).routes.send.routed) calls.length < 2 ^ 64 →
      changes (fun n => (after objects calls n).routes.recv.routed) calls.length < 2 ^ 64 →
      ∀ first last, first ≤ last → last ≤ calls.length →
        Stamped (fun n => (after objects calls n).routes.send) first last ∧
          Stamped (fun n => (after objects calls n).routes.recv) first last := by
  intro claim
  obtain ⟨pairs, total⟩ : ∃ pairs, 2 * pairs + 2 = 2 ^ 64 := ⟨2 ^ 63 - 1, by decide⟩
  have length : (reopening (2 * pairs + 1)).length = 2 * pairs + 1 := by simp [reopening]
  have small : (reopening (2 * pairs + 1)).length < 2 ^ 64 := by omega
  have stamped := (claim lone (reopening (2 * pairs + 1)) lone_valid.1 lone_valid.2
    (fun count within => reopening_room (length ▸ within))
    (lt_of_le_of_lt (changes_le _ _) small) (lt_of_le_of_lt (changes_le _ _) small)
    0 (2 * pairs + 1) (Nat.zero_le _) length.ge).1
  have opened := stamped.grows 1 (Nat.zero_le 1) (by omega)
  have first : after lone (reopening (2 * pairs + 1)) 0 = quiet 1 := rfl
  have second := after_reopening_odd (show 2 * 0 + 1 ≤ 2 * pairs + 1 by omega)
  have last := after_reopening_odd (le_refl (2 * pairs + 1))
  simp only [Nat.mul_zero, Nat.zero_add] at second
  simp only [first, second, last] at opened
  have grown : 1 < wrap64 (wrap64 (1 + 2 * pairs) + 1) := opened (by decide)
  rw [wrap64_of_lt (show 1 + 2 * pairs < 2 ^ 64 by omega),
    show 1 + 2 * pairs + 1 = 2 ^ 64 by omega] at grown
  exact absurd grown (by decide)

end Router

end Eroil
