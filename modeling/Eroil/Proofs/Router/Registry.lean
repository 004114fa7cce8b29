import Eroil.Model.Router.Router

/-! # Handles and routes agree

What the router keeps true about handles and the routes that list them, for the send and the
receive half alike. A handle object is seen through the three fields the router reads: its uid,
its label and its buffer size. None of the steps needs uids to be unique among objects, because a
uid that is taken is refused.
-/

namespace Eroil

open HandleRoute

/-- The fields of a handle object that registration reads. -/
structure HandleView where
  uid : HandleUid
  label : Label
  size : ℕ

variable {ρ : Type} [HandleRoute ρ]

/-- Registered handles and listed uids are the same, each in the route of its own label. -/
structure Consistent (routes : Routes ρ) (handles : AList (fun _ : HandleUid => HandleRef))
    (view : HandleRef → Option HandleView) : Prop where
  stored : ∀ uid ref, handles.lookup uid = some ref → ∃ object route, view ref = some object ∧
    object.uid = uid ∧ routes.table.lookup object.label = some route ∧ uid ∈ members route
  routed : ∀ label route uid, routes.table.lookup label = some route → uid ∈ members route →
    ∃ ref object, handles.lookup uid = some ref ∧ view ref = some object ∧ object.uid = uid ∧
      object.label = label ∧ object.size = labelSize route
  labelled : ∀ label route, routes.table.lookup label = some route → labelOf route = label
  nonempty : ∀ label route, routes.table.lookup label = some route → members route ≠ []
  nodup : ∀ label route, routes.table.lookup label = some route → (members route).Nodup

namespace Routes

variable (routes : Routes ρ) (label : Label) (size : ℕ) (uid : HandleUid)

/-- A handle is refused by an existing route, or appended to the route of its label, which is
created if there is none. -/
theorem addMember_cases :
    (∃ route, routes.table.lookup label = some route ∧
        (labelSize route ≠ size ∨ uid ∈ members route) ∧
        routes.addMember label size uid = (routes, false)) ∨
      (∃ route gen, (routes.table.lookup label = some route ∨
          routes.table.lookup label = none ∧ route = create label size) ∧
        labelSize route = size ∧ uid ∉ members route ∧ routes.addMember label size uid =
          (⟨routes.table.insert label (setMembers route (members route ++ [uid])), gen⟩, true)) := by
  cases found : routes.table.lookup label with
  | none =>
    refine .inr ⟨create label size, wrap64 (routes.gen + 1), .inr ⟨rfl, rfl⟩, by simp, by simp, ?_⟩
    simp [addMember, has, found, createRoute]
  | some route =>
    by_cases fits : labelSize route = size
    · by_cases listed : uid ∈ members route
      · exact .inl ⟨route, rfl, .inr listed, by simp [addMember, has, found, fits, listed]⟩
      · exact .inr ⟨route, routes.gen, .inl rfl, fits, listed,
          by simp [addMember, has, found, fits, listed]⟩
    · exact .inl ⟨route, rfl, .inl fits, by simp [addMember, has, found, fits]⟩

/-- A listed uid is struck, and the route is erased with its last uid. -/
private theorem removeMember_lookup {route : ρ} (found : routes.table.lookup label = some route)
    (listed : uid ∈ members route) (query : Label) :
    (routes.removeMember label uid).1.table.lookup query =
      if query = label then
        if (members route).erase uid = [] then none
        else some (setMembers route ((members route).erase uid))
      else routes.table.lookup query := by
  by_cases last : (members route).erase uid = [] <;> by_cases same : query = label
  · subst same
    simp [removeMember, found, listed, last]
  · simp [removeMember, found, listed, last, same]
  · subst same
    simp [removeMember, found, listed, last]
  · simp [removeMember, found, listed, last, same]

omit [HandleRoute ρ] in
/-- The lookup of a route after one route was replaced. -/
theorem lookup_insert_cases {table : AList (fun _ : Label => ρ)} {label query : Label}
    {route found : ρ} (present : (table.insert label route).lookup query = some found) :
    (query = label ∧ found = route) ∨ (query ≠ label ∧ table.lookup query = some found) := by
  by_cases same : query = label
  · subst same
    rw [AList.lookup_insert] at present
    exact .inl ⟨rfl, (Option.some.inj present).symm⟩
  · rw [AList.lookup_insert_ne same] at present
    exact .inr ⟨same, present⟩

/-- The first handle of a label gets a route of its own. -/
theorem storeHandle_first {handles : AList (fun _ : HandleUid => HandleRef)} (ref : HandleRef)
    (fresh : uid ∉ handles) (missing : routes.table.lookup label = none) :
    ∃ gen, Router.storeHandle routes handles uid ref (routes.addMember label size uid) =
      (⟨routes.table.insert label (setMembers (create label size) [uid]), gen⟩,
        handles.insert uid ref) := by
  rcases routes.addMember_cases label size uid with
    ⟨route, found, _⟩ | ⟨route, gen, before, _, _, accepted⟩
  · cases missing.symm.trans found
  · rcases before with found | ⟨_, rfl⟩
    · cases missing.symm.trans found
    · refine ⟨gen, ?_⟩
      rw [Router.storeHandle, if_neg fresh, accepted]
      simp

/-- A handle that the route table refuses leaves nothing behind. -/
theorem storeHandle_rolledBack {handles : AList (fun _ : HandleUid => HandleRef)} (ref : HandleRef)
    (fresh : uid ∉ handles) (refused : routes.addMember label size uid = (routes, false)) :
    Router.storeHandle routes handles uid ref (routes.addMember label size uid) =
      (routes, handles) := by
  have restored : (handles.insert uid ref).erase uid = handles := by
    apply AList.ext
    show List.kerase uid (handles.insert uid ref).entries = handles.entries
    rw [AList.entries_insert_of_notMem fresh]
    exact List.kerase_cons_eq rfl
  rw [Router.storeHandle, if_neg fresh, refused]
  simp [restored]

/-- A handle whose size does not fit is refused. -/
theorem storeHandle_refused {handles : AList (fun _ : HandleUid => HandleRef)} (ref : HandleRef)
    (fresh : uid ∉ handles) {route : ρ} (found : routes.table.lookup label = some route)
    (wrong : labelSize route ≠ size) :
    Router.storeHandle routes handles uid ref (routes.addMember label size uid) = (routes, handles) :=
  routes.storeHandle_rolledBack label size uid ref fresh (by simp [addMember, has, found, wrong])

/-- Every route of the table has the property, which may depend on the label. -/
def Each (good : Label → ρ → Prop) (routes : Routes ρ) : Prop :=
  ∀ label route, routes.table.lookup label = some route → good label route

namespace Each

variable {good : Label → ρ → Prop} {routes : Routes ρ}

omit [HandleRoute ρ] in
theorem empty : Each good Routes.empty := by
  intro label route found
  simp [Routes.empty] at found

omit [HandleRoute ρ] in
theorem insert (each : Each good routes) {label : Label} {route : ρ} (gen : ℕ)
    (new : good label route) :
    Each good ⟨routes.table.insert label route, gen⟩ := by
  intro query found present
  rcases lookup_insert_cases present with ⟨rfl, rfl⟩ | ⟨_, elsewhere⟩
  · exact new
  · exact each query found elsewhere

omit [HandleRoute ρ] in
theorem erase (each : Each good routes) (label : Label) (gen : ℕ) :
    Each good ⟨routes.table.erase label, gen⟩ := by
  intro query found present
  by_cases same : query = label
  · subst same
    rw [AList.lookup_erase] at present
    cases present
  · rw [AList.lookup_erase_ne same] at present
    exact each query found present

/-- A new handle changes a property of the routes only through a route that it creates. -/
theorem addMember (each : Each good routes) (label : Label) (size : ℕ) (uid : HandleUid)
    (created : good label (create label size))
    (relisted : ∀ label route uids, good label route → good label (setMembers route uids)) :
    Each good (routes.addMember label size uid).1 := by
  rcases routes.addMember_cases label size uid with
    ⟨_, _, _, refused⟩ | ⟨route, gen, before, _, _, accepted⟩
  · rw [refused]
    exact each
  · rw [accepted]
    apply each.insert
    rcases before with there | ⟨_, rfl⟩
    · exact relisted label route _ (each label route there)
    · exact relisted label _ _ created

theorem removeMember (each : Each good routes) (label : Label) (uid : HandleUid)
    (relisted : ∀ label route uids, good label route → good label (setMembers route uids)) :
    Each good (routes.removeMember label uid).1 := by
  unfold Routes.removeMember
  split
  · exact each
  · next route found =>
    split_ifs
    · exact each.erase label _
    · exact each.insert _ (relisted label route _ (each label route found))
    · exact each

theorem storeHandle {handles : AList (fun _ : HandleUid => HandleRef)} (each : Each good routes)
    (uid : HandleUid) (ref : HandleRef) (label : Label) (size : ℕ)
    (created : good label (create label size))
    (relisted : ∀ label route uids, good label route → good label (setMembers route uids)) :
    Each good (Router.storeHandle routes handles uid ref (routes.addMember label size uid)).1 := by
  unfold Router.storeHandle
  split
  · exact each
  · split <;> exact each.addMember label size uid created relisted

theorem dropHandle {handles : AList (fun _ : HandleUid => HandleRef)} (each : Each good routes)
    (uid : HandleUid) (ref : HandleRef) (label : Label)
    (relisted : ∀ label route uids, good label route → good label (setMembers route uids)) :
    Each good (Router.dropHandle routes handles uid ref (routes.removeMember label uid)).1 := by
  unfold Router.dropHandle
  split
  · exact each.removeMember label uid relisted
  · exact each

end Each

end Routes

namespace Consistent

variable {routes : Routes ρ} {handles : AList (fun _ : HandleUid => HandleRef)}
  {view view' : HandleRef → Option HandleView}

theorem empty (view : HandleRef → Option HandleView) :
    Consistent (Routes.empty : Routes ρ) ∅ view where
  stored _ _ found := by simp at found
  routed _ _ _ found := by simp [Routes.empty] at found
  labelled _ _ found := by simp [Routes.empty] at found
  nonempty _ _ found := by simp [Routes.empty] at found
  nodup _ _ found := by simp [Routes.empty] at found

/-- Objects may be added, and changed in fields that registration does not read. -/
theorem mono (consistent : Consistent routes handles view)
    (kept : ∀ ref object, view ref = some object → view' ref = some object) :
    Consistent routes handles view' where
  stored uid ref found := by
    obtain ⟨object, route, seen, rest⟩ := consistent.stored uid ref found
    exact ⟨object, route, kept _ _ seen, rest⟩
  routed label route uid found listed := by
    obtain ⟨ref, object, registered, seen, rest⟩ := consistent.routed label route uid found listed
    exact ⟨ref, object, registered, kept _ _ seen, rest⟩
  labelled := consistent.labelled
  nonempty := consistent.nonempty
  nodup := consistent.nodup

/-- A uid without a handle is in no route. -/
theorem unlisted (consistent : Consistent routes handles view) {uid : HandleUid}
    (fresh : uid ∉ handles) {label : Label} {route : ρ}
    (found : routes.table.lookup label = some route) : uid ∉ members route := by
  intro listed
  obtain ⟨ref, _, registered, _⟩ := consistent.routed label route uid found listed
  rw [AList.lookup_eq_none.mpr fresh] at registered
  cases registered

/-- Only the lookups of the handle map matter. -/
theorem of_lookup {handles' : AList (fun _ : HandleUid => HandleRef)}
    (consistent : Consistent routes handles view)
    (same : ∀ uid, handles'.lookup uid = handles.lookup uid) :
    Consistent routes handles' view where
  stored uid ref found := consistent.stored uid ref (by rw [← same]; exact found)
  routed label route uid found listed := by
    obtain ⟨ref, object, registered, rest⟩ := consistent.routed label route uid found listed
    exact ⟨ref, object, by rw [same]; exact registered, rest⟩
  labelled := consistent.labelled
  nonempty := consistent.nonempty
  nodup := consistent.nodup

/-- An accepted handle is in the handle map and last in its route. -/
theorem insert (consistent : Consistent routes handles view) {ref : HandleRef} {object : HandleView}
    (seen : view ref = some object) (fresh : object.uid ∉ handles) {route : ρ} (gen : ℕ)
    (before : routes.table.lookup object.label = some route ∨
      routes.table.lookup object.label = none ∧ route = create object.label object.size)
    (fits : labelSize route = object.size) (unlisted : object.uid ∉ members route) :
    Consistent
      ⟨routes.table.insert object.label (setMembers route (members route ++ [object.uid])), gen⟩
      (handles.insert object.uid ref) view where
  stored uid query found := by
    by_cases same : uid = object.uid
    · subst same
      rw [AList.lookup_insert] at found
      cases found
      exact ⟨object, _, seen, rfl, AList.lookup_insert _, by simp⟩
    · rw [AList.lookup_insert_ne same] at found
      obtain ⟨other, listing, seen, named, present, listed⟩ := consistent.stored uid query found
      by_cases together : other.label = object.label
      · -- The route of the new handle is the one that lists the old one.
        rw [together] at present
        rcases before with there | ⟨missing, _⟩
        · cases there.symm.trans present
          exact ⟨other, _, seen, named, by rw [together, AList.lookup_insert], by simp [listed]⟩
        · cases missing.symm.trans present
      · exact ⟨other, listing, seen, named, by rw [AList.lookup_insert_ne together]; exact present,
          listed⟩
  routed label found uid present listed := by
    have old : ∀ label listing uid, routes.table.lookup label = some listing →
        uid ∈ members listing → ∃ ref' other, (handles.insert object.uid ref).lookup uid = some ref' ∧
          view ref' = some other ∧ other.uid = uid ∧ other.label = label ∧
          other.size = labelSize listing := by
      intro label listing uid present listed
      obtain ⟨ref', other, registered, rest⟩ := consistent.routed label listing uid present listed
      have different : uid ≠ object.uid := by
        rintro rfl
        exact consistent.unlisted fresh present listed
      exact ⟨ref', other, by rw [AList.lookup_insert_ne different]; exact registered, rest⟩
    rcases Routes.lookup_insert_cases present with ⟨rfl, rfl⟩ | ⟨_, elsewhere⟩
    · rw [members_setMembers, List.mem_append, List.mem_singleton] at listed
      rw [labelSize_setMembers]
      rcases listed with earlier | rfl
      · rcases before with there | ⟨_, rfl⟩
        · exact old _ _ _ there earlier
        · rw [members_create] at earlier
          cases earlier
      · exact ⟨ref, object, AList.lookup_insert _, seen, rfl, rfl, fits.symm⟩
    · exact old _ _ _ elsewhere listed
  labelled label found present := by
    rcases Routes.lookup_insert_cases present with ⟨rfl, rfl⟩ | ⟨_, elsewhere⟩
    · rw [labelOf_setMembers]
      rcases before with there | ⟨_, rfl⟩
      · exact consistent.labelled _ _ there
      · exact labelOf_create _ _
    · exact consistent.labelled _ _ elsewhere
  nonempty label found present := by
    rcases Routes.lookup_insert_cases present with ⟨_, rfl⟩ | ⟨_, elsewhere⟩
    · simp
    · exact consistent.nonempty _ _ elsewhere
  nodup label found present := by
    rcases Routes.lookup_insert_cases present with ⟨rfl, rfl⟩ | ⟨_, elsewhere⟩
    · rw [members_setMembers]
      have nodup : (members route).Nodup := by
        rcases before with there | ⟨_, rfl⟩
        · exact consistent.nodup _ _ there
        · rw [members_create]
          exact List.nodup_nil
      rw [← List.concat_eq_append]
      exact nodup.concat unlisted
    · exact consistent.nodup _ _ elsewhere

/-- Registering an object keeps handles and routes in agreement, whether it is accepted or not. -/
theorem storeHandle (consistent : Consistent routes handles view) {ref : HandleRef}
    {object : HandleView} (seen : view ref = some object) :
    let result := Router.storeHandle routes handles object.uid ref
      (routes.addMember object.label object.size object.uid)
    Consistent result.1 result.2 view := by
  simp only [Router.storeHandle]
  split
  · exact consistent
  · next fresh =>
    rcases routes.addMember_cases object.label object.size object.uid with
      ⟨route, _, _, refused⟩ | ⟨route, gen, before, fits, unlisted, accepted⟩
    · rw [refused]
      apply consistent.of_lookup
      intro uid
      simp only [Bool.false_eq_true, ↓reduceIte]
      by_cases same : uid = object.uid
      · subst same
        rw [AList.lookup_erase, AList.lookup_eq_none.mpr fresh]
      · rw [AList.lookup_erase_ne same, AList.lookup_insert_ne same]
    · rw [accepted]
      exact consistent.insert seen fresh gen before fits unlisted

/-- A registered handle is forgotten together with its entry in its route. -/
theorem remove (consistent : Consistent routes handles view) {ref : HandleRef} {object : HandleView}
    (seen : view ref = some object) (registered : handles.lookup object.uid = some ref) :
    Consistent (routes.removeMember object.label object.uid).1 (handles.erase object.uid) view := by
  obtain ⟨same, route, seen', _, present, listed⟩ := consistent.stored _ _ registered
  cases seen.symm.trans seen'
  have after := routes.removeMember_lookup object.label object.uid present listed
  have nodup := consistent.nodup _ _ present
  -- What a lookup finds afterwards: the shortened route, or a route of another label.
  have found : ∀ {query listing}, (routes.removeMember object.label object.uid).1.table.lookup query =
      some listing → (query = object.label ∧ (members route).erase object.uid ≠ [] ∧
        listing = setMembers route ((members route).erase object.uid)) ∨
      (query ≠ object.label ∧ routes.table.lookup query = some listing) := by
    intro query listing present
    rw [after] at present
    split_ifs at present with here last
    · exact .inl ⟨here, last, (Option.some.inj present).symm⟩
    · exact .inr ⟨here, present⟩
  refine ⟨?_, ?_, ?_, ?_, ?_⟩
  · intro uid query kept
    have different : uid ≠ object.uid := by
      rintro rfl
      rw [AList.lookup_erase] at kept
      cases kept
    rw [AList.lookup_erase_ne different] at kept
    obtain ⟨other, listing, seenOther, named, there, member⟩ := consistent.stored uid query kept
    by_cases together : other.label = object.label
    · rw [together] at there
      cases present.symm.trans there
      have remains : uid ∈ (members route).erase object.uid :=
        (List.mem_erase_of_ne different).mpr member
      refine ⟨other, setMembers route ((members route).erase object.uid), seenOther, named, ?_, ?_⟩
      · rw [after, if_pos together, if_neg (List.ne_nil_of_mem remains)]
      · rw [members_setMembers]
        exact remains
    · exact ⟨other, listing, seenOther, named, by rw [after, if_neg together]; exact there, member⟩
  · intro label listing uid there member
    rcases found there with ⟨rfl, _, rfl⟩ | ⟨different, there⟩
    · rw [members_setMembers] at member
      rw [labelSize_setMembers]
      obtain ⟨ref', other, registered', rest⟩ :=
        consistent.routed _ _ uid present (List.mem_of_mem_erase member)
      have other' : uid ≠ object.uid := ((List.Nodup.mem_erase_iff nodup).mp member).1
      exact ⟨ref', other, by rw [AList.lookup_erase_ne other']; exact registered', rest⟩
    · obtain ⟨ref', other, registered', seenOther, named, labelled, sized⟩ :=
        consistent.routed label listing uid there member
      -- The dropped uid is listed in no other route: a listed uid names the object it stands for.
      have other' : uid ≠ object.uid := by
        rintro rfl
        cases registered.symm.trans registered'
        cases seen.symm.trans seenOther
        exact different labelled.symm
      exact ⟨ref', other, by rw [AList.lookup_erase_ne other']; exact registered', seenOther, named,
        labelled, sized⟩
  · intro label listing there
    rcases found there with ⟨rfl, _, rfl⟩ | ⟨_, there⟩
    · rw [labelOf_setMembers]
      exact consistent.labelled _ _ present
    · exact consistent.labelled _ _ there
  · intro label listing there
    rcases found there with ⟨_, remains, rfl⟩ | ⟨_, there⟩
    · rw [members_setMembers]
      exact remains
    · exact consistent.nonempty _ _ there
  · intro label listing there
    rcases found there with ⟨_, _, rfl⟩ | ⟨_, there⟩
    · rw [members_setMembers]
      exact nodup.erase _
    · exact consistent.nodup _ _ there

/-- Forgetting an object keeps handles and routes in agreement, whether it was known or not. -/
theorem dropHandle (consistent : Consistent routes handles view) {ref : HandleRef}
    {object : HandleView} (seen : view ref = some object) :
    let result := Router.dropHandle routes handles object.uid ref
      (routes.removeMember object.label object.uid)
    Consistent result.1 result.2 view := by
  simp only [Router.dropHandle]
  split
  · next registered => exact consistent.remove seen registered
  · exact consistent

end Consistent

end Eroil
