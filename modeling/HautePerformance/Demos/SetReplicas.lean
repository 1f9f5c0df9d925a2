import HautePerformance.Demos.Crdt

/-!
# What a replicated set contains

A remove clears the tags that its replica holds, and a merge takes the union of the
tags of both sides.  Nothing remembers which tags have been removed, so a version
that still has them brings them back.  As long as no merge meets, live on one side,
a tag that the other side has removed, or meets a new add of the item as well, a set
contains the items with an add in its past that no remove in its past has observed.
-/

namespace HautePerformance.Demos.Crdt

open Library

/-! ## Operations on a set -/

namespace OrSet

variable {set after : OrSet} {item other : String}

theorem contains_iff : set.contains item = true ↔ set.tags item ≠ ∅ := by
  cases found : set.elements.lookup item with
  | none => simp [contains, tags, valueAt, found]
  | some live => simp [contains, tags, valueAt, found]

theorem tags_add (added : set.add item = some after) :
    (after.tags item ≠ ∅) ∧
      ∀ other, other ≠ item → after.tags other = set.tags other := by
  simp only [add, Option.map_eq_some_iff] at added
  obtain ⟨counter, _, rfl⟩ := added
  refine ⟨?_, ?_⟩
  · rw [tags, valueAt_insert_self]
    exact Finset.insert_ne_empty _ _
  · intro other different
    exact valueAt_insert_ne different

theorem tags_remove_self (set : OrSet) (item : String) :
    (set.remove item).tags item = ∅ := by
  cases found : set.elements.lookup item with
  | none => simp [remove, tags, valueAt, found]
  | some live => simp [remove, tags, found]

theorem tags_remove_ne (set : OrSet) (different : other ≠ item) :
    (set.remove item).tags other = set.tags other := by
  cases found : set.elements.lookup item with
  | none => simp [remove, found]
  | some live =>
      simp only [remove, found, tags]
      exact valueAt_insert_ne different

theorem tags_merge (set other : OrSet) (item : String) :
    (set.merge other).tags item = set.tags item ∪ other.tags item :=
  valueAt_mergeEntries Finset.union_empty set.elements other.elements

theorem mem_values : item ∈ set.values ↔ set.contains item = true := by
  rw [values, List.mem_insertionSort, List.mem_map]
  constructor
  · rintro ⟨⟨key, live⟩, member, rfl⟩
    obtain ⟨isEntry, nonempty⟩ := List.mem_filter.mp member
    have found : set.elements.lookup key = some live :=
      AList.mem_lookup_iff.mpr isEntry
    simpa [contains, found] using nonempty
  · intro present
    cases found : set.elements.lookup item with
    | none => simp [contains, found] at present
    | some live =>
        refine ⟨⟨item, live⟩, List.mem_filter.mpr ⟨?_, ?_⟩, rfl⟩
        · exact AList.mem_lookup_iff.mp found
        · simpa [contains, found] using present

theorem values_nodup (set : OrSet) : set.values.Nodup := by
  rw [values, (List.perm_insertionSort _ _).nodup_iff]
  exact set.elements.keys_nodup.sublist
    (List.filter_sublist.map Sigma.fst)

/-- Sets with the same items have the same list of values. -/
theorem values_eq {first second : OrSet}
    (same : ∀ item, first.contains item = second.contains item) :
    first.values = second.values := by
  have permutation : first.values.Perm second.values := by
    refine (List.perm_ext_iff_of_nodup first.values_nodup
      second.values_nodup).mpr ?_
    intro item
    rw [mem_values, mem_values, same item]
  exact permutation.eq_of_pairwise'
    (List.pairwise_insertionSort (· ≤ ·) _)
    (List.pairwise_insertionSort (· ≤ ·) _)

end OrSet

/-! ## Adds that no remove has observed -/

section Present

variable {events : List (Event String OrSetOp)} {past : Finset Nat}
variable {item : String}

/-- The operation adds the item. -/
def AddOf (events : List (Event String OrSetOp)) (item : String) (e : Nat) :
    Prop :=
  (events[e]?.any fun event => decide (event.op = .add item)) = true

/-- The operation `f` removes the item, and had the operation `e` in its past. -/
def ObservedBy (events : List (Event String OrSetOp)) (item : String)
    (e f : Nat) : Prop :=
  (events[f]?.any fun event =>
    decide (event.op = .remove item ∧ e ∈ event.past)) = true

/-- Some add of the item in the past has not been observed by a remove of the item
in the past. -/
def Present (events : List (Event String OrSetOp)) (past : Finset Nat)
    (item : String) : Prop :=
  ∃ e, e ∈ past ∧ AddOf events item e ∧
    ∀ f, f ∈ past → ¬ ObservedBy events item e f

instance : Decidable (Present events past item) :=
  inferInstanceAs
    (Decidable (∃ e, e ∈ past ∧ (_ = true) ∧ ∀ f, f ∈ past → ¬ (_ = true)))

theorem addOf_append (last : Event String OrSetOp) {e : Nat}
    (known : e < events.length) :
    AddOf (events ++ [last]) item e ↔ AddOf events item e := by
  rw [AddOf, AddOf, List.getElem?_append_left known]

theorem observedBy_append (last : Event String OrSetOp) {e f : Nat}
    (known : f < events.length) :
    ObservedBy (events ++ [last]) item e f ↔ ObservedBy events item e f := by
  rw [ObservedBy, ObservedBy, List.getElem?_append_left known]

theorem addOf_last (last : Event String OrSetOp) :
    AddOf (events ++ [last]) item events.length ↔ last.op = .add item := by
  simp [AddOf]

theorem observedBy_last (last : Event String OrSetOp) {e : Nat} :
    ObservedBy (events ++ [last]) item e events.length ↔
      last.op = .remove item ∧ e ∈ last.past := by
  simp [ObservedBy]

/-- A later operation changes nothing for an earlier past. -/
theorem present_append (last : Event String OrSetOp)
    (known : ∀ e, e ∈ past → e < events.length) :
    Present (events ++ [last]) past item ↔ Present events past item := by
  constructor
  · rintro ⟨e, seen, isAdd, unobserved⟩
    refine ⟨e, seen, (addOf_append last (known e seen)).mp isAdd, ?_⟩
    intro f seenRemove observed
    exact unobserved f seenRemove
      ((observedBy_append last (known f seenRemove)).mpr observed)
  · rintro ⟨e, seen, isAdd, unobserved⟩
    refine ⟨e, seen, (addOf_append last (known e seen)).mpr isAdd, ?_⟩
    intro f seenRemove observed
    exact unobserved f seenRemove
      ((observedBy_append last (known f seenRemove)).mp observed)

/-- After an operation of its own a replica has the item if the operation adds it,
or had it before and the operation does not remove it. -/
theorem present_update (item : String) (last : Event String OrSetOp)
    (known : ∀ e, e ∈ last.past → e < events.length)
    (closed : ∀ (f : Nat) (event : Event String OrSetOp),
      events[f]? = some event → f ∈ last.past → event.past ⊆ last.past) :
    Present (events ++ [last]) (insert events.length last.past) item ↔
      last.op = .add item ∨
        Present events last.past item ∧ last.op ≠ .remove item := by
  constructor
  · rintro ⟨e, seen, isAdd, unobserved⟩
    rcases Finset.mem_insert.mp seen with rfl | inPast
    · exact Or.inl ((addOf_last last).mp isAdd)
    · refine Or.inr ⟨⟨e, inPast, (addOf_append last (known e inPast)).mp isAdd,
        ?_⟩, ?_⟩
      · intro f seenRemove observed
        exact unobserved f (Finset.mem_insert_of_mem seenRemove)
          ((observedBy_append last (known f seenRemove)).mpr observed)
      · intro removes
        exact unobserved events.length (Finset.mem_insert_self _ _)
          ((observedBy_last last).mpr ⟨removes, inPast⟩)
  · rintro (adds | ⟨⟨e, inPast, isAdd, unobserved⟩, keeps⟩)
    · refine ⟨events.length, Finset.mem_insert_self _ _,
        (addOf_last last).mpr adds, ?_⟩
      intro f seenRemove observed
      rcases Finset.mem_insert.mp seenRemove with rfl | inPast
      · have removes := ((observedBy_last last).mp observed).1
        rw [adds] at removes
        cases removes
      · have before := (observedBy_append last (known f inPast)).mp observed
        rw [ObservedBy, Option.any_eq_true] at before
        obtain ⟨event, isEvent, observes⟩ := before
        have inOwn := closed f event isEvent inPast
          (of_decide_eq_true observes).2
        exact Nat.lt_irrefl _ (known _ inOwn)
    · refine ⟨e, Finset.mem_insert_of_mem inPast,
        (addOf_append last (known e inPast)).mpr isAdd, ?_⟩
      intro f seenRemove observed
      rcases Finset.mem_insert.mp seenRemove with rfl | seen
      · exact keeps ((observedBy_last last).mp observed).1
      · exact unobserved f seen
          ((observedBy_append last (known f seen)).mp observed)

/-- An add that no remove of two pasts has observed is in one of them, and no remove
of that one has observed it. -/
theorem present_of_union {other : Finset Nat}
    (present : Present events (past ∪ other) item) :
    Present events past item ∨ Present events other item := by
  obtain ⟨e, seen, isAdd, unobserved⟩ := present
  rcases Finset.mem_union.mp seen with inPast | inOther
  · exact Or.inl ⟨e, inPast, isAdd, fun f seenRemove =>
      unobserved f (Finset.mem_union_left _ seenRemove)⟩
  · exact Or.inr ⟨e, inOther, isAdd, fun f seenRemove =>
      unobserved f (Finset.mem_union_right _ seenRemove)⟩

end Present

/-! ## Runs in which removed items stay removed -/

def OrSetOp.item : OrSetOp → String
  | .add item => item
  | .remove item => item

/-- The items that operations are about. -/
def itemsOf (events : List (Event String OrSetOp)) : List String :=
  events.map fun event => event.op.item

theorem mem_itemsOf_of_addOf {events : List (Event String OrSetOp)} {e : Nat}
    {item : String} (isAdd : AddOf events item e) : item ∈ itemsOf events := by
  rw [AddOf, Option.any_eq_true] at isAdd
  obtain ⟨event, isEvent, adds⟩ := isAdd
  refine List.mem_map.mpr ⟨event, List.mem_of_getElem? isEvent, ?_⟩
  rw [of_decide_eq_true adds, OrSetOp.item]

/-- The add of the item is in the past, and no remove there has observed it. -/
def LiveIn (events : List (Event String OrSetOp)) (past : Finset Nat)
    (item : String) (e : Nat) : Prop :=
  e ∈ past ∧ AddOf events item e ∧ ∀ f, f ∈ past → ¬ ObservedBy events item e f

/-- No remove of the other past has observed an add that is live in this one. -/
def NoneRemoved (events : List (Event String OrSetOp)) (past other : Finset Nat)
    (item : String) : Prop :=
  ∀ e, e ∈ past → LiveIn events past item e →
    ∀ f, f ∈ other → ¬ ObservedBy events item e f

/-- This past has a live add of the item that the other has not seen. -/
def HasFresh (events : List (Event String OrSetOp)) (past other : Finset Nat)
    (item : String) : Prop :=
  ∃ e, e ∈ past ∧ LiveIn events past item e ∧ e ∉ other

section

variable (events : List (Event String OrSetOp)) (past other : Finset Nat)
variable (item : String)

instance (e : Nat) : Decidable (LiveIn events past item e) :=
  inferInstanceAs
    (Decidable (e ∈ past ∧ (_ = true) ∧ ∀ f, f ∈ past → ¬ (_ = true)))

instance : Decidable (NoneRemoved events past other item) :=
  inferInstanceAs
    (Decidable
      (∀ e, e ∈ past → LiveIn events past item e →
        ∀ f, f ∈ other → ¬ (_ = true)))

instance : Decidable (HasFresh events past other item) :=
  inferInstanceAs
    (Decidable (∃ e, e ∈ past ∧ LiveIn events past item e ∧ e ∉ other))

end

section

variable {events : List (Event String OrSetOp)} {past other : Finset Nat}
variable {item : String}

/-- A live add that no remove on the other side has observed is present after the
merge. -/
theorem LiveIn.present_union {e : Nat} (live : LiveIn events past item e)
    (unobserved : ∀ f, f ∈ other → ¬ ObservedBy events item e f) :
    Present events (past ∪ other) item := by
  obtain ⟨seen, isAdd, unobservedHere⟩ := live
  refine ⟨e, Finset.mem_union_left _ seen, isAdd, ?_⟩
  intro f seenRemove
  rcases Finset.mem_union.mp seenRemove with inPast | inOther
  · exact unobservedHere f inPast
  · exact unobserved f inOther

theorem NoneRemoved.present_union
    (noneRemoved : NoneRemoved events past other item)
    (present : Present events past item) :
    Present events (past ∪ other) item := by
  obtain ⟨e, live⟩ := present
  exact LiveIn.present_union live (noneRemoved e live.1 live)

/-- What the other side has not seen it has not removed. -/
theorem HasFresh.present_union (hasFresh : HasFresh events past other item)
    (closed : ∀ (f : Nat) (event : Event String OrSetOp),
      events[f]? = some event → f ∈ other → event.past ⊆ other) :
    Present events (past ∪ other) item := by
  obtain ⟨e, _, live, unseen⟩ := hasFresh
  refine live.present_union fun f inOther observed => ?_
  rw [ObservedBy, Option.any_eq_true] at observed
  obtain ⟨event, isEvent, observes⟩ := observed
  exact unseen
    (closed f event isEvent inOther (of_decide_eq_true observes).2)

end

/-- When a merge meets an add of an item that is live on one side and that a remove
on the other side has observed, then one side has a live add of the item that the
other has not seen. -/
def RemovalsKnown (net : Replicas String OrSetOp OrSet) :
    ReplicaLabel String OrSetOp → Prop
  | .update _ _ => True
  | .merge replica source age =>
      ∀ other, other ∈ (net.versions source)[age]? →
        ∀ item, item ∈ itemsOf net.events →
          (NoneRemoved net.events (net.current replica).past other.past item ∧
            NoneRemoved net.events other.past (net.current replica).past item) ∨
          HasFresh net.events (net.current replica).past other.past item ∨
          HasFresh net.events other.past (net.current replica).past item

instance (net : Replicas String OrSetOp OrSet) :
    DecidablePred (RemovalsKnown net) := fun label =>
  match label with
  | .update _ _ => isTrue trivial
  | .merge _ source age =>
      inferInstanceAs
        (Decidable
          (∀ other, other ∈ (net.versions source)[age]? →
            ∀ item, item ∈ itemsOf net.events → _))

/-- What is present on one side of such a merge is present after it. -/
theorem RemovalsKnown.present_union {net : Replicas String OrSetOp OrSet}
    {replica source : String} {age : Nat} {other : Version OrSet}
    (known : RemovalsKnown net (.merge replica source age))
    (causal : Causal net) (atAge : (net.versions source)[age]? = some other)
    {item : String}
    (present :
      Present net.events (net.current replica).past item ∨
        Present net.events other.past item) :
    Present net.events ((net.current replica).past ∪ other.past) item := by
  have listed : item ∈ itemsOf net.events := by
    rcases present with ⟨e, _, isAdd, _⟩ | ⟨e, _, isAdd, _⟩
    · exact mem_itemsOf_of_addOf isAdd
    · exact mem_itemsOf_of_addOf isAdd
  have isVersion := List.mem_of_getElem? atAge
  rcases known other atAge item listed with
    ⟨noneRemoved, noneRemovedThere⟩ | hasFresh | hasFreshThere
  · rcases present with here | there
    · exact noneRemoved.present_union here
    · rw [Finset.union_comm]
      exact noneRemovedThere.present_union there
  · exact hasFresh.present_union (causal.closed source other isVersion)
  · rw [Finset.union_comm]
    exact hasFreshThere.present_union
      (causal.closed replica _ (net.current_mem replica))

/-- The version contains what is present in its past. -/
def ContainsPresent (events : List (Event String OrSetOp)) (_replica : String)
    (version : Version OrSet) : Prop :=
  ∀ item, version.state.tags item ≠ ∅ ↔ Present events version.past item

theorem containsPresent_kept :
    KeptByReplicas orSet RemovalsKnown ContainsPresent where
  start := by
    intro replica item
    constructor
    · intro live
      exact absurd rfl live
    · rintro ⟨e, seen, _⟩
      cases seen
  frame := by
    intro net replica version last causal isVersion holds item
    rw [present_append last (causal.known replica version isVersion)]
    exact holds item
  update := by
    intro net replica op state _ causal holds applied item
    have isVersion := net.current_mem replica
    have present :=
      present_update item (ReplicatedType.event net replica op)
        (causal.known replica _ isVersion) (causal.closed replica _ isVersion)
    refine Iff.trans ?_ present.symm
    cases op with
    | add added =>
        obtain ⟨live, others⟩ := OrSet.tags_add applied
        by_cases same : item = added
        · subst same
          simp [live, ReplicatedType.event]
        · rw [others item same, holds item]
          simp [ReplicatedType.event, Ne.symm same]
    | remove removed =>
        simp only [orSet, Option.some.injEq] at applied
        subst applied
        by_cases same : item = removed
        · subst same
          simp [OrSet.tags_remove_self, ReplicatedType.event]
        · rw [OrSet.tags_remove_ne _ same, holds item]
          simp [ReplicatedType.event, Ne.symm same]
  merge := by
    intro net replica source age other admitted causal atAge holds otherHolds
      item
    have live :
        (orSet.merge (net.current replica).state other.state).tags item ≠ ∅ ↔
          (net.current replica).state.tags item ≠ ∅ ∨
            other.state.tags item ≠ ∅ := by
      rw [orSet, OrSet.tags_merge, Ne, Finset.union_eq_empty, not_and_or]
    rw [live, holds item, otherHolds item]
    exact ⟨admitted.present_union causal atAge, present_of_union⟩

/-- The set has observed-remove, add-wins semantics: each replica contains what is
present in its causal past, and replicas with the same past have the same
values. -/
structure ObservedRemove (net : Replicas String OrSetOp OrSet) : Prop where
  contains : ∀ replica item,
    (net.current replica).state.contains item = true ↔
      Present net.events (net.current replica).past item
  agree : ∀ replica other,
    (net.current replica).past = (net.current other).past →
    (net.current replica).state.values = (net.current other).state.values

/-- Sets have that semantics in every run whose merges meet no add that one side
still has and the other has removed, unless there is a new one. -/
theorem sets_observe_removes {world : ReplicaWorld String OrSetOp OrSet}
    (reachable : orSet.system.Reachable RemovalsKnown world) :
    ObservedRemove world.state := by
  have holds := (containsPresent_kept.reachable reachable).2
  have contains : ∀ replica item,
      (world.state.current replica).state.contains item = true ↔
        Present world.state.events (world.state.current replica).past item := by
    intro replica item
    rw [OrSet.contains_iff]
    exact holds replica _ (world.state.current_mem replica) item
  refine ⟨contains, ?_⟩
  intro replica other samePast
  apply OrSet.values_eq
  intro item
  rw [Bool.eq_iff_iff, contains, contains, samePast]

/-- One replica removes an item while another adds it again. -/
theorem sets_observe_removes_concurrent_add :
    ∃ world : ReplicaWorld String OrSetOp OrSet,
      (world.state.current "mobile").state.values = ["clavier", "souris"] ∧
        ObservedRemove world.state := by
  obtain ⟨world, reachable, checked⟩ :=
    System.exists_reachable_of_replay orSet.system RemovalsKnown orSet.start
      [.update "mobile" (.add "clavier"), .update "mobile" (.add "souris"),
        .merge "desktop" "mobile" 0, .update "mobile" (.remove "souris"),
        .update "desktop" (.add "souris"), .merge "mobile" "desktop" 0]
      (fun net label => decide (RemovalsKnown net label))
      (fun world =>
        decide ((world.state.current "mobile").state.values =
          ["clavier", "souris"]))
      rfl (fun _ _ admitted => of_decide_eq_true admitted)
      (by decide +kernel)
  exact ⟨world, of_decide_eq_true checked, sets_observe_removes reachable⟩

/-- A removed item comes back from a replica that holds nothing but the tag which
the remove has observed. -/
theorem removed_item_comes_back :
    ¬ ∀ world : ReplicaWorld String OrSetOp OrSet,
      orSet.system.Reachable (fun _ _ => True) world →
      ObservedRemove world.state := by
  intro observedRemove
  obtain ⟨world, reachable, checked⟩ :=
    System.exists_reachable_of_replay orSet.system (fun _ _ => True)
      orSet.start
      [.update "mobile" (.add "souris"), .merge "desktop" "mobile" 0,
        .update "mobile" (.remove "souris"), .merge "mobile" "desktop" 0]
      (fun _ _ => true)
      (fun world =>
        decide ((world.state.current "mobile").state.contains "souris" = true ∧
          ¬ Present world.state.events (world.state.current "mobile").past
            "souris"))
      rfl (fun _ _ _ => trivial) (by decide +kernel)
  obtain ⟨contained, absent⟩ := of_decide_eq_true checked
  exact absent (((observedRemove world reachable).contains _ _).mp contained)

end HautePerformance.Demos.Crdt
