import Mathlib.Algebra.BigOperators.Group.Finset.Basic
import Mathlib.Algebra.Order.Group.Nat
import Mathlib.Data.Finset.Card
import Mathlib.Logic.Function.Basic
import HautePerformance.Library.Transition

/-!
# State-based replicas and their causal pasts

Replicas apply operations locally and merge the states of others, current or long
gone.  Every version of a replica comes with its causal past: the operations that
it has applied itself, and those in the past of the versions that it has merged.
Operations are numbered as they occur, and each is recorded with the past of the
version it was applied to.
-/

namespace HautePerformance.Library

/-- An operation that overflows has no result. -/
structure ReplicatedType (Id Op State : Type) where
  new : Id → State
  apply : Op → State → Option State
  merge : State → State → State

/-- An operation that has occurred, with what its replica had seen before. -/
structure Event (Id Op : Type) where
  replica : Id
  op : Op
  past : Finset Nat

structure Version (State : Type) where
  state : State
  past : Finset Nat

/-- The versions of one replica, the most recent first. -/
structure Timeline (State : Type) where
  current : Version State
  earlier : List (Version State)

structure Replicas (Id Op State : Type) where
  events : List (Event Id Op)
  timelines : Id → Timeline State

inductive ReplicaLabel (Id Op : Type) where
  | update (replica : Id) (op : Op)
  | merge (replica source : Id) (age : Nat)

variable {Id Op State : Type}

namespace Timeline

def versions (timeline : Timeline State) : List (Version State) :=
  timeline.current :: timeline.earlier

def advance (timeline : Timeline State) (version : Version State) :
    Timeline State :=
  { current := version, earlier := timeline.versions }

theorem mem_versions_advance {timeline : Timeline State}
    {version member : Version State} :
    member ∈ (timeline.advance version).versions ↔
      member = version ∨ member ∈ timeline.versions :=
  List.mem_cons

end Timeline

namespace Replicas

def current (net : Replicas Id Op State) (replica : Id) : Version State :=
  (net.timelines replica).current

def versions (net : Replicas Id Op State) (replica : Id) :
    List (Version State) :=
  (net.timelines replica).versions

theorem current_mem (net : Replicas Id Op State) (replica : Id) :
    net.current replica ∈ net.versions replica :=
  List.mem_cons_self

variable [DecidableEq Id]

def advance (net : Replicas Id Op State) (replica : Id)
    (version : Version State) : Id → Timeline State :=
  Function.update net.timelines replica
    ((net.timelines replica).advance version)

theorem advance_self (net : Replicas Id Op State) (replica : Id)
    (version : Version State) :
    net.advance replica version replica =
      (net.timelines replica).advance version :=
  Function.update_self _ _ _

theorem advance_of_ne (net : Replicas Id Op State) {replica other : Id}
    (version : Version State) (different : other ≠ replica) :
    net.advance replica version other = net.timelines other :=
  Function.update_of_ne different _ _

/-- A version of the advanced timelines is the new one or one that was there. -/
theorem mem_versions_of_advance {net : Replicas Id Op State}
    {replica other : Id} {version member : Version State}
    (isVersion : member ∈ (net.advance replica version other).versions) :
    (other = replica ∧ member = version) ∨ member ∈ net.versions other := by
  by_cases same : other = replica
  · subst same
    rw [advance_self] at isVersion
    rcases Timeline.mem_versions_advance.mp isVersion with isNew | isOld
    · exact Or.inl ⟨rfl, isNew⟩
    · exact Or.inr isOld
  · rw [advance_of_ne net version same] at isVersion
    exact Or.inr isVersion

end Replicas

namespace ReplicatedType

variable [DecidableEq Id]

/-- No operation has occurred. -/
def start (type : ReplicatedType Id Op State) : Replicas Id Op State :=
  { events := []
    timelines := fun replica =>
      { current := { state := type.new replica, past := ∅ }
        earlier := [] } }

/-- The event of an operation on the current version of a replica. -/
def event (net : Replicas Id Op State) (replica : Id) (op : Op) :
    Event Id Op :=
  { replica := replica, op := op, past := (net.current replica).past }

def exec (type : ReplicatedType Id Op State) (net : Replicas Id Op State) :
    ReplicaLabel Id Op → Option (Replicas Id Op State)
  | .update replica op =>
      (type.apply op (net.current replica).state).map fun state =>
        { events := net.events ++ [event net replica op]
          timelines := net.advance replica
            { state := state
              past := insert net.events.length (net.current replica).past } }
  | .merge replica source age =>
      (net.versions source)[age]?.map fun other =>
        { events := net.events
          timelines := net.advance replica
            { state := type.merge (net.current replica).state other.state
              past := (net.current replica).past ∪ other.past } }

def system (type : ReplicatedType Id Op State) :
    System (Replicas Id Op State) (ReplicaLabel Id Op) where
  init net := net = type.start
  exec := type.exec

end ReplicatedType

abbrev ReplicaWorld (Id Op State : Type) :=
  World (Replicas Id Op State) (ReplicaLabel Id Op)

/-! ## What can be told from the pasts -/

/-- The past of a version contains the past of its operations, and the past of a
replica all operations of its own. -/
structure Causal (net : Replicas Id Op State) : Prop where
  known : ∀ replica version,
    version ∈ net.versions replica →
    ∀ e, e ∈ version.past → e < net.events.length
  closed : ∀ replica version,
    version ∈ net.versions replica →
    ∀ (e : Nat) (event : Event Id Op),
      net.events[e]? = some event → e ∈ version.past →
      event.past ⊆ version.past
  own : ∀ (e : Nat) (event : Event Id Op),
    net.events[e]? = some event → e ∈ (net.current event.replica).past
  ordered : ∀ (e f : Nat) (event other : Event Id Op),
    net.events[e]? = some event →
    net.events[f]? = some other →
    event.replica = other.replica →
    e < f →
    e ∈ other.past

namespace Causal

variable {net : Replicas Id Op State}

/-- What two versions have seen of one replica is nested. -/
theorem nested (causal : Causal net) {first second : Id}
    {version other : Version State} (isVersion : version ∈ net.versions first)
    (isOther : other ∈ net.versions second) (replica : Id) :
    (∀ (e : Nat) (event : Event Id Op), net.events[e]? = some event →
        event.replica = replica → e ∈ version.past → e ∈ other.past) ∨
      ∀ (e : Nat) (event : Event Id Op), net.events[e]? = some event →
        event.replica = replica → e ∈ other.past → e ∈ version.past := by
  by_contra apart
  simp only [not_or, not_forall, exists_prop] at apart
  obtain ⟨⟨e, event, isEvent, ofReplica, seen, unseen⟩,
    ⟨f, event', isEvent', ofReplica', seen', unseen'⟩⟩ := apart
  rcases lt_trichotomy e f with before | same | after
  · have inPast := causal.ordered e f event event' isEvent isEvent'
      (ofReplica.trans ofReplica'.symm) before
    exact unseen (causal.closed second other isOther f event' isEvent' seen'
      inPast)
  · exact unseen (same ▸ seen')
  · have inPast := causal.ordered f e event' event isEvent' isEvent
      (ofReplica'.trans ofReplica.symm) after
    exact unseen' (causal.closed first version isVersion e event isEvent seen
      inPast)

theorem start (type : ReplicatedType Id Op State) : Causal type.start where
  known := by
    intro replica version isVersion e seen
    rw [List.mem_singleton.mp isVersion] at seen
    cases seen
  closed := by
    intro replica version _ e event isEvent
    cases isEvent
  own := by
    intro e event isEvent
    cases isEvent
  ordered := by
    intro e f event other isEvent
    cases isEvent

/-- An event is an earlier one or the last. -/
theorem event_cases {events : List (Event Id Op)} {last event : Event Id Op}
    {e : Nat} (isEvent : (events ++ [last])[e]? = some event) :
    (e < events.length ∧ events[e]? = some event) ∨
      (e = events.length ∧ event = last) := by
  obtain ⟨inRange, atIndex⟩ := List.getElem?_eq_some_iff.mp isEvent
  rw [List.length_append, List.length_singleton] at inRange
  by_cases old : e < events.length
  · rw [List.getElem?_append_left old] at isEvent
    exact Or.inl ⟨old, isEvent⟩
  · have isLast : e = events.length := by omega
    subst isLast
    refine Or.inr ⟨rfl, ?_⟩
    rw [List.getElem_append_right le_rfl] at atIndex
    simpa using atIndex.symm

variable [DecidableEq Id]

/-- The current version of a replica after another version has been added
somewhere has seen what it had seen, if the added version has seen what its
replica had. -/
theorem mem_current_of_advance {net : Replicas Id Op State}
    {events : List (Event Id Op)} {replica other : Id}
    {version : Version State} {e : Nat}
    (grown : (net.current replica).past ⊆ version.past)
    (seen : e ∈ (net.current other).past) :
    e ∈ (Replicas.current
      { events := events, timelines := net.advance replica version }
      other).past := by
  by_cases same : other = replica
  · subst same
    simpa [Replicas.current, Replicas.advance_self, Timeline.advance]
      using grown seen
  · simpa [Replicas.current, Replicas.advance_of_ne net version same] using seen

theorem update (causal : Causal net) (replica : Id) (op : Op) (state : State) :
    Causal
      { events := net.events ++ [ReplicatedType.event net replica op]
        timelines := net.advance replica
          { state := state
            past :=
              insert net.events.length (net.current replica).past } } where
  known := by
    intro other version isVersion e seen
    rw [List.length_append, List.length_singleton]
    rcases Replicas.mem_versions_of_advance isVersion with
      ⟨_, rfl⟩ | isOld
    · rcases Finset.mem_insert.mp seen with rfl | old
      · exact Nat.lt_succ_self _
      · exact Nat.lt_succ_of_lt
          (causal.known replica _ (net.current_mem replica) e old)
    · exact Nat.lt_succ_of_lt (causal.known other version isOld e seen)
  closed := by
    intro other version isVersion e event isEvent seen
    rcases Replicas.mem_versions_of_advance isVersion with
      ⟨_, rfl⟩ | isOld
    · rcases event_cases isEvent with ⟨old, isOldEvent⟩ | ⟨_, rfl⟩
      · have inCurrent : e ∈ (net.current replica).past :=
          Finset.mem_of_mem_insert_of_ne seen old.ne
        exact (causal.closed replica _ (net.current_mem replica) e event
          isOldEvent inCurrent).trans (Finset.subset_insert _ _)
      · exact Finset.subset_insert _ _
    · have old := causal.known other version isOld e seen
      rcases event_cases isEvent with ⟨_, isOldEvent⟩ | ⟨isLast, _⟩
      · exact causal.closed other version isOld e event isOldEvent seen
      · exact absurd isLast old.ne
  own := by
    intro e event isEvent
    rcases event_cases isEvent with ⟨_, isOldEvent⟩ | ⟨rfl, rfl⟩
    · exact mem_current_of_advance (Finset.subset_insert _ _)
        (causal.own e event isOldEvent)
    · simp [Replicas.current, ReplicatedType.event, Replicas.advance_self,
        Timeline.advance]
  ordered := by
    intro e f event other isEvent isOther sameReplica before
    rcases event_cases isOther with ⟨oldOther, isOldOther⟩ | ⟨rfl, rfl⟩
    · rcases event_cases isEvent with ⟨_, isOldEvent⟩ | ⟨isLast, _⟩
      · exact causal.ordered e f event other isOldEvent isOldOther sameReplica
          before
      · omega
    · rcases event_cases isEvent with ⟨_, isOldEvent⟩ | ⟨isLast, _⟩
      · have seen := causal.own e event isOldEvent
        rw [sameReplica] at seen
        exact seen
      · omega

theorem merge (causal : Causal net) (replica : Id) {source : Id}
    {other : Version State} (isOther : other ∈ net.versions source)
    (state : State) :
    Causal
      { events := net.events
        timelines := net.advance replica
          { state := state
            past := (net.current replica).past ∪ other.past } } where
  known := by
    intro owner version isVersion e seen
    rcases Replicas.mem_versions_of_advance isVersion with
      ⟨_, rfl⟩ | isOld
    · rcases Finset.mem_union.mp seen with ofReplica | ofOther
      · exact causal.known replica _ (net.current_mem replica) e ofReplica
      · exact causal.known source other isOther e ofOther
    · exact causal.known owner version isOld e seen
  closed := by
    intro owner version isVersion e event isEvent seen
    rcases Replicas.mem_versions_of_advance isVersion with
      ⟨_, rfl⟩ | isOld
    · rcases Finset.mem_union.mp seen with ofReplica | ofOther
      · exact (causal.closed replica _ (net.current_mem replica) e event
          isEvent ofReplica).trans Finset.subset_union_left
      · exact (causal.closed source other isOther e event isEvent
          ofOther).trans Finset.subset_union_right
    · exact causal.closed owner version isOld e event isEvent seen
  own := fun e event isEvent =>
    mem_current_of_advance Finset.subset_union_left
      (causal.own e event isEvent)
  ordered := causal.ordered

end Causal

/-! ## Properties of all versions -/

section Invariants

variable [DecidableEq Id] {type : ReplicatedType Id Op State}
variable {allowed :
  Replicas Id Op State → ReplicaLabel Id Op → Prop}
variable {property : List (Event Id Op) → Id → Version State → Prop}

/-- The proof obligations of a property of versions: new replicas have it, later
operations do not break it, and updates and merges hand it on. -/
structure KeptByReplicas (type : ReplicatedType Id Op State)
    (allowed : Replicas Id Op State → ReplicaLabel Id Op → Prop)
    (property : List (Event Id Op) → Id → Version State → Prop) : Prop where
  start : ∀ replica, property [] replica { state := type.new replica, past := ∅ }
  frame : ∀ {net : Replicas Id Op State} {replica version}
      (last : Event Id Op),
    Causal net →
    version ∈ net.versions replica →
    property net.events replica version →
    property (net.events ++ [last]) replica version
  update : ∀ {net : Replicas Id Op State} {replica op state},
    allowed net (.update replica op) →
    Causal net →
    property net.events replica (net.current replica) →
    type.apply op (net.current replica).state = some state →
    property (net.events ++ [ReplicatedType.event net replica op]) replica
      { state := state
        past := insert net.events.length (net.current replica).past }
  merge : ∀ {net : Replicas Id Op State} {replica source age other},
    allowed net (.merge replica source age) →
    Causal net →
    (net.versions source)[age]? = some other →
    property net.events replica (net.current replica) →
    property net.events source other →
    property net.events replica
      { state := type.merge (net.current replica).state other.state
        past := (net.current replica).past ∪ other.past }

/-- Such a property holds of every version in every run. -/
theorem KeptByReplicas.reachable
    (kept : KeptByReplicas type allowed property)
    {world : ReplicaWorld Id Op State}
    (reachable : type.system.Reachable allowed world) :
    Causal world.state ∧
      ∀ replica version, version ∈ world.state.versions replica →
        property world.state.events replica version := by
  refine reachable.state_invariant
    (fun net => Causal net ∧
      ∀ replica version, version ∈ net.versions replica →
        property net.events replica version) ?_ ?_
  · rintro net rfl
    refine ⟨Causal.start type, ?_⟩
    intro replica version isVersion
    rw [List.mem_singleton.mp isVersion]
    exact kept.start replica
  · rintro label source target ⟨causal, holds⟩ admitted executed
    cases label with
    | update replica op =>
        simp only [ReplicatedType.system, ReplicatedType.exec,
          Option.map_eq_some_iff] at executed
        obtain ⟨state, applied, rfl⟩ := executed
        refine ⟨causal.update replica op state, ?_⟩
        intro other version isVersion
        rcases Replicas.mem_versions_of_advance isVersion with
          ⟨rfl, rfl⟩ | isOld
        · exact kept.update admitted causal
            (holds other _ (source.current_mem other)) applied
        · exact kept.frame _ causal isOld (holds other version isOld)
    | merge replica origin age =>
        simp only [ReplicatedType.system, ReplicatedType.exec,
          Option.map_eq_some_iff] at executed
        obtain ⟨merged, atAge, rfl⟩ := executed
        have isVersion := List.mem_of_getElem? atAge
        refine ⟨causal.merge replica isVersion _, ?_⟩
        intro other version isMember
        rcases Replicas.mem_versions_of_advance isMember with
          ⟨rfl, rfl⟩ | isOld
        · exact kept.merge admitted causal atAge
            (holds other _ (source.current_mem other))
            (holds origin merged isVersion)
        · exact holds other version isOld

end Invariants

/-! ## Counting the operations of a past -/

/-- The operations of a past that pass a test. -/
def countSeen (events : List (Event Id Op)) (past : Finset Nat)
    (test : Event Id Op → Bool) : Nat :=
  (past.filter fun e => (events[e]?.any test) = true).card

section Counting

variable {events : List (Event Id Op)} {past : Finset Nat}
variable {test : Event Id Op → Bool}

theorem mem_filter_any {e : Nat} :
    (e ∈ past.filter fun e => (events[e]?.any test) = true) ↔
      e ∈ past ∧ ∃ event, events[e]? = some event ∧ test event = true := by
  rw [Finset.mem_filter, Option.any_eq_true]

/-- A later operation is not in a past. -/
theorem countSeen_append (last : Event Id Op)
    (known : ∀ e, e ∈ past → e < events.length) :
    countSeen (events ++ [last]) past test = countSeen events past test := by
  unfold countSeen
  congr 1
  apply Finset.filter_congr
  intro e seen
  rw [List.getElem?_append_left (known e seen)]

/-- The operation just seen adds one to the count of its kind. -/
theorem countSeen_insert (last : Event Id Op)
    (known : ∀ e, e ∈ past → e < events.length) :
    countSeen (events ++ [last]) (insert events.length past) test =
      countSeen events past test + if test last = true then 1 else 0 := by
  have unseen : events.length ∉ past := fun seen =>
    Nat.lt_irrefl _ (known _ seen)
  have atEnd : (events ++ [last])[events.length]? = some last := by
    simp
  rw [← countSeen_append last known]
  unfold countSeen
  rw [Finset.filter_insert, atEnd]
  by_cases passes : test last = true
  · rw [if_pos (by simpa using passes), if_pos passes,
      Finset.card_insert_of_notMem fun member =>
        unseen (Finset.mem_filter.mp member).1]
  · rw [if_neg (by simpa using passes), if_neg passes, Nat.add_zero]

/-- What passes the test and has been seen by one side has been seen by the
other. -/
theorem filter_subset_of_seen {other : Finset Nat}
    (seen : ∀ (e : Nat) (event : Event Id Op), events[e]? = some event →
      test event = true → e ∈ past → e ∈ other) :
    (past.filter fun e => (events[e]?.any test) = true) ⊆
      other.filter fun e => (events[e]?.any test) = true := by
  intro e member
  obtain ⟨inPast, event, isEvent, passes⟩ := mem_filter_any.mp member
  exact mem_filter_any.mpr
    ⟨seen e event isEvent passes inPast, event, isEvent, passes⟩

/-- Of the operations of one replica two versions together have seen as many as the
one that has seen more. -/
theorem Causal.countSeen_union {net : Replicas Id Op State}
    (causal : Causal net) {first second replica : Id}
    {version other : Version State} (isVersion : version ∈ net.versions first)
    (isOther : other ∈ net.versions second)
    (ofReplica : ∀ event, test event = true → event.replica = replica) :
    countSeen net.events (version.past ∪ other.past) test =
      max (countSeen net.events version.past test)
        (countSeen net.events other.past test) := by
  unfold countSeen
  rw [Finset.filter_union]
  rcases causal.nested isVersion isOther replica with inOther | inVersion
  · have subset := filter_subset_of_seen fun e event isEvent passed =>
      inOther e event isEvent (ofReplica event passed)
    rw [Finset.union_eq_right.mpr subset,
      max_eq_right (Finset.card_le_card subset)]
  · have subset := filter_subset_of_seen fun e event isEvent passed =>
      inVersion e event isEvent (ofReplica event passed)
    rw [Finset.union_eq_left.mpr subset,
      max_eq_left (Finset.card_le_card subset)]

theorem countSeen_le (events : List (Event Id Op)) (past : Finset Nat)
    (test : Event Id Op → Bool) : countSeen events past test ≤ past.card :=
  Finset.card_le_card (Finset.filter_subset _ _)

/-- Over all operations the count is that of the list. -/
theorem countSeen_range (events : List (Event Id Op))
    (test : Event Id Op → Bool) :
    countSeen events (Finset.range events.length) test =
      events.countP test := by
  induction events using List.reverseRecOn with
  | nil => rfl
  | append_singleton before last inductionHypothesis =>
      rw [List.length_append, List.length_singleton, Finset.range_add_one,
        countSeen_insert last (fun e member => Finset.mem_range.mp member),
        inductionHypothesis, List.countP_append, List.countP_singleton]

/-- The operations of one replica that pass a test. -/
def ofReplica [DecidableEq Id] (test : Event Id Op → Bool) (replica : Id) :
    Event Id Op → Bool :=
  fun event => test event && decide (event.replica = replica)

/-- The count is the sum of the counts of the replicas. -/
theorem countSeen_eq_sum [DecidableEq Id] (replicas : Finset Id)
    (complete : ∀ (e : Nat) (event : Event Id Op),
      e ∈ past → events[e]? = some event → test event = true →
      event.replica ∈ replicas) :
    countSeen events past test =
      ∑ replica ∈ replicas,
        countSeen events past (ofReplica test replica) := by
  have split :
      (past.filter fun e => (events[e]?.any test) = true) =
        replicas.biUnion fun replica =>
          past.filter fun e =>
            (events[e]?.any (ofReplica test replica)) = true := by
    ext e
    simp only [Finset.mem_biUnion, mem_filter_any, ofReplica, Bool.and_eq_true,
      decide_eq_true_eq]
    constructor
    · rintro ⟨seen, event, isEvent, passes⟩
      exact ⟨event.replica, complete e event seen isEvent passes, seen, event,
        isEvent, passes, rfl⟩
    · rintro ⟨_, _, seen, event, isEvent, passes, _⟩
      exact ⟨seen, event, isEvent, passes⟩
  unfold countSeen
  rw [split, Finset.card_biUnion]
  intro first _ second _ different
  refine Finset.disjoint_left.mpr ?_
  intro e ofFirst ofSecond
  obtain ⟨_, event, isEvent, passes⟩ := mem_filter_any.mp ofFirst
  obtain ⟨_, event', isEvent', passes'⟩ := mem_filter_any.mp ofSecond
  rw [isEvent] at isEvent'
  cases isEvent'
  simp only [ofReplica, Bool.and_eq_true, decide_eq_true_eq] at passes passes'
  exact different (passes.2.symm.trans passes'.2)

end Counting

end HautePerformance.Library
