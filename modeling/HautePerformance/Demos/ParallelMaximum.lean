import Mathlib.Data.List.Basic
import HautePerformance.Library.Atomic
import HautePerformance.Library.ThreadPool

/-!
# A maximum searched in parallel

The third part of `demo06_atomics_cas.rs`: four threads go through a slice of the
data each, and `atomic_max` raises a word that they share.  Its first load may be
late, its weak compare-and-exchange may fail at any time and gives a value that may
be late.  `main` reads the word when it has joined the threads.
-/

namespace HautePerformance.Demos.ParallelMaximum

open Library

structure Memory where
  globalMax : Atomic UInt64
  weather : Weather
  deriving DecidableEq, Repr

/-- A turn of the loop of `atomic_max`. -/
def atomicMax (weather : Weather) (current : Atomic UInt64) (newVal old : UInt64) :
    Atomic UInt64 × Option UInt64 :=
  current.retry (fun newVal old => ¬ old ≥ newVal) weather newVal old

/-- Where a thread stands in its slice: between two values, or in the loop for one. -/
inductive Position where
  | between (rest : List UInt64)
  | retry (newVal : UInt64) (rest : List UInt64) (old : UInt64)
  deriving DecidableEq, Repr

def step (memory : Memory) : Position → Memory × Next Position Unit
  | .between [] => (memory, .finish ())
  | .between (v :: rest) =>
      (memory, .goOn (.retry v rest (memory.globalMax.load memory.weather)))
  | .retry newVal rest old =>
      let turn := atomicMax memory.weather memory.globalMax newVal old
      ({ memory with globalMax := turn.1 },
        match turn.2 with
        | none => .goOn (.between rest)
        | some actual => .goOn (.retry newVal rest actual))

/-- A call is the search of a slice; the environment is the weather. -/
def object :
    ConcurrentObject Memory Weather (fun _ : List UInt64 => Position) (fun _ => Unit) where
  enter := fun slice => .between slice
  step := fun {_} => step
  environment := fun weather memory => { memory with weather := weather }

abbrev SearchPool :=
  Pool Memory (fun _ : List UInt64 => Position) (fun _ => Unit)

abbrev SearchLabel :=
  PoolLabel (List UInt64) Weather

abbrev SearchActivity :=
  Activity (fun _ : List UInt64 => Position)

def system : System SearchPool SearchLabel :=
  object.system fun memory => memory.globalMax = Atomic.new 0

/-- `main` spawns the threads with the slices. -/
def Spawns (slices : List (List UInt64)) (_ : SearchPool) : SearchLabel → Prop
  | .call thread slice => slices[thread]? = some slice
  | _ => True

instance (slices : List (List UInt64)) (pool : SearchPool) (label : SearchLabel) :
    Decidable (Spawns slices pool label) :=
  match label with
  | .call thread slice => inferInstanceAs (Decidable (slices[thread]? = some slice))
  | .run _ => inferInstanceAs (Decidable True)
  | .environment _ => inferInstanceAs (Decidable True)

/-- `main` has joined the threads. -/
def Joined (slices : List (List UInt64)) (pool : SearchPool) : Prop :=
  ∀ thread, thread < slices.length → thread ∈ pool.returned.map Returned.thread

instance (slices : List (List UInt64)) (pool : SearchPool) :
    Decidable (Joined slices pool) :=
  inferInstanceAs (Decidable (∀ thread, thread < slices.length → _))

/-! ## What a step does -/

/-- The values that a thread has yet to go through. -/
def Position.left : Position → List UInt64
  | .between rest => rest
  | .retry newVal rest _ => newVal :: rest

/-- What the thread has seen is not ahead of the word. -/
def Position.Behind (value : UInt64) : Position → Prop
  | .between _ => True
  | .retry _ _ old => old ≤ value

/-- A step leaves the word alone or raises it to a value of the slice; a value is
left behind when the word is no lower. -/
inductive Steps (memory : Memory) (position : Position) :
    Memory × Next Position Unit → Prop
  | finished :
      position.left = [] →
      Steps memory position (memory, .finish ())
  | looks {next : Position} :
      next.left = position.left →
      next.Behind memory.globalMax.value →
      Steps memory position (memory, .goOn next)
  | settles {newVal : UInt64} {rest : List UInt64} :
      position.left = newVal :: rest →
      newVal ≤ memory.globalMax.value →
      Steps memory position (memory, .goOn (.between rest))
  | raises {newVal : UInt64} {rest : List UInt64} :
      position.left = newVal :: rest →
      memory.globalMax.value ≤ newVal →
      Steps memory position
        ({ memory with globalMax := memory.globalMax.store newVal },
          .goOn (.between rest))

theorem steps_step (memory : Memory) {position : Position}
    (ordered : memory.globalMax.Ordered (· ≥ ·))
    (behind : position.Behind memory.globalMax.value) :
    Steps memory position (step memory position) := by
  cases position with
  | between rest =>
      cases rest with
      | nil => exact Steps.finished rfl
      | cons v rest => exact Steps.looks rfl ordered.load
  | retry newVal rest old =>
      have turn :
          memory.globalMax.Turns (fun newVal old => ¬ old ≥ newVal) memory.weather
            newVal old (atomicMax memory.weather memory.globalMax newVal old) :=
        Atomic.turns_retry _ _ _ _ _
      simp only [step]
      generalize atomicMax memory.weather memory.globalMax newVal old = result at turn ⊢
      cases turn with
      | settled enough =>
          have reached : newVal ≤ old := Decidable.not_not.mp enough
          exact Steps.settles rfl (UInt64.le_trans reached behind)
      | replaced lower =>
          exact Steps.raises rfl (UInt64.le_of_lt (UInt64.not_le.mp lower))
      | again => exact Steps.looks rfl ordered.load

/-! ## A run -/

theorem Position.Behind.mono {position : Position} {value later : UInt64}
    (behind : position.Behind value) (raised : value ≤ later) :
    position.Behind later := by
  cases position with
  | between rest => trivial
  | retry newVal rest old => exact UInt64.le_trans behind raised

/-- The word only goes up, to values that some thread has yet to go through; those
that a thread is past are not above it. -/
def search (values : List UInt64) :
    Outline Memory (fun _ : List UInt64 => Position) (fun _ => Unit) where
  Inv pool :=
    pool.shared.globalMax.Ordered (· ≥ ·) ∧
      (pool.shared.globalMax.value = 0 ∨ pool.shared.globalMax.value ∈ values) ∧
      ∀ record, record ∈ pool.returned →
        ∀ v, v ∈ record.call → v ≤ pool.shared.globalMax.value
  At pool activity :=
    activity.position.Behind pool.shared.globalMax.value ∧
      (∀ v, v ∈ activity.position.left → v ∈ values) ∧
      ∀ v, v ∈ activity.call →
        v ∈ activity.position.left ∨ v ≤ pool.shared.globalMax.value

/-- What the step of a thread does to the word. -/
theorem raised_step {values : List UInt64} {memory : Memory} {position : Position}
    (ordered : memory.globalMax.Ordered (· ≥ ·))
    (known : memory.globalMax.value = 0 ∨ memory.globalMax.value ∈ values)
    (left : ∀ v, v ∈ position.left → v ∈ values) {after : Memory × Next Position Unit}
    (steps : Steps memory position after) :
    after.1.globalMax.Ordered (· ≥ ·) ∧
      (after.1.globalMax.value = 0 ∨ after.1.globalMax.value ∈ values) ∧
      memory.globalMax.value ≤ after.1.globalMax.value := by
  cases steps with
  | raises isNext higher =>
      refine ⟨ordered.store (UInt64.le_refl _) ?_, Or.inr (left _ ?_), higher⟩
      · exact fun _ earlier => UInt64.le_trans earlier higher
      · rw [isNext]
        exact List.mem_cons_self
  | _ => exact ⟨ordered, known, UInt64.le_refl _⟩

section

variable {slices : List (List UInt64)} {values : List UInt64}
variable {source target : SearchPool} {label : SearchLabel}

theorem raised_moves (holds : (search values).Holds source)
    (moves : object.Moves source label target) :
    target.shared.globalMax.Ordered (· ≥ ·) ∧
      (target.shared.globalMax.value = 0 ∨ target.shared.globalMax.value ∈ values) ∧
      source.shared.globalMax.value ≤ target.shared.globalMax.value := by
  obtain ⟨ordered, known, _⟩ := holds.1
  rcases moves.shared_cases with
    same | ⟨thread, activity, _, running, stepped⟩ | ⟨weather, changed⟩
  · rw [same]
    exact ⟨ordered, known, UInt64.le_refl _⟩
  · obtain ⟨behind, left, _⟩ := holds.2 thread activity running
    rw [stepped]
    exact raised_step ordered known left (steps_step source.shared ordered behind)
  · rw [changed]
    exact ⟨ordered, known, UInt64.le_refl _⟩

/-- The call of a thread goes on to a position from which it still goes through the
values that are above the word. -/
theorem search_advances {activity : SearchActivity} {shared : Memory} {next : Position}
    {thread : Nat} (holds : (search values).Holds source)
    (running : source.activity? thread = some activity)
    (stepped : step source.shared activity.position = (shared, .goOn next)) :
    next.Behind shared.globalMax.value ∧
      (∀ v, v ∈ next.left → v ∈ values) ∧
      ∀ v, v ∈ activity.call → v ∈ next.left ∨ v ≤ shared.globalMax.value := by
  obtain ⟨ordered, _, _⟩ := holds.1
  obtain ⟨behind, left, above⟩ := holds.2 thread activity running
  have steps := steps_step source.shared ordered behind
  rw [stepped] at steps
  cases steps with
  | looks sameLeft nowBehind =>
      rw [sameLeft]
      exact ⟨nowBehind, left, above⟩
  | @settles newVal rest isNext reached =>
      rw [isNext] at left above
      refine ⟨trivial, fun v member => left v (List.mem_cons_of_mem _ member), ?_⟩
      intro v member
      rcases above v member with isLeft | below
      · rcases List.mem_cons.mp isLeft with rfl | isRest
        · exact Or.inr reached
        · exact Or.inl isRest
      · exact Or.inr below
  | @raises newVal rest isNext higher =>
      rw [isNext] at left above
      refine ⟨trivial, fun v member => left v (List.mem_cons_of_mem _ member), ?_⟩
      intro v member
      rcases above v member with isLeft | below
      · rcases List.mem_cons.mp isLeft with rfl | isRest
        · exact Or.inr (UInt64.le_refl _)
        · exact Or.inl isRest
      · exact Or.inr (UInt64.le_trans below higher)

theorem search_sound : (search slices.flatten).Sound object (Spawns slices) where
  inv := by
    intro source label target _ holds moves
    obtain ⟨ordered, known, raised⟩ := raised_moves holds moves
    refine ⟨ordered, known, ?_⟩
    intro record recorded v member
    rcases moves.returned_cases recorded with
      before | ⟨thread, activity, shared, result, _, running, stepped, rfl, rfl⟩
    · exact UInt64.le_trans (holds.1.2.2 record before v member) raised
    · obtain ⟨behind, _, above⟩ := holds.2 thread activity running
      have steps := steps_step source.shared holds.1.1 behind
      rw [show step source.shared activity.position = (shared, .finish result) from
        stepped] at steps
      cases steps with
      | finished nothingLeft =>
          rcases above v member with isLeft | below
          · rw [nothingLeft] at isLeft
            cases isLeft
          · exact below
  begins := by
    intro source thread slice spawned _ _
    refine ⟨trivial, fun v member => ?_, fun v member => Or.inl member⟩
    exact List.mem_flatten.mpr ⟨slice, List.mem_of_getElem? spawned, member⟩
  advances := by
    intro source thread activity shared position _ holds running stepped
    have advanced := search_advances holds running stepped
    exact advanced
  stable := by
    intro source label target thread activity _ holds moves running _
    obtain ⟨behind, left, above⟩ := holds.2 thread activity running
    obtain ⟨_, _, raised⟩ := raised_moves holds moves
    refine ⟨behind.mono raised, left, fun v member => ?_⟩
    exact (above v member).imp id fun below => UInt64.le_trans below raised

end

/-- Every thread searches the slice that it has been spawned with. -/
theorem slices_of_reachable {slices : List (List UInt64)}
    {world : World SearchPool SearchLabel}
    (reachable : system.Reachable (Spawns slices) world) :
    (∀ thread activity, world.state.activity? thread = some activity →
      slices[thread]? = some activity.call) ∧
    ∀ record, record ∈ world.state.returned →
      slices[record.thread]? = some record.call := by
  refine reachable.state_invariant
    (fun pool =>
      (∀ thread activity, pool.activity? thread = some activity →
        slices[thread]? = some activity.call) ∧
      ∀ record, record ∈ pool.returned → slices[record.thread]? = some record.call)
    ?_ ?_
  · rintro pool ⟨memory, _, rfl⟩
    refine ⟨?_, ?_⟩
    · intro thread activity running
      cases running
    · intro record recorded
      cases recorded
  · rintro label source target ⟨running, returned⟩ spawned executed
    have moves : object.Moves source label target :=
      ConcurrentObject.moves_of_exec executed
    constructor
    · intro thread activity runs
      rcases moves.running_cases runs with
        ⟨before, _⟩ | ⟨slice, rfl, _, rfl⟩ | ⟨earlier, _, _, _, before, _, _, rfl⟩
      · exact running thread activity before
      · exact spawned
      · exact running thread earlier before
    · intro record recorded
      rcases moves.returned_cases recorded with
        before | ⟨thread, activity, _, _, _, runs, _, _, rfl⟩
      · exact returned record before
      · exact running thread activity runs

/-- When the threads have been joined, the word is the greatest value of the slices,
or still zero if there is none. -/
theorem greatest_of_joined {slices : List (List UInt64)}
    {world : World SearchPool SearchLabel}
    (reachable : system.Reachable (Spawns slices) world)
    (joined : Joined slices world.state) :
    (world.state.shared.globalMax.value = 0 ∨
        world.state.shared.globalMax.value ∈ slices.flatten) ∧
      ∀ v, v ∈ slices.flatten → v ≤ world.state.shared.globalMax.value := by
  have holds : (search slices.flatten).Holds world.state := by
    refine search_sound.reachable ?_ reachable
    intro memory new
    refine ⟨?_, Or.inl ?_, ?_⟩
    · rw [Pool.idle, new]
      exact Atomic.ordered_new (UInt64.le_refl _)
    · rw [Pool.idle, new]
      rfl
    · intro record recorded
      cases recorded
  obtain ⟨_, known, returned⟩ := holds.1
  refine ⟨known, ?_⟩
  intro v member
  obtain ⟨slice, isSlice, inSlice⟩ := List.mem_flatten.mp member
  obtain ⟨thread, inBounds, rfl⟩ := List.mem_iff_getElem.mp isSlice
  obtain ⟨record, recorded, isThread⟩ := List.mem_map.mp (joined thread inBounds)
  have searched := (slices_of_reachable reachable).2 record recorded
  rw [isThread, List.getElem?_eq_getElem inBounds, Option.some.injEq] at searched
  rw [searched] at inSlice
  exact returned record recorded v inSlice

/-! ## The slices of the data -/

/-- The slice of a thread: `&data[start..end]`. -/
def tranche (data : List UInt64) (t : Nat) : List UInt64 :=
  let chunkSize := data.length / 4
  let start := t * chunkSize
  data.extract start (if t = 3 then data.length else start + chunkSize)

def tranches (data : List UInt64) : List (List UInt64) :=
  (List.range 4).map (tranche data)

theorem extract_append_extract (data : List UInt64) {start middle stop : Nat}
    (first : start ≤ middle) (second : middle ≤ stop) :
    data.extract start middle ++ data.extract middle stop = data.extract start stop := by
  have whole : stop - start = (middle - start) + (stop - middle) := by omega
  have next : start + (middle - start) = middle := by omega
  rw [List.extract_eq_take_drop, List.extract_eq_take_drop, List.extract_eq_take_drop,
    whole, List.take_add, List.drop_drop, next]

/-- The slices are the data, the last one takes the rest of the division. -/
theorem flatten_tranches (data : List UInt64) : (tranches data).flatten = data := by
  have fits : 3 * (data.length / 4) ≤ data.length := by omega
  have all : data.extract 0 data.length = data := by
    rw [List.extract_eq_take_drop, List.drop_zero, Nat.sub_zero, List.take_length]
  calc
    (tranches data).flatten
        = data.extract 0 (data.length / 4) ++
            (data.extract (data.length / 4) (2 * (data.length / 4)) ++
              (data.extract (2 * (data.length / 4)) (3 * (data.length / 4)) ++
                data.extract (3 * (data.length / 4)) data.length)) := by
          have second : 2 * (data.length / 4) = data.length / 4 + data.length / 4 := by
            omega
          have third :
              3 * (data.length / 4) = 2 * (data.length / 4) + data.length / 4 := by
            omega
          simp [tranches, tranche, List.range_succ, ← second, ← third]
    _ = data := by
          rw [extract_append_extract data (by omega) fits,
            extract_append_extract data (by omega) (by omega),
            extract_append_extract data (by omega) (by omega), all]

instance lawfulOrderMax : Std.LawfulOrderMax UInt64 where
  max_le_iff a b c := by
    show (if a ≤ b then b else a) ≤ c ↔ a ≤ c ∧ b ≤ c
    split
    · rename_i order
      exact ⟨fun below => ⟨UInt64.le_trans order below, below⟩, And.right⟩
    · rename_i order
      have other : b ≤ a := UInt64.le_of_lt (UInt64.not_le.mp order)
      exact ⟨fun below => ⟨below, UInt64.le_trans other below⟩, And.left⟩
  max_eq_or a b := by
    show (if a ≤ b then b else a) = a ∨ (if a ≤ b then b else a) = b
    split
    · exact Or.inr rfl
    · exact Or.inl rfl

/-- The word that `main` reads is the maximum of the data, whatever the schedule, how
late the loads are and how often the exchanges fail. -/
theorem observed_max_eq_true_max {data : List UInt64} (nonempty : data ≠ [])
    {world : World SearchPool SearchLabel}
    (reachable : system.Reachable (Spawns (tranches data)) world)
    (joined : Joined (tranches data) world.state) :
    data.max? = some world.state.shared.globalMax.value := by
  obtain ⟨known, above⟩ := greatest_of_joined reachable joined
  rw [flatten_tranches] at known above
  refine List.max?_eq_some_iff.mpr ⟨?_, above⟩
  rcases known with zero | member
  · obtain ⟨v, isValue⟩ := List.exists_mem_of_ne_nil data nonempty
    have least : v ≤ 0 := zero ▸ above v isValue
    rw [zero, ← UInt64.le_antisymm least UInt64.zero_le]
    exact isValue
  · exact member

/-- Five values: the third thread raises the word while the fourth one sleeps on what
it has read, and an exchange fails for no reason. -/
theorem observed_max_eq_true_max_five_values :
    ∃ world : World SearchPool SearchLabel,
      world.state.returned.length = 4 ∧
        [5, 9, 3, 9, 12].max? = some world.state.shared.globalMax.value := by
  obtain ⟨world, reachable, checked⟩ :=
    System.exists_reachable_of_replay system (Spawns (tranches [5, 9, 3, 9, 12]))
      (Pool.idle { globalMax := Atomic.new 0, weather := { spurious := false, lag := 0 } })
      [.call 0 [5], .call 1 [9], .call 2 [3], .call 3 [9, 12],
        .run 0, .run 1, .run 2, .run 3, .run 2, .run 2, .run 1,
        .environment { spurious := true, lag := 1 }, .run 0, .run 1, .run 3,
        .environment { spurious := false, lag := 0 }, .run 1, .run 0, .run 3, .run 1,
        .run 1, .run 0, .run 0, .run 3, .run 3, .run 3, .run 3, .run 0, .run 3]
      (fun pool label => decide (Spawns (tranches [5, 9, 3, 9, 12]) pool label))
      (fun world =>
        decide (world.state.returned.length = 4 ∧
          Joined (tranches [5, 9, 3, 9, 12]) world.state))
      ⟨_, rfl, rfl⟩
      (fun _ _ admitted => of_decide_eq_true admitted)
      (by decide +kernel)
  obtain ⟨four, joined⟩ := of_decide_eq_true checked
  exact ⟨world, four, observed_max_eq_true_max (by decide) reachable joined⟩

end HautePerformance.Demos.ParallelMaximum
