import HautePerformance.Library.ReleaseAcquire
import HautePerformance.Library.ThreadPool

/-!
# Publishing a value through a flag

`demo_release_acquire` of `demo06_atomics_cas.rs`: a producer stores a value and
raises a flag, and a consumer spins until it sees the flag and then reads the value.
The accesses to the value are relaxed.  The orderings of the accesses to the flag are
parameters here, and the demo is the case of a release and an acquire.

Threads start with the view of the thread that spawns them, which has stored
nothing.
-/

namespace HautePerformance.Demos.MessagePassing

open Library

inductive Location where
  | data
  | ready
  deriving DecidableEq, Repr

def Content : Location → Type
  | .data => UInt64
  | .ready => Bool

def initialContent : (location : Location) → Content location
  | .data => (0 : UInt64)
  | .ready => false

/-- `0xDEAD_BEEF` -/
def message : UInt64 :=
  0xDEADBEEF

structure Shared where
  memory : Memory Location Content
  /-- How late the next load is. -/
  lag : Nat

inductive Role where
  | producer
  | consumer
  deriving DecidableEq, Repr

inductive Position : Role → Type
  | storeData (view : View Location) : Position .producer
  | storeReady (view : View Location) : Position .producer
  | spin (view : View Location) : Position .consumer
  | loadData (view : View Location) : Position .consumer

/-- A consumer prints what it has read. -/
def Result : Role → Type
  | .producer => Unit
  | .consumer => UInt64

section Embedding

variable (storing : StoreOrdering) (loading : LoadOrdering)

def step {role : Role} (shared : Shared) :
    Position role → Shared × Next (Position role) (Result role)
  | .storeData view =>
      let (memory, view) := shared.memory.store .relaxed view .data message
      ({ shared with memory := memory }, .goOn (.storeReady view))
  | .storeReady view =>
      let (memory, _) := shared.memory.store storing view .ready true
      ({ shared with memory := memory }, .finish ())
  | .spin view =>
      match shared.memory.load loading shared.lag view .ready with
      | (true, view) => (shared, .goOn (.loadData view))
      | (false, view) => (shared, .goOn (.spin view))
  | .loadData view =>
      (shared, .finish (shared.memory.load .relaxed shared.lag view .data).1)

def object : ConcurrentObject Shared Nat Position Result where
  enter
    | .producer => .storeData fun _ => 0
    | .consumer => .spin fun _ => 0
  step shared position := step storing loading shared position
  environment lag shared := { shared with lag := lag }

def Starts (shared : Shared) : Prop :=
  shared.memory = Memory.new initialContent

def system : System (Pool Shared Position Result) (PoolLabel Role Nat) :=
  (object storing loading).system Starts

end Embedding

/-- What a consumer has printed. -/
def printed? : Returned Result → Option UInt64
  | ⟨_, .producer, _, _, _⟩ => none
  | ⟨_, .consumer, value, _, _⟩ => some value

def printed (pool : Pool Shared Position Result) : List UInt64 :=
  pool.returned.filterMap printed?

/-! ## The orderings that publish -/

section Outline

/-- The thread reads the message and nothing else. -/
def SeesMessage (memory : Memory Location Content) (view : View Location) : Prop :=
  memory.Sees view .data fun value => value = message

def Publishes (memory : Memory Location Content) : Prop :=
  memory.Publishes .ready (fun raised => raised = true) .data
    fun value => value = message

/-- What a thread knows at its position. -/
def Knows (memory : Memory Location Content) : {role : Role} → Position role → Prop
  | _, .storeData view => memory.Known view
  | _, .storeReady view => memory.Known view ∧ SeesMessage memory view
  | _, .spin view => memory.Known view
  | _, .loadData view => memory.Known view ∧ SeesMessage memory view

/-- A consumer may print nothing but the message. -/
def MayReturn : {role : Role} → Result role → Prop
  | .producer, _ => True
  | .consumer, value => value = message

def MayLeadTo (memory : Memory Location Content) {role : Role} :
    Next (Position role) (Result role) → Prop
  | .goOn position => Knows memory position
  | .finish result => MayReturn result

/-- What all threads rely on. -/
structure Sane (memory : Memory Location Content) : Prop where
  consistent : memory.Consistent
  publishes : Publishes memory

/-- A step leaves to the others what they know. -/
structure Keeps (before after : Memory Location Content) : Prop where
  sane : Sane after
  knows : ∀ {role : Role} {position : Position role},
    Knows before position → Knows after position

theorem sane_new : Sane (Memory.new initialContent) where
  consistent := Memory.consistent_new initialContent
  publishes := Memory.publishes_new Bool.false_ne_true

variable {memory : Memory Location Content} {view : View Location}

theorem Sane.keeps (sane : Sane memory) : Keeps memory memory :=
  ⟨sane, id⟩

theorem Sane.keeps_storeData (sane : Sane memory) (known : memory.Known view)
    (ordering : StoreOrdering) :
    Keeps memory (memory.store ordering view .data message).1 where
  sane :=
    { consistent := sane.consistent.store known
      publishes := sane.publishes.kept (by decide) rfl }
  knows {role position} knows := by
    cases position with
    | storeData view => exact Memory.Known.kept knows
    | storeReady view => exact ⟨knows.1.kept, knows.2.kept rfl⟩
    | spin view => exact Memory.Known.kept knows
    | loadData view => exact ⟨knows.1.kept, knows.2.kept rfl⟩

theorem Sane.keeps_storeReady (sane : Sane memory) (known : memory.Known view)
    (sees : SeesMessage memory view) {ordering : StoreOrdering}
    (releases : ordering.Releases) {raised : Bool} :
    Keeps memory (memory.store ordering view .ready raised).1 where
  sane :=
    { consistent := sane.consistent.store known
      publishes := sane.publishes.release (by decide) releases sees }
  knows {role position} knows := by
    cases position with
    | storeData view => exact Memory.Known.kept knows
    | storeReady view => exact ⟨knows.1.kept, knows.2.kept_of_ne (by decide)⟩
    | spin view => exact Memory.Known.kept knows
    | loadData view => exact ⟨knows.1.kept, knows.2.kept_of_ne (by decide)⟩

variable {storing : StoreOrdering} {loading : LoadOrdering} {shared : Shared}

theorem keeps_step (releases : storing.Releases) (acquires : loading.Acquires)
    (sane : Sane shared.memory) {role : Role} (position : Position role)
    (knows : Knows shared.memory position) :
    Keeps shared.memory (step storing loading shared position).1.memory ∧
      MayLeadTo (step storing loading shared position).1.memory
        (step storing loading shared position).2 := by
  cases position with
  | storeData view =>
      exact ⟨sane.keeps_storeData knows .relaxed, knows.store,
        Memory.sees_store rfl⟩
  | storeReady view =>
      exact ⟨sane.keeps_storeReady knows.1 knows.2 releases, trivial⟩
  | spin view =>
      have known :
          shared.memory.Known
            (shared.memory.load loading shared.lag view .ready).2 :=
        knows.load sane.consistent .ready
      have acquired
          (raised : (shared.memory.load loading shared.lag view .ready).1 = true) :
          SeesMessage shared.memory
            (shared.memory.load loading shared.lag view .ready).2 :=
        sane.publishes.acquire knows acquires raised
      simp only [step]
      split
      · rename_i later isRaised
        rw [isRaised] at known acquired
        exact ⟨sane.keeps, known, acquired rfl⟩
      · rename_i later isLowered
        rw [isLowered] at known
        exact ⟨sane.keeps, known⟩
  | loadData view => exact ⟨sane.keeps, knows.2.load knows.1⟩

/-- The message is all that there is to read once the flag is seen. -/
def publication : Outline Shared Position Result where
  Inv pool :=
    Sane pool.shared.memory ∧
      ∀ record, record ∈ pool.returned → MayReturn record.result
  At pool activity := Knows pool.shared.memory activity.position

variable {allowed :
  Pool Shared Position Result → PoolLabel Role Nat → Prop}

theorem publication_sound (releases : storing.Releases)
    (acquires : loading.Acquires) :
    publication.Sound (object storing loading) allowed where
  inv := by
    intro source label target _ holds moves
    obtain ⟨⟨sane, returned⟩, knows⟩ := holds
    cases moves with
    | call _ => exact ⟨sane, returned⟩
    | @advance thread activity shared position running stepped =>
        have kept :=
          keeps_step releases acquires sane activity.position
            (knows thread activity running)
        rw [show step storing loading _ _ = _ from stepped] at kept
        exact ⟨kept.1.sane, returned⟩
    | @finish thread activity shared result running stepped =>
        have kept :=
          keeps_step releases acquires sane activity.position
            (knows thread activity running)
        rw [show step storing loading _ _ = _ from stepped] at kept
        refine ⟨kept.1.sane, ?_⟩
        intro record recorded
        rcases List.mem_cons.mp recorded with rfl | before
        · exact kept.2
        · exact returned record before
    | environment => exact ⟨sane, returned⟩
  begins := by
    intro source thread call _ _ _
    cases call with
    | producer => exact Memory.known_zero
    | consumer => exact Memory.known_zero
  advances := by
    intro source thread activity shared position _ holds running stepped
    have kept :=
      keeps_step releases acquires holds.1.1 activity.position
        (holds.2 thread activity running)
    rw [show step storing loading _ _ = _ from stepped] at kept
    exact kept.2
  stable := by
    intro source label target thread activity _ holds moves running _
    have knows := holds.2 thread activity running
    show Knows target.shared.memory activity.position
    rcases moves.shared_cases with
      same | ⟨mover, moving, _, active, stepped⟩ | ⟨lag, disturbed⟩
    · rw [same]
      exact knows
    · rw [stepped]
      have kept :=
        keeps_step releases acquires holds.1.1 moving.position
          (holds.2 mover moving active)
      exact kept.1.knows knows
    · rw [disturbed]
      exact knows

end Outline

/-- A weak store or a weak load of the flag leaves room for a consumer that sees the
flag and reads what was there before. -/
theorem exists_stale_read {storing : StoreOrdering} {loading : LoadOrdering}
    (weak : ¬ (storing.Releases ∧ loading.Acquires)) :
    ∃ world, (system storing loading).Reachable (fun _ _ => True) world ∧
      (0 : UInt64) ∈ printed world.state := by
  obtain ⟨world, reachable, checked⟩ :=
    System.exists_reachable_of_replay (system storing loading) (fun _ _ => True)
      (Pool.idle ⟨Memory.new initialContent, 0⟩)
      [.call 0 .producer, .run 0, .run 0, .call 1 .consumer, .run 1,
        .environment 1, .run 1]
      (fun _ _ => true) (fun world => decide (0 ∈ printed world.state))
      ⟨⟨Memory.new initialContent, 0⟩, rfl, rfl⟩ (fun _ _ _ => trivial)
      (by
        revert weak
        cases storing <;> cases loading <;> decide +kernel)
  exact ⟨world, reachable, of_decide_eq_true checked⟩

/-- Whatever the schedule, and however late loads are, no consumer prints anything
but the message: this is so if the store to the flag releases and the load acquires.
If either is relaxed, a consumer prints the stale zero in some run. -/
theorem only_message_printed_iff (storing : StoreOrdering)
    (loading : LoadOrdering) :
    ((∀ world, (system storing loading).Reachable (fun _ _ => True) world →
        ∀ value, value ∈ printed world.state → value = message) ↔
          storing.Releases ∧ loading.Acquires) ∧
      (¬ (storing.Releases ∧ loading.Acquires) →
        ∃ world, (system storing loading).Reachable (fun _ _ => True) world ∧
          (0 : UInt64) ∈ printed world.state) := by
  refine ⟨?_, exists_stale_read⟩
  constructor
  · intro always
    by_contra weak
    obtain ⟨world, reachable, stale⟩ := exists_stale_read weak
    exact absurd (always world reachable 0 stale) (by decide)
  · rintro ⟨releases, acquires⟩ world reachable value isPrinted
    have holds :=
      (publication_sound releases acquires).reachable
        (fun shared starts => ⟨?_, fun _ member => nomatch member⟩) reachable
    · obtain ⟨record, recorded, prints⟩ := List.mem_filterMap.mp isPrinted
      have mayReturn := holds.1.2 record recorded
      obtain ⟨thread, role, result, began, ended⟩ := record
      cases role with
      | producer => cases prints
      | consumer =>
          cases prints
          exact mayReturn
    · have isNew : shared.memory = Memory.new initialContent := starts
      show Sane shared.memory
      rw [isNew]
      exact sane_new

end HautePerformance.Demos.MessagePassing
