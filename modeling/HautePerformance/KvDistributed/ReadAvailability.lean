import HautePerformance.Library.RpcEval
import HautePerformance.KvDistributed.Server

/-!
# What a read says when no replica answers

`get_replicated` goes on to the next replica whether a replica does not hold the
key, fails, is too slow or is not in the pool, and says that the key is absent when
the list is exhausted.  That is right as long as some replica of the list answers.
-/

namespace HautePerformance.KvDistributed

open Library.Rpc

/-- What the consultation of one replica comes to. -/
inductive ReadOutcome where
  | value (data : Bytes)
  | absent
  | failed (cause : CallError)
  | notInPool
  deriving DecidableEq, Repr

namespace ReadOutcome

/-- The replica was consulted and has answered. -/
def isAnswer : ReadOutcome → Bool
  | .value _ => true
  | .absent => true
  | .failed _ => false
  | .notInPool => false

@[simp]
theorem isAnswer_failed (cause : CallError) : (failed cause).isAnswer = false :=
  rfl

@[simp]
theorem isAnswer_notInPool : notInPool.isAnswer = false :=
  rfl

/-- The value of the first replica that has one. -/
def firstValue : List ReadOutcome → Option Bytes
  | [] => none
  | .value data :: _ => some data
  | .absent :: rest => firstValue rest
  | .failed _ :: rest => firstValue rest
  | .notInPool :: rest => firstValue rest

variable {outcomes : List ReadOutcome}

/-- Without a value, the only answer there can be is that the key is absent. -/
theorem answered_iff_absent (noValue : firstValue outcomes = none) :
    (∃ outcome, outcome ∈ outcomes ∧ outcome.isAnswer = true) ↔
      .absent ∈ outcomes := by
  induction outcomes with
  | nil => simp
  | cons outcome rest inductionHypothesis =>
      cases outcome with
      | value data => cases noValue
      | absent => simp [isAnswer]
      | failed cause => simpa using inductionHypothesis noValue
      | notInPool => simpa using inductionHypothesis noValue

end ReadOutcome

/-- Every call of a round ends as given for the node that is called. -/
def answeredBy (answers : String → Except CallError Response) :
    Nat → List (String × Request) → List (Except CallError Response) :=
  fun _ asked => asked.map fun call => answers call.1

namespace Replicator

variable {hash : String → UInt64} {self : Replicator} {key : String}
variable {answers : String → Except CallError Response} {node : NodeState}

/-- The consultation of a replica, given the local node and the outcomes of the
calls. -/
def consult (self : Replicator) (key : String) (node : NodeState)
    (answers : String → Except CallError Response) (replica : String) :
    ReadOutcome :=
  if replica = self.localNodeName then
    match (node.storage.get key node.now).1 with
    | some entry => .value entry.data
    | none => .absent
  else if replica ∈ self.peers then
    match KvClient.get (answers replica) with
    | .ok (some value) => .value value
    | .ok none => .absent
    | .error cause => .failed cause
  else .notInPool

theorem consult_of_ne {replica : String} (other : replica ≠ self.localNodeName)
    (first second : NodeState) :
    self.consult key first answers replica =
      self.consult key second answers replica := by
  simp only [consult, if_neg other]

/-- The other replicas are not affected by a read on the local node. -/
theorem map_consult_of_not_mem {replicas : List String}
    (absent : self.localNodeName ∉ replicas) (first second : NodeState) :
    replicas.map (self.consult key first answers) =
      replicas.map (self.consult key second answers) := by
  apply List.map_congr_left
  intro replica member
  have other : replica ≠ self.localNodeName := fun same => absent (same ▸ member)
  exact consult_of_ne other first second

/-- The loop returns the first value, and that the key is absent when there is
none. -/
theorem getLoop_runWith {replicas : List String} :
    ∀ {round : Nat} {node : NodeState},
      replicas.Nodup →
      ((self.getLoop key replicas).runWith (answeredBy answers) round []
          node).1 =
        .ok (ReadOutcome.firstValue
          (replicas.map (self.consult key node answers))) := by
  induction replicas with
  | nil =>
      intro round node _
      rfl
  | cons replica rest inductionHypothesis =>
      intro round node distinct
      obtain ⟨notLater, restDistinct⟩ := List.nodup_cons.mp distinct
      rw [List.map_cons]
      by_cases isLocal : replica = self.localNodeName
      · have sameRest :
            rest.map (self.consult key (node.get key) answers) =
              rest.map (self.consult key node answers) :=
          map_consult_of_not_mem (isLocal ▸ notLater) (node.get key) node
        simp only [getLoop, if_pos isLocal, Prog.runWith]
        cases found : (node.storage.get key node.now).1 with
        | some entry =>
            have outcome : self.consult key node answers replica =
                .value entry.data := by
              simp [consult, isLocal, found]
            rw [outcome]
            rfl
        | none =>
            have outcome : self.consult key node answers replica =
                .absent := by
              simp [consult, isLocal, found]
            rw [outcome, ReadOutcome.firstValue, ← sameRest]
            exact inductionHypothesis restDistinct
      · by_cases inPool : replica ∈ self.peers
        · simp only [getLoop, if_neg isLocal, if_pos inPool, ask, Prog.call,
            Prog.runWith, List.nil_append, answeredBy, List.map_cons,
            List.map_nil, List.headD_cons]
          cases read : KvClient.get (answers replica) with
          | ok data =>
              cases data with
              | some value =>
                  have outcome : self.consult key node answers replica =
                      .value value := by
                    simp [consult, isLocal, inPool, read]
                  rw [outcome]
                  rfl
              | none =>
                  have outcome : self.consult key node answers replica =
                      .absent := by
                    simp [consult, isLocal, inPool, read]
                  rw [outcome, ReadOutcome.firstValue]
                  exact inductionHypothesis restDistinct
          | error cause =>
              have outcome : self.consult key node answers replica =
                  .failed cause := by
                simp [consult, isLocal, inPool, read]
              rw [outcome, ReadOutcome.firstValue]
              exact inductionHypothesis restDistinct
        · have outcome : self.consult key node answers replica =
              .notInPool := by
            simp [consult, isLocal, inPool]
          rw [outcome, ReadOutcome.firstValue]
          simp only [getLoop, if_neg isLocal, if_neg inPool]
          exact inductionHypothesis restDistinct

/-! ## Reads that are answered -/

/-- What the consultations of the replicas come to. -/
def consultations (hash : String → UInt64) (self : Replicator) (key : String)
    (node : NodeState) (answers : String → Except CallError Response) :
    List ReadOutcome :=
  (self.replicas hash key).map (self.consult key node answers)

/-- `get_replicated` on the node, its calls having the given outcomes. -/
def read (hash : String → UInt64) (self : Replicator) (key : String)
    (node : NodeState) (answers : String → Except CallError Response) :
    Except ReplicationError (Option Bytes) :=
  ((self.getReplicated hash key).runWith (answeredBy answers) 0 [] node).1

/-- A key is said to be absent only if some replica says so, and when no replica
could be consulted or none has answered the result is an error. -/
structure UnavailabilityReported
    (result : Except ReplicationError (Option Bytes))
    (outcomes : List ReadOutcome) : Prop where
  absentIfSaid : result = .ok none → .absent ∈ outcomes
  errorIfUnanswered :
    (∀ outcome, outcome ∈ outcomes → outcome.isAnswer = false) →
    result = .error .noReplicaAvailable ∨
      ∃ cause, result = .error (.network cause)

theorem read_of_nil (none : self.replicas hash key = []) :
    self.read hash key node answers = .error .noReplicaAvailable := by
  simp [read, getReplicated, none, Prog.runWith]

theorem read_of_ne_nil (some : self.replicas hash key ≠ []) :
    self.read hash key node answers =
      .ok (ReadOutcome.firstValue
        (self.consultations hash key node answers)) := by
  have notEmpty : (self.replicas hash key).isEmpty = false := by
    simpa using some
  have distinct : (self.replicas hash key).Nodup :=
    ConsistentHashRing.nodup_getNodes _ _ _ _
  simp only [read, getReplicated, notEmpty, Bool.false_eq_true, if_false]
  exact getLoop_runWith distinct

/-- Unavailability is reported if and only if there is no replica at all or some
replica answers. -/
theorem unavailability_reported_iff (hash : String → UInt64)
    (self : Replicator) (key : String) (node : NodeState)
    (answers : String → Except CallError Response) :
    UnavailabilityReported (self.read hash key node answers)
        (self.consultations hash key node answers) ↔
      self.replicas hash key = [] ∨
        ∃ outcome, outcome ∈ self.consultations hash key node answers ∧
          outcome.isAnswer = true := by
  by_cases none : self.replicas hash key = []
  · rw [read_of_nil none]
    constructor
    · intro _
      exact Or.inl none
    · intro _
      exact ⟨fun absent => (by cases absent), fun _ => Or.inl rfl⟩
  · rw [read_of_ne_nil none]
    constructor
    · intro reported
      refine Or.inr ?_
      by_contra unanswered
      have noAnswer (outcome : ReadOutcome)
          (member : outcome ∈ self.consultations hash key node answers) :
          outcome.isAnswer = false := by
        cases answered : outcome.isAnswer with
        | false => rfl
        | true => exact absurd ⟨outcome, member, answered⟩ unanswered
      rcases reported.errorIfUnanswered noAnswer with isError | ⟨cause, isError⟩
      · cases isError
      · cases isError
    · rintro (empty | answered)
      · exact absurd empty none
      · constructor
        · intro absent
          injection absent with noValue
          exact (ReadOutcome.answered_iff_absent noValue).mp answered
        · intro unanswered
          obtain ⟨outcome, member, isAnswer⟩ := answered
          rw [unanswered outcome member] at isAnswer
          cases isAnswer

/-- Both replicas of the key are down, and the third node says that the key is
absent. -/
theorem unavailability_read_as_absence :
    ¬ ∀ (hash : String → UInt64) (self : Replicator) (key : String)
        (node : NodeState) (answers : String → Except CallError Response),
      UnavailabilityReported (self.read hash key node answers)
        (self.consultations hash key node answers) := by
  intro reported
  have atThird := reported Cluster.smallHash
    ((Cluster.small ["node-1", "node-2", "node-3"]).replicator "node-3") "k"
    { storage := StorageEngine.new, now := 0 }
    (fun _ => .error (.io "connection refused"))
  exact absurd (atThird.absentIfSaid (by decide)) (by decide)

end Replicator

end HautePerformance.KvDistributed
