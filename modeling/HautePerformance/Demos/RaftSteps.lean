import HautePerformance.Demos.Raft

/-!
# What a step of the Raft demo can do

An election is decided by the nodes that support the candidate, a request by the
nodes that are alive.  The two loops are described node by node, and every step of
a cluster is one of six moves.
-/

namespace HautePerformance.Demos.Raft

open Library

variable {n : Nat}

namespace Cluster

variable {self : Cluster n} {candidateId leaderId id : Fin n}
variable {newTerm : Nat} {command : String} {won : Bool}

theorem mem_otherIds {other : Fin n} : other ∈ otherIds id ↔ other ≠ id := by
  simp [otherIds]

theorem nodup_otherIds : (otherIds id).Nodup :=
  (List.nodup_finRange n).filter _

/-- A loop over the other nodes acts on each of them by itself. -/
theorem visitAll_others_apply
    {body : (id : Fin n) → Node id → Node id × Bool}
    {state : ((id : Fin n) → Node id) × Nat} {left : Fin n} (id : Fin n) :
    (visitAll body (otherIds left) state).1 id =
      if id = left then state.1 id else (body id (state.1 id)).1 := by
  by_cases same : id = left
  · rw [if_pos same, visitAll_of_notMem (by simp [mem_otherIds, same])]
  · rw [if_neg same, visitAll_of_mem nodup_otherIds (mem_otherIds.mpr same)]

/-- A loop over the other nodes that starts at one counts a majority if the nodes
that succeed are one, the node left out being taken as one of them. -/
theorem quorum_le_visitAll_others
    {body : (id : Fin n) → Node id → Node id × Bool}
    {nodes : (id : Fin n) → Node id} {left : Fin n} (self : Cluster n) :
    (visitAll body (otherIds left) (nodes, 1)).2 ≥ self.quorum ↔
      Majority (Finset.univ.filter fun id =>
        id = left ∨ (body id (nodes id)).2 = true) := by
  rw [visitAll_count nodup_otherIds, otherIds,
    one_add_countP_others (List.nodup_finRange n) List.mem_finRange]
  simp [Majority, quorum]

/-! ## Elections -/

/-- The node votes for the candidate if it is asked. -/
def Grants (self : Cluster n) (candidateId : Fin n) (newTerm : Nat)
    (id : Fin n) : Prop :=
  (self.nodes id).alive = true ∧
    (self.nodes id).currentTerm < newTerm ∧
    logOk (lastTerm (self.nodes candidateId).log)
      (self.nodes candidateId).log.length (self.nodes id).log = true

instance : Decidable (self.Grants candidateId newTerm id) :=
  inferInstanceAs (Decidable (_ ∧ _ ∧ _))

/-- The candidate and the nodes that vote for it. -/
def supporters (self : Cluster n) (candidateId : Fin n) (newTerm : Nat) :
    Finset (Fin n) :=
  Finset.univ.filter fun id =>
    id = candidateId ∨ self.Grants candidateId newTerm id

theorem mem_supporters :
    id ∈ self.supporters candidateId newTerm ↔
      id = candidateId ∨ self.Grants candidateId newTerm id := by
  simp [supporters]

/-- The cluster after an election. -/
def outcome (self : Cluster n) (candidateId : Fin n) (newTerm : Nat)
    (won : Bool) : Cluster n where
  nodes id :=
    if id = candidateId then
      { self.nodes id with
        currentTerm := newTerm
        votedFor := some candidateId
        role := if won then .leader else .follower }
    else if self.Grants candidateId newTerm id then
      { self.nodes id with
        currentTerm := newTerm
        votedFor := some candidateId
        role := .follower }
    else if won ∧ (self.nodes id).alive then
      { self.nodes id with role := .follower }
    else
      self.nodes id

@[simp]
theorem stand_log :
    ((self.stand candidateId newTerm).nodes candidateId).log =
      (self.nodes candidateId).log := by
  simp [stand]

theorem stand_of_ne (different : id ≠ candidateId) :
    (self.stand candidateId newTerm).nodes id = self.nodes id := by
  simp [stand, Function.update_of_ne different]

theorem requestVote_eq (self : Cluster n) (candidateId : Fin n)
    (newTerm : Nat) (id : Fin n) :
    requestVote candidateId newTerm (lastTerm (self.nodes candidateId).log)
        (self.nodes candidateId).log.length id (self.nodes id) =
      if self.Grants candidateId newTerm id then
        ({ self.nodes id with
            currentTerm := newTerm
            votedFor := some candidateId
            role := .follower }, true)
      else
        (self.nodes id, false) := by
  by_cases alive : (self.nodes id).alive = true
  · simp [requestVote, Grants, alive]
  · simp [requestVote, Grants, alive]

theorem requestVotes_nodes (id : Fin n) :
    ((self.stand candidateId newTerm).requestVotes candidateId
        newTerm).1.nodes id =
      if id = candidateId then
        { self.nodes id with
          currentTerm := newTerm
          role := .candidate
          votedFor := some candidateId }
      else if self.Grants candidateId newTerm id then
        { self.nodes id with
          currentTerm := newTerm
          votedFor := some candidateId
          role := .follower }
      else
        self.nodes id := by
  simp only [requestVotes, visitAll_others_apply, stand_log]
  by_cases same : id = candidateId
  · subst same
    simp [stand]
  · simp only [same, if_false, stand_of_ne same, requestVote_eq]
    split <;> rfl

theorem quorum_le_votes :
    ((self.stand candidateId newTerm).requestVotes candidateId newTerm).2 ≥
        self.quorum ↔
      Majority (self.supporters candidateId newTerm) := by
  have granting :
      (Finset.univ.filter fun id =>
          id = candidateId ∨
            (requestVote candidateId newTerm
              (lastTerm (self.nodes candidateId).log)
              (self.nodes candidateId).log.length id
              ((self.stand candidateId newTerm).nodes id)).2 = true) =
        self.supporters candidateId newTerm := by
    ext id
    by_cases same : id = candidateId
    · simp [supporters, same]
    · by_cases grants : self.Grants candidateId newTerm id
      · simp [supporters, stand_of_ne same, requestVote_eq, grants]
      · simp [supporters, stand_of_ne same, requestVote_eq, same, grants]
  simp only [requestVotes, stand_log]
  rw [quorum_le_visitAll_others, granting]

/-- An election that takes place is decided by the supporters. -/
theorem runElection_eq (alive : (self.nodes candidateId).alive = true)
    (next :
      checkedAdd (self.nodes candidateId).currentTerm 1 = some newTerm) :
    self.runElection candidateId =
      some
        (self.outcome candidateId newTerm
            (decide (Majority (self.supporters candidateId newTerm))),
          decide (Majority (self.supporters candidateId newTerm))) := by
  simp only [runElection, alive, next, Bool.not_true, Bool.false_eq_true,
    if_false, Option.map_some, quorum_le_votes]
  by_cases majority : Majority (self.supporters candidateId newTerm)
  · simp only [majority, if_true, decide_true, Option.some.injEq,
      Prod.mk.injEq, and_true, outcome, becomeLeader, Cluster.mk.injEq]
    funext id
    rw [requestVotes_nodes]
    by_cases same : id = candidateId
    · simp [same]
    · by_cases grants : self.Grants candidateId newTerm id
      · simp [same, grants]
      · simp [same, grants]
  · simp only [majority, if_false, decide_false, Option.some.injEq,
      Prod.mk.injEq, and_true, outcome, becomeFollower, Cluster.mk.injEq]
    funext id
    by_cases same : id = candidateId
    · subst same
      simp [requestVotes_nodes]
    · rw [Function.update_of_ne same, requestVotes_nodes]
      simp [same]

@[simp]
theorem outcome_log :
    ((self.outcome candidateId newTerm won).nodes id).log =
      (self.nodes id).log := by
  simp only [outcome]
  split_ifs <;> rfl

@[simp]
theorem outcome_commitIndex :
    ((self.outcome candidateId newTerm won).nodes id).commitIndex =
      (self.nodes id).commitIndex := by
  simp only [outcome]
  split_ifs <;> rfl

@[simp]
theorem outcome_alive :
    ((self.outcome candidateId newTerm won).nodes id).alive =
      (self.nodes id).alive := by
  simp only [outcome]
  split_ifs <;> rfl

/-- The supporters are in the new term and have voted for the candidate. -/
theorem outcome_supporter
    (supports : id ∈ self.supporters candidateId newTerm) :
    ((self.outcome candidateId newTerm won).nodes id).currentTerm = newTerm ∧
      ((self.outcome candidateId newTerm won).nodes id).votedFor =
        some candidateId := by
  rcases mem_supporters.mp supports with isCandidate | grants
  · simp [outcome, isCandidate]
  · by_cases same : id = candidateId
    · simp [outcome, same]
    · simp [outcome, same, grants]

/-- The others keep their term and their vote. -/
theorem outcome_other
    (refuses : id ∉ self.supporters candidateId newTerm) :
    ((self.outcome candidateId newTerm won).nodes id).currentTerm =
        (self.nodes id).currentTerm ∧
      ((self.outcome candidateId newTerm won).nodes id).votedFor =
        (self.nodes id).votedFor := by
  rw [mem_supporters, not_or] at refuses
  simp only [outcome, refuses.1, refuses.2, if_false]
  split_ifs <;> exact ⟨rfl, rfl⟩

/-- After an election a leader has won it, or was one and does not support the
candidate; it is then down, or the election is lost. -/
theorem outcome_leader
    (leads :
      ((self.outcome candidateId newTerm won).nodes id).role = .leader) :
    (id = candidateId ∧ won = true) ∨
      ((self.nodes id).role = .leader ∧
        id ∉ self.supporters candidateId newTerm ∧
        ((self.nodes id).alive = true → won = false)) := by
  by_cases same : id = candidateId
  · cases won with
    | true => exact Or.inl ⟨same, rfl⟩
    | false => simp [outcome, same] at leads
  · by_cases grants : self.Grants candidateId newTerm id
    · simp [outcome, same, grants] at leads
    · by_cases steps : won = true ∧ (self.nodes id).alive = true
      · simp [outcome, same, grants, steps] at leads
      · simp only [outcome, same, grants, steps, if_false] at leads
        refine Or.inr ⟨leads, by simp [mem_supporters, same, grants], ?_⟩
        intro alive
        exact Bool.eq_false_iff.mpr fun victory => steps ⟨victory, alive⟩

/-! ## Client requests -/

/-- The nodes that are alive. -/
def aliveNodes (self : Cluster n) : Finset (Fin n) :=
  Finset.univ.filter fun id => (self.nodes id).alive = true

theorem mem_aliveNodes : id ∈ self.aliveNodes ↔ (self.nodes id).alive = true := by
  simp [aliveNodes]

/-- The leader of a cluster is alive and takes itself for the leader. -/
theorem leader_spec (found : self.leader = some leaderId) :
    (self.nodes leaderId).role = .leader ∧
      (self.nodes leaderId).alive = true := by
  have holds := List.find?_some found
  simpa using holds

/-- The entry that a leader makes of a command. -/
def newEntry (self : Cluster n) (leaderId : Fin n) (command : String) :
    LogEntry :=
  { term := (self.nodes leaderId).currentTerm, command := command }

/-- The cluster after a request to the leader. -/
def replicate (self : Cluster n) (leaderId : Fin n) (command : String) :
    Cluster n where
  nodes id :=
    if (self.nodes id).alive then
      { self.nodes id with
        log := (self.nodes id).log ++ [self.newEntry leaderId command]
        commitIndex :=
          if Majority self.aliveNodes ∧
              (self.nodes leaderId).log.length ≤ (self.nodes id).log.length then
            max (self.nodes id).commitIndex
              ((self.nodes leaderId).log.length + 1)
          else
            (self.nodes id).commitIndex }
    else
      self.nodes id

theorem appendEntries_nodes {entry : LogEntry}
    (alive : (self.nodes leaderId).alive = true) (id : Fin n) :
    ((self.pushEntry leaderId entry).appendEntries leaderId entry).1.nodes id =
      if (self.nodes id).alive then
        { self.nodes id with log := (self.nodes id).log ++ [entry] }
      else
        self.nodes id := by
  simp only [appendEntries, visitAll_others_apply]
  by_cases same : id = leaderId
  · subst same
    simp [pushEntry, alive]
  · simp only [same, if_false, pushEntry, Function.update_of_ne same,
      appendEntry]
    by_cases reached : (self.nodes id).alive = true
    · simp [reached]
    · simp [reached]

theorem quorum_le_replicated {entry : LogEntry}
    (alive : (self.nodes leaderId).alive = true) :
    ((self.pushEntry leaderId entry).appendEntries leaderId entry).2 ≥
        self.quorum ↔
      Majority self.aliveNodes := by
  have reached :
      (Finset.univ.filter fun id =>
          id = leaderId ∨
            (appendEntry entry id
              ((self.pushEntry leaderId entry).nodes id)).2 = true) =
        self.aliveNodes := by
    ext id
    by_cases same : id = leaderId
    · simp [aliveNodes, same, alive]
    · by_cases up : (self.nodes id).alive = true
      · simp [aliveNodes, appendEntry, pushEntry, Function.update_of_ne same,
          up]
      · simp [aliveNodes, appendEntry, pushEntry, same, up]
  simp only [appendEntries]
  rw [quorum_le_visitAll_others, reached]

/-- A request that finds a leader is accepted if a majority is alive. -/
theorem clientRequest_eq (found : self.leader = some leaderId) :
    self.clientRequest command =
      (self.replicate leaderId command,
        decide (Majority self.aliveNodes)) := by
  have alive := (leader_spec found).2
  have target :
      (((self.pushEntry leaderId (self.newEntry leaderId command)).nodes
        leaderId).log).length = (self.nodes leaderId).log.length + 1 := by
    simp [pushEntry]
  unfold clientRequest
  simp only [found]
  rw [← newEntry, target]
  simp only [quorum_le_replicated alive]
  by_cases majority : Majority self.aliveNodes
  · simp only [majority, if_true, decide_true, Prod.mk.injEq, and_true]
    ext1
    funext id
    simp only [commit, replicate, appendEntries_nodes alive]
    by_cases up : (self.nodes id).alive = true
    · by_cases long :
          (self.nodes leaderId).log.length ≤ (self.nodes id).log.length
      · simp [up, long, majority, newEntry]
      · simp [up, long, newEntry]
    · simp [up]
  · simp only [majority, if_false, decide_false, Prod.mk.injEq, and_true]
    ext1
    funext id
    simp only [replicate, appendEntries_nodes alive]
    by_cases up : (self.nodes id).alive = true
    · simp [up, majority, newEntry]
    · simp [up]

theorem clientRequest_of_no_leader (noLeader : self.leader = none) :
    self.clientRequest command = (self, false) := by
  simp [clientRequest, noLeader]

theorem replicate_of_alive (alive : (self.nodes id).alive = true) :
    ((self.replicate leaderId command).nodes id).log =
      (self.nodes id).log ++ [self.newEntry leaderId command] := by
  simp [replicate, alive]

theorem replicate_commitIndex (alive : (self.nodes id).alive = true) :
    ((self.replicate leaderId command).nodes id).commitIndex =
      if Majority self.aliveNodes ∧
          (self.nodes leaderId).log.length ≤ (self.nodes id).log.length then
        max (self.nodes id).commitIndex ((self.nodes leaderId).log.length + 1)
      else
        (self.nodes id).commitIndex := by
  simp [replicate, alive]

theorem replicate_of_not_alive (down : (self.nodes id).alive = false) :
    (self.replicate leaderId command).nodes id = self.nodes id := by
  simp [replicate, down]

@[simp]
theorem replicate_role :
    ((self.replicate leaderId command).nodes id).role =
      (self.nodes id).role := by
  simp only [replicate]
  split <;> rfl

@[simp]
theorem replicate_currentTerm :
    ((self.replicate leaderId command).nodes id).currentTerm =
      (self.nodes id).currentTerm := by
  simp only [replicate]
  split <;> rfl

@[simp]
theorem replicate_votedFor :
    ((self.replicate leaderId command).nodes id).votedFor =
      (self.nodes id).votedFor := by
  simp only [replicate]
  split <;> rfl

@[simp]
theorem replicate_alive :
    ((self.replicate leaderId command).nodes id).alive =
      (self.nodes id).alive := by
  simp only [replicate]
  split <;> rfl

/-! ## Crashes and recoveries -/

/-- A crash or a recovery changes nothing but `alive`, and of that node alone. -/
theorem setAlive_nodes {alive : Bool} {other : Fin n} :
    (self.setAlive id alive).nodes other =
      { self.nodes other with
        alive := if other = id then alive else (self.nodes other).alive } := by
  by_cases same : other = id
  · subst same
    simp [setAlive]
  · simp [setAlive, same]

end Cluster

/-! ## The moves -/

open Cluster

/-- The steps of a cluster, with what they find in it. -/
inductive Moves (source : Cluster n) : RaftLabel n → Cluster n → Prop
  | absent {candidateId : Fin n} :
      (source.nodes candidateId).alive = false →
      Moves source (.runElection candidateId) source
  | election {candidateId : Fin n} :
      (source.nodes candidateId).alive = true →
      Moves source (.runElection candidateId)
        (source.outcome candidateId
          ((source.nodes candidateId).currentTerm + 1)
          (decide (Majority (source.supporters candidateId
            ((source.nodes candidateId).currentTerm + 1)))))
  | rejected {command : String} :
      source.leader = none →
      Moves source (.clientRequest command) source
  | request {leaderId : Fin n} {command : String} :
      source.leader = some leaderId →
      Moves source (.clientRequest command) (source.replicate leaderId command)
  | crash {id : Fin n} : Moves source (.crash id) (source.setAlive id false)
  | recover {id : Fin n} : Moves source (.recover id) (source.setAlive id true)

theorem moves_of_exec {source target : Cluster n} {label : RaftLabel n}
    (executed : (raft n).exec source label = some target) :
    Moves source label target := by
  cases label with
  | runElection candidateId =>
      cases alive : (source.nodes candidateId).alive with
      | false =>
          have unchanged : target = source := by
            simpa [raft, exec, runElection, alive] using executed.symm
          rw [unchanged]
          exact Moves.absent alive
      | true =>
          cases next : checkedAdd (source.nodes candidateId).currentTerm 1 with
          | none => simp [raft, exec, runElection, alive, next] at executed
          | some newTerm =>
              have isNext := (checkedAdd_eq_some.mp next).2
              subst isNext
              simp only [raft, exec, runElection_eq alive next,
                Option.map_some, Option.some.injEq] at executed
              exact executed ▸ Moves.election alive
  | clientRequest command =>
      simp only [raft, exec, Option.some.injEq] at executed
      cases found : source.leader with
      | none =>
          rw [clientRequest_of_no_leader found] at executed
          exact executed ▸ Moves.rejected found
      | some leaderId =>
          rw [clientRequest_eq found] at executed
          exact executed ▸ Moves.request found
  | crash id =>
      simp only [raft, exec, Option.some.injEq] at executed
      exact executed ▸ Moves.crash
  | recover id =>
      simp only [raft, exec, Option.some.injEq] at executed
      exact executed ▸ Moves.recover

namespace Moves

variable {source target : Cluster n} {label : RaftLabel n}

/-- Logs and commit indices are changed by the requests that find a leader. -/
theorem replicated_or_kept (moves : Moves source label target) :
    (∃ leaderId command,
      label = .clientRequest command ∧
        source.leader = some leaderId ∧
        target = source.replicate leaderId command) ∨
      ∀ id,
        (target.nodes id).log = (source.nodes id).log ∧
          (target.nodes id).commitIndex = (source.nodes id).commitIndex := by
  cases moves with
  | absent _ => exact Or.inr fun _ => ⟨rfl, rfl⟩
  | election _ => exact Or.inr fun _ => ⟨outcome_log, outcome_commitIndex⟩
  | rejected _ => exact Or.inr fun _ => ⟨rfl, rfl⟩
  | request found => exact Or.inl ⟨_, _, rfl, found, rfl⟩
  | crash => exact Or.inr fun _ => by simp [setAlive_nodes]
  | recover => exact Or.inr fun _ => by simp [setAlive_nodes]

/-- Logs only grow. -/
theorem log_extends (moves : Moves source label target) (id : Fin n) :
    (source.nodes id).log <+: (target.nodes id).log := by
  rcases moves.replicated_or_kept with
    ⟨leaderId, command, _, _, rfl⟩ | kept
  · cases alive : (source.nodes id).alive with
    | true =>
        rw [replicate_of_alive alive]
        exact List.prefix_append _ _
    | false => rw [replicate_of_not_alive alive]
  · rw [(kept id).1]

end Moves

end HautePerformance.Demos.Raft
