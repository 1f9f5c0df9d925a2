import HautePerformance.Demos.RaftSteps

/-!
# At most one leader in a term

A node enters a term at most once, with a vote that it keeps as long as it stays in
the term.  A leader has the votes of a majority in its term, and two majorities
share a voter.  Votes are read off the states that a run has gone through, so the
result is about leaders of the past too.
-/

namespace HautePerformance.Demos.Raft

open Library Cluster

variable {n : Nat}

/-- Terms have not decreased, and a node that is still in its term has kept its
vote. -/
def Later (earlier later : Cluster n) : Prop :=
  ∀ id,
    (earlier.nodes id).currentTerm ≤ (later.nodes id).currentTerm ∧
      ((earlier.nodes id).currentTerm = (later.nodes id).currentTerm →
        (earlier.nodes id).votedFor = (later.nodes id).votedFor)

theorem Later.refl (cluster : Cluster n) : Later cluster cluster :=
  fun _ => ⟨le_rfl, fun _ => rfl⟩

theorem Later.trans (first second third : Cluster n)
    (left : Later first second) (right : Later second third) :
    Later first third := by
  intro id
  obtain ⟨leftTerm, leftVote⟩ := left id
  obtain ⟨rightTerm, rightVote⟩ := right id
  refine ⟨le_trans leftTerm rightTerm, ?_⟩
  intro sameTerm
  have sameLeft :
      (first.nodes id).currentTerm = (second.nodes id).currentTerm := by
    omega
  have sameRight :
      (second.nodes id).currentTerm = (third.nodes id).currentTerm := by
    omega
  exact (leftVote sameLeft).trans (rightVote sameRight)

/-- A supporter of a candidate is in an earlier term before it votes. -/
theorem currentTerm_lt_of_supports {cluster : Cluster n}
    {candidateId id : Fin n}
    (supports :
      id ∈ cluster.supporters candidateId
        ((cluster.nodes candidateId).currentTerm + 1)) :
    (cluster.nodes id).currentTerm <
      (cluster.nodes candidateId).currentTerm + 1 := by
  rcases mem_supporters.mp supports with isCandidate | grants
  · rw [isCandidate]
    exact Nat.lt_succ_self _
  · exact grants.2.1

theorem later_of_moves {source target : Cluster n} {label : RaftLabel n}
    (moves : Moves source label target) : Later source target := by
  cases moves with
  | absent _ => exact Later.refl source
  | rejected _ => exact Later.refl source
  | @election candidateId _ =>
      intro id
      by_cases supports :
          id ∈ source.supporters candidateId
            ((source.nodes candidateId).currentTerm + 1)
      · have raised := currentTerm_lt_of_supports supports
        rw [(outcome_supporter supports).1]
        exact ⟨raised.le, fun same => absurd same raised.ne⟩
      · rw [(outcome_other supports).1, (outcome_other supports).2]
        exact ⟨le_rfl, fun _ => rfl⟩
  | request _ =>
      intro id
      simp
  | crash =>
      intro id
      simp [setAlive_nodes]
  | recover =>
      intro id
      simp [setAlive_nodes]

/-! ## Votes and elections of a run -/

/-- In some state of the run the voter is in the term, with its vote for the
candidate. -/
def VotedIn (world : RaftWorld n) (voter candidateId : Fin n) (term : Nat) :
    Prop :=
  ∃ cluster, world.Visited cluster ∧
    (cluster.nodes voter).currentTerm = term ∧
    (cluster.nodes voter).votedFor = some candidateId

/-- A majority has voted for the candidate in the term. -/
def Elected (world : RaftWorld n) (candidateId : Fin n) (term : Nat) : Prop :=
  ∃ voters, Majority voters ∧
    ∀ voter, voter ∈ voters → VotedIn world voter candidateId term

section Runs

variable {allowed : Cluster n → RaftLabel n → Prop} {world : RaftWorld n}
variable {candidateId other id voter : Fin n} {term : Nat}

theorem Elected.push (elected : Elected world candidateId term)
    (label : RaftLabel n) (target : Cluster n) :
    Elected (world.push label target) candidateId term := by
  obtain ⟨voters, majority, voted⟩ := elected
  refine ⟨voters, majority, ?_⟩
  intro voter member
  obtain ⟨cluster, visited, inTerm, vote⟩ := voted voter member
  exact ⟨cluster, visited.push label target, inTerm, vote⟩

/-- Of two states of a run one is later than the other. -/
theorem later_of_visited (reachable : (raft n).Reachable allowed world)
    {first second : Cluster n} (visitedFirst : world.Visited first)
    (visitedSecond : world.Visited second) :
    Later first second ∨ Later second first :=
  reachable.visited_related Later.refl Later.trans
    (fun _ _ _ _ executed => later_of_moves (moves_of_exec executed))
    visitedFirst visitedSecond

theorem later_of_visited_current (reachable : (raft n).Reachable allowed world)
    {cluster : Cluster n} (visited : world.Visited cluster) :
    Later cluster world.state :=
  reachable.visited_before Later.refl Later.trans
    (fun _ _ _ _ executed => later_of_moves (moves_of_exec executed)) visited

/-- A node votes once in a term. -/
theorem votedIn_unique (reachable : (raft n).Reachable allowed world)
    (vote : VotedIn world voter candidateId term)
    (otherVote : VotedIn world voter other term) : candidateId = other := by
  obtain ⟨first, visitedFirst, firstTerm, firstVote⟩ := vote
  obtain ⟨second, visitedSecond, secondTerm, secondVote⟩ := otherVote
  have sameVote :
      (first.nodes voter).votedFor = (second.nodes voter).votedFor := by
    rcases later_of_visited reachable visitedFirst visitedSecond with
      later | later
    · exact (later voter).2 (firstTerm.trans secondTerm.symm)
    · exact ((later voter).2 (secondTerm.trans firstTerm.symm)).symm
  rw [firstVote, secondVote] at sameVote
  exact Option.some.inj sameVote

/-- A term has one winner. -/
theorem elected_unique (reachable : (raft n).Reachable allowed world)
    (elected : Elected world candidateId term)
    (otherElected : Elected world other term) : candidateId = other := by
  obtain ⟨voters, majority, voted⟩ := elected
  obtain ⟨otherVoters, otherMajority, otherVoted⟩ := otherElected
  obtain ⟨voter, member, otherMember⟩ := majority.meet otherMajority
  exact votedIn_unique reachable (voted voter member)
    (otherVoted voter otherMember)

/-- After a step a leader leads the term it led before, or it has just won the
term. -/
theorem leader_after {source target : Cluster n} {label : RaftLabel n}
    (moves : Moves source label target)
    (leads : (target.nodes id).role = .leader) :
    ((source.nodes id).role = .leader ∧
        (target.nodes id).currentTerm = (source.nodes id).currentTerm) ∨
      (label = .runElection id ∧
        (source.nodes id).alive = true ∧
        (target.nodes id).currentTerm = (source.nodes id).currentTerm + 1 ∧
        Majority (source.supporters id
          ((source.nodes id).currentTerm + 1)) ∧
        target = source.outcome id ((source.nodes id).currentTerm + 1) true)
    := by
  cases moves with
  | absent _ => exact Or.inl ⟨leads, rfl⟩
  | rejected _ => exact Or.inl ⟨leads, rfl⟩
  | @election candidateId alive =>
      rcases outcome_leader leads with ⟨isCandidate, won⟩ | ⟨led, refuses, _⟩
      · subst isCandidate
        have supports :
            id ∈ source.supporters id
              ((source.nodes id).currentTerm + 1) :=
          mem_supporters.mpr (Or.inl rfl)
        refine Or.inr ⟨rfl, alive, (outcome_supporter supports).1,
          of_decide_eq_true won, ?_⟩
        rw [won]
      · exact Or.inl ⟨led, (outcome_other refuses).1⟩
  | request _ => exact Or.inl (by simpa using leads)
  | crash => exact Or.inl (by simpa [setAlive_nodes] using leads)
  | recover => exact Or.inl (by simpa [setAlive_nodes] using leads)

/-- Whoever leads, or has led, has been elected. -/
theorem elected_of_leader (reachable : (raft n).Reachable allowed world) :
    ∀ cluster, world.Visited cluster →
      ∀ id, (cluster.nodes id).role = .leader →
        Elected world id (cluster.nodes id).currentTerm := by
  induction reachable with
  | @start state initial =>
      rintro cluster (rfl | ⟨label, ⟨⟩⟩) id leads
      cases initial
      cases leads
  | @next source target label reached step inductionHypothesis =>
      intro cluster visited id leads
      rw [step.2.2, World.visited_push] at visited
      rcases visited with rfl | visited
      · rcases leader_after (moves_of_exec step.2.1) leads with
          ⟨led, sameTerm⟩ | ⟨_, _, newTerm, majority, won⟩
        · rw [sameTerm, step.2.2]
          exact (inductionHypothesis source.state source.visited_current id
            led).push label _
        · refine ⟨_, majority, ?_⟩
          intro voter supports
          refine ⟨target.state, target.visited_current, ?_⟩
          rw [newTerm, won]
          exact outcome_supporter supports
      · rw [step.2.2]
        exact (inductionHypothesis cluster visited id leads).push label _

/-- Election safety: whenever two nodes lead the same term, be it at different
moments of the run, they are the same node. -/
theorem leader_unique (reachable : (raft n).Reachable allowed world)
    {first second : Cluster n} (visitedFirst : world.Visited first)
    (visitedSecond : world.Visited second)
    (leads : (first.nodes id).role = .leader)
    (otherLeads : (second.nodes other).role = .leader)
    (sameTerm :
      (first.nodes id).currentTerm = (second.nodes other).currentTerm) :
    id = other := by
  have elected := elected_of_leader reachable first visitedFirst id leads
  have otherElected :=
    elected_of_leader reachable second visitedSecond other otherLeads
  rw [sameTerm] at elected
  exact elected_unique reachable elected otherElected

end Runs

/-- The runs of a cluster of `n` nodes: any elections, requests, crashes and
recoveries in any order. -/
def Run (world : RaftWorld n) : Prop :=
  (raft n).Reachable (fun _ _ => True) world

/-- No two nodes are ever leaders of the same term. -/
theorem election_safety {world : RaftWorld n} (run : Run world)
    (first second : Cluster n) (i j : Fin n) (visitedFirst : world.Visited first)
    (visitedSecond : world.Visited second) (different : i ≠ j)
    (leads : (first.nodes i).role = .leader)
    (otherLeads : (second.nodes j).role = .leader) :
    (first.nodes i).currentTerm ≠ (second.nodes j).currentTerm :=
  fun sameTerm =>
    different
      (leader_unique run visitedFirst visitedSecond leads otherLeads sameTerm)

/-- The leader of term 1 comes back while another node leads term 2. -/
theorem election_safety_two_leaders :
    ∃ world : RaftWorld 3,
      (world.state.nodes 0).role = .leader ∧
        (world.state.nodes 1).role = .leader ∧
        (world.state.nodes 0).currentTerm ≠
          (world.state.nodes 1).currentTerm := by
  obtain ⟨world, reachable, checked⟩ :=
    System.exists_reachable_of_replay (raft 3) (fun _ _ => True)
      (Cluster.new 3)
      [.runElection 0, .crash 0, .runElection 1, .recover 0]
      (fun _ _ => true)
      (fun world =>
        decide ((world.state.nodes 0).role = .leader ∧
          (world.state.nodes 1).role = .leader))
      rfl (fun _ _ _ => trivial) (by decide +kernel)
  obtain ⟨leads, otherLeads⟩ := of_decide_eq_true checked
  exact ⟨world, leads, otherLeads,
    election_safety reachable _ _ 0 1 world.visited_current
      world.visited_current (by decide) leads otherLeads⟩

end HautePerformance.Demos.Raft
