import HautePerformance.Demos.RaftElection

/-!
# Which leader serves requests

Nothing demotes a leader but a vote it grants and the victory of another node
while it is alive.  It serves requests with a stale term if it comes back to a
cluster that has moved on, or if it has seen a candidate of a newer term fail.
-/

namespace HautePerformance.Demos.Raft

open Library Cluster

variable {n : Nat}

/-- A request goes to a leader whose term is as great as that of every node that is
alive. -/
def ServesNewestTerm (world : RaftWorld n) : Prop :=
  ∀ cluster command leaderId,
    (cluster, RaftLabel.clientRequest command) ∈ world.trace →
    cluster.leader = some leaderId →
    ∀ id, (cluster.nodes id).alive = true →
      (cluster.nodes id).currentTerm ≤ (cluster.nodes leaderId).currentTerm

/-- No node that is alive is ahead of a leader that is. -/
def LeadersUpToDate (cluster : Cluster n) : Prop :=
  ∀ leaderId id,
    (cluster.nodes leaderId).role = .leader →
    (cluster.nodes leaderId).alive = true →
    (cluster.nodes id).alive = true →
    (cluster.nodes id).currentTerm ≤ (cluster.nodes leaderId).currentTerm

/-- A node comes back with a term that is not above that of a leader which is
alive, and as a leader only if no node that is alive is ahead of it.  A candidate
wins with a term that no node which is alive is ahead of, and fails with the
support of every leader which is alive and behind it. -/
def Demotes (cluster : Cluster n) : RaftLabel n → Prop
  | .recover id =>
      (∀ leaderId,
        (cluster.nodes leaderId).role = .leader →
        (cluster.nodes leaderId).alive = true →
        (cluster.nodes id).currentTerm ≤
          (cluster.nodes leaderId).currentTerm) ∧
      ((cluster.nodes id).role = .leader →
        ∀ other, (cluster.nodes other).alive = true →
          (cluster.nodes other).currentTerm ≤ (cluster.nodes id).currentTerm)
  | .runElection candidateId =>
      let newTerm := (cluster.nodes candidateId).currentTerm + 1
      let supporters := cluster.supporters candidateId newTerm
      (cluster.nodes candidateId).alive = true →
      (Majority supporters →
        ∀ id, (cluster.nodes id).alive = true →
          (cluster.nodes id).currentTerm ≤ newTerm) ∧
      (¬ Majority supporters →
        ∀ leaderId,
          (cluster.nodes leaderId).role = .leader →
          (cluster.nodes leaderId).alive = true →
          (cluster.nodes leaderId).currentTerm < newTerm →
          leaderId ∈ supporters)
  | _ => True

instance (cluster : Cluster n) : DecidablePred (Demotes cluster) := fun label =>
  match label with
  | .recover _ =>
      inferInstanceAs (Decidable ((∀ _, _ → _ → _) ∧ (_ → ∀ _, _ → _)))
  | .runElection _ =>
      inferInstanceAs
        (Decidable (_ → (_ → ∀ _, _ → _) ∧ (_ → ∀ _, _ → _ → _ → _)))
  | .clientRequest _ => isTrue trivial
  | .crash _ => isTrue trivial

/-- A node's term after an election is at most the new one, or the one it had. -/
theorem outcome_term_le {cluster : Cluster n} {candidateId id : Fin n}
    {newTerm bound : Nat} {won : Bool} (new : newTerm ≤ bound)
    (old : (cluster.nodes id).currentTerm ≤ bound) :
    ((cluster.outcome candidateId newTerm won).nodes id).currentTerm ≤
      bound := by
  by_cases supports : id ∈ cluster.supporters candidateId newTerm
  · rw [(outcome_supporter supports).1]
    exact new
  · rw [(outcome_other supports).1]
    exact old

theorem leadersUpToDate_of_moves {source target : Cluster n}
    {label : RaftLabel n} (admitted : Demotes source label)
    (moves : Moves source label target) (upToDate : LeadersUpToDate source) :
    LeadersUpToDate target := by
  intro leaderId id leads leaderAlive alive
  cases moves with
  | absent _ => exact upToDate leaderId id leads leaderAlive alive
  | rejected _ => exact upToDate leaderId id leads leaderAlive alive
  | request _ =>
      rw [replicate_role] at leads
      rw [replicate_alive] at leaderAlive alive
      rw [replicate_currentTerm, replicate_currentTerm]
      exact upToDate leaderId id leads leaderAlive alive
  | @election candidateId candidateAlive =>
      obtain ⟨whenWon, whenLost⟩ := admitted candidateAlive
      rw [outcome_alive] at leaderAlive alive
      rcases outcome_leader leads with ⟨isCandidate, won⟩ | ⟨led, refuses, lost⟩
      · subst isCandidate
        rw [(outcome_supporter (mem_supporters.mpr (Or.inl rfl))).1]
        exact outcome_term_le le_rfl
          (whenWon (of_decide_eq_true won) id alive)
      · have noMajority := of_decide_eq_false (lost leaderAlive)
        have ahead := fun behind =>
          refuses (whenLost noMajority leaderId led leaderAlive behind)
        rw [(outcome_other refuses).1]
        exact outcome_term_le (Nat.le_of_not_lt ahead)
          (upToDate leaderId id led leaderAlive alive)
  | @crash down =>
      simp only [setAlive_nodes] at leads leaderAlive alive ⊢
      have leaderUp : (source.nodes leaderId).alive = true := by
        by_contra notUp
        simp [notUp] at leaderAlive
      have up : (source.nodes id).alive = true := by
        by_contra notUp
        simp [notUp] at alive
      exact upToDate leaderId id leads leaderUp up
  | @recover back =>
      obtain ⟨notAhead, asLeader⟩ := admitted
      simp only [setAlive_nodes] at leads leaderAlive alive ⊢
      by_cases leaderBack : leaderId = back
      · by_cases same : id = back
        · rw [leaderBack, same]
        · subst leaderBack
          rw [if_neg same] at alive
          exact asLeader leads id alive
      · rw [if_neg leaderBack] at leaderAlive
        by_cases same : id = back
        · subst same
          exact notAhead leaderId leads leaderAlive
        · rw [if_neg same] at alive
          exact upToDate leaderId id leads leaderAlive alive

/-- No request goes to a deposed leader in a run where each recovery and each
election leaves the leaders that are alive up to date. -/
theorem newest_leader_serves {world : RaftWorld n}
    (reachable : (raft n).Reachable Demotes world) :
    ServesNewestTerm world := by
  intro cluster command leaderId recorded found id alive
  have upToDate : LeadersUpToDate cluster := by
    refine reachable.visited_invariant LeadersUpToDate ?_ ?_
      (Or.inr ⟨_, recorded⟩)
    · rintro start rfl other another leads
      cases leads
    · intro label source target holds admitted executed
      exact leadersUpToDate_of_moves admitted (moves_of_exec executed) holds
  obtain ⟨leads, leaderAlive⟩ := leader_spec found
  exact upToDate leaderId id leads leaderAlive alive

/-- The old leader votes for the next one before it serves as its follower. -/
theorem newest_leader_serves_two_terms :
    ∃ world : RaftWorld 3,
      (world.state.nodes 1).log = [⟨1, "SET x=1"⟩, ⟨2, "SET y=2"⟩] ∧
        ServesNewestTerm world := by
  obtain ⟨world, reachable, checked⟩ :=
    System.exists_reachable_of_replay (raft 3) Demotes (Cluster.new 3)
      [.runElection 0, .clientRequest "SET x=1", .crash 2, .runElection 1,
        .clientRequest "SET y=2", .recover 2]
      (fun cluster label => decide (Demotes cluster label))
      (fun world =>
        decide ((world.state.nodes 1).log =
          [⟨1, "SET x=1"⟩, ⟨2, "SET y=2"⟩]))
      rfl (fun _ _ admitted => of_decide_eq_true admitted)
      (by decide +kernel)
  exact ⟨world, of_decide_eq_true checked, newest_leader_serves reachable⟩

/-- A leader comes back after the election of another one, serves a request with its
old term, and the new leader takes the entry. -/
theorem deposed_leader_serves :
    ¬ ∀ (n : Nat) (world : RaftWorld n),
      1 ≤ n → Run world → ServesNewestTerm world := by
  intro serves
  obtain ⟨world, reachable, checked⟩ :=
    System.exists_reachable_of_replay (raft 3) (fun _ _ => True)
      (Cluster.new 3)
      [.runElection 0, .crash 0, .runElection 1, .recover 0,
        .clientRequest "SET x=1"]
      (fun _ _ => true)
      (fun world =>
        world.trace[0]?.any fun step : Cluster 3 × RaftLabel 3 =>
          decide (step.2 = .clientRequest "SET x=1" ∧
            step.1.leader = some 0 ∧
            (step.1.nodes 1).alive = true ∧
            (step.1.nodes 0).currentTerm < (step.1.nodes 1).currentTerm))
      rfl (fun _ _ _ => trivial) (by decide +kernel)
  rw [Option.any_eq_true] at checked
  obtain ⟨⟨cluster, label⟩, atIndex, atStep⟩ := checked
  obtain ⟨rfl, found, alive, behind⟩ := of_decide_eq_true atStep
  exact absurd
    (serves 3 world (by decide) reachable cluster "SET x=1" 0
      (List.mem_of_getElem? atIndex) found 1 alive)
    (Nat.not_le.mpr behind)

end HautePerformance.Demos.Raft
