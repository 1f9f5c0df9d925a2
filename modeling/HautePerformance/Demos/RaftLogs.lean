import HautePerformance.Demos.RaftElection

/-!
# The logs of a Raft cluster

A follower takes every entry that a leader sends it at the end of its own log,
whatever stands there.  Two results hold for the runs in which the logs it meets
are those of the leader: entries of one term at one index have the same past, and
committed prefixes agree.
-/

namespace HautePerformance.Demos.Raft

open Library Cluster

variable {n : Nat}

/-- Every node that is alive has the log of the node. -/
def SameLogs (cluster : Cluster n) (leaderId : Fin n) : Prop :=
  ∀ id, (cluster.nodes id).alive = true →
    (cluster.nodes id).log = (cluster.nodes leaderId).log

instance (cluster : Cluster n) (leaderId : Fin n) :
    Decidable (SameLogs cluster leaderId) :=
  inferInstanceAs (Decidable (∀ _, _ → _))

/-! ## Log matching -/

/-- Entries of the same term at the same index come after the same entries, and
are equal. -/
def LogMatching (cluster : Cluster n) : Prop :=
  ∀ i j index entry other,
    (cluster.nodes i).log[index]? = some entry →
    (cluster.nodes j).log[index]? = some other →
    entry.term = other.term →
    (cluster.nodes i).log.take (index + 1) =
      (cluster.nodes j).log.take (index + 1)

/-- A request finds the log of the leader on every node that is alive. -/
def InStep (cluster : Cluster n) : RaftLabel n → Prop
  | .clientRequest _ =>
      ∀ leaderId, cluster.leader = some leaderId → SameLogs cluster leaderId
  | _ => True

instance (cluster : Cluster n) : DecidablePred (InStep cluster) := fun label =>
  match label with
  | .clientRequest _ =>
      inferInstanceAs (Decidable (∀ leaderId, _ = some leaderId → _))
  | .runElection _ => isTrue trivial
  | .crash _ => isTrue trivial
  | .recover _ => isTrue trivial

section Matching

variable {allowed : Cluster n → RaftLabel n → Prop} {world : RaftWorld n}

/-- An entry in a log has been made by a leader of its term. -/
theorem entry_led (reachable : (raft n).Reachable allowed world) :
    ∀ id entry, entry ∈ (world.state.nodes id).log →
      ∃ cluster leaderId, world.Visited cluster ∧
        (cluster.nodes leaderId).role = .leader ∧
        (cluster.nodes leaderId).currentTerm = entry.term := by
  induction reachable with
  | @start state initial =>
      intro id entry member
      cases initial
      cases member
  | @next source target label reached step inductionHypothesis =>
      intro id entry member
      have visitedStill : ∀ cluster,
          source.Visited cluster → target.Visited cluster := by
        intro cluster visited
        rw [step.2.2]
        exact visited.push label _
      have earlier : entry ∈ (source.state.nodes id).log →
          ∃ cluster leaderId, target.Visited cluster ∧
            (cluster.nodes leaderId).role = .leader ∧
            (cluster.nodes leaderId).currentTerm = entry.term := by
        intro old
        obtain ⟨cluster, leaderId, visited, leads, inTerm⟩ :=
          inductionHypothesis id entry old
        exact ⟨cluster, leaderId, visitedStill cluster visited, leads, inTerm⟩
      rcases (moves_of_exec step.2.1).replicated_or_kept with
        ⟨leaderId, command, _, found, replicated⟩ | kept
      · rw [replicated] at member
        cases alive : (source.state.nodes id).alive with
        | false =>
            rw [replicate_of_not_alive alive] at member
            exact earlier member
        | true =>
            rw [replicate_of_alive alive, List.mem_append,
              List.mem_singleton] at member
            rcases member with old | rfl
            · exact earlier old
            · exact ⟨source.state, leaderId,
                visitedStill _ source.visited_current, (leader_spec found).1,
                rfl⟩
      · rw [(kept id).1] at member
        exact earlier member

/-- The log of whoever has led a term continues every log up to an entry of that
term. -/
def LeadersHoldTheirTerms (world : RaftWorld n) : Prop :=
  ∀ cluster leaderId id index entry,
    world.Visited cluster →
    (cluster.nodes leaderId).role = .leader →
    (world.state.nodes id).log[index]? = some entry →
    entry.term = (cluster.nodes leaderId).currentTerm →
    (world.state.nodes id).log.take (index + 1) <+:
      (world.state.nodes leaderId).log

/-- Whoever has just won a term finds no entry of it in any log. -/
theorem no_entry_of_new_term {source : RaftWorld n} {target : Cluster n}
    {candidateId id : Fin n} {entry : LogEntry}
    (reachable : (raft n).Reachable allowed source)
    (targetReachable :
      (raft n).Reachable allowed
        (source.push (.runElection candidateId) target))
    (leads : (target.nodes candidateId).role = .leader)
    (newTerm :
      (target.nodes candidateId).currentTerm =
        (source.state.nodes candidateId).currentTerm + 1)
    (member : entry ∈ (source.state.nodes id).log) :
    entry.term ≠ (target.nodes candidateId).currentTerm := by
  intro sameTerm
  obtain ⟨cluster, leaderId, visited, led, inTerm⟩ :=
    entry_led reachable id entry member
  have sameLeader : leaderId = candidateId :=
    leader_unique targetReachable (visited.push _ target)
      (World.visited_current _) led leads (inTerm.trans sameTerm)
  subst sameLeader
  have bound := (later_of_visited_current reachable visited leaderId).1
  omega

/-- A request in step extends the log of every node that is alive by the entry at
the end of the leader's log. -/
theorem replicate_of_sameLogs {cluster : Cluster n} {leaderId id : Fin n}
    {command : String} (same : SameLogs cluster leaderId)
    (alive : (cluster.nodes id).alive = true) :
    ((cluster.replicate leaderId command).nodes id).log =
      (cluster.nodes leaderId).log ++ [cluster.newEntry leaderId command] := by
  rw [replicate_of_alive alive, same id alive]

/-- One request in step keeps what the leaders hold. -/
theorem leadersHoldTheirTerms_replicate {source : RaftWorld n}
    {leaderId : Fin n} {command : String}
    (reachable : (raft n).Reachable allowed source)
    (found : source.state.leader = some leaderId)
    (same : SameLogs source.state leaderId)
    (hold : LeadersHoldTheirTerms source) :
    ∀ cluster first id index entry,
      source.Visited cluster →
      (cluster.nodes first).role = .leader →
      ((source.state.replicate leaderId command).nodes id).log[index]? =
        some entry →
      entry.term = (cluster.nodes first).currentTerm →
      ((source.state.replicate leaderId command).nodes id).log.take
          (index + 1) <+:
        ((source.state.replicate leaderId command).nodes first).log := by
  intro cluster first id index entry visited leads atIndex sameTerm
  obtain ⟨leaderLeads, leaderAlive⟩ := leader_spec found
  have grown :
      (source.state.nodes first).log <+:
        ((source.state.replicate leaderId command).nodes first).log :=
    (Moves.request found).log_extends first
  cases alive : (source.state.nodes id).alive with
  | false =>
      rw [replicate_of_not_alive alive] at atIndex ⊢
      exact (hold cluster first id index entry visited leads atIndex
        sameTerm).trans grown
  | true =>
      rw [replicate_of_alive alive] at atIndex ⊢
      by_cases old : index < (source.state.nodes id).log.length
      · rw [List.getElem?_append_left old] at atIndex
        rw [List.take_append_of_le_length (by omega)]
        exact (hold cluster first id index entry visited leads atIndex
          sameTerm).trans grown
      · obtain ⟨isLast, isNew⟩ :
            index = (source.state.nodes id).log.length ∧
              entry = source.state.newEntry leaderId command := by
          rw [List.getElem?_append_right (by omega)] at atIndex
          obtain ⟨inRange, isNew⟩ := List.getElem?_eq_some_iff.mp atIndex
          rw [List.length_singleton] at inRange
          refine ⟨by omega, ?_⟩
          rw [← isNew]
          simp
        subst isLast isNew
        have isLeader : first = leaderId :=
          leader_unique reachable visited source.visited_current leads
            leaderLeads sameTerm.symm
        subst isLeader
        rw [replicate_of_sameLogs same leaderAlive, same id alive]
        exact List.take_prefix _ _

theorem leadersHoldTheirTerms (reachable : (raft n).Reachable InStep world) :
    LeadersHoldTheirTerms world := by
  induction reachable with
  | @start state initial =>
      intro cluster leaderId id index entry _ _ atIndex
      cases initial
      cases atIndex
  | @next source target label reached step inductionHypothesis =>
      intro cluster leaderId id index entry visited leads atIndex sameTerm
      have moves := moves_of_exec step.2.1
      rw [step.2.2, World.visited_push] at visited
      rcases moves.replicated_or_kept with
        ⟨requested, command, rfl, found, replicated⟩ | kept
      · have visitedBefore :
            ∃ before, source.Visited before ∧
              (before.nodes leaderId).role = .leader ∧
              entry.term = (before.nodes leaderId).currentTerm := by
          rcases visited with rfl | visited
          · refine ⟨source.state, source.visited_current, ?_, ?_⟩
            · simpa [replicated] using leads
            · simpa [replicated] using sameTerm
          · exact ⟨cluster, visited, leads, sameTerm⟩
        obtain ⟨before, visitedThen, led, inTerm⟩ := visitedBefore
        rw [replicated] at atIndex ⊢
        exact leadersHoldTheirTerms_replicate reached found
          (step.1 requested found) inductionHypothesis before leaderId id index
          entry visitedThen led atIndex inTerm
      · rw [(kept id).1] at atIndex ⊢
        rw [(kept leaderId).1]
        rcases visited with rfl | visited
        · rcases leader_after moves leads with
            ⟨led, keptTerm⟩ | ⟨rfl, _, newTerm, _, _⟩
          · exact inductionHypothesis source.state leaderId id index entry
              source.visited_current led atIndex (sameTerm.trans keptTerm)
          · have targetReached := reached.next step
            rw [step.2.2] at targetReached
            exact absurd sameTerm
              (no_entry_of_new_term reached targetReached leads newTerm
                (List.mem_of_getElem? atIndex))
        · exact inductionHypothesis cluster leaderId id index entry visited
            leads atIndex sameTerm

end Matching

/-- The logs match in every state that is reached by requests in step. -/
theorem logs_match {world : RaftWorld n}
    (reachable : (raft n).Reachable InStep world) :
    LogMatching world.state := by
  intro i j index entry other atIndex otherAtIndex sameTerm
  have hold := leadersHoldTheirTerms reachable
  obtain ⟨cluster, leaderId, visited, leads, inTerm⟩ :=
    entry_led reachable i entry (List.mem_of_getElem? atIndex)
  have left := hold cluster leaderId i index entry visited leads atIndex
    inTerm.symm
  have right := hold cluster leaderId j index other visited leads otherAtIndex
    (sameTerm.symm.trans inTerm.symm)
  have sameLength :
      ((world.state.nodes i).log.take (index + 1)).length =
        ((world.state.nodes j).log.take (index + 1)).length := by
    obtain ⟨inLog, _⟩ := List.getElem?_eq_some_iff.mp atIndex
    obtain ⟨inOther, _⟩ := List.getElem?_eq_some_iff.mp otherAtIndex
    rw [List.length_take_of_le inLog, List.length_take_of_le inOther]
  exact (List.prefix_of_prefix_length_le left right sameLength.le).eq_of_length
    sameLength

/-- The second leader's entry comes after the first leader's. -/
theorem logs_match_two_terms :
    ∃ world : RaftWorld 3,
      (world.state.nodes 0).log = [⟨1, "SET x=1"⟩] ∧
        (world.state.nodes 1).log = [⟨1, "SET x=1"⟩, ⟨2, "SET y=2"⟩] ∧
        LogMatching world.state := by
  obtain ⟨world, reachable, checked⟩ :=
    System.exists_reachable_of_replay (raft 3) InStep (Cluster.new 3)
      [.runElection 0, .clientRequest "SET x=1", .crash 0, .runElection 1,
        .clientRequest "SET y=2", .recover 0]
      (fun cluster label => decide (InStep cluster label))
      (fun world =>
        decide ((world.state.nodes 0).log = [⟨1, "SET x=1"⟩] ∧
          (world.state.nodes 1).log = [⟨1, "SET x=1"⟩, ⟨2, "SET y=2"⟩]))
      rfl (fun _ _ admitted => of_decide_eq_true admitted)
      (by decide +kernel)
  obtain ⟨first, second⟩ := of_decide_eq_true checked
  exact ⟨world, first, second, logs_match reachable⟩

/-- A follower misses an entry, comes back and takes the next one in its place. -/
theorem follower_fills_gap_with_next_entry :
    ¬ ∀ (n : Nat) (world : RaftWorld n),
      1 ≤ n → Run world → LogMatching world.state := by
  intro matching
  obtain ⟨world, reachable, checked⟩ :=
    System.exists_reachable_of_replay (raft 3) (fun _ _ => True)
      (Cluster.new 3)
      [.runElection 0, .crash 2, .clientRequest "SET x=1", .recover 2,
        .clientRequest "SET y=2"]
      (fun _ _ => true)
      (fun world =>
        decide ((world.state.nodes 0).log =
            [⟨1, "SET x=1"⟩, ⟨1, "SET y=2"⟩] ∧
          (world.state.nodes 2).log = [⟨1, "SET y=2"⟩]))
      rfl (fun _ _ _ => trivial) (by decide +kernel)
  obtain ⟨first, second⟩ := of_decide_eq_true checked
  have equal := matching 3 world (by decide) reachable 0 2 0
    ⟨1, "SET x=1"⟩ ⟨1, "SET y=2"⟩ (by simp [first]) (by simp [second]) rfl
  rw [first, second] at equal
  revert equal
  decide

/-! ## State machine safety -/

/-- The nodes agree on the entries that they hold to be committed. -/
def CommittedAgree (cluster : Cluster n) : Prop :=
  ∀ i j index,
    index < min (cluster.nodes i).commitIndex (cluster.nodes j).commitIndex →
    ∃ entry,
      (cluster.nodes i).log[index]? = some entry ∧
        (cluster.nodes j).log[index]? = some entry

/-- A request that is accepted finds the log of the leader on every node that is
alive. -/
def CommitsInStep (cluster : Cluster n) : RaftLabel n → Prop
  | .clientRequest _ =>
      Majority cluster.aliveNodes →
      ∀ leaderId, cluster.leader = some leaderId → SameLogs cluster leaderId
  | _ => True

instance (cluster : Cluster n) : DecidablePred (CommitsInStep cluster) :=
  fun label =>
    match label with
    | .clientRequest _ =>
        inferInstanceAs
          (Decidable (_ → ∀ leaderId, _ = some leaderId → _))
    | .runElection _ => isTrue trivial
    | .crash _ => isTrue trivial
    | .recover _ => isTrue trivial

/-- There is one committed log: each node has the part of it that it holds to be
committed, and every majority has a node with all of it. -/
def Committed (cluster : Cluster n) : Prop :=
  ∃ committed : List LogEntry,
    (∀ voters, Majority voters →
      ∃ id, id ∈ voters ∧ committed <+: (cluster.nodes id).log) ∧
    ∀ id,
      (cluster.nodes id).commitIndex ≤ committed.length ∧
        committed.take (cluster.nodes id).commitIndex <+:
          (cluster.nodes id).log

theorem committed_new (n : Nat) : Committed (Cluster.new n) := by
  refine ⟨[], ?_, ?_⟩
  · intro voters majority
    have populated : 0 < voters.card :=
      lt_of_lt_of_le (Nat.succ_pos _) majority
    obtain ⟨id, member⟩ := Finset.card_pos.mp populated
    exact ⟨id, member, List.nil_prefix⟩
  · intro id
    exact ⟨Nat.zero_le _, List.nil_prefix⟩

/-- An accepted request commits the whole log of the leader. -/
theorem committed_replicate {cluster : Cluster n} {leaderId : Fin n}
    {command : String} (majority : Majority cluster.aliveNodes)
    (same : SameLogs cluster leaderId) (holds : Committed cluster) :
    Committed (cluster.replicate leaderId command) := by
  obtain ⟨committed, everywhere, indices⟩ := holds
  obtain ⟨holder, holderAlive, whole⟩ := everywhere _ majority
  rw [same holder (mem_aliveNodes.mp holderAlive)] at whole
  have extended :
      committed <+:
        (cluster.nodes leaderId).log ++ [cluster.newEntry leaderId command] :=
    whole.trans (List.prefix_append _ _)
  refine ⟨(cluster.nodes leaderId).log ++ [cluster.newEntry leaderId command],
    ?_, ?_⟩
  · intro voters others
    obtain ⟨id, member, alive⟩ := others.meet majority
    refine ⟨id, member, ?_⟩
    rw [replicate_of_sameLogs same (mem_aliveNodes.mp alive)]
  · intro id
    obtain ⟨bound, own⟩ := indices id
    cases alive : (cluster.nodes id).alive with
    | false =>
        rw [replicate_of_not_alive alive]
        refine ⟨bound.trans extended.length_le, ?_⟩
        obtain ⟨rest, continued⟩ := extended
        rw [← continued, List.take_append_of_le_length bound]
        exact own
    | true =>
        have sameLength := congrArg List.length (same id alive)
        have raised :
            ((cluster.replicate leaderId command).nodes id).commitIndex =
              (cluster.nodes leaderId).log.length + 1 := by
          have behind := bound.trans whole.length_le
          rw [replicate_commitIndex alive, if_pos ⟨majority, sameLength.ge⟩]
          omega
        rw [raised, replicate_of_sameLogs same alive]
        exact ⟨by simp, List.take_prefix _ _⟩

/-- What is committed stays so while logs grow and commit indices do not move. -/
theorem committed_mono {source target : Cluster n} (holds : Committed source)
    (grown : ∀ id, (source.nodes id).log <+: (target.nodes id).log)
    (kept : ∀ id,
      (target.nodes id).commitIndex = (source.nodes id).commitIndex) :
    Committed target := by
  obtain ⟨committed, everywhere, indices⟩ := holds
  refine ⟨committed, ?_, ?_⟩
  · intro voters majority
    obtain ⟨id, member, whole⟩ := everywhere voters majority
    exact ⟨id, member, whole.trans (grown id)⟩
  · intro id
    rw [kept id]
    exact ⟨(indices id).1, (indices id).2.trans (grown id)⟩

theorem committed_of_moves {source target : Cluster n} {label : RaftLabel n}
    (admitted : CommitsInStep source label)
    (moves : Moves source label target) (holds : Committed source) :
    Committed target := by
  rcases moves.replicated_or_kept with
    ⟨leaderId, command, rfl, found, rfl⟩ | kept
  · by_cases majority : Majority source.aliveNodes
    · exact committed_replicate majority (admitted majority leaderId found)
        holds
    · refine committed_mono holds moves.log_extends ?_
      intro id
      cases alive : (source.nodes id).alive with
      | true => rw [replicate_commitIndex alive, if_neg (by simp [majority])]
      | false => rw [replicate_of_not_alive alive]
  · exact committed_mono holds moves.log_extends fun id => (kept id).2

theorem committedAgree_of_committed {cluster : Cluster n}
    (holds : Committed cluster) : CommittedAgree cluster := by
  obtain ⟨committed, _, indices⟩ := holds
  have atIndex : ∀ id index,
      index < (cluster.nodes id).commitIndex →
      (cluster.nodes id).log[index]? = committed[index]? := by
    intro id index inCommitted
    obtain ⟨bound, rest, own⟩ := indices id
    rw [← own, List.getElem?_append_left
      (by rw [List.length_take_of_le bound]; exact inCommitted),
      List.getElem?_take_of_lt inCommitted]
  intro i j index inBoth
  obtain ⟨inFirst, inSecond⟩ := lt_min_iff.mp inBoth
  have inRange : index < committed.length :=
    lt_of_lt_of_le inFirst (indices i).1
  refine ⟨committed[index], ?_, ?_⟩
  · rw [atIndex i index inFirst, List.getElem?_eq_getElem inRange]
  · rw [atIndex j index inSecond, List.getElem?_eq_getElem inRange]

/-- The nodes agree on what is committed in every state that is reached by
requests that commit in step. -/
theorem committed_prefixes_agree {world : RaftWorld n}
    (reachable : (raft n).Reachable CommitsInStep world) :
    CommittedAgree world.state := by
  refine committedAgree_of_committed
    (reachable.state_invariant Committed ?_ ?_)
  · rintro cluster rfl
    exact committed_new n
  · intro label source target holds admitted executed
    exact committed_of_moves admitted (moves_of_exec executed) holds

/-- An entry that is not committed on the first leader, one that is committed by
the second. -/
theorem committed_prefixes_agree_two_leaders :
    ∃ world : RaftWorld 3,
      (world.state.nodes 0).commitIndex = 1 ∧
        (world.state.nodes 1).commitIndex = 2 ∧
        CommittedAgree world.state := by
  obtain ⟨world, reachable, checked⟩ :=
    System.exists_reachable_of_replay (raft 3) CommitsInStep (Cluster.new 3)
      [.runElection 0, .clientRequest "SET x=1", .crash 1, .crash 2,
        .clientRequest "SET z=3", .crash 0, .recover 1, .recover 2,
        .runElection 1, .clientRequest "SET y=2"]
      (fun cluster label => decide (CommitsInStep cluster label))
      (fun world =>
        decide ((world.state.nodes 0).commitIndex = 1 ∧
          (world.state.nodes 1).commitIndex = 2))
      rfl (fun _ _ admitted => of_decide_eq_true admitted)
      (by decide +kernel)
  obtain ⟨first, second⟩ := of_decide_eq_true checked
  exact ⟨world, first, second, committed_prefixes_agree reachable⟩

/-- The first leader comes back with an entry that is not committed and commits its
whole log on nodes that have another entry there. -/
theorem returning_leader_commits_another_entry :
    ¬ ∀ (n : Nat) (world : RaftWorld n),
      1 ≤ n → Run world → CommittedAgree world.state := by
  intro agree
  obtain ⟨world, reachable, checked⟩ :=
    System.exists_reachable_of_replay (raft 3) (fun _ _ => True)
      (Cluster.new 3)
      [.runElection 0, .crash 1, .crash 2, .clientRequest "SET x=1",
        .crash 0, .recover 1, .recover 2, .runElection 1,
        .clientRequest "SET y=2", .recover 0, .clientRequest "SET z=3"]
      (fun _ _ => true)
      (fun world =>
        decide ((world.state.nodes 0).commitIndex = 2 ∧
          (world.state.nodes 1).commitIndex = 2 ∧
          (world.state.nodes 0).log[0]? =
            some (⟨1, "SET x=1"⟩ : LogEntry) ∧
          (world.state.nodes 1).log[0]? =
            some (⟨2, "SET y=2"⟩ : LogEntry)))
      rfl (fun _ _ _ => trivial) (by decide +kernel)
  obtain ⟨first, second, entry, other⟩ := of_decide_eq_true checked
  obtain ⟨shared, ofFirst, ofSecond⟩ :=
    agree 3 world (by decide) reachable 0 1 0 (by simp [first, second])
  rw [entry] at ofFirst
  rw [other, ← ofFirst] at ofSecond
  revert ofSecond
  decide

end HautePerformance.Demos.Raft
