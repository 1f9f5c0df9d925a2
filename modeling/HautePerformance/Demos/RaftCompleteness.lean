import HautePerformance.Demos.RaftLogs

/-!
# Leaders hold what has been committed

A vote goes to a candidate whose log is at least as up to date as the voter's.
That keeps committed entries in the logs of later leaders if the log of every
leader is the log of its followers, its term is not behind theirs, and not behind
the last term of its log.
-/

namespace HautePerformance.Demos.Raft

open Library Cluster

variable {n : Nat}

/-! ## Terms along a log -/

/-- The terms of a log do not decrease. -/
def TermsOrdered (log : List LogEntry) : Prop :=
  log.Pairwise fun entry later => entry.term ≤ later.term

theorem lastTerm_append (log : List LogEntry) (entry : LogEntry) :
    lastTerm (log ++ [entry]) = entry.term := by
  simp [lastTerm]

theorem TermsOrdered.le_lastTerm {log : List LogEntry} {entry : LogEntry}
    (ordered : TermsOrdered log) (member : entry ∈ log) :
    entry.term ≤ lastTerm log := by
  rcases List.eq_nil_or_concat log with rfl | ⟨before, last, rfl⟩
  · cases member
  · rw [List.concat_eq_append] at *
    rw [lastTerm_append]
    rcases List.mem_append.mp member with inBefore | isLast
    · exact (List.pairwise_append.mp ordered).2.2 entry inBefore last
        (List.mem_singleton_self last)
    · rw [List.mem_singleton.mp isLast]

theorem TermsOrdered.append {log : List LogEntry} {entry : LogEntry}
    (ordered : TermsOrdered log) (last : lastTerm log ≤ entry.term) :
    TermsOrdered (log ++ [entry]) := by
  refine List.pairwise_append.mpr ⟨ordered, List.pairwise_singleton _ _, ?_⟩
  intro earlier member other isLast
  rw [List.mem_singleton.mp isLast]
  exact (ordered.le_lastTerm member).trans last

/-- The last entry of a log that is not empty. -/
theorem exists_last {log : List LogEntry} (populated : log ≠ []) :
    ∃ entry,
      log[log.length - 1]? = some entry ∧ entry.term = lastTerm log := by
  rcases List.eq_nil_or_concat log with rfl | ⟨before, last, rfl⟩
  · exact absurd rfl populated
  · refine ⟨last, ?_, ?_⟩
    · simp
    · rw [List.concat_eq_append, lastTerm_append]

/-! ## Synchronised runs -/

/-- A request finds on every node that is alive the log of the leader and no
greater term, and the last entry of that log is not from a greater term
either. -/
def Synchronised (cluster : Cluster n) : RaftLabel n → Prop
  | .clientRequest _ =>
      ∀ leaderId, cluster.leader = some leaderId →
        SameLogs cluster leaderId ∧
          (∀ id, (cluster.nodes id).alive = true →
            (cluster.nodes id).currentTerm ≤
              (cluster.nodes leaderId).currentTerm) ∧
          lastTerm (cluster.nodes leaderId).log ≤
            (cluster.nodes leaderId).currentTerm
  | _ => True

instance (cluster : Cluster n) : DecidablePred (Synchronised cluster) :=
  fun label =>
    match label with
    | .clientRequest _ =>
        inferInstanceAs
          (Decidable (∀ leaderId, _ = some leaderId → _ ∧ (∀ _, _ → _) ∧ _))
    | .runElection _ => isTrue trivial
    | .crash _ => isTrue trivial
    | .recover _ => isTrue trivial

theorem Synchronised.inStep {cluster : Cluster n} {label : RaftLabel n}
    (synchronised : Synchronised cluster label) : InStep cluster label := by
  cases label with
  | clientRequest _ =>
      exact fun leaderId found => (synchronised leaderId found).1
  | _ => trivial

section Runs

variable {world : RaftWorld n}

theorem termsOrdered (reachable : (raft n).Reachable Synchronised world)
    (id : Fin n) : TermsOrdered (world.state.nodes id).log := by
  refine reachable.state_invariant
    (fun cluster => ∀ id, TermsOrdered (cluster.nodes id).log) ?_ ?_ id
  · rintro cluster rfl id
    exact List.Pairwise.nil
  · intro label source target ordered admitted executed id
    rcases (moves_of_exec executed).replicated_or_kept with
      ⟨leaderId, command, rfl, found, rfl⟩ | kept
    · obtain ⟨same, _, last⟩ := admitted leaderId found
      cases alive : (source.nodes id).alive with
      | false =>
          rw [replicate_of_not_alive alive]
          exact ordered id
      | true =>
          rw [replicate_of_sameLogs same alive]
          exact (ordered leaderId).append last
    · rw [(kept id).1]
      exact ordered id

/-- While a majority is alive with no term above a bound, nobody has ever led a
term above it. -/
theorem leader_term_le {allowed : Cluster n → RaftLabel n → Prop} {bound : Nat}
    (reachable : (raft n).Reachable allowed world)
    (majority : Majority world.state.aliveNodes)
    (bounded : ∀ id, (world.state.nodes id).alive = true →
      (world.state.nodes id).currentTerm ≤ bound)
    {cluster : Cluster n} {id : Fin n} (visited : world.Visited cluster)
    (leads : (cluster.nodes id).role = .leader) :
    (cluster.nodes id).currentTerm ≤ bound := by
  obtain ⟨voters, elected, voted⟩ :=
    elected_of_leader reachable cluster visited id leads
  obtain ⟨voter, isVoter, isAlive⟩ := elected.meet majority
  obtain ⟨atVote, visitedThen, inTerm, _⟩ := voted voter isVoter
  have since := (later_of_visited_current reachable visitedThen voter).1
  have nowBounded := bounded voter (mem_aliveNodes.mp isAlive)
  omega

end Runs

/-! ## What an accepted request leaves behind -/

/-- The leader's log with the entry of a request. -/
def commitLog (cluster : Cluster n) (leaderId : Fin n) (command : String) :
    List LogEntry :=
  (cluster.nodes leaderId).log ++ [cluster.newEntry leaderId command]

/-- The nodes that were alive have the committed log, a log with an entry of a
later term continues it, and so do the logs of the leaders of later terms. -/
structure Durable (world : RaftWorld n) (cluster : Cluster n)
    (leaderId : Fin n) (command : String) : Prop where
  holders : ∀ id, id ∈ cluster.aliveNodes →
    commitLog cluster leaderId command <+: (world.state.nodes id).log
  laterEntries : ∀ id entry,
    entry ∈ (world.state.nodes id).log →
    (cluster.nodes leaderId).currentTerm < entry.term →
    commitLog cluster leaderId command <+: (world.state.nodes id).log
  laterLeaders : ∀ later id,
    world.Visited later →
    (later.nodes id).role = .leader →
    (cluster.nodes leaderId).currentTerm < (later.nodes id).currentTerm →
    commitLog cluster leaderId command <+: (later.nodes id).log

section Steps

variable {source : RaftWorld n} {target : Cluster n} {label : RaftLabel n}
variable {cluster : Cluster n} {leaderId id voter : Fin n} {command : String}

/-- A vote of a node that has the committed log goes to nodes that have it. -/
theorem candidate_holds {newTerm : Nat}
    (reachable : (raft n).Reachable Synchronised source)
    (visited : source.Visited cluster)
    (leads : (cluster.nodes leaderId).role = .leader)
    (leaderAlive : leaderId ∈ cluster.aliveNodes)
    (durable : Durable source cluster leaderId command)
    (isHolder : voter ∈ cluster.aliveNodes)
    (grants : source.state.Grants id newTerm voter) :
    commitLog cluster leaderId command <+: (source.state.nodes id).log := by
  have voterHolds := durable.holders voter isHolder
  have leaderHolds := durable.holders leaderId leaderAlive
  have voterLast :
      (cluster.nodes leaderId).currentTerm ≤
        lastTerm (source.state.nodes voter).log := by
    refine (termsOrdered reachable voter).le_lastTerm
      (voterHolds.subset (?_ : cluster.newEntry leaderId command ∈ _))
    simp [commitLog]
  have voterLength := voterHolds.length_le
  have committedLength :
      0 < (commitLog cluster leaderId command).length := by
    simp [commitLog]
  have upToDate :
      lastTerm (source.state.nodes voter).log <
          lastTerm (source.state.nodes id).log ∨
        lastTerm (source.state.nodes id).log =
            lastTerm (source.state.nodes voter).log ∧
          (source.state.nodes voter).log.length ≤
            (source.state.nodes id).log.length := by
    have ok := grants.2.2
    simpa [logOk] using ok
  have populated : (source.state.nodes id).log ≠ [] := by
    intro empty
    rw [empty] at upToDate
    simp only [lastTerm, List.getLast?_nil, Option.map_none,
      Option.getD_none, List.length_nil] at upToDate
    omega
  obtain ⟨entry, atLast, isLast⟩ := exists_last populated
  by_cases later : (cluster.nodes leaderId).currentTerm < entry.term
  · exact durable.laterEntries id entry (List.mem_of_getElem? atLast) later
  · -- the candidate's last entry is from the term of the commit, so its log is
    -- a part of that leader's, and no shorter than the committed one
    have sameTerm : entry.term = (cluster.nodes leaderId).currentTerm := by
      omega
    have ofLeader :=
      leadersHoldTheirTerms (reachable.mono fun _ _ => Synchronised.inStep)
        cluster leaderId id _ entry visited leads atLast sameTerm
    have whole :
        (source.state.nodes id).log.length - 1 + 1 =
          (source.state.nodes id).log.length := by
      have positive := List.length_pos_of_ne_nil populated
      omega
    rw [whole, List.take_length] at ofLeader
    exact List.prefix_of_prefix_length_le leaderHolds ofLeader (by omega)

/-- A step keeps what an earlier request has left behind. -/
theorem Durable.step (reachable : (raft n).Reachable Synchronised source)
    (admitted : Synchronised source.state label)
    (moves : Moves source.state label target)
    (visited : source.Visited cluster)
    (found : cluster.leader = some leaderId)
    (majority : Majority cluster.aliveNodes)
    (durable : Durable source cluster leaderId command) :
    Durable (source.push label target) cluster leaderId command where
  holders := by
    intro id isHolder
    exact (durable.holders id isHolder).trans (moves.log_extends id)
  laterEntries := by
    intro id entry member later
    have old : entry ∈ (source.state.nodes id).log →
        commitLog cluster leaderId command <+: (target.nodes id).log :=
      fun inOld =>
        (durable.laterEntries id entry inOld later).trans (moves.log_extends id)
    rcases moves.replicated_or_kept with
      ⟨nowLeader, request, rfl, foundNow, rfl⟩ | kept
    · cases alive : (source.state.nodes id).alive with
      | false =>
          rw [World.push_state, replicate_of_not_alive alive] at member
          exact old member
      | true =>
          rw [World.push_state, replicate_of_alive alive, List.mem_append,
            List.mem_singleton] at member
          rcases member with inOld | rfl
          · exact old inOld
          · have same := (admitted nowLeader foundNow).1
            have leaderHolds :=
              durable.laterLeaders source.state nowLeader
                source.visited_current (leader_spec foundNow).1 later
            rw [← same id alive] at leaderHolds
            exact leaderHolds.trans (moves.log_extends id)
    · rw [World.push_state, (kept id).1] at member
      exact old member
  laterLeaders := by
    intro later id visitedLater leads laterTerm
    obtain ⟨leaderLeads, leaderAlive⟩ := leader_spec found
    rcases World.visited_push.mp visitedLater with rfl | visitedBefore
    · rcases leader_after moves leads with
        ⟨led, keptTerm⟩ | ⟨_, _, _, supported, _⟩
      · rw [keptTerm] at laterTerm
        exact (durable.laterLeaders source.state id source.visited_current led
          laterTerm).trans (moves.log_extends id)
      · obtain ⟨voter, supports, isHolder⟩ := supported.meet majority
        refine List.IsPrefix.trans ?_ (moves.log_extends id)
        rcases mem_supporters.mp supports with rfl | grants
        · exact durable.holders voter isHolder
        · exact candidate_holds reachable visited leaderLeads
            (mem_aliveNodes.mpr leaderAlive) durable isHolder grants
    · exact durable.laterLeaders later id visitedBefore leads laterTerm

/-- An accepted request leaves its log behind. -/
theorem durable_of_request (reachable : (raft n).Reachable Synchronised source)
    (admitted : Synchronised source.state (.clientRequest command))
    (found : source.state.leader = some leaderId)
    (majority : Majority source.state.aliveNodes) :
    Durable
      (source.push (.clientRequest command)
        (source.state.replicate leaderId command))
      source.state leaderId command := by
  obtain ⟨same, bounded, _⟩ := admitted leaderId found
  have holders : ∀ id, id ∈ source.state.aliveNodes →
      ((source.state.replicate leaderId command).nodes id).log =
        commitLog source.state leaderId command :=
    fun id isAlive =>
      replicate_of_sameLogs same (mem_aliveNodes.mp isAlive)
  refine ⟨?_, ?_, ?_⟩
  · intro id isAlive
    rw [World.push_state, holders id isAlive]
  · intro id entry member later
    cases alive : (source.state.nodes id).alive with
    | true =>
        rw [World.push_state, holders id (mem_aliveNodes.mpr alive)]
    | false =>
        rw [World.push_state, replicate_of_not_alive alive] at member
        obtain ⟨atEntry, creator, visited, leads, inTerm⟩ :=
          entry_led reachable id entry member
        have notLater :=
          leader_term_le reachable majority bounded visited leads
        omega
  · intro later id visited leads laterTerm
    have notLater :
        (later.nodes id).currentTerm ≤
          (source.state.nodes leaderId).currentTerm := by
      rcases World.visited_push.mp visited with rfl | visitedBefore
      · rw [replicate_role] at leads
        rw [replicate_currentTerm]
        exact leader_term_le reachable majority bounded source.visited_current
          leads
      · exact leader_term_le reachable majority bounded visitedBefore leads
    omega

end Steps

theorem durable_of_accepted {world : RaftWorld n}
    (reachable : (raft n).Reachable Synchronised world) :
    ∀ cluster command leaderId,
      (cluster, RaftLabel.clientRequest command) ∈ world.trace →
      cluster.leader = some leaderId →
      Majority cluster.aliveNodes →
      Durable world cluster leaderId command := by
  induction reachable with
  | start _ =>
      intro cluster command leaderId recorded
      cases recorded
  | @next source target label reached step inductionHypothesis =>
      intro cluster command leaderId recorded found majority
      have moves := moves_of_exec step.2.1
      rw [step.2.2] at recorded ⊢
      rcases List.mem_cons.mp recorded with isLast | isEarlier
      · cases isLast
        have replicated :
            target.state = source.state.replicate leaderId command := by
          have executed := step.2.1
          simp only [raft, exec, clientRequest_eq found, Option.some.injEq]
            at executed
          exact executed.symm
        rw [replicated]
        exact durable_of_request reached step.1 found majority
      · have visited : source.Visited cluster := Or.inr ⟨_, isEarlier⟩
        exact (inductionHypothesis cluster command leaderId isEarlier found
          majority).step reached step.1 moves visited found majority

/-- Once a request has been accepted, every leader of a later term has its entry at
its index. -/
def LeaderCompleteness (world : RaftWorld n) : Prop :=
  ∀ cluster command leaderId,
    (cluster, RaftLabel.clientRequest command) ∈ world.trace →
    cluster.leader = some leaderId →
    (cluster.clientRequest command).2 = true →
    ∀ later id,
      world.Visited later →
      (later.nodes id).role = .leader →
      (cluster.nodes leaderId).currentTerm < (later.nodes id).currentTerm →
      (later.nodes id).log[(cluster.nodes leaderId).log.length]? =
        some (cluster.newEntry leaderId command)

/-- Leaders are complete in every state that is reached by synchronised
requests. -/
theorem leaders_complete {world : RaftWorld n}
    (reachable : (raft n).Reachable Synchronised world) :
    LeaderCompleteness world := by
  intro cluster command leaderId recorded found accepted later id visited leads
    laterTerm
  rw [clientRequest_eq found] at accepted
  have durable :=
    durable_of_accepted reachable cluster command leaderId recorded found
      (of_decide_eq_true accepted)
  obtain ⟨rest, continued⟩ :=
    durable.laterLeaders later id visited leads laterTerm
  rw [← continued, commitLog]
  simp

/-- The leader of term 2 has the entry that was accepted in term 1. -/
theorem leaders_complete_next_leader :
    ∃ world : RaftWorld 3,
      (world.state.nodes 1).role = .leader ∧
        (world.state.nodes 1).currentTerm = 2 ∧
        LeaderCompleteness world := by
  obtain ⟨world, reachable, checked⟩ :=
    System.exists_reachable_of_replay (raft 3) Synchronised (Cluster.new 3)
      [.runElection 0, .clientRequest "SET x=1", .crash 0, .runElection 1,
        .clientRequest "SET y=2"]
      (fun cluster label => decide (Synchronised cluster label))
      (fun world =>
        decide ((world.state.nodes 1).role = .leader ∧
          (world.state.nodes 1).currentTerm = 2))
      rfl (fun _ _ admitted => of_decide_eq_true admitted)
      (by decide +kernel)
  obtain ⟨leads, inTerm⟩ := of_decide_eq_true checked
  exact ⟨world, leads, inTerm, leaders_complete reachable⟩

/-- An entry is accepted with followers that have missed the one before, and the
next leader has nothing at its index. -/
theorem accepted_entry_missing_at_next_leader :
    ¬ ∀ (n : Nat) (world : RaftWorld n),
      1 ≤ n → Run world → LeaderCompleteness world := by
  intro complete
  obtain ⟨world, reachable, checked⟩ :=
    System.exists_reachable_of_replay (raft 3) (fun _ _ => True)
      (Cluster.new 3)
      [.runElection 0, .crash 1, .crash 2, .clientRequest "SET x=1",
        .recover 1, .recover 2, .clientRequest "SET y=2", .crash 0,
        .runElection 1]
      (fun _ _ => true)
      (fun world =>
        (world.trace[2]?.any fun step : Cluster 3 × RaftLabel 3 =>
          decide (step.2 = .clientRequest "SET y=2" ∧
            step.1.leader = some 0 ∧
            (step.1.clientRequest "SET y=2").2 = true ∧
            (step.1.nodes 0).currentTerm = 1 ∧
            (step.1.nodes 0).log.length = 1)) &&
        decide ((world.state.nodes 1).role = .leader ∧
          (world.state.nodes 1).currentTerm = 2 ∧
          (world.state.nodes 1).log.length = 1))
      rfl (fun _ _ _ => trivial) (by decide +kernel)
  rw [Bool.and_eq_true, Option.any_eq_true] at checked
  obtain ⟨⟨⟨cluster, label⟩, atIndex, atStep⟩, atEnd⟩ := checked
  obtain ⟨rfl, found, accepted, inTerm, index⟩ := of_decide_eq_true atStep
  obtain ⟨leads, laterTerm, length⟩ := of_decide_eq_true atEnd
  have earlier :
      (cluster.nodes 0).currentTerm < (world.state.nodes 1).currentTerm := by
    rw [laterTerm]
    exact lt_of_eq_of_lt inTerm (by decide)
  have held := complete 3 world (by decide) reachable cluster "SET y=2" 0
    (List.mem_of_getElem? atIndex) found accepted world.state 1
    world.visited_current leads earlier
  rw [show (cluster.nodes 0).log.length = 1 from index, List.getElem?_eq_none (by omega)] at held
  cases held

end HautePerformance.Demos.Raft
