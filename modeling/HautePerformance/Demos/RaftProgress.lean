import Mathlib.Data.Finset.Max
import Mathlib.Data.Prod.Lex
import HautePerformance.Demos.RaftSteps

/-!
# When the Raft demo can go on

A node that stands again and again wins in the end if and only if it is alive and a
majority has no better log: what stops it otherwise is never the terms, which it
catches up with, one at each election that it loses.  Among the nodes that are alive
there is always one whose log no other betters, so that a request can be served if
and only if a majority is alive.
-/

namespace HautePerformance.Demos.Raft

open Library

variable {n : Nat}

namespace Cluster

variable {self after : Cluster n} {candidateId id : Fin n} {newTerm count : Nat}

/-- Elections one after the other; there is no result when a term overflows. -/
def runElections (self : Cluster n) (candidates : List (Fin n)) :
    Option (Cluster n) :=
  candidates.foldlM
    (fun cluster candidateId => (cluster.runElection candidateId).map Prod.fst) self

/-- The candidate, and the nodes that are alive and would have voted for it in a term
that is new to them. -/
def electors (self : Cluster n) (candidateId : Fin n) : Finset (Fin n) :=
  Finset.univ.filter fun id =>
    id = candidateId ∨
      (self.nodes id).alive = true ∧
        logOk (lastTerm (self.nodes candidateId).log)
          (self.nodes candidateId).log.length (self.nodes id).log = true

theorem mem_electors :
    id ∈ self.electors candidateId ↔
      id = candidateId ∨
        (self.nodes id).alive = true ∧
          logOk (lastTerm (self.nodes candidateId).log)
            (self.nodes candidateId).log.length (self.nodes id).log = true := by
  simp [electors]

theorem supporters_subset :
    self.supporters candidateId newTerm ⊆ self.electors candidateId := by
  intro id supports
  rcases mem_supporters.mp supports with isCandidate | grants
  · exact mem_electors.mpr (Or.inl isCandidate)
  · exact mem_electors.mpr (Or.inr ⟨grants.1, grants.2.2⟩)

/-- In a term that is new to everybody all of them vote. -/
theorem electors_subset
    (isNew : ∀ id, (self.nodes id).alive = true →
      (self.nodes id).currentTerm < newTerm) :
    self.electors candidateId ⊆ self.supporters candidateId newTerm := by
  intro id elects
  rcases mem_electors.mp elects with isCandidate | ⟨alive, better⟩
  · exact mem_supporters.mpr (Or.inl isCandidate)
  · exact mem_supporters.mpr (Or.inr ⟨alive, isNew id alive, better⟩)

/-! ## Standing again -/

/-- What stays and what moves while one candidate stands so many times. -/
structure Stood (before after : Cluster n) (candidateId : Fin n) (count : Nat) :
    Prop where
  log : ∀ id, (after.nodes id).log = (before.nodes id).log
  alive : ∀ id, (after.nodes id).alive = (before.nodes id).alive
  term :
    (after.nodes candidateId).currentTerm =
      (before.nodes candidateId).currentTerm + count
  others : ∀ id,
    (after.nodes id).currentTerm ≤
      max (before.nodes id).currentTerm
        ((before.nodes candidateId).currentTerm + count)

theorem Stood.zero (self : Cluster n) (candidateId : Fin n) :
    Stood self self candidateId 0 where
  log _ := rfl
  alive _ := rfl
  term := rfl
  others _ := le_max_left _ _

theorem Stood.electors_eq (stood : Stood self after candidateId count) :
    after.electors candidateId = self.electors candidateId := by
  ext id
  rw [mem_electors, mem_electors, stood.alive, stood.log, stood.log]

/-- One election more. -/
theorem Stood.outcome (stood : Stood self after candidateId count) (won : Bool) :
    Stood self
      (after.outcome candidateId ((after.nodes candidateId).currentTerm + 1) won)
      candidateId (count + 1) where
  log id := by rw [outcome_log, stood.log]
  alive id := by rw [outcome_alive, stood.alive]
  term := by
    rw [(outcome_supporter (mem_supporters.mpr (Or.inl rfl))).1, stood.term,
      Nat.add_assoc]
  others id := by
    have before := stood.others id
    by_cases supports :
        id ∈ after.supporters candidateId
          ((after.nodes candidateId).currentTerm + 1)
    · rw [(outcome_supporter supports).1, stood.term, Nat.add_assoc]
      exact le_max_right _ _
    · rw [(outcome_other supports).1]
      omega

/-- An election of a candidate that is alive, when its term has room. -/
theorem runElection_of_room (alive : (self.nodes candidateId).alive = true)
    (room : (self.nodes candidateId).currentTerm + 1 < u64Bound) :
    self.runElection candidateId =
      some
        (self.outcome candidateId ((self.nodes candidateId).currentTerm + 1)
            (decide (Majority (self.supporters candidateId
              ((self.nodes candidateId).currentTerm + 1)))),
          decide (Majority (self.supporters candidateId
            ((self.nodes candidateId).currentTerm + 1)))) :=
  runElection_eq alive (checkedAdd_eq_some.mpr ⟨room, rfl⟩)

/-- An election that has taken place is such an election. -/
theorem of_runElection (alive : (self.nodes candidateId).alive = true) {won : Bool}
    (ran : self.runElection candidateId = some (after, won)) :
    (won = true ↔
        Majority (self.supporters candidateId
          ((self.nodes candidateId).currentTerm + 1))) ∧
      after =
        self.outcome candidateId ((self.nodes candidateId).currentTerm + 1) won := by
  by_cases room : (self.nodes candidateId).currentTerm + 1 < u64Bound
  · rw [runElection_of_room alive room] at ran
    cases ran
    exact ⟨decide_eq_true_iff, rfl⟩
  · simp [runElection, alive, checkedAdd, room] at ran

theorem runElections_concat (self : Cluster n) (candidates : List (Fin n))
    (candidateId : Fin n) :
    self.runElections (candidates ++ [candidateId]) =
      (self.runElections candidates).bind fun cluster =>
        (cluster.runElection candidateId).map Prod.fst := by
  rw [runElections, List.foldlM_append, ← runElections]
  cases self.runElections candidates with
  | none => rfl
  | some cluster =>
      cases ran : cluster.runElection candidateId with
      | none => simp [ran]
      | some result => simp [ran]

/-- A candidate that is alive can stand as long as its term has room. -/
theorem exists_runElections (alive : (self.nodes candidateId).alive = true)
    (room : (self.nodes candidateId).currentTerm + count < u64Bound) :
    ∃ after,
      self.runElections (List.replicate count candidateId) = some after ∧
        Stood self after candidateId count := by
  induction count with
  | zero => exact ⟨self, rfl, .zero self candidateId⟩
  | succ count inductionHypothesis =>
      obtain ⟨before, ran, stood⟩ := inductionHypothesis (by omega)
      have stillAlive : (before.nodes candidateId).alive = true :=
        (stood.alive candidateId).trans alive
      have term := stood.term
      have election := runElection_of_room stillAlive (by omega)
      refine ⟨_, ?_, stood.outcome (decide (Majority (before.supporters candidateId
        ((before.nodes candidateId).currentTerm + 1))))⟩
      rw [List.replicate_succ', runElections_concat, ran, Option.bind_some, election]
      rfl

/-- So many elections of one candidate that is alive. -/
theorem stood_of_runElections (alive : (self.nodes candidateId).alive = true)
    (ran : self.runElections (List.replicate count candidateId) = some after) :
    Stood self after candidateId count := by
  induction count generalizing after with
  | zero =>
      cases ran
      exact .zero self candidateId
  | succ count inductionHypothesis =>
      rw [List.replicate_succ', runElections_concat] at ran
      obtain ⟨before, ranBefore, last⟩ := Option.bind_eq_some_iff.mp ran
      obtain ⟨⟨target, won⟩, election, rfl⟩ := Option.map_eq_some_iff.mp last
      have stood := inductionHypothesis ranBefore
      have stillAlive : (before.nodes candidateId).alive = true :=
        (stood.alive candidateId).trans alive
      rw [(of_runElection stillAlive election).2]
      exact stood.outcome won

/-! ## Who can be elected -/

/-- The candidate wins an election, after it has perhaps lost others. -/
def Electable (self : Cluster n) (candidateId : Fin n) : Prop :=
  ∃ count before after,
    self.runElections (List.replicate count candidateId) = some before ∧
      before.runElection candidateId = some (after, true)

/-- The terms of the nodes that are alive have room for one more. -/
def HasRoom (self : Cluster n) : Prop :=
  ∀ id, (self.nodes id).alive = true → (self.nodes id).currentTerm + 1 < u64Bound

instance : Decidable self.HasRoom :=
  inferInstanceAs (Decidable (∀ _, _ → _))

/-- A candidate catches up with all terms by losing elections. -/
theorem exists_newTerm (room : self.HasRoom)
    (alive : (self.nodes candidateId).alive = true) :
    ∃ count,
      (self.nodes candidateId).currentTerm + count + 1 < u64Bound ∧
        ∀ id, (self.nodes id).alive = true →
          (self.nodes id).currentTerm ≤
            (self.nodes candidateId).currentTerm + count := by
  obtain ⟨highest, isAlive, isHighest⟩ :=
    self.aliveNodes.exists_max_image (fun id => (self.nodes id).currentTerm)
      ⟨candidateId, mem_aliveNodes.mpr alive⟩
  have bounded := room highest (mem_aliveNodes.mp isAlive)
  have reached := isHighest candidateId (mem_aliveNodes.mpr alive)
  refine ⟨(self.nodes highest).currentTerm - (self.nodes candidateId).currentTerm,
    by omega, fun id idAlive => ?_⟩
  have below := isHighest id (mem_aliveNodes.mpr idAlive)
  omega

theorem electable_of_majority (room : self.HasRoom)
    (alive : (self.nodes candidateId).alive = true)
    (majority : Majority (self.electors candidateId)) :
    self.Electable candidateId := by
  obtain ⟨count, bounded, caughtUp⟩ := exists_newTerm room alive
  obtain ⟨before, ran, stood⟩ := exists_runElections alive (Nat.lt_of_succ_lt bounded)
  have stillAlive : (before.nodes candidateId).alive = true :=
    (stood.alive candidateId).trans alive
  have term := stood.term
  have election := runElection_of_room stillAlive (by omega)
  have isNew (id : Fin n) (idAlive : (before.nodes id).alive = true) :
      (before.nodes id).currentTerm < (before.nodes candidateId).currentTerm + 1 := by
    have others := stood.others id
    have below := caughtUp id ((stood.alive id).symm.trans idAlive)
    omega
  have wins :
      Majority (before.supporters candidateId
        ((before.nodes candidateId).currentTerm + 1)) :=
    (stood.electors_eq ▸ majority).mono (electors_subset isNew)
  rw [decide_eq_true wins] at election
  exact ⟨count, before, _, ran, election⟩

theorem majority_of_electable (alive : (self.nodes candidateId).alive = true)
    (electable : self.Electable candidateId) :
    Majority (self.electors candidateId) := by
  obtain ⟨count, before, after, ran, won⟩ := electable
  have stood := stood_of_runElections alive ran
  have stillAlive : (before.nodes candidateId).alive = true :=
    (stood.alive candidateId).trans alive
  have supported := (of_runElection stillAlive won).1.mp rfl
  rw [← stood.electors_eq]
  exact supported.mono supporters_subset

/-- A node wins if it stands often enough, exactly when it is alive and a majority
of the cluster, itself included, is alive with logs no better than its own. -/
theorem electable_iff (room : self.HasRoom) (candidateId : Fin n) :
    self.Electable candidateId ↔
      (self.nodes candidateId).alive = true ∧
        Majority (self.electors candidateId) := by
  by_cases alive : (self.nodes candidateId).alive = true
  · rw [and_iff_right alive]
    exact ⟨majority_of_electable alive, electable_of_majority room alive⟩
  · have down (cluster : Cluster n)
        (same : (cluster.nodes candidateId).alive = (self.nodes candidateId).alive) :
        cluster.runElection candidateId = some (cluster, false) := by
      simp [runElection, same, alive]
    have stays (count : Nat) :
        self.runElections (List.replicate count candidateId) = some self := by
      induction count with
      | zero => rfl
      | succ count inductionHypothesis =>
          rw [List.replicate_succ', runElections_concat, inductionHypothesis,
            Option.bind_some, down self rfl]
          rfl
    refine ⟨?_, fun impossible => absurd impossible.1 alive⟩
    rintro ⟨count, before, after, ran, won⟩
    rw [stays, Option.some.injEq] at ran
    rw [← ran, down self rfl] at won
    cases won

/-! ## When requests can be served -/

/-- Elections do not change who is alive. -/
theorem aliveNodes_of_runElections {candidates : List (Fin n)}
    (ran : self.runElections candidates = some after) :
    after.aliveNodes = self.aliveNodes := by
  induction candidates using List.reverseRecOn generalizing after with
  | nil =>
      cases ran
      rfl
  | append_singleton candidates candidateId inductionHypothesis =>
      rw [runElections_concat] at ran
      obtain ⟨before, ranBefore, last⟩ := Option.bind_eq_some_iff.mp ran
      obtain ⟨⟨target, won⟩, election, rfl⟩ := Option.map_eq_some_iff.mp last
      rw [← inductionHypothesis ranBefore]
      by_cases alive : (before.nodes candidateId).alive = true
      · rw [(of_runElection alive election).2]
        ext id
        rw [mem_aliveNodes, mem_aliveNodes, outcome_alive]
      · simp only [runElection, alive, Bool.not_false, if_true, Option.some.injEq,
          Prod.mk.injEq] at election
        rw [election.1]

/-- The winner is the only node alive that takes itself for the leader. -/
theorem leader_outcome (alive : (self.nodes candidateId).alive = true) :
    (self.outcome candidateId newTerm true).leader = some candidateId := by
  have leads :
      ((self.outcome candidateId newTerm true).nodes candidateId).role = .leader := by
    simp [outcome]
  cases found : (self.outcome candidateId newTerm true).leader with
  | none =>
      have nobody := List.find?_eq_none.mp found candidateId (List.mem_finRange _)
      simp [leads, alive] at nobody
  | some leaderId =>
      obtain ⟨isLeader, isAlive⟩ := leader_spec found
      rw [outcome_alive] at isAlive
      rcases outcome_leader isLeader with ⟨same, _⟩ | ⟨_, _, steppedDown⟩
      · rw [same]
      · cases steppedDown isAlive

/-- Of two logs one is at least as up to date as the other. -/
theorem logOk_iff {log other : List LogEntry} :
    logOk (lastTerm log) log.length other = true ↔
      toLex (lastTerm other, other.length) ≤ toLex (lastTerm log, log.length) := by
  rw [Prod.Lex.toLex_le_toLex, logOk, Bool.or_eq_true, Bool.and_eq_true,
    decide_eq_true_iff, decide_eq_true_iff, beq_iff_eq,
    eq_comm (a := lastTerm log)]

/-- Some node that is alive has a log that no other node alive betters. -/
theorem exists_best (populated : self.aliveNodes.Nonempty) :
    ∃ id,
      (self.nodes id).alive = true ∧ self.aliveNodes ⊆ self.electors id := by
  obtain ⟨best, isAlive, isBest⟩ :=
    self.aliveNodes.exists_max_image
      (fun id => toLex (lastTerm (self.nodes id).log, (self.nodes id).log.length))
      populated
  refine ⟨best, mem_aliveNodes.mp isAlive, fun id idAlive => ?_⟩
  exact mem_electors.mpr
    (Or.inr ⟨mem_aliveNodes.mp idAlive, logOk_iff.mpr (isBest id idAlive)⟩)

/-- Some elections lead to a cluster that accepts the request. -/
def CanServe (self : Cluster n) (command : String) : Prop :=
  ∃ candidates after,
    self.runElections candidates = some after ∧
      (after.clientRequest command).2 = true

/-- In every state elections can lead to a leader that has the next request committed
if and only if a majority of the nodes is alive, whatever the logs and terms are and
whoever takes itself for the leader. -/
theorem canServe_iff (room : self.HasRoom) (command : String) :
    self.CanServe command ↔ Majority self.aliveNodes := by
  constructor
  · rintro ⟨candidates, after, ran, accepted⟩
    rw [← aliveNodes_of_runElections ran]
    cases found : after.leader with
    | none =>
        rw [clientRequest_of_no_leader found] at accepted
        cases accepted
    | some leaderId =>
        rw [clientRequest_eq found] at accepted
        exact of_decide_eq_true accepted
  · intro majority
    have populated : self.aliveNodes.Nonempty :=
      Finset.card_pos.mp (Nat.lt_of_lt_of_le (Nat.succ_pos _) majority)
    obtain ⟨best, alive, isBest⟩ := exists_best populated
    obtain ⟨count, before, after, ran, won⟩ :=
      electable_of_majority room alive (majority.mono isBest)
    have stood := stood_of_runElections alive ran
    have stillAlive : (before.nodes best).alive = true :=
      (stood.alive best).trans alive
    have ranToEnd :
        self.runElections (List.replicate count best ++ [best]) = some after := by
      rw [runElections_concat, ran, Option.bind_some, won]
      rfl
    refine ⟨_, after, ranToEnd, ?_⟩
    have leads : after.leader = some best := by
      rw [(of_runElection stillAlive won).2]
      exact leader_outcome stillAlive
    rw [clientRequest_eq leads]
    exact decide_eq_true (aliveNodes_of_runElections ranToEnd ▸ majority)

/-! ## A cluster of three -/

/-- The first node has led twice, and the second one is down. -/
def secondDown : Cluster 3 where
  nodes id :=
    { role := if id = 0 then .leader else .follower
      currentTerm := if id = 0 then 2 else 1
      votedFor := some 0
      log := if id = 0 then [⟨2, "a"⟩] else []
      commitIndex := 0
      alive := decide (id ≠ 1) }

theorem electable_iff_second_down :
    secondDown.Electable 0 ∧ ¬ secondDown.Electable 2 := by
  have room : secondDown.HasRoom := by decide
  exact ⟨(electable_iff room 0).mpr (by decide),
    fun electable => absurd ((electable_iff room 2).mp electable) (by decide)⟩

theorem canServe_iff_second_down :
    secondDown.CanServe "b" ∧ ¬ (secondDown.setAlive 2 false).CanServe "b" := by
  have room : secondDown.HasRoom := by decide
  have lessRoom : (secondDown.setAlive 2 false).HasRoom := by decide
  exact ⟨(canServe_iff room "b").mpr (by decide),
    fun serves => absurd ((canServe_iff lessRoom "b").mp serves) (by decide)⟩

end Cluster

end HautePerformance.Demos.Raft
