import HautePerformance.Library.CheckedInteger
import HautePerformance.Library.Majority
import HautePerformance.Library.Transition
import HautePerformance.Library.Visits

/-!
# The Raft demo

`demo_3_3c_raft.rs`: the nodes of a cluster in one memory, elections and client
requests as calls that run to their end, crashes and recoveries as assignments to
`alive`.  A node carries its `id` in its type, so `nodes[i]` is the node of id `i`.
-/

namespace HautePerformance.Demos.Raft

open Library

inductive Role where
  | follower
  | candidate
  | leader
  deriving DecidableEq, Repr

structure LogEntry where
  term : Nat
  command : String
  deriving DecidableEq, Repr

/-- A node; its `usize` fields and its `u64` term are numbers. -/
structure Node {n : Nat} (id : Fin n) where
  role : Role
  currentTerm : Nat
  votedFor : Option (Fin n)
  log : List LogEntry
  commitIndex : Nat
  alive : Bool

variable {n : Nat}

def Node.new (id : Fin n) : Node id :=
  { role := .follower
    currentTerm := 0
    votedFor := none
    log := []
    commitIndex := 0
    alive := true }

/-- `log.last().map(|e| e.term).unwrap_or(0)`. -/
def lastTerm (log : List LogEntry) : Nat :=
  (log.getLast?.map LogEntry.term).getD 0

@[ext]
structure Cluster (n : Nat) where
  nodes : (id : Fin n) → Node id

namespace Cluster

def new (n : Nat) : Cluster n :=
  { nodes := Node.new }

def quorum (_self : Cluster n) : Nat :=
  n / 2 + 1

/-- `(0..self.nodes.len()).filter(|&i| i != id)`. -/
def otherIds (id : Fin n) : List (Fin n) :=
  (List.finRange n).filter (· ≠ id)

/-! ## Leader election -/

/-- The candidate's log is at least as up to date as the voter's. -/
def logOk (lastLogTerm lastLogLen : Nat) (voterLog : List LogEntry) : Bool :=
  decide (lastLogTerm > lastTerm voterLog) ||
    (lastLogTerm == lastTerm voterLog &&
      decide (lastLogLen ≥ voterLog.length))

/-- What a voter makes of a request for its vote, and whether it grants it. -/
def requestVote (candidateId : Fin n) (newTerm lastLogTerm lastLogLen : Nat)
    (voterId : Fin n) (voter : Node voterId) : Node voterId × Bool :=
  if !voter.alive then
    (voter, false)
  else if newTerm > voter.currentTerm &&
      logOk lastLogTerm lastLogLen voter.log then
    ({ voter with
        currentTerm := newTerm
        votedFor := some candidateId
        role := .follower }, true)
  else
    (voter, false)

/-- The candidate moves to the new term and votes for itself. -/
def stand (self : Cluster n) (candidateId : Fin n) (newTerm : Nat) :
    Cluster n :=
  { nodes := Function.update self.nodes candidateId
      { self.nodes candidateId with
        currentTerm := newTerm
        role := .candidate
        votedFor := some candidateId } }

/-- The votes of all other nodes, and the cluster after they have been asked. -/
def requestVotes (self : Cluster n) (candidateId : Fin n) (newTerm : Nat) :
    Cluster n × Nat :=
  let lastLogTerm := lastTerm (self.nodes candidateId).log
  let lastLogLen := (self.nodes candidateId).log.length
  let (nodes, votes) :=
    visitAll (requestVote candidateId newTerm lastLogTerm lastLogLen)
      (otherIds candidateId) (self.nodes, 1)
  ({ nodes := nodes }, votes)

/-- The candidate leads and the others that are alive follow. -/
def becomeLeader (self : Cluster n) (candidateId : Fin n) : Cluster n where
  nodes id :=
    if id = candidateId then
      { self.nodes id with role := .leader }
    else if (self.nodes id).alive then
      { self.nodes id with role := .follower }
    else
      self.nodes id

/-- The candidate has failed. -/
def becomeFollower (self : Cluster n) (candidateId : Fin n) : Cluster n :=
  { nodes := Function.update self.nodes candidateId
      { self.nodes candidateId with role := .follower } }

/-- `run_election`; there is no result when the term overflows. -/
def runElection (self : Cluster n) (candidateId : Fin n) :
    Option (Cluster n × Bool) :=
  if !(self.nodes candidateId).alive then
    some (self, false)
  else
    (checkedAdd (self.nodes candidateId).currentTerm 1).map fun newTerm =>
      let (polled, votes) :=
        (self.stand candidateId newTerm).requestVotes candidateId newTerm
      if votes ≥ self.quorum then
        (polled.becomeLeader candidateId, true)
      else
        (polled.becomeFollower candidateId, false)

/-- The first node that is alive and takes itself for the leader. -/
def leader (self : Cluster n) : Option (Fin n) :=
  (List.finRange n).find? fun id =>
    (self.nodes id).role == .leader && (self.nodes id).alive

/-! ## Log replication -/

/-- What a follower makes of an entry, and whether it has taken it. -/
def appendEntry (entry : LogEntry) (fid : Fin n) (follower : Node fid) :
    Node fid × Bool :=
  if !follower.alive then
    (follower, false)
  else
    ({ follower with log := follower.log ++ [entry] }, true)

/-- The leader adds an entry to its log. -/
def pushEntry (self : Cluster n) (leaderId : Fin n) (entry : LogEntry) :
    Cluster n :=
  { nodes := Function.update self.nodes leaderId
      { self.nodes leaderId with
        log := (self.nodes leaderId).log ++ [entry] } }

/-- The entry is sent to all other nodes. -/
def appendEntries (self : Cluster n) (leaderId : Fin n) (entry : LogEntry) :
    Cluster n × Nat :=
  let (nodes, replicated) :=
    visitAll (appendEntry entry) (otherIds leaderId) (self.nodes, 1)
  ({ nodes := nodes }, replicated)

/-- The nodes that are alive and have a log of this length move their commit index
up to it. -/
def commit (self : Cluster n) (targetIndex : Nat) : Cluster n where
  nodes id :=
    if (self.nodes id).alive ∧ (self.nodes id).log.length ≥ targetIndex then
      { self.nodes id with
        commitIndex := max (self.nodes id).commitIndex targetIndex }
    else
      self.nodes id

/-- `client_request`. -/
def clientRequest (self : Cluster n) (command : String) : Cluster n × Bool :=
  match self.leader with
  | none => (self, false)
  | some leaderId =>
      let term := (self.nodes leaderId).currentTerm
      let entry : LogEntry := { term := term, command := command }
      let pushed := self.pushEntry leaderId entry
      let targetIndex := (pushed.nodes leaderId).log.length
      let (appended, replicated) := pushed.appendEntries leaderId entry
      if replicated ≥ self.quorum then
        (appended.commit targetIndex, true)
      else
        (appended, false)

/-! ## Crashes and recoveries -/

/-- `self.nodes[id].alive = alive`. -/
def setAlive (self : Cluster n) (id : Fin n) (alive : Bool) : Cluster n :=
  { nodes := Function.update self.nodes id
      { self.nodes id with alive := alive } }

end Cluster

inductive RaftLabel (n : Nat) where
  | runElection (candidateId : Fin n)
  | clientRequest (command : String)
  | crash (id : Fin n)
  | recover (id : Fin n)
  deriving DecidableEq

def exec (self : Cluster n) : RaftLabel n → Option (Cluster n)
  | .runElection candidateId => (self.runElection candidateId).map Prod.fst
  | .clientRequest command => some (self.clientRequest command).1
  | .crash id => some (self.setAlive id false)
  | .recover id => some (self.setAlive id true)

/-- The runs from `Cluster::new(n)`. -/
def raft (n : Nat) : System (Cluster n) (RaftLabel n) where
  init cluster := cluster = Cluster.new n
  exec := exec

abbrev RaftWorld (n : Nat) := World (Cluster n) (RaftLabel n)

end HautePerformance.Demos.Raft
