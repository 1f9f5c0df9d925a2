import Mathlib.Data.List.Induction
import HautePerformance.Library.PoolHistory
import HautePerformance.KvDistributed.MetricsPage
import HautePerformance.KvDistributed.PeerNames
import HautePerformance.KvDistributed.Protocol

/-!
# Heartbeats and health

The heartbeat loop of `main.rs` and `handle_health` of `metrics.rs`.  A round asks
every peer in turn, over the client of the pool or a new connection, and stores how
many have answered when it is done; requests for `/health` read that number at any
time.  Over the rounds, a peer is in the pool once it has answered.

A heartbeat takes any response for an answer.  Over a client of the pool it reads the
first response on the connection, which may be one that an earlier call has left.
-/

namespace HautePerformance.KvDistributed

open Library

/-- How the calls to a peer end in a round: the heartbeat of the pooled client, the
new connection, and the heartbeat over that one. -/
structure PeerAnswer where
  heartbeat : Except CallError Response
  connects : Bool
  greets : Except CallError Response

/-- `c.heartbeat(node_id).await.is_ok()`, whatever the response is. -/
def heartbeatOk (outcome : Except CallError Response) : Bool :=
  match KvClient.heartbeat outcome with
  | .ok _ => true
  | .error _ => false

/-- The answers of the peers, by their places. -/
abbrev Answers := Nat → PeerAnswer

structure HttpResponse where
  status : Nat
  contentType : String
  body : String
  deriving DecidableEq, Repr

/-- `handle_health`, after its two loads. -/
def healthResponse (minPeersAlive : UInt64) (nid : UInt32)
    (uptime alive total : UInt64) : HttpResponse :=
  let healthy := decide (minPeersAlive ≤ alive) || decide (total = 0)
  { status := if healthy then 200 else 503
    contentType := "application/json"
    body :=
      "\x7b\"status\":\"" ++ (if healthy then "ok" else "degraded") ++
        "\",\"node_id\":" ++ toString nid ++ ",\"uptime_s\":" ++ toString uptime ++
        ",\"peers_alive\":" ++ toString alive ++ ",\"peers_total\":" ++
        toString total ++ "\x7d" }

/-- `MetricsServer::new` sets `min_peers_alive`. -/
def minPeersAlive : UInt64 := 1

/-- What the tasks of a node share: the metrics, the pool of clients, each given by
the address that it is connected to, and the clock. -/
structure NodeTasks (Addr : Type) where
  metrics : NodeMetrics
  peers : AList fun _ : String => Addr
  now : Nat

/-- A round of the heartbeat loop, or a request for `/health`. -/
inductive NodeCall where
  | round (answers : Answers)
  | health

namespace NodeCall

abbrev Result : NodeCall → Type
  | .round _ => Unit
  | .health => HttpResponse

def isRound : NodeCall → Bool
  | .round _ => true
  | .health => false

/-- Where a task is; a round has the number of peers that have answered so far, and
the peer that it is connecting to. -/
inductive Position (Addr : Type) : NodeCall → Type where
  | look {answers} (i : Nat) (alive : UInt64) : Position Addr (.round answers)
  | connect {answers} (i : Nat) (name : String) (addr : Addr) (alive : UInt64) :
      Position Addr (.round answers)
  | greet {answers} (i : Nat) (name : String) (addr : Addr) (alive : UInt64) :
      Position Addr (.round answers)
  | insert {answers} (i : Nat) (name : String) (addr : Addr) (alive : UInt64) :
      Position Addr (.round answers)
  | uptime : Position Addr .health
  | loadAlive (uptimeS : UInt64) : Position Addr .health
  | loadTotal (uptimeS alive : UInt64) : Position Addr .health

variable {Addr : Type}

/-- The first position of a call. -/
def enter : (call : NodeCall) → Position Addr call
  | .round _ => .look 0 0
  | .health => .uptime

/-- One step of a task.  The pool is locked from the lookup of a client to the end
of its heartbeat. -/
def step (pairs : List (String × Addr)) {call : NodeCall} (node : NodeTasks Addr)
    (position : Position Addr call) :
    NodeTasks Addr × Next (Position Addr call) call.Result :=
  match call, position with
  | .round answers, .look i alive =>
      match pairs[i]? with
      | none =>
          ({ node with metrics := { node.metrics with peersAlive := alive } },
            .finish ())
      | some (name, addr) =>
          if (node.peers.lookup name).isSome && heartbeatOk (answers i).heartbeat then
            (node, .goOn (.look (i + 1) (alive + 1)))
          else (node, .goOn (.connect i name addr alive))
  | .round answers, .connect i name addr alive =>
      if (answers i).connects then (node, .goOn (.greet i name addr alive))
      else (node, .goOn (.look (i + 1) alive))
  | .round answers, .greet i name addr alive =>
      if heartbeatOk (answers i).greets then
        (node, .goOn (.insert i name addr alive))
      else (node, .goOn (.look (i + 1) alive))
  | .round _, .insert i name addr alive =>
      ({ node with peers := node.peers.insert name addr },
        .goOn (.look (i + 1) (alive + 1)))
  | .health, .uptime =>
      (node, .goOn (.loadAlive
        (UInt64.ofNat ((node.now - node.metrics.startedAt) / 1000000000))))
  | .health, .loadAlive uptimeS =>
      (node, .goOn (.loadTotal uptimeS node.metrics.peersAlive))
  | .health, .loadTotal uptimeS alive =>
      (node, .finish
        (healthResponse minPeersAlive node.metrics.nodeId uptimeS alive
          node.metrics.peersTotal))

end NodeCall

section Tasks

variable {Addr : Type} (parse : String → Option Addr)

/-- The tasks of a node; its clock advances. -/
def nodeObject (args : Args) :
    ConcurrentObject (NodeTasks Addr) Nat (NodeCall.Position Addr) NodeCall.Result where
  enter := NodeCall.enter
  step := NodeCall.step (args.peerPairs parse)
  environment elapsed node := { node with now := node.now + elapsed }

abbrev NodePool (Addr : Type) :=
  Pool (NodeTasks Addr) (NodeCall.Position Addr) NodeCall.Result

abbrev NodeLabel :=
  PoolLabel NodeCall Nat

abbrev NodeWorld (Addr : Type) :=
  World (NodePool Addr) NodeLabel

/-- `main` up to the start of the tasks: the pool holds the peers that the first
connections have reached, and the metrics say how many these are. -/
def Starts (connects : String × Addr → Bool) (args : Args)
    (node : NodeTasks Addr) : Prop :=
  node.peers = args.peersMap parse connects ∧
    node.metrics.peersTotal = UInt64.ofNat (args.parsedPeers parse).length ∧
    node.metrics.peersAlive = UInt64.ofNat (args.peersMap parse connects).entries.length

/-- A node that starts with the peers that can be reached at first. -/
def nodeSystem (connects : String × Addr → Bool) (args : Args) :
    System (NodePool Addr) NodeLabel :=
  (nodeObject parse args).system (Starts parse connects args)

/-- The loop is one task: a round starts when no other is going on. -/
def OneRound (pool : NodePool Addr) : NodeLabel → Prop
  | .call _ (.round _) => pool.All fun activity => activity.call.isRound = false
  | _ => True

instance (pool : NodePool Addr) : (label : NodeLabel) → Decidable (OneRound pool label)
  | .call _ (.round _) =>
      inferInstanceAs (Decidable (pool.All fun activity => activity.call.isRound = false))
  | .call _ .health => isTrue trivial
  | .run _ => isTrue trivial
  | .environment _ => isTrue trivial

end Tasks

/-! ## The rounds as a whole -/

section Rounds

/-- A peer answers in a round: over the client of the pool if it is in there, or else
over a new connection. -/
def answers (known : Nat → Bool) (round : Answers) (i : Nat) : Bool :=
  known i && heartbeatOk (round i).heartbeat ||
    (round i).connects && heartbeatOk (round i).greets

/-- The peers that have answered so far, after the given rounds, the most recent
first. -/
def known (startup : Nat → Bool) : List Answers → Nat → Bool
  | [], i => startup i
  | round :: earlier, i => known startup earlier i || answers (known startup earlier) round i

/-- The peers that have answered in the last of the given rounds, or that the first
connections have reached. -/
def reached (startup : Nat → Bool) : List Answers → Nat → Bool
  | [], i => startup i
  | round :: earlier, i => answers (known startup earlier) round i

/-- How many peers these are. -/
def reachedCount (size : Nat) (startup : Nat → Bool) (rounds : List Answers) : Nat :=
  (List.range size).countP (reached startup rounds)

/-- The peers that the first connections reach, by their places. -/
def startup {Addr : Type} (pairs : List (String × Addr))
    (connects : String × Addr → Bool) (i : Nat) : Bool :=
  pairs[i]?.any connects

end Rounds

/-- The rounds that are over, the most recent first. -/
def finishedRounds {Addr : Type} (pool : NodePool Addr) : List Answers :=
  pool.returned.filterMap fun record =>
    match record.call with
    | .round answers => some answers
    | .health => none

/-! ## The first connections -/

section Filling

variable {Addr : Type}

/-- The pool has the clients of the chosen peers, and no other client of a peer. -/
def HoldsClients (pairs : List (String × Addr)) (chosen : Nat → Bool)
    (peers : AList fun _ : String => Addr) : Prop :=
  ∀ i name addr, pairs[i]? = some (name, addr) →
    peers.lookup name = if chosen i then some addr else none

/-- The names of the peers are distinct. -/
def DistinctNames (pairs : List (String × Addr)) : Prop :=
  (pairs.map Prod.fst).Nodup

theorem DistinctNames.place_eq {pairs : List (String × Addr)}
    (distinct : DistinctNames pairs) {i j : Nat} {name : String} {addr other : Addr}
    (first : pairs[i]? = some (name, addr)) (second : pairs[j]? = some (name, other)) :
    i = j := by
  have inside : i < (pairs.map Prod.fst).length := by
    rw [List.length_map]
    exact (List.getElem?_eq_some_iff.mp first).1
  refine (List.getElem?_inj inside distinct).mp ?_
  rw [List.getElem?_map, List.getElem?_map, first, second]
  rfl

variable {parse : String → Option Addr} {connects : String × Addr → Bool}

/-- What the first connections make of the pool. -/
def fill (connects : String × Addr → Bool) (pairs : List (String × Addr)) :
    AList fun _ : String => Addr :=
  pairs.foldl
    (fun map pair => if connects pair then map.insert pair.1 pair.2 else map) ∅

theorem fill_append (front : List (String × Addr)) (pair : String × Addr) :
    fill connects (front ++ [pair]) =
      if connects pair then (fill connects front).insert pair.1 pair.2
      else fill connects front := by
  rw [fill, List.foldl_append]
  rfl

theorem lookup_fill_of_notMem {pairs : List (String × Addr)} {name : String}
    (absent : name ∉ pairs.map Prod.fst) : (fill connects pairs).lookup name = none := by
  cases found : (fill connects pairs).lookup name with
  | none => rfl
  | some addr =>
      rcases mem_of_lookup_fill connects found with inside | before
      · exact absurd (List.mem_map_of_mem inside) absent
      · cases before

/-- The place of the last peer, and those of the others. -/
theorem getElem?_concat {front : List (String × Addr)} {last pair : String × Addr}
    {i : Nat} (placed : (front ++ [last])[i]? = some pair) :
    i = front.length ∧ pair = last ∨ i < front.length ∧ front[i]? = some pair := by
  rcases Nat.lt_trichotomy i front.length with before | here | after
  · rw [List.getElem?_append_left before] at placed
    exact Or.inr ⟨before, placed⟩
  · subst here
    simp at placed
    exact Or.inl ⟨rfl, placed.symm⟩
  · have outside : (front ++ [last]).length ≤ i := by
      rw [List.length_append]
      exact after
    rw [List.getElem?_eq_none outside] at placed
    cases placed

theorem startup_append_left {front : List (String × Addr)} {last : String × Addr}
    {i : Nat} (inside : i < front.length) :
    startup (front ++ [last]) connects i = startup front connects i := by
  rw [startup, startup, List.getElem?_append_left inside]

theorem startup_append_last (front : List (String × Addr)) (last : String × Addr) :
    startup (front ++ [last]) connects front.length = connects last := by
  simp [startup]

theorem DistinctNames.of_append {front : List (String × Addr)} {last : String × Addr}
    (distinct : DistinctNames (front ++ [last])) :
    DistinctNames front ∧ last.1 ∉ front.map Prod.fst := by
  rw [DistinctNames, List.map_append, List.nodup_append] at distinct
  refine ⟨distinct.1, fun inside => ?_⟩
  exact distinct.2.2 last.1 inside last.1 List.mem_cons_self rfl

theorem holdsClients_fill {pairs : List (String × Addr)}
    (distinct : DistinctNames pairs) :
    HoldsClients pairs (startup pairs connects) (fill connects pairs) := by
  induction pairs using List.reverseRecOn with
  | nil =>
      intro i name addr placed
      simp at placed
  | append_singleton front last inductionHypothesis =>
      obtain ⟨frontDistinct, isNew⟩ := distinct.of_append
      intro i name addr placed
      rw [fill_append]
      rcases getElem?_concat placed with ⟨rfl, rfl⟩ | ⟨inside, placedBefore⟩
      · rw [startup_append_last]
        split
        · exact AList.lookup_insert _
        · exact lookup_fill_of_notMem isNew
      · have different : name ≠ last.1 := by
          rintro rfl
          exact isNew
            (List.mem_map.mpr ⟨_, List.mem_of_getElem? placedBefore, rfl⟩)
        rw [startup_append_left inside]
        have before := inductionHypothesis frontDistinct i name addr placedBefore
        split
        · rw [AList.lookup_insert_ne different]
          exact before
        · exact before

theorem length_fill {pairs : List (String × Addr)} (distinct : DistinctNames pairs) :
    (fill connects pairs).entries.length =
      (List.range pairs.length).countP (startup pairs connects) := by
  induction pairs using List.reverseRecOn with
  | nil => rfl
  | append_singleton front last inductionHypothesis =>
      obtain ⟨frontDistinct, isNew⟩ := distinct.of_append
      have others :
          (List.range front.length).countP (startup (front ++ [last]) connects) =
            (List.range front.length).countP (startup front connects) :=
        List.countP_congr fun i member => by
          rw [startup_append_left (List.mem_range.mp member)]
      rw [List.length_append, List.length_singleton, List.range_succ,
        List.countP_append, others, ← inductionHypothesis frontDistinct, fill_append,
        List.countP_singleton, startup_append_last]
      split
      · have free : (fill connects front).erase last.1 = fill connects front :=
          Entries.erase_of_lookup_none (lookup_fill_of_notMem isNew)
        rw [AList.entries_insert, List.length_cons]
        exact congrArg (·.entries.length + 1) free
      · rfl

end Filling

/-! ## One round at a time -/

section OneRound

variable {Addr : Type} {parse : String → Option Addr} {args : Args}
variable {connects : String × Addr → Bool}

/-- No two threads are in a round. -/
def AtMostOneRound (pool : NodePool Addr) : Prop :=
  ∀ first firstActivity second secondActivity,
    pool.activity? first = some firstActivity → firstActivity.call.isRound = true →
    pool.activity? second = some secondActivity →
    secondActivity.call.isRound = true → first = second

theorem isRound_of_moves {source target : NodePool Addr} {label : NodeLabel}
    (moves : (nodeObject parse args).Moves source label target) {thread : Nat}
    {activity : Activity (NodeCall.Position Addr)}
    (running : target.activity? thread = some activity)
    (isRound : activity.call.isRound = true) :
    (∃ before, source.activity? thread = some before ∧ before.call.isRound = true) ∨
      ∃ answers, label = .call thread (.round answers) := by
  rcases moves.running_cases running with
    ⟨before, _⟩ | ⟨call, rfl, _, rfl⟩ | ⟨earlier, shared, position, _, active, _, _, rfl⟩
  · exact Or.inl ⟨activity, before, isRound⟩
  · cases call with
    | round answers => exact Or.inr ⟨answers, rfl⟩
    | health => cases isRound
  · exact Or.inl ⟨earlier, active, isRound⟩

theorem atMostOneRound {world : NodeWorld Addr}
    (reachable : (nodeSystem parse connects args).Reachable OneRound world) :
    AtMostOneRound world.state := by
  refine reachable.state_invariant AtMostOneRound ?_ ?_
  · rintro pool ⟨node, _, rfl⟩ first firstActivity second secondActivity running
    cases running
  · intro label source target single admitted executed
    have moves := ConcurrentObject.moves_of_exec executed
    -- A round that starts finds no other one.
    have noOther {thread : Nat} {answers : Answers}
        (starts : label = .call thread (.round answers)) {other : Nat}
        {before : Activity (NodeCall.Position Addr)}
        (running : source.activity? other = some before) :
        before.call.isRound = false := by
      subst starts
      have noRound : source.All fun activity => activity.call.isRound = false :=
        admitted
      exact noRound.at running
    intro first firstActivity second secondActivity firstRuns firstRound secondRuns
      secondRound
    rcases isRound_of_moves moves firstRuns firstRound with
      ⟨firstBefore, firstRan, firstIs⟩ | ⟨firstAnswers, firstStarts⟩
    · rcases isRound_of_moves moves secondRuns secondRound with
        ⟨secondBefore, secondRan, secondIs⟩ | ⟨secondAnswers, secondStarts⟩
      · exact single _ _ _ _ firstRan firstIs secondRan secondIs
      · rw [noOther secondStarts firstRan] at firstIs
        cases firstIs
    · rcases isRound_of_moves moves secondRuns secondRound with
        ⟨secondBefore, secondRan, secondIs⟩ | ⟨secondAnswers, secondStarts⟩
      · rw [noOther firstStarts secondRan] at secondIs
        cases secondIs
      · rw [firstStarts] at secondStarts
        cases secondStarts
        rfl

end OneRound

/-! ## The rounds, step by step -/

section Stages

variable {Addr : Type} (pairs : List (String × Addr)) (start : Nat → Bool)

/-- The peers in the pool when a round has come to a place. -/
def midway (rounds : List Answers) (round : Answers) (place i : Nat) : Bool :=
  if i < place then known start (round :: rounds) i else known start rounds i

/-- A round stands at a place: the peers before it have been asked. -/
structure Asked (rounds : List Answers) (round : Answers) (place : Nat)
    (alive : UInt64) (node : NodeTasks Addr) : Prop where
  inside : place ≤ pairs.length
  clients : HoldsClients pairs (midway start rounds round place) node.peers
  counted : alive =
    UInt64.ofNat ((List.range place).countP (answers (known start rounds) round))

/-- Where a round is, and what it has found out about the peer that it is asking. -/
def Stage (rounds : List Answers) (node : NodeTasks Addr) :
    (call : NodeCall) → NodeCall.Position Addr call → Prop
  | .round round, .look i alive => Asked pairs start rounds round i alive node
  | .round round, .connect i name addr alive =>
      Asked pairs start rounds round i alive node ∧ pairs[i]? = some (name, addr) ∧
        (known start rounds i && heartbeatOk (round i).heartbeat) = false
  | .round round, .greet i name addr alive =>
      Asked pairs start rounds round i alive node ∧ pairs[i]? = some (name, addr) ∧
        (known start rounds i && heartbeatOk (round i).heartbeat) = false ∧
        (round i).connects = true
  | .round round, .insert i name addr alive =>
      Asked pairs start rounds round i alive node ∧ pairs[i]? = some (name, addr) ∧
        (round i).connects = true ∧ heartbeatOk (round i).greets = true
  | .health, _ => True

variable {pairs start}
variable {rounds : List Answers} {round : Answers} {place : Nat} {alive : UInt64}
variable {node : NodeTasks Addr}

theorem midway_succ_of_ne {i : Nat} (different : i ≠ place) :
    midway start rounds round (place + 1) i = midway start rounds round place i := by
  have same : i < place + 1 ↔ i < place := by omega
  rw [midway, midway, if_congr same rfl rfl]

theorem midway_succ_self :
    midway start rounds round (place + 1) place =
      (known start rounds place || answers (known start rounds) round place) :=
  if_pos (Nat.lt_succ_self place)

theorem midway_self : midway start rounds round place place = known start rounds place :=
  if_neg (Nat.lt_irrefl place)

namespace Asked

/-- One peer more has been asked, and its client is in the pool if it has answered. -/
theorem next (asked : Asked pairs start rounds round place alive node) {name : String}
    {addr : Addr} (placed : pairs[place]? = some (name, addr)) {after : NodeTasks Addr}
    {answered : Bool}
    (isAnswer : answers (known start rounds) round place = answered)
    (others : ∀ i other otherAddr, i ≠ place → pairs[i]? = some (other, otherAddr) →
      after.peers.lookup other = node.peers.lookup other)
    (own : after.peers.lookup name =
      if known start rounds place || answered then some addr else none) :
    Asked pairs start rounds round (place + 1)
      (if answered then alive + 1 else alive) after where
  inside := (List.getElem?_eq_some_iff.mp placed).1
  clients := by
    intro i other otherAddr otherPlaced
    by_cases here : i = place
    · subst here
      rw [placed] at otherPlaced
      cases otherPlaced
      rw [own, midway_succ_self, isAnswer]
    · rw [others i other otherAddr here otherPlaced, midway_succ_of_ne here]
      exact asked.clients i other otherAddr otherPlaced
  counted := by
    rw [List.range_succ, List.countP_append, List.countP_singleton, isAnswer,
      asked.counted]
    cases answered with
    | true => exact (UInt64.ofNat_add _ _).symm
    | false => rfl

end Asked

theorem Asked.lookup_eq (asked : Asked pairs start rounds round place alive node)
    {name : String} {addr : Addr} (placed : pairs[place]? = some (name, addr)) :
    node.peers.lookup name = if known start rounds place then some addr else none := by
  rw [asked.clients place name addr placed, midway_self]

/-- A stage is about the pool only. -/
theorem Stage.congr {call : NodeCall} {position : NodeCall.Position Addr call}
    {after : NodeTasks Addr} (stage : Stage pairs start rounds node call position)
    (samePeers : after.peers = node.peers) :
    Stage pairs start rounds after call position := by
  have same {round : Answers} {i : Nat} {alive : UInt64}
      (asked : Asked pairs start rounds round i alive node) :
      Asked pairs start rounds round i alive after :=
    ⟨asked.inside, samePeers ▸ asked.clients, asked.counted⟩
  cases position with
  | look i alive => exact same stage
  | connect i name addr alive => exact ⟨same stage.1, stage.2⟩
  | greet i name addr alive => exact ⟨same stage.1, stage.2⟩
  | insert i name addr alive => exact ⟨same stage.1, stage.2⟩
  | uptime => trivial
  | loadAlive uptimeS => trivial
  | loadTotal uptimeS alive => trivial

/-- A peer that does not answer leaves the round as it is. -/
theorem Asked.unanswered {i : Nat} {name : String} {addr : Addr}
    (asked : Asked pairs start rounds round i alive node)
    (placed : pairs[i]? = some (name, addr))
    (silent : answers (known start rounds) round i = false) :
    Asked pairs start rounds round (i + 1) alive node := by
  refine asked.next placed silent (fun _ _ _ _ _ => rfl) ?_
  rw [asked.lookup_eq placed, Bool.or_false]

/-- The heartbeat over the client in the pool, if there is one. -/
theorem Stage.advance_look {i : Nat} {after : NodeTasks Addr}
    {next : NodeCall.Position Addr (.round round)}
    (asked : Asked pairs start rounds round i alive node)
    (stepped :
      NodeCall.step pairs node (.look i alive : NodeCall.Position Addr (.round round)) =
        (after, .goOn next)) :
    Stage pairs start rounds after (.round round) next := by
  simp only [NodeCall.step] at stepped
  split at stepped
  · cases stepped
  · rename_i name addr placed
    have found := asked.lookup_eq placed
    split at stepped
    · rename_i beats
      cases stepped
      obtain ⟨inPool, heartbeat⟩ := Bool.and_eq_true_iff.mp beats
      have isKnown : known start rounds i = true := by
        by_contra unknown
        rw [found, if_neg unknown] at inPool
        cases inPool
      have answered : answers (known start rounds) round i = true := by
        rw [answers, isKnown, heartbeat]
        rfl
      refine asked.next placed answered (fun _ _ _ _ _ => rfl) ?_
      rw [found, isKnown, Bool.true_or]
    · rename_i silent
      cases stepped
      refine ⟨asked, placed, ?_⟩
      rw [found, Bool.not_eq_true] at silent
      cases isKnown : known start rounds i with
      | false => rfl
      | true => simpa [isKnown] using silent

/-- The next stage of a call. -/
theorem Stage.advance {call : NodeCall} {position next : NodeCall.Position Addr call}
    {after : NodeTasks Addr} (distinct : DistinctNames pairs)
    (stage : Stage pairs start rounds node call position)
    (stepped : NodeCall.step pairs node position = (after, .goOn next)) :
    Stage pairs start rounds after call next := by
  cases position with
  | look i alive => exact Stage.advance_look stage stepped
  | connect i name addr alive =>
      obtain ⟨asked, placed, silent⟩ := stage
      simp only [NodeCall.step] at stepped
      split at stepped
      · rename_i connected
        cases stepped
        exact ⟨asked, placed, silent, connected⟩
      · rename_i refused
        cases stepped
        refine asked.unanswered placed ?_
        rw [answers, silent, Bool.eq_false_of_not_eq_true refused]
        rfl
  | greet i name addr alive =>
      obtain ⟨asked, placed, silent, connected⟩ := stage
      simp only [NodeCall.step] at stepped
      split at stepped
      · rename_i greets
        cases stepped
        exact ⟨asked, placed, connected, greets⟩
      · rename_i mute
        cases stepped
        refine asked.unanswered placed ?_
        rw [answers, silent, connected, Bool.eq_false_of_not_eq_true mute]
        rfl
  | @insert round i name addr alive =>
      obtain ⟨asked, placed, connected, greets⟩ := stage
      cases stepped
      have answered : answers (known start rounds) round i = true := by
        rw [answers, connected, greets, Bool.and_self, Bool.or_true]
      refine asked.next placed answered ?_ ?_
      · intro j other otherAddr elsewhere otherPlaced
        apply AList.lookup_insert_ne
        rintro rfl
        exact elsewhere (distinct.place_eq otherPlaced placed)
      · rw [Bool.or_true, if_pos rfl]
        exact AList.lookup_insert _
  | uptime =>
      cases stepped
      trivial
  | loadAlive uptimeS =>
      cases stepped
      trivial
  | loadTotal uptimeS alive => cases stepped

/-- A node between two rounds. -/
structure BetweenRounds (pairs : List (String × Addr)) (start : Nat → Bool)
    (rounds : List Answers) (node : NodeTasks Addr) : Prop where
  clients : HoldsClients pairs (known start rounds) node.peers
  alive : node.metrics.peersAlive = UInt64.ofNat (reachedCount pairs.length start rounds)

/-- A round ends with all peers asked. -/
theorem Stage.finish {position : NodeCall.Position Addr (.round round)}
    {after : NodeTasks Addr}
    (stage : Stage pairs start rounds node (.round round) position)
    (stepped : NodeCall.step pairs node position = (after, .finish ())) :
    BetweenRounds pairs start (round :: rounds) after := by
  cases position with
  | look i alive =>
      simp only [NodeCall.step] at stepped
      split at stepped
      · rename_i atEnd
        cases stepped
        have all : i = pairs.length :=
          Nat.le_antisymm stage.inside (List.getElem?_eq_none_iff.mp atEnd)
        refine ⟨?_, ?_⟩
        · intro j name addr placed
          have before : j < i := all ▸ (List.getElem?_eq_some_iff.mp placed).1
          rw [stage.clients j name addr placed, midway, if_pos before]
        · subst all
          exact stage.counted
      · split at stepped <;> cases stepped
  | connect i name addr alive =>
      simp only [NodeCall.step] at stepped
      split at stepped <;> cases stepped
  | greet i name addr alive =>
      simp only [NodeCall.step] at stepped
      split at stepped <;> cases stepped
  | insert i name addr alive => cases stepped

/-- A request for `/health` changes nothing. -/
theorem shared_of_health {position : NodeCall.Position Addr .health}
    {after : NodeTasks Addr}
    {next : Next (NodeCall.Position Addr .health) HttpResponse}
    (stepped : NodeCall.step pairs node position = (after, next)) : after = node := by
  have same : (NodeCall.step pairs node position).1 = node := by
    cases position <;> rfl
  rw [← same, stepped]

/-- The metrics are stored at the end of a round. -/
theorem metrics_of_goOn {call : NodeCall} {position next : NodeCall.Position Addr call}
    {after : NodeTasks Addr}
    (stepped : NodeCall.step pairs node position = (after, .goOn next)) :
    after.metrics = node.metrics := by
  cases position with
  | look i alive =>
      simp only [NodeCall.step] at stepped
      split at stepped
      · cases stepped
      · split at stepped <;> cases stepped <;> rfl
  | connect i name addr alive =>
      simp only [NodeCall.step] at stepped
      split at stepped <;> cases stepped <;> rfl
  | greet i name addr alive =>
      simp only [NodeCall.step] at stepped
      split at stepped <;> cases stepped <;> rfl
  | insert i name addr alive =>
      cases stepped
      rfl
  | uptime =>
      cases stepped
      rfl
  | loadAlive uptimeS =>
      cases stepped
      rfl
  | loadTotal uptimeS alive => cases stepped

theorem peersTotal_of_finish {call : NodeCall} {position : NodeCall.Position Addr call}
    {after : NodeTasks Addr} {result : call.Result}
    (stepped : NodeCall.step pairs node position = (after, .finish result)) :
    after.metrics.peersTotal = node.metrics.peersTotal := by
  cases position with
  | look i alive =>
      simp only [NodeCall.step] at stepped
      split at stepped
      · cases stepped
        rfl
      · split at stepped <;> cases stepped
  | connect i name addr alive =>
      simp only [NodeCall.step] at stepped
      split at stepped <;> cases stepped
  | greet i name addr alive =>
      simp only [NodeCall.step] at stepped
      split at stepped <;> cases stepped
  | insert i name addr alive => cases stepped
  | uptime => cases stepped
  | loadAlive uptimeS => cases stepped
  | loadTotal uptimeS alive =>
      cases stepped
      rfl

end Stages

/-! ## Runs -/

section Runs

variable {Addr : Type} {parse : String → Option Addr} {args : Args}
variable {connects : String × Addr → Bool}

/-- The peers that the first connections of a node reach. -/
abbrev firstReached (parse : String → Option Addr)
    (connects : String × Addr → Bool) (args : Args) : Nat → Bool :=
  startup (args.peerPairs parse) connects

/-- The metrics and the pool say what the rounds so far have found. -/
structure Accounted (parse : String → Option Addr)
    (connects : String × Addr → Bool) (args : Args) (pool : NodePool Addr) :
    Prop where
  total : pool.shared.metrics.peersTotal =
    UInt64.ofNat (args.peerPairs parse).length
  alive : pool.shared.metrics.peersAlive =
    UInt64.ofNat (reachedCount (args.peerPairs parse).length
      (firstReached parse connects args) (finishedRounds pool))
  clients : (pool.All fun activity => activity.call.isRound = false) →
    HoldsClients (args.peerPairs parse)
      (known (firstReached parse connects args) (finishedRounds pool))
      pool.shared.peers

def roundsOutline (parse : String → Option Addr)
    (connects : String × Addr → Bool) (args : Args) :
    Outline (NodeTasks Addr) (NodeCall.Position Addr) NodeCall.Result where
  Inv pool := Accounted parse connects args pool
  At pool activity :=
    Stage (args.peerPairs parse) (firstReached parse connects args)
      (finishedRounds pool) pool.shared activity.call activity.position

/-- Without a round after a move by another task there was none before it. -/
theorem noRound_of_moves {source target : NodePool Addr} {label : NodeLabel}
    (moves : (nodeObject parse args).Moves source label target)
    (noRound : target.All fun activity => activity.call.isRound = false)
    (mover : ∀ activity, source.mover? label = some activity →
      activity.call.isRound = false) :
    source.All fun activity => activity.call.isRound = false := by
  rintro ⟨thread, activity⟩ member
  have running : source.activity? thread = some activity :=
    AList.mem_lookup_iff.mpr member
  by_cases moving : label = .run thread
  · exact mover activity (by rw [moving]; exact running)
  · exact noRound.at (moves.activity_kept running moving)

section Moving

variable {source target : NodePool Addr} {label : NodeLabel} {thread : Nat}
variable {activity : Activity (NodeCall.Position Addr)} {shared : NodeTasks Addr}

/-- When no round is under way after a move of another task, the pool is what the
rounds so far have found. -/
theorem Accounted.clients_of_moves (accounted : Accounted parse connects args source)
    (moves : (nodeObject parse args).Moves source label target)
    (noRound : target.All fun activity => activity.call.isRound = false)
    (mover : ∀ activity, source.mover? label = some activity →
      activity.call.isRound = false) :
    HoldsClients (args.peerPairs parse)
      (known (firstReached parse connects args) (finishedRounds source))
      source.shared.peers :=
  accounted.clients (noRound_of_moves moves noRound mover)

theorem mover_eq (active : source.activity? thread = some activity) :
    ∀ other, source.mover? (.run thread : NodeLabel) = some other →
      other = activity := by
  intro other moving
  rw [Pool.mover?, active] at moving
  exact (Option.some.inj moving).symm

/-- A task moves on. -/
theorem Accounted.advance (accounted : Accounted parse connects args source)
    {position : NodeCall.Position Addr activity.call}
    (moves : (nodeObject parse args).Moves source (.run thread)
      (source.advance thread activity shared position))
    (active : source.activity? thread = some activity)
    (stepped : NodeCall.step (args.peerPairs parse) source.shared activity.position =
      (shared, .goOn position)) :
    Accounted parse connects args (source.advance thread activity shared position) := by
  have sameMetrics := metrics_of_goOn stepped
  refine ⟨?_, ?_, fun noRound => ?_⟩
  · exact (congrArg NodeMetrics.peersTotal sameMetrics).trans accounted.total
  · exact (congrArg NodeMetrics.peersAlive sameMetrics).trans accounted.alive
  · -- The task that has moved on is none in a round.
    have after : (source.advance thread activity shared position).activity? thread =
        some { activity with position := position } :=
      AList.lookup_insert _
    have notRound : activity.call.isRound = false := by
      have here := noRound.at after
      exact here
    have clients := accounted.clients_of_moves moves noRound
      fun other moving => mover_eq active other moving ▸ notRound
    obtain ⟨call, began, before⟩ := activity
    cases call with
    | round answers => cases notRound
    | health =>
        have sameShared : shared = source.shared := shared_of_health stepped
        subst sameShared
        exact clients

/-- A round ends, or a request for `/health`. -/
theorem Accounted.finish (accounted : Accounted parse connects args source)
    {result : activity.call.Result}
    (moves : (nodeObject parse args).Moves source (.run thread)
      (source.finish thread activity shared result))
    (active : source.activity? thread = some activity)
    (stage : Stage (args.peerPairs parse) (firstReached parse connects args)
      (finishedRounds source) source.shared activity.call activity.position)
    (stepped : NodeCall.step (args.peerPairs parse) source.shared activity.position =
      (shared, .finish result)) :
    Accounted parse connects args (source.finish thread activity shared result) := by
  obtain ⟨call, began, position⟩ := activity
  have sameTotal := (peersTotal_of_finish stepped).trans accounted.total
  cases call with
  | round answers =>
      have ended := Stage.finish stage stepped
      exact ⟨sameTotal, ended.alive, fun _ => ended.clients⟩
  | health =>
      have sameShared : shared = source.shared := shared_of_health stepped
      refine ⟨sameTotal, ?_, fun noRound => ?_⟩
      · exact (congrArg (·.metrics.peersAlive) sameShared).trans accounted.alive
      · have clients := accounted.clients_of_moves moves noRound
          fun other moving => mover_eq active other moving ▸ rfl
        subst sameShared
        exact clients

/-- A round stands where it stood when another task moves. -/
theorem Stage.kept {answers : Answers} {position : NodeCall.Position Addr (.round answers)}
    (stage : Stage (args.peerPairs parse) (firstReached parse connects args)
      (finishedRounds source) source.shared (.round answers) position)
    (moves : (nodeObject parse args).Moves source label target)
    (notRound : ∀ activity, source.mover? label = some activity →
      activity.call.isRound = false) :
    Stage (args.peerPairs parse) (firstReached parse connects args)
      (finishedRounds target) target.shared (.round answers) position := by
  cases moves with
  | call free => exact stage
  | @advance other mover shared next active stepped =>
      have outside := notRound mover active
      obtain ⟨moverCall, start, before⟩ := mover
      cases moverCall with
      | round _ => cases outside
      | health =>
          exact Stage.congr stage
            (congrArg NodeTasks.peers (shared_of_health stepped))
  | @finish other mover shared result active stepped =>
      have outside := notRound mover active
      obtain ⟨moverCall, start, before⟩ := mover
      cases moverCall with
      | round _ => cases outside
      | health =>
          exact Stage.congr stage
            (congrArg NodeTasks.peers (shared_of_health stepped))
  | environment => exact Stage.congr stage rfl

end Moving

theorem roundsOutline_sound (distinct : DistinctNames (args.peerPairs parse)) :
    (roundsOutline parse connects args).Sound (nodeObject parse args)
      fun pool label => OneRound pool label ∧ AtMostOneRound pool where
  inv := by
    intro source label target admitted holds moves
    have accounted : Accounted parse connects args source := holds.1
    cases moves with
    | call free =>
        exact ⟨accounted.total, accounted.alive, fun noRound =>
          accounted.clients_of_moves (.call free) noRound
            fun _ moving => by cases moving⟩
    | advance active stepped =>
        exact accounted.advance (.advance active stepped) active stepped
    | finish active stepped =>
        exact accounted.finish (.finish active stepped) active
          (holds.2 _ _ active) stepped
    | environment =>
        exact ⟨accounted.total, accounted.alive, fun noRound =>
          accounted.clients_of_moves .environment noRound
            fun _ moving => by cases moving⟩
  begins := by
    intro source thread call admitted holds free
    cases call with
    | round answers =>
        have noRound : source.All fun activity => activity.call.isRound = false :=
          admitted.1
        have clients := holds.1.clients noRound
        refine ⟨Nat.zero_le _, ?_, rfl⟩
        intro i name addr placed
        exact clients i name addr placed
    | health => trivial
  advances := by
    intro source thread activity shared position _ holds running stepped
    exact Stage.advance distinct (holds.2 thread activity running) stepped
  stable := by
    intro source label target thread activity admitted holds moves running notMover
    have stage := holds.2 thread activity running
    obtain ⟨call, began, position⟩ := activity
    cases call with
    | health => trivial
    | round answers =>
        -- Another task that moves is not in a round, and leaves the pool alone.
        refine Stage.kept stage moves fun mover moving => ?_
        cases label with
        | run other =>
            by_contra isRound
            have same : thread = other :=
              admitted.2 thread _ other _ running rfl moving
                (Bool.eq_true_of_not_eq_false isRound)
            exact notMover (same ▸ rfl)
        | call other begun => cases moving
        | environment event => cases moving

/-! ## Names of the peers -/

theorem map_fst_peerPairs :
    (args.peerPairs parse).map Prod.fst = args.peerNodeNames parse := by
  rw [Args.peerPairs]
  exact List.map_fst_zip (by simp [Args.peerNodeNames])

theorem length_peerPairs :
    (args.peerPairs parse).length = (args.parsedPeers parse).length := by
  simp [Args.peerPairs, Args.peerNodeNames]

/-- The names differ as long as the ids do not wrap around. -/
theorem distinctNames_peerPairs (few : (args.parsedPeers parse).length + 1 < 2 ^ 32) :
    DistinctNames (args.peerPairs parse) := by
  have asRange : args.peerNodeNames parse =
      (List.range (args.parsedPeers parse).length).map fun i =>
        nodeName (derivedId args.nodeId i).toNat := by
    rw [Args.peerNodeNames, List.mapIdx_eq_iff]
    intro i
    by_cases inside : i < (args.parsedPeers parse).length
    · simp [inside]
    · simp [inside]
  rw [DistinctNames, map_fst_peerPairs, asRange]
  refine List.Nodup.map_on ?_ List.nodup_range
  intro i iInside j jInside sameName
  have sameId := nodeName_injective sameName
  have iBound := List.mem_range.mp iInside
  have jBound := List.mem_range.mp jInside
  rw [toNat_derivedId (by omega), toNat_derivedId (by omega)] at sameId
  rcases Nat.lt_trichotomy i j with before | same | after
  · exact absurd sameId (Nat.ne_of_lt (idAt_strictMono before))
  · exact same
  · exact absurd sameId.symm (Nat.ne_of_lt (idAt_strictMono after))

theorem accounted (few : (args.parsedPeers parse).length + 1 < 2 ^ 32)
    {world : NodeWorld Addr}
    (reachable : (nodeSystem parse connects args).Reachable OneRound world) :
    Accounted parse connects args world.state := by
  have distinct := distinctNames_peerPairs few
  have initial (node : NodeTasks Addr) (starts : Starts parse connects args node) :
      Accounted parse connects args (Pool.idle node) := by
    obtain ⟨peers, total, alive⟩ := starts
    refine ⟨?_, ?_, fun _ => ?_⟩
    · rw [length_peerPairs]
      exact total
    · exact alive.trans (congrArg UInt64.ofNat (length_fill distinct))
    · intro i name addr placed
      exact (congrArg (AList.lookup name) peers).trans
        (holdsClients_fill distinct i name addr placed)
  have admitted := reachable.assuming AtMostOneRound
    fun earlier reached => atMostOneRound reached
  exact ((roundsOutline_sound distinct).reachable initial admitted).1

/-! ## Requests for `/health` -/

/-- A state of the run, not before the given step, has shown the number of peers. -/
def Seen (world : NodeWorld Addr) (began : Nat) (alive : UInt64) : Prop :=
  ∃ pool, world.Visited pool ∧ began ≤ pool.steps ∧
    pool.shared.metrics.peersAlive = alive

/-- The response tells the number of peers of a state in the course of the request. -/
def Tells (world : NodeWorld Addr) (began ended : Nat) (response : HttpResponse) :
    Prop :=
  ∃ pool nid uptime, world.Visited pool ∧ began ≤ pool.steps ∧ pool.steps < ended ∧
    response = healthResponse minPeersAlive nid uptime pool.shared.metrics.peersAlive
      pool.shared.metrics.peersTotal

/-- The requests under way and those that have been answered. -/
structure HealthOk (world : NodeWorld Addr) : Prop where
  running : ∀ thread began uptimeS alive,
    world.state.activity? thread = some ⟨.health, began, .loadTotal uptimeS alive⟩ →
    Seen world began alive
  returned : ∀ (thread began ended : Nat) (response : HttpResponse),
    (⟨thread, .health, response, began, ended⟩ : Returned NodeCall.Result) ∈
      world.state.returned →
    Tells world began ended response

theorem steps_le_of_visited {world : NodeWorld Addr}
    (reachable : (nodeSystem parse connects args).Reachable OneRound world)
    {pool : NodePool Addr} (visited : world.Visited pool) :
    pool.steps ≤ world.state.steps := by
  have along : ∀ label (source target : NodePool Addr), OneRound source label →
      (nodeSystem parse connects args).exec source label = some target →
      source.steps ≤ target.steps := by
    intro label source target _ executed
    have later := (ConcurrentObject.moves_of_exec executed).steps_eq
    omega
  exact @System.Reachable.visited_before _ _ _ _
    (fun first second => first.steps ≤ second.steps) _ reachable
    (fun _ => Nat.le_refl _) (fun _ _ _ => Nat.le_trans) along _ visited

theorem accounted_of_visited (few : (args.parsedPeers parse).length + 1 < 2 ^ 32)
    {world : NodeWorld Addr}
    (reachable : (nodeSystem parse connects args).Reachable OneRound world)
    {pool : NodePool Addr} (visited : world.Visited pool) :
    Accounted parse connects args pool := by
  rcases visited with rfl | ⟨label, recorded⟩
  · exact accounted few reachable
  · obtain ⟨earlier, reached, rfl⟩ := reachable.recorded recorded
    exact accounted few reached

theorem HealthOk.step (few : (args.parsedPeers parse).length + 1 < 2 ^ 32)
    {source : NodeWorld Addr} {target : NodePool Addr} {label : NodeLabel}
    (reachable : (nodeSystem parse connects args).Reachable OneRound source)
    (ok : HealthOk source)
    (moves : (nodeObject parse args).Moves source.state label target) :
    HealthOk (source.push label target) where
  running := by
    intro thread began uptimeS alive running
    rcases moves.running_cases running with
      ⟨before, _⟩ | ⟨call, _, _, made⟩ |
        ⟨earlier, shared, position, _, active, stepped, _, made⟩
    · obtain ⟨pool, visited, after, shows⟩ :=
        ok.running thread began uptimeS alive before
      exact ⟨pool, visited.push label target, after, shows⟩
    · cases call <;> cases made
    · obtain ⟨call, start, earlierPosition⟩ := earlier
      cases made
      cases earlierPosition with
      | uptime => cases stepped
      | loadAlive _ =>
          cases stepped
          have started := (Outline.times_of_reachable reachable).2 thread _ active
          exact ⟨source.state, source.visited_current.push label target,
            Nat.le_of_lt started, rfl⟩
      | loadTotal _ _ => cases stepped
  returned := by
    intro thread began ended response recorded
    rcases moves.returned_cases recorded with
      before | ⟨mover, activity, shared, result, _, active, stepped, _, made⟩
    · obtain ⟨pool, nid, uptime, visited, after, inTime, shows⟩ :=
        ok.returned thread began ended response before
      exact ⟨pool, nid, uptime, visited.push label target, after, inTime, shows⟩
    · obtain ⟨call, start, position⟩ := activity
      cases made
      cases position with
      | uptime => cases stepped
      | loadAlive _ => cases stepped
      | loadTotal uptimeS alive =>
          cases stepped
          obtain ⟨pool, visited, after, shows⟩ := ok.running thread _ _ _ active
          have sameTotal : source.state.shared.metrics.peersTotal =
              pool.shared.metrics.peersTotal :=
            (accounted few reachable).total.trans
              (accounted_of_visited few reachable visited).total.symm
          refine ⟨pool, source.state.shared.metrics.nodeId, uptimeS,
            visited.push label target, after,
            Nat.lt_succ_of_le (steps_le_of_visited reachable visited), ?_⟩
          rw [shows, ← sameTotal]

theorem healthOk (few : (args.parsedPeers parse).length + 1 < 2 ^ 32)
    {world : NodeWorld Addr}
    (reachable : (nodeSystem parse connects args).Reachable OneRound world) :
    HealthOk world := by
  refine reachable.invariant HealthOk ?_ ?_
  · rintro pool ⟨node, _, rfl⟩
    exact
      { running := fun _ _ _ _ running => by cases running
        returned := fun _ _ _ _ recorded => by cases recorded }
  · intro label source target reached ok step
    rw [step.2.2]
    exact ok.step few reached (ConcurrentObject.moves_of_exec step.2.1)

theorem reachedCount_le (size : Nat) (start : Nat → Bool) (rounds : List Answers) :
    reachedCount size start rounds ≤ size := by
  have bound := List.countP_le_length (p := reached start rounds) (l := List.range size)
  rwa [List.length_range] at bound

theorem toNat_peersAlive (few : (args.parsedPeers parse).length + 1 < 2 ^ 32)
    {pool : NodePool Addr} (holds : Accounted parse connects args pool) :
    pool.shared.metrics.peersAlive.toNat =
      reachedCount (args.peerPairs parse).length (firstReached parse connects args)
        (finishedRounds pool) := by
  have bound := reachedCount_le (args.peerPairs parse).length
    (firstReached parse connects args) (finishedRounds pool)
  have size : (args.peerPairs parse).length = (args.parsedPeers parse).length :=
    length_peerPairs
  have words : UInt64.size = 2 ^ 64 := rfl
  rw [holds.alive]
  exact UInt64.toNat_ofNat_of_lt' (by omega)

/-- The node is healthy if a peer has answered, or there is none. -/
theorem status_eq_ok_iff {nid : UInt32} {uptime alive total : UInt64} :
    (healthResponse minPeersAlive nid uptime alive total).status = 200 ↔
      0 < alive.toNat ∨ total = 0 := by
  have enough : minPeersAlive ≤ alive ↔ 0 < alive.toNat := by
    rw [UInt64.le_iff_toNat_le]
    exact Iff.rfl
  rw [← enough, ← decide_eq_true_iff (p := minPeersAlive ≤ alive),
    ← decide_eq_true_iff (p := total = 0), ← Bool.or_eq_true]
  simp only [healthResponse]
  split
  · rename_i healthy
    exact iff_of_true rfl healthy
  · rename_i degraded
    exact iff_of_false (by decide) degraded

/-- Whatever the peers do in the rounds: the pool has the peers that have answered so
far, the metrics say how many answered in the last round, and a request for `/health`
is answered with 200 exactly when, at some moment while it is served, some peer had
answered in the last round or there was none to ask. -/
theorem health_of_last_round (few : (args.parsedPeers parse).length + 1 < 2 ^ 32)
    {world : NodeWorld Addr}
    (reachable : (nodeSystem parse connects args).Reachable OneRound world) :
    ((world.state.All fun activity => activity.call.isRound = false) →
      HoldsClients (args.peerPairs parse)
        (known (firstReached parse connects args) (finishedRounds world.state))
        world.state.shared.peers) ∧
    world.state.shared.metrics.peersAlive.toNat =
      reachedCount (args.peerPairs parse).length (firstReached parse connects args)
        (finishedRounds world.state) ∧
    ∀ (thread began ended : Nat) (response : HttpResponse),
      (⟨thread, .health, response, began, ended⟩ : Returned NodeCall.Result) ∈
        world.state.returned →
      ∃ pool, world.Visited pool ∧ began ≤ pool.steps ∧ pool.steps < ended ∧
        (response.status = 200 ↔
          (∃ i, i < (args.peerPairs parse).length ∧
            reached (firstReached parse connects args) (finishedRounds pool) i = true) ∨
          args.parsedPeers parse = []) := by
  have holds := accounted few reachable
  refine ⟨holds.clients, toNat_peersAlive few holds, ?_⟩
  intro thread began ended response recorded
  obtain ⟨pool, nid, uptime, visited, after, inTime, rfl⟩ :=
    (healthOk few reachable).returned thread began ended response recorded
  refine ⟨pool, visited, after, inTime, ?_⟩
  have holdsThen := accounted_of_visited few reachable visited
  have noPeers : pool.shared.metrics.peersTotal = 0 ↔ args.parsedPeers parse = [] := by
    have words : UInt64.size = 2 ^ 64 := rfl
    rw [holdsThen.total, length_peerPairs, ← UInt64.toNat_inj,
      UInt64.toNat_ofNat_of_lt' (by omega), ← List.length_eq_zero_iff]
    exact Iff.rfl
  have somePeer : 0 < pool.shared.metrics.peersAlive.toNat ↔
      ∃ i, i < (args.peerPairs parse).length ∧
        reached (firstReached parse connects args) (finishedRounds pool) i = true := by
    rw [toNat_peersAlive few holdsThen, reachedCount, List.countP_pos_iff]
    simp only [List.mem_range]
  rw [status_eq_ok_iff, noPeers, somePeer]

end Runs

/-- A node with two peers. -/
def twoPeers : Args where
  nodeId := 1
  peers := "a,b"

/-- The first connections reach no peer; the second peer accepts a connection in the
first round, while a request for `/health` is served, and another request follows. -/
theorem health_of_last_round_one_peer :
    ∃ world, (nodeSystem some (fun _ => false) twoPeers).Reachable OneRound world ∧
      world.state.returned.length = 3 ∧
      world.state.shared.metrics.peersAlive.toNat =
        reachedCount (twoPeers.peerPairs some).length
          (firstReached some (fun _ => false) twoPeers) (finishedRounds world.state) := by
  obtain ⟨world, reachable, checked⟩ :=
    (nodeSystem some (fun _ => false) twoPeers).exists_reachable_of_replay OneRound
      (Pool.idle
        { metrics := { NodeMetrics.new 1 0 with peersTotal := 2 }
          peers := twoPeers.peersMap some fun _ => false
          now := 0 })
      ([.call 1
            (.round fun i => ⟨.error .elapsed, i == 1, .ok (.pong 2 0 0)⟩),
          .call 2 .health, .run 2, .run 2] ++
        List.replicate 7 (.run 1) ++ [.run 2, .call 2 .health, .run 2, .run 2, .run 2])
      (fun pool label => decide (OneRound pool label))
      (fun world => world.state.returned.length == 3)
      ⟨_, ⟨rfl, by decide, by decide⟩, rfl⟩ (fun _ _ => of_decide_eq_true) (by decide)
  exact ⟨world, reachable, eq_of_beq checked,
    (health_of_last_round (by decide) reachable).2.1⟩

end HautePerformance.KvDistributed
