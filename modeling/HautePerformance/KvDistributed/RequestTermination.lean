import HautePerformance.Library.RpcEval
import HautePerformance.KvDistributed.ClusterSteps

/-!
# When replicated reads and deletes come to an end

`get_replicated` and `delete_replicated` send the other replicas the same public
request that they serve themselves.  A peer therefore does the whole work again,
and asks its own peers in turn: without timeouts a `Get` ends only when nobody has
to ask beyond the first replica, and a `Delete` only when there is no second
replica.
-/

namespace HautePerformance.KvDistributed

open Library
open Library.Rpc

namespace Cluster

variable (cluster : Cluster)

/-- Every node has the other replicas in its pool. -/
def FullPools : Prop :=
  ∀ name key replica,
    replica ∈ cluster.replicas key →
    replica ≠ name →
    replica ∈ (cluster.replicator name).peers

/-- The first replica of the key has an entry that has not expired. -/
def LiveAtFirst (stores : String → NodeState) (key : String) : Prop :=
  ∃ first entry,
    (cluster.replicas key).head? = some first ∧
      (stores first).storage.lookup key = some entry ∧
      entry.isExpired (stores first).now = false

/-- The request is answered without a timeout, after at most `bound` requests
between nodes. -/
def AnsweredWithin (held : List (String × String) → String × String → Bool)
    (stores : String → NodeState) (name : String) (request : Request)
    (bound : Nat) : Prop :=
  ∃ fuel served,
    cluster.service.serve held fuel [] stores name request = some served ∧
      served.sent.length ≤ bound

/-- The mutex of a `KvClient`: a call waits for the one before it on the same
connection. -/
def mutexHeld (chain : List (String × String)) (connection : String × String) :
    Bool :=
  decide (connection ∈ chain)

variable {cluster}
variable {held : List (String × String) → String × String → Bool}

/-- What a handler program of a node returns when it is served to the end. -/
theorem serve_eq_map {Result : Type} {fuel : Nat}
    {chain : List (String × String)} {stores : String → NodeState}
    {name : String} {request : Request} (prog : NodeProg Result)
    {respond : Result → Response}
    (handler : cluster.service.handler name request = prog.map respond) :
    cluster.service.serve held (fuel + 1) chain stores name request =
      (prog.serve
        (fun stores target called =>
          if held chain (name, target) then none
          else
            cluster.service.serve held fuel ((name, target) :: chain) stores
              target called)
        name [] stores).map fun served =>
          { value := respond served.value
            stores := served.stores
            sent := served.sent } := by
  simp only [Service.serve, handler, Prog.serve_map]

/-! ## Reads -/

section Reads

variable {key : String}

/-- Reading a replica whose entry has expired, or that has none. -/
theorem get_eq_none {node : NodeState}
    (notLive : ∀ entry, node.storage.lookup key = some entry →
      entry.isExpired node.now = true) :
    (node.storage.get key node.now).1 = none := by
  cases got : (node.storage.get key node.now).1 with
  | none => rfl
  | some entry =>
      obtain ⟨stored, live⟩ := StorageEngine.get_eq_some got
      rw [notLive entry stored] at live
      cases live

theorem getReplicated_eq_getLoop {first : String} {rest : List String}
    (replicasAre : cluster.replicas key = first :: rest) (name : String) :
    (cluster.replicator name).getReplicated cluster.hash key =
      (cluster.replicator name).getLoop key (first :: rest) := by
  rw [Replicator.getReplicated, cluster.agreement, replicasAre]
  exact if_neg Bool.false_ne_true

/-- The first replica reads its own storage. -/
theorem handler_get_self {first : String} {rest : List String}
    (replicasAre : cluster.replicas key = first :: rest) :
    cluster.service.handler first (.get key) =
      (Prog.atomic (·.get key) fun node =>
        match (node.storage.get key node.now).1 with
        | some entry => .done (.ok (some entry.data))
        | none => (cluster.replicator first).getLoop key rest).map
          KvServer.getResponse := by
  have isLocal : first = (cluster.replicator first).localNodeName :=
    (cluster.named first).symm
  exact congrArg (Prog.map KvServer.getResponse)
    ((getReplicated_eq_getLoop replicasAre first).trans (if_pos isLocal))

/-- Any other node asks it. -/
theorem handler_get_peer (pools : cluster.FullPools) {name first : String}
    {rest : List String} (replicasAre : cluster.replicas key = first :: rest)
    (notFirst : first ≠ name) :
    cluster.service.handler name (.get key) =
      (Replicator.ask first (.get key) KvClient.get fun
        | .ok (some value) => .done (.ok (some value))
        | .ok none => (cluster.replicator name).getLoop key rest
        | .error _ => (cluster.replicator name).getLoop key rest).map
          KvServer.getResponse := by
  have firstReplica : first ∈ cluster.replicas key := by simp [replicasAre]
  have notLocal : first ≠ (cluster.replicator name).localNodeName := by
    rwa [cluster.named]
  exact congrArg (Prog.map KvServer.getResponse)
    ((getReplicated_eq_getLoop replicasAre name).trans
      ((if_neg notLocal).trans
        (if_pos (pools name key first firstReplica notFirst))))

/-- When the first replica has no live entry and there is a second one, a `Get`
has no end: the second replica asks the first one, which asks the second one. -/
theorem serve_get_eq_none (pools : cluster.FullPools) {first second : String}
    {rest : List String}
    (replicasAre : cluster.replicas key = first :: second :: rest)
    (fuel : Nat) :
    ∀ (chain : List (String × String)) (stores : String → NodeState)
      (name : String),
      (∀ entry, (stores first).storage.lookup key = some entry →
        entry.isExpired (stores first).now = true) →
      cluster.service.serve held fuel chain stores name (.get key) = none := by
  induction fuel with
  | zero => exact fun _ _ _ _ => rfl
  | succ fuel inductionHypothesis =>
      intro chain stores name notLive
      have secondReplica : second ∈ cluster.replicas key := by
        simp [replicasAre]
      have different : second ≠ first := by
        have nodup := cluster.nodup_replicas key
        rw [replicasAre] at nodup
        rintro rfl
        simp at nodup
      by_cases isFirst : first = name
      · subst isFirst
        -- The local read finds nothing, and the second replica is asked.
        rw [serve_eq_map _ (handler_get_self replicasAre)]
        simp only [Prog.serve, get_eq_none notLive, Replicator.getLoop,
          cluster.named, if_neg different,
          if_pos (pools first key second secondReplica different),
          Replicator.ask, Prog.serve_call, Option.map_eq_none_iff]
        split
        · rfl
        · rename_i answered answers
          split at answers
          · cases answers
          · rw [inductionHypothesis] at answers
            · cases answers
            · intro entry stored
              rw [Function.update_self] at stored ⊢
              exact notLive entry (StorageEngine.lookup_of_lookup_get stored)
      · rw [serve_eq_map _ (handler_get_peer pools replicasAre isFirst)]
        simp only [Replicator.ask, Prog.serve_call, Option.map_eq_none_iff]
        split
        · rfl
        · rename_i answered answers
          split at answers
          · cases answers
          · rw [inductionHypothesis _ _ _ notLive] at answers
            cases answers

/-- What a replica answers from its own storage, without asking anybody. -/
theorem serve_get_local
    (held : List (String × String) → String × String → Bool) (fuel : Nat)
    (chain : List (String × String)) {stores : String → NodeState}
    {first : String} {rest : List String}
    (replicasAre : cluster.replicas key = first :: rest)
    (decides : rest = [] ∨
      ∃ entry,
        (stores first).storage.lookup key = some entry ∧
          entry.isExpired (stores first).now = false) :
    ∃ served,
      cluster.service.serve held (fuel + 1) chain stores first (.get key) =
          some served ∧
        served.sent = [] ∧
        (rest ≠ [] → ∃ data, served.value = .value (some data) 0) := by
  rw [serve_eq_map _ (handler_get_self replicasAre)]
  simp only [Prog.serve]
  cases got : ((stores first).storage.get key (stores first).now).1 with
  | some entry => exact ⟨_, rfl, rfl, fun _ => ⟨entry.data, rfl⟩⟩
  | none =>
      rcases decides with onlyOne | ⟨entry, stored, live⟩
      · subst onlyOne
        exact ⟨_, rfl, rfl, fun different => (different rfl).elim⟩
      · rw [(StorageEngine.get_of_live stored live).1] at got
        cases got

/-- The same read at another node: one request to the first replica. -/
theorem serve_get_remote (pools : cluster.FullPools)
    (free : ∀ connection, held [] connection = false)
    {stores : String → NodeState} {name first : String} {rest : List String}
    (replicasAre : cluster.replicas key = first :: rest)
    (notFirst : first ≠ name)
    (decides : rest = [] ∨
      ∃ entry,
        (stores first).storage.lookup key = some entry ∧
          entry.isExpired (stores first).now = false) :
    ∃ served,
      cluster.service.serve held 2 [] stores name (.get key) = some served ∧
        served.sent = [(first, .get key)] := by
  obtain ⟨answered, answers, noneSent, value⟩ :=
    serve_get_local held 0 [(name, first)] replicasAre decides
  rw [serve_eq_map _ (handler_get_peer pools replicasAre notFirst)]
  simp only [Replicator.ask, Prog.serve_call, free, answers, noneSent,
    Bool.false_eq_true, if_false]
  cases rest with
  | nil =>
      split
      · exact ⟨_, rfl, rfl⟩
      · exact ⟨_, rfl, rfl⟩
      · exact ⟨_, rfl, rfl⟩
  | cons second others =>
      obtain ⟨data, isValue⟩ := value (List.cons_ne_nil _ _)
      rw [isValue]
      exact ⟨_, rfl, rfl⟩

/-- A `Get` is answered without a timeout if and only if the key has at most one
replica or its first replica has a live entry, and then after at most one request
between nodes. -/
theorem get_answered_iff (pools : cluster.FullPools)
    (free : ∀ connection, held [] connection = false)
    (stores : String → NodeState) (name key : String) :
    cluster.AnsweredWithin held stores name (.get key)
        (cluster.replicator name).replicationFactor ↔
      (cluster.replicas key).length ≤ 1 ∨ cluster.LiveAtFirst stores key := by
  constructor
  · intro given
    obtain ⟨fuel, served, answers, _⟩ := given
    by_contra neither
    simp only [not_or, Nat.not_le] at neither
    obtain ⟨several, notLive⟩ := neither
    cases replicasAre : cluster.replicas key with
    | nil => simp [replicasAre] at several
    | cons first rest =>
        cases rest with
        | nil => simp [replicasAre] at several
        | cons second others =>
            rw [serve_get_eq_none pools replicasAre] at answers
            · cases answers
            · intro entry stored
              cases expired : entry.isExpired (stores first).now with
              | true => rfl
              | false =>
                  exact (notLive
                    ⟨first, entry, by rw [replicasAre]; rfl, stored,
                      expired⟩).elim
  · intro condition
    have atMost := cluster.length_replicas_le name key
    cases replicasAre : cluster.replicas key with
    | nil =>
        refine
          ⟨1,
            { value := .error ReplicationError.noReplicaAvailable.text
              stores := stores
              sent := [] }, ?_, Nat.zero_le _⟩
        rw [serve_eq_map ((cluster.replicator name).getReplicated
          cluster.hash key) rfl]
        simp only [Replicator.getReplicated, cluster.agreement, replicasAre]
        rfl
    | cons first rest =>
        have decides : rest = [] ∨
            ∃ entry,
              (stores first).storage.lookup key = some entry ∧
                entry.isExpired (stores first).now = false := by
          rcases condition with few | ⟨other, entry, isFirst, stored, live⟩
          · rw [replicasAre] at few
            exact Or.inl (List.eq_nil_of_length_eq_zero (by simpa using few))
          · rw [replicasAre] at isFirst
            cases isFirst
            exact Or.inr ⟨entry, stored, live⟩
        have positive :
            1 ≤ (cluster.replicator name).replicationFactor := by
          rw [replicasAre] at atMost
          exact Nat.le_trans (by simp) atMost
        by_cases isLocal : first = name
        · subst isLocal
          obtain ⟨served, answers, noneSent, _⟩ :=
            serve_get_local held 0 [] replicasAre decides
          exact ⟨1, served, answers, by simp [noneSent]⟩
        · obtain ⟨served, answers, oneSent⟩ :=
            serve_get_remote pools free replicasAre isLocal decides
          exact ⟨2, served, answers, by simpa [oneSent] using positive⟩

end Reads

/-! ## Deletes -/

section Deletes

variable {key : String}

/-- A deletion that has another replica to ask waits for its answer. -/
theorem serve_deleteLoop_eq_none {name : String}
    {answering : Answering String NodeState Request Response}
    (unanswered : ∀ stores target,
      answering stores target (.delete key) = none)
    (replicas : List String) :
    ∀ (existed : Bool) (asked : List (String × Request))
      (stores : String → NodeState),
      (∀ entry, entry ∈ asked → entry.2 = .delete key) →
      asked ≠ [] ∨
        (∃ replica, replica ∈ replicas ∧ replica ≠ name ∧
          replica ∈ (cluster.replicator name).peers) →
      ((cluster.replicator name).deleteLoop key existed replicas).serve
        answering name asked stores = none := by
  induction replicas with
  | nil =>
      intro existed asked stores deletes waits
      cases asked with
      | nil =>
          rcases waits with impossible | ⟨replica, member, _⟩
          · exact (impossible rfl).elim
          · cases member
      | cons entry rest =>
          obtain ⟨target, request⟩ := entry
          obtain rfl : request = .delete key :=
            deletes (target, request) List.mem_cons_self
          simp [Replicator.deleteLoop, Prog.serve,
            serveAll_eq_none (unanswered stores target)]
  | cons replica rest inductionHypothesis =>
      intro existed asked stores deletes waits
      -- The rest of the loop has somebody to wait for, unless it is this one.
      have further (skipped :
          ¬ (replica ≠ name ∧ replica ∈ (cluster.replicator name).peers)) :
          asked ≠ [] ∨
            ∃ other, other ∈ rest ∧ other ≠ name ∧
              other ∈ (cluster.replicator name).peers := by
        rcases waits with already | ⟨other, member, notLocal, inPool⟩
        · exact Or.inl already
        · rcases List.mem_cons.mp member with here | later
          · exact (skipped ⟨here ▸ notLocal, here ▸ inPool⟩).elim
          · exact Or.inr ⟨other, later, notLocal, inPool⟩
      simp only [Replicator.deleteLoop, cluster.named]
      split
      · rename_i isLocal
        simp only [Prog.serve]
        split
        · exact inductionHypothesis _ _ _ deletes
            (further fun both => both.1 isLocal)
        · exact inductionHypothesis _ _ _ deletes
            (further fun both => both.1 isLocal)
      · split
        · refine inductionHypothesis _ _ _ ?_ (Or.inl (by simp))
          intro entry member
          rcases List.mem_append.mp member with old | new
          · exact deletes entry old
          · rw [List.mem_singleton.mp new]
        · rename_i absent
          exact inductionHypothesis _ _ _ deletes
            (further fun both => absent both.2)

/-- With a second replica a `Delete` has no end: each replica asks another one. -/
theorem serve_delete_eq_none (pools : cluster.FullPools)
    (several : 1 < (cluster.replicas key).length) (fuel : Nat) :
    ∀ (chain : List (String × String)) (stores : String → NodeState)
      (name : String),
      cluster.service.serve held fuel chain stores name (.delete key) =
        none := by
  induction fuel with
  | zero => exact fun _ _ _ => rfl
  | succ fuel inductionHypothesis =>
      intro chain stores name
      obtain ⟨replica, member, notLocal⟩ :
          ∃ replica, replica ∈ cluster.replicas key ∧ replica ≠ name := by
        by_contra noOther
        simp only [not_exists, not_and, not_not] at noOther
        have onlyName : ∀ replica, replica ∈ cluster.replicas key →
            replica ∈ [name] := by
          intro replica member
          rw [List.mem_singleton]
          exact noOther replica member
        have atMost :=
          ((cluster.nodup_replicas key).subperm onlyName).length_le
        simp only [List.length_singleton] at atMost
        omega
      rw [serve_eq_map ((cluster.replicator name).deleteReplicated
        cluster.hash key) rfl]
      simp only [Replicator.deleteReplicated, cluster.agreement,
        Option.map_eq_none_iff]
      refine serve_deleteLoop_eq_none ?_ _ _ _ _ (by simp)
        (Or.inr ⟨replica, member, notLocal,
          pools name key replica member notLocal⟩)
      intro later target
      simp only [ite_eq_left_iff]
      exact fun _ => inductionHypothesis _ _ _

/-- The only replica deletes the key without asking anybody. -/
theorem serve_delete_local
    (held : List (String × String) → String × String → Bool) (fuel : Nat)
    (chain : List (String × String)) (stores : String → NodeState)
    {first : String}
    (replicasAre : cluster.replicas key = [first]) :
    ∃ served,
      cluster.service.serve held (fuel + 1) chain stores first (.delete key) =
          some served ∧
        served.sent = [] := by
  rw [serve_eq_map ((cluster.replicator first).deleteReplicated
    cluster.hash key) rfl]
  simp only [Replicator.deleteReplicated, cluster.agreement, replicasAre,
    Replicator.deleteLoop, cluster.named, if_true, Prog.serve]
  split
  · exact ⟨_, rfl, rfl⟩
  · exact ⟨_, rfl, rfl⟩

/-- A `Delete` is answered without a timeout if and only if the key has at most
one replica. -/
theorem delete_answered_iff (pools : cluster.FullPools)
    (free : ∀ connection, held [] connection = false)
    (stores : String → NodeState) (name key : String) :
    cluster.AnsweredWithin held stores name (.delete key)
        (cluster.replicas key).length ↔
      (cluster.replicas key).length ≤ 1 := by
  constructor
  · intro given
    obtain ⟨fuel, served, answers, _⟩ := given
    by_contra several
    rw [serve_delete_eq_none pools (Nat.lt_of_not_le several)] at answers
    cases answers
  · intro few
    cases replicasAre : cluster.replicas key with
    | nil =>
        refine
          ⟨1, { value := .deleted false, stores := stores, sent := [] }, ?_,
            Nat.zero_le _⟩
        rw [serve_eq_map ((cluster.replicator name).deleteReplicated
          cluster.hash key) rfl]
        simp only [Replicator.deleteReplicated, cluster.agreement, replicasAre]
        rfl
    | cons first rest =>
        obtain rfl : rest = [] := by
          rw [replicasAre] at few
          exact List.eq_nil_of_length_eq_zero (by simpa using few)
        by_cases isLocal : first = name
        · subst isLocal
          obtain ⟨served, answers, noneSent⟩ :=
            serve_delete_local held 0 [] stores replicasAre
          exact ⟨1, served, answers, by simp [noneSent]⟩
        · have inPool :=
            pools name key first (by simp [replicasAre]) isLocal
          obtain ⟨answered, answers, noneSent⟩ :=
            serve_delete_local held 0 [(name, first)] stores replicasAre
          refine
            ⟨2,
              { value :=
                  .deleted
                    (Replicator.existedAnywhere false [.ok answered.value])
                stores := answered.stores
                sent := [(first, .delete key)] }, ?_, Nat.le_refl 1⟩
          rw [serve_eq_map ((cluster.replicator name).deleteReplicated
            cluster.hash key) rfl]
          simp [Replicator.deleteReplicated, cluster.agreement, replicasAre,
            Replicator.deleteLoop, cluster.named, isLocal, inPool, Prog.serve,
            serveAll, free, answers, noneSent, KvServer.deleteResponse]

end Deletes

/-! ## Two nodes -/

/-- The replicas on a small ring are among the owners of its positions. -/
theorem mem_of_mem_replicas_small {names : List String}
    (owners : ∀ entry, entry ∈ (smallRing names).ring → entry.2 ∈ names)
    {key replica : String} (member : replica ∈ (small names).replicas key) :
    replica ∈ names := by
  have isReplica :
      replica ∈ (smallRing names).getNodes smallHash key 2 := member
  obtain ⟨position, inRing⟩ := ConsistentHashRing.mem_getNodes isReplica
  exact owners (position, replica) inRing

theorem fullPools_of_owners {names : List String}
    (owners : ∀ entry, entry ∈ (smallRing names).ring → entry.2 ∈ names) :
    (small names).FullPools :=
  fun _ _ _ member _ => mem_of_mem_replicas_small owners member

theorem fullPools_small : (small ["node-1", "node-2"]).FullPools :=
  fullPools_of_owners (by decide)

/-- The stores after one local write on the first node. -/
def storesWithKey : String → NodeState :=
  Function.update (small ["node-1", "node-2"]).service.boot "node-1"
    (((small ["node-1", "node-2"]).service.boot "node-1").put "k" [1] none)

/-- With the key on its first replica a `Get` is answered, without it not. -/
theorem get_answered_iff_two_nodes :
    (small ["node-1", "node-2"]).AnsweredWithin mutexHeld storesWithKey
        "node-2" (.get "k") 2 ∧
      ¬ (small ["node-1", "node-2"]).AnsweredWithin mutexHeld
        (small ["node-1", "node-2"]).service.boot "node-2" (.get "k") 2 := by
  refine ⟨?_, ?_⟩
  · refine (get_answered_iff fullPools_small (fun _ => rfl) storesWithKey
      "node-2" "k").mpr (Or.inr ?_)
    exact
      ⟨"node-1",
        { data := [1], version := 1, createdAt := 0, ttl := none }, by decide,
        rfl, rfl⟩
  · intro answered
    rcases (get_answered_iff fullPools_small (fun _ => rfl)
        (small ["node-1", "node-2"]).service.boot "node-2" "k").mp answered with
      few | ⟨first, entry, _, stored, _⟩
    · exact absurd few (by decide)
    · cases stored

/-- A `Get` of a key that is stored nowhere is not answered. -/
theorem not_get_answered :
    ¬ ∀ (cluster : Cluster) (stores : String → NodeState) (name key : String),
      cluster.FullPools →
      cluster.AnsweredWithin mutexHeld stores name (.get key)
        (cluster.replicator name).replicationFactor := by
  intro answered
  obtain ⟨fuel, served, answers, _⟩ :=
    answered (small ["node-1", "node-2"])
      (small ["node-1", "node-2"]).service.boot "node-1" "k" fullPools_small
  have replicasAre :
      (small ["node-1", "node-2"]).replicas "k" = ["node-1", "node-2"] := by
    decide
  rw [serve_get_eq_none fullPools_small replicasAre] at answers
  · cases answers
  · intro entry stored
    cases stored

/-- A key with two replicas cannot be deleted without a timeout. -/
theorem delete_answered_iff_two_nodes :
    ¬ (small ["node-1", "node-2"]).AnsweredWithin mutexHeld
      (small ["node-1", "node-2"]).service.boot "node-1" (.delete "k") 2 := by
  intro answered
  exact absurd
    ((delete_answered_iff fullPools_small (fun _ => rfl)
      (small ["node-1", "node-2"]).service.boot "node-1" "k").mp answered)
    (by decide)

/-- A `Delete` of a key with two replicas is not answered. -/
theorem not_delete_answered :
    ¬ ∀ (cluster : Cluster) (stores : String → NodeState) (name key : String),
      cluster.FullPools →
      cluster.AnsweredWithin mutexHeld stores name (.delete key)
        (cluster.replicas key).length := by
  intro answered
  obtain ⟨fuel, served, answers, _⟩ :=
    answered (small ["node-1", "node-2"])
      (small ["node-1", "node-2"]).service.boot "node-1" "k" fullPools_small
  rw [serve_delete_eq_none fullPools_small (by decide)] at answers
  cases answers

end Cluster

end HautePerformance.KvDistributed
