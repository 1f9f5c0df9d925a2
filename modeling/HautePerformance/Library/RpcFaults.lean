import HautePerformance.Library.RpcEval

/-!
# Serving a request amid failures

The evaluation of one request when calls may fail.  A call is answered, or it is
refused and never reaches its target, or it is served and its answer comes too
late.  When every call is answered this is the evaluation without failures.
-/

namespace HautePerformance.Library.Rpc

variable {Node Store Req Resp Err Event : Type}

/-- What becomes of a call. -/
inductive Fate (Err : Type) where
  | answered
  | refused (cause : Err)
  | unheard (cause : Err)

/-- The fate of each call, by its caller, its target and its request. -/
abbrev Fates (Node Req Err : Type) := Node → Node → Req → Fate Err

/-- The outcome of a call with this fate, and the stores afterwards; `served` is
what comes of serving it. -/
def Fate.meet (fate : Fate Err) (stores : Node → Store)
    (served : Option (Resp × (Node → Store))) :
    Option (Except Err Resp × (Node → Store)) :=
  match fate with
  | .answered => served.map fun ended => (.ok ended.1, ended.2)
  | .refused cause => some (.error cause, stores)
  | .unheard cause => served.map fun ended => (.error cause, ended.2)

/-- The outcome of a call with this fate, when it has this response. -/
def Fate.outcome (fate : Fate Err) (response : Resp) : Except Err Resp :=
  match fate with
  | .answered => .ok response
  | .refused cause => .error cause
  | .unheard cause => .error cause

/-- A call that would be answered has an outcome, whatever its fate. -/
theorem Fate.meet_some (fate : Fate Err) (stores : Node → Store)
    (response : Resp) (after : Node → Store) :
    ∃ later,
      fate.meet stores (some (response, after)) =
        some (fate.outcome response, later) := by
  cases fate with
  | answered => exact ⟨after, rfl⟩
  | refused cause => exact ⟨stores, rfl⟩
  | unheard cause => exact ⟨after, rfl⟩

/-- How a node gets the outcome of a request that it has sent. -/
abbrev Attempting (Node Store Req Resp Err : Type) :=
  (Node → Store) → Node → Req → Option (Except Err Resp × (Node → Store))

/-- Make the calls one after the other. -/
def attemptAll (attempting : Attempting Node Store Req Resp Err) :
    (Node → Store) → List (Node × Req) →
      Option (List (Except Err Resp) × (Node → Store))
  | stores, [] => some ([], stores)
  | stores, (target, request) :: rest =>
      match attempting stores target request with
      | none => none
      | some (outcome, later) =>
          (attemptAll attempting later rest).map fun others =>
            (outcome :: others.1, others.2)

/-- When the outcome of a call does not depend on the stores, a round of calls has
the outcomes of its members. -/
theorem attemptAll_eq_map {attempting : Attempting Node Store Req Resp Err}
    {outcome : Node × Req → Except Err Resp} {calls : List (Node × Req)}
    (settled : ∀ call, call ∈ calls → ∀ stores,
      ∃ later, attempting stores call.1 call.2 = some (outcome call, later)) :
    ∀ stores, ∃ later,
      attemptAll attempting stores calls = some (calls.map outcome, later) := by
  induction calls with
  | nil => exact fun stores => ⟨stores, rfl⟩
  | cons call rest inductionHypothesis =>
      intro stores
      obtain ⟨middle, first⟩ := settled call List.mem_cons_self stores
      obtain ⟨later, others⟩ :=
        inductionHypothesis
          (fun other member => settled other (List.mem_cons_of_mem _ member))
          middle
      refine ⟨later, ?_⟩
      simp [attemptAll, first, others]

namespace Prog

variable [DecidableEq Node] {Result Mapped : Type}

/-- Run a program of a node; `asked` are the calls spawned since the last join. -/
def serveAmid (attempting : Attempting Node Store Req Resp Err) (node : Node) :
    List (Node × Req) → Prog Node Store Req Resp Err Result →
      (Node → Store) → Option (Result × (Node → Store))
  | _, .done result, stores => some (result, stores)
  | asked, .atomic act next, stores =>
      serveAmid attempting node asked (next (stores node))
        (Function.update stores node (act (stores node)))
  | asked, .spawn requests next, stores =>
      serveAmid attempting node (asked ++ requests) next stores
  | asked, .join next, stores =>
      match attemptAll attempting stores asked with
      | none => none
      | some (outcomes, later) =>
          serveAmid attempting node [] (next outcomes) later

variable {attempting : Attempting Node Store Req Resp Err} {node : Node}

/-- The response that a handler makes of its result does not matter for how it
runs. -/
theorem serveAmid_map (f : Result → Mapped)
    (prog : Prog Node Store Req Resp Err Result) :
    ∀ (asked : List (Node × Req)) (stores : Node → Store),
      serveAmid attempting node asked (prog.map f) stores =
        (serveAmid attempting node asked prog stores).map fun served =>
          (f served.1, served.2) := by
  induction prog with
  | done result => exact fun asked stores => rfl
  | atomic act next inductionHypothesis =>
      exact fun asked stores => inductionHypothesis _ _ _
  | spawn requests next inductionHypothesis =>
      exact fun asked stores => inductionHypothesis _ _
  | join next inductionHypothesis =>
      intro asked stores
      simp only [map_join, serveAmid]
      split
      · rfl
      · exact inductionHypothesis _ _ _

/-- A single call. -/
theorem serveAmid_call (target : Node) (request : Req)
    (missing : Except Err Resp)
    (next : Except Err Resp → Prog Node Store Req Resp Err Result)
    (stores : Node → Store) :
    serveAmid attempting node [] (call target request missing next) stores =
      match attempting stores target request with
      | none => none
      | some (outcome, later) =>
          serveAmid attempting node [] (next outcome) later := by
  simp only [call, serveAmid, List.nil_append, attemptAll]
  cases attempting stores target request with
  | none => rfl
  | some ended => rfl

end Prog

namespace Service

variable [DecidableEq Node]
variable (service : Service Node Store Req Resp Err Event)

/-- Serve a request on a node, with these fates of the calls that it causes. -/
def serveAmid (fates : Fates Node Req Err)
    (held : List (Node × Node) → Node × Node → Bool) :
    Nat → List (Node × Node) → (Node → Store) → Node → Req →
      Option (Resp × (Node → Store))
  | 0, _, _, _, _ => none
  | fuel + 1, chain, stores, node, request =>
      (service.handler node request).serveAmid
        (fun stores target called =>
          (fates node target called).meet stores
            (if held chain (node, target) then
              none
            else
              serveAmid fates held fuel ((node, target) :: chain) stores target
                called))
        node [] stores

end Service

/-! ## When every call is answered -/

/-- A round of calls that are answered. -/
theorem attemptAll_answered {answering : Answering Node Store Req Resp}
    {attempting : Attempting Node Store Req Resp Err}
    (answered : ∀ stores target request,
      attempting stores target request =
        (answering stores target request).map fun served =>
          (.ok served.value, served.stores))
    (calls : List (Node × Req)) :
    ∀ stores,
      attemptAll attempting stores calls =
        (serveAll answering stores calls).map fun served =>
          (served.value, served.stores) := by
  induction calls with
  | nil => exact fun stores => rfl
  | cons call rest inductionHypothesis =>
      intro stores
      obtain ⟨target, request⟩ := call
      simp only [attemptAll, serveAll, answered]
      cases answering stores target request with
      | none => rfl
      | some first =>
          simp only [Option.map_some, inductionHypothesis, Option.map_map]
          rfl

variable [DecidableEq Node]

theorem Prog.serveAmid_answered {Result : Type}
    {answering : Answering Node Store Req Resp}
    {attempting : Attempting Node Store Req Resp Err}
    (answered : ∀ stores target request,
      attempting stores target request =
        (answering stores target request).map fun served =>
          (.ok served.value, served.stores))
    (node : Node) (prog : Prog Node Store Req Resp Err Result) :
    ∀ (asked : List (Node × Req)) (stores : Node → Store),
      prog.serveAmid attempting node asked stores =
        (prog.serve answering node asked stores).map fun served =>
          (served.value, served.stores) := by
  induction prog with
  | done result => exact fun asked stores => rfl
  | atomic act next inductionHypothesis =>
      exact fun asked stores => inductionHypothesis _ _ _
  | spawn requests next inductionHypothesis =>
      exact fun asked stores => inductionHypothesis _ _
  | join next inductionHypothesis =>
      intro asked stores
      simp only [Prog.serveAmid, Prog.serve,
        attemptAll_answered answered asked stores]
      cases serveAll answering stores asked with
      | none => rfl
      | some round =>
          simp only [Option.map_some, inductionHypothesis, Option.map_map]
          rfl

/-- Without failures the two evaluations agree. -/
theorem Service.serveAmid_answered
    (service : Service Node Store Req Resp Err Event)
    (held : List (Node × Node) → Node × Node → Bool) (fuel : Nat) :
    ∀ (chain : List (Node × Node)) (stores : Node → Store) (node : Node)
      (request : Req),
      service.serveAmid (fun _ _ _ => .answered) held fuel chain stores node
          request =
        (service.serve held fuel chain stores node request).map fun served =>
          (served.value, served.stores) := by
  induction fuel with
  | zero => exact fun chain stores node request => rfl
  | succ fuel inductionHypothesis =>
      intro chain stores node request
      refine Prog.serveAmid_answered ?_ node _ [] stores
      intro later target called
      simp only [Fate.meet]
      split
      · rfl
      · rw [inductionHypothesis, Option.map_map]
        rfl

end HautePerformance.Library.Rpc
