import HautePerformance.Library.RpcTyping

/-!
# Serving a request to the end

The evaluation of one request when every message is delivered, every handler runs
and nobody gives up: the calls of a round are served one after the other.  It
returns nothing when the fuel is used up, which is the depth of nested calls, or
when a call has to wait for a connection that is held by a call above it.

`held chain connection` says whether the connection is taken when the calls in
`chain` are waiting for their answers; a request that comes from outside finds no
connection taken.
-/

namespace HautePerformance.Library.Rpc

variable {Node Store Req Resp Err Event : Type}

/-- The result of a complete evaluation: the value, the stores afterwards and the
requests sent between nodes, in order. -/
structure Served (Node Store Req Result : Type) where
  value : Result
  stores : Node → Store
  sent : List (Node × Req)

/-- How a node gets the answer to a request that it has sent. -/
abbrev Answering (Node Store Req Resp : Type) :=
  (Node → Store) → Node → Req → Option (Served Node Store Req Resp)

/-- Serve the requests one after the other. -/
def serveAll (answering : Answering Node Store Req Resp) :
    (Node → Store) → List (Node × Req) →
      Option (Served Node Store Req (List (Except Err Resp)))
  | stores, [] => some { value := [], stores := stores, sent := [] }
  | stores, (target, request) :: rest =>
      match answering stores target request with
      | none => none
      | some first =>
          (serveAll answering first.stores rest).map fun others =>
            { value := .ok first.value :: others.value
              stores := others.stores
              sent := (target, request) :: first.sent ++ others.sent }

namespace Prog

variable [DecidableEq Node] {Result Mapped : Type}

/-- Run a program of a node; `asked` are the calls spawned since the last join. -/
def serve (answering : Answering Node Store Req Resp) (node : Node) :
    List (Node × Req) → Prog Node Store Req Resp Err Result →
      (Node → Store) → Option (Served Node Store Req Result)
  | _, .done result, stores =>
      some { value := result, stores := stores, sent := [] }
  | asked, .atomic act next, stores =>
      serve answering node asked (next (stores node))
        (Function.update stores node (act (stores node)))
  | asked, .spawn requests next, stores =>
      serve answering node (asked ++ requests) next stores
  | asked, .join next, stores =>
      match serveAll answering stores asked with
      | none => none
      | some answered =>
          (serve answering node [] (next answered.value) answered.stores).map
            fun rest => { rest with sent := answered.sent ++ rest.sent }

variable {answering : Answering Node Store Req Resp} {node : Node}

/-- The response that a handler makes of its result does not matter for how it
runs. -/
theorem serve_map (f : Result → Mapped)
    (prog : Prog Node Store Req Resp Err Result) :
    ∀ (asked : List (Node × Req)) (stores : Node → Store),
      serve answering node asked (prog.map f) stores =
        (serve answering node asked prog stores).map fun served =>
          { value := f served.value
            stores := served.stores
            sent := served.sent } := by
  induction prog with
  | done result => exact fun asked stores => rfl
  | atomic act next inductionHypothesis =>
      exact fun asked stores => inductionHypothesis _ _ _
  | spawn requests next inductionHypothesis =>
      exact fun asked stores => inductionHypothesis _ _
  | join next inductionHypothesis =>
      intro asked stores
      simp only [map_join, serve]
      split
      · rfl
      · rw [inductionHypothesis]
        simp only [Option.map_map]
        rfl

/-- A single call. -/
theorem serve_call (target : Node) (request : Req) (missing : Except Err Resp)
    (next : Except Err Resp → Prog Node Store Req Resp Err Result)
    (stores : Node → Store) :
    serve answering node [] (call target request missing next) stores =
      match answering stores target request with
      | none => none
      | some answered =>
          (serve answering node [] (next (.ok answered.value))
            answered.stores).map fun rest =>
              { rest with
                sent := (target, request) :: answered.sent ++ rest.sent } := by
  simp only [call, serve, List.nil_append, serveAll]
  cases answering stores target request with
  | none => rfl
  | some answered => simp

end Prog

/-- A call that is never answered leaves its round without an end. -/
theorem serveAll_eq_none {answering : Answering Node Store Req Resp}
    {stores : Node → Store} {target : Node} {request : Req}
    {rest : List (Node × Req)}
    (unanswered : answering stores target request = none) :
    (serveAll answering stores ((target, request) :: rest) :
      Option (Served Node Store Req (List (Except Err Resp)))) = none := by
  simp [serveAll, unanswered]

namespace Service

variable [DecidableEq Node]
variable (service : Service Node Store Req Resp Err Event)

/-- Serve a request on a node; the calls in `chain`, each from a node to another,
are waiting for their answers meanwhile. -/
def serve (held : List (Node × Node) → Node × Node → Bool) :
    Nat → List (Node × Node) → (Node → Store) → Node → Req →
      Option (Served Node Store Req Resp)
  | 0, _, _, _, _ => none
  | fuel + 1, chain, stores, node, request =>
      (service.handler node request).serve
        (fun stores target called =>
          if held chain (node, target) then
            none
          else
            serve held fuel ((node, target) :: chain) stores target called)
        node [] stores

end Service

/-! ## One node, answered from outside -/

namespace Prog

variable {Result Mapped : Type}

/-- Run a program on one store.  `outside` gives the outcomes of the calls of
each round, whatever they are. -/
def runWith (outside : Nat → List (Node × Req) → List (Except Err Resp)) :
    Nat → List (Node × Req) → Prog Node Store Req Resp Err Result → Store →
      Result × Store
  | _, _, .done result, store => (result, store)
  | round, asked, .atomic act next, store =>
      runWith outside round asked (next store) (act store)
  | round, asked, .spawn requests next, store =>
      runWith outside round (asked ++ requests) next store
  | round, asked, .join next, store =>
      runWith outside (round + 1) [] (next (outside round asked)) store

/-- The requests that the run sends, in order. -/
def spawned (outside : Nat → List (Node × Req) → List (Except Err Resp)) :
    Nat → List (Node × Req) → Prog Node Store Req Resp Err Result → Store →
      List (Node × Req)
  | _, _, .done _, _ => []
  | round, asked, .atomic act next, store =>
      spawned outside round asked (next store) (act store)
  | round, asked, .spawn requests next, store =>
      requests ++ spawned outside round (asked ++ requests) next store
  | round, asked, .join next, store =>
      spawned outside (round + 1) [] (next (outside round asked)) store

variable {outside : Nat → List (Node × Req) → List (Except Err Resp)}
variable {acts : (Store → Store) → Prop} {calls : Node → Req → Prop}

/-- What every action of a program keeps, its run keeps. -/
theorem Within.runWith {prog : Prog Node Store Req Resp Err Result}
    (within : prog.Within acts calls) (property : Store → Prop)
    (keeps : ∀ act, acts act → ∀ store, property store → property (act store)) :
    ∀ (round : Nat) (asked : List (Node × Req)) (store : Store),
      property store → property (prog.runWith outside round asked store).2 := by
  induction prog with
  | done result => exact fun _ _ _ holds => holds
  | atomic act next inductionHypothesis =>
      intro round asked store holds
      exact inductionHypothesis store (within.2 store) round asked (act store)
        (keeps act within.1 store holds)
  | spawn requests next inductionHypothesis =>
      intro round asked store holds
      exact inductionHypothesis within.2 round (asked ++ requests) store holds
  | join next inductionHypothesis =>
      intro round asked store holds
      exact inductionHypothesis (outside round asked)
        (within (outside round asked)) (round + 1) [] store holds

/-- What a run sends is among the calls of the program. -/
theorem Within.spawned {prog : Prog Node Store Req Resp Err Result}
    (within : prog.Within acts calls) {target : Node} {request : Req} :
    ∀ (round : Nat) (asked : List (Node × Req)) (store : Store),
      (target, request) ∈ prog.spawned outside round asked store →
      calls target request := by
  induction prog with
  | done result =>
      intro _ _ _ impossible
      cases impossible
  | atomic act next inductionHypothesis =>
      intro round asked store member
      exact inductionHypothesis store (within.2 store) round asked _ member
  | spawn requests next inductionHypothesis =>
      intro round asked store member
      rcases List.mem_append.mp member with here | later
      · exact within.1 target request here
      · exact inductionHypothesis within.2 round _ store later
  | join next inductionHypothesis =>
      intro round asked store member
      exact inductionHypothesis _ (within _) (round + 1) [] store member

/-- A program without actions leaves the store alone. -/
theorem Actless.runWith {prog : Prog Node Store Req Resp Err Result}
    (actless : prog.Actless) (round : Nat) (asked : List (Node × Req))
    (store : Store) : (prog.runWith outside round asked store).2 = store :=
  Within.runWith actless (· = store) (fun _ impossible => impossible.elim)
    round asked store rfl

theorem runWith_map (f : Result → Mapped)
    (prog : Prog Node Store Req Resp Err Result) :
    ∀ (round : Nat) (asked : List (Node × Req)) (store : Store),
      (prog.map f).runWith outside round asked store =
        (f (prog.runWith outside round asked store).1,
          (prog.runWith outside round asked store).2) := by
  induction prog with
  | done result => exact fun _ _ _ => rfl
  | atomic act next inductionHypothesis =>
      exact fun _ _ store => inductionHypothesis store _ _ _
  | spawn requests next inductionHypothesis =>
      exact fun _ _ _ => inductionHypothesis _ _ _
  | join next inductionHypothesis =>
      exact fun _ _ _ => inductionHypothesis _ _ _ _

theorem spawned_map (f : Result → Mapped)
    (prog : Prog Node Store Req Resp Err Result) :
    ∀ (round : Nat) (asked : List (Node × Req)) (store : Store),
      (prog.map f).spawned outside round asked store =
        prog.spawned outside round asked store := by
  induction prog with
  | done result => exact fun _ _ _ => rfl
  | atomic act next inductionHypothesis =>
      exact fun _ _ store => inductionHypothesis store _ _ _
  | spawn requests next inductionHypothesis =>
      exact fun _ _ _ => congrArg (requests ++ ·) (inductionHypothesis _ _ _)
  | join next inductionHypothesis =>
      exact fun _ _ _ => inductionHypothesis _ _ _ _

/-- One move of a program; a join is given the outcomes of its calls. -/
def move (outcomes : List (Except Err Resp)) (store : Store) :
    Prog Node Store Req Resp Err Result →
      Option (Prog Node Store Req Resp Err Result × Store)
  | .done _ => none
  | .atomic act next => some (next store, act store)
  | .spawn _ next => some (next, store)
  | .join next => some (next outcomes, store)

/-- Some run of the program, on whatever stores and with whatever outcomes of its
calls, ends in the result. -/
def Yields (result : Result) : Prog Node Store Req Resp Err Result → Prop
  | .done given => given = result
  | .atomic _ next => ∃ store, Yields result (next store)
  | .spawn _ next => Yields result next
  | .join next => ∃ outcomes, Yields result (next outcomes)

/-- What the rest of a program yields, the program yields. -/
theorem Yields.of_move {prog rest : Prog Node Store Req Resp Err Result}
    {outcomes : List (Except Err Resp)} {before store : Store}
    {result : Result} (moved : prog.move outcomes before = some (rest, store))
    (yields : rest.Yields result) : prog.Yields result := by
  cases prog with
  | done given => cases moved
  | atomic act next =>
      cases moved
      exact ⟨before, yields⟩
  | spawn requests next =>
      cases moved
      exact yields
  | join next =>
      cases moved
      exact ⟨outcomes, yields⟩

end Prog

end HautePerformance.Library.Rpc
