import HautePerformance.Library.RpcFrame

/-!
# What one client request does to the stores

A client request acts on the stores through the executions on its behalf, at any
time, also after it has been answered.  What each of these actions does to the
store of its node, the request does from its issue on, as long as nothing else
touches the stores meanwhile.
-/

namespace HautePerformance.Library.Rpc

variable {Node Store Req Resp Err Event : Type} [DecidableEq Node]

variable {root : Nat} {effect : Store → Store → Prop}

end HautePerformance.Library.Rpc
