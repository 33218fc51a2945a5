import Mathlib

/-!
# Gmaker.Discovery.Interface — nodes and events about them

What a discovery backend tells of the nodes of a service, whichever backend it is.
-/

namespace Gmaker.Discovery

/-- `NodeInfo`, without what no manager and no backend reads. -/
structure NodeInfo where
  serviceType : String
  nodeID : String
  host : String
  /-- A `uint32`. -/
  port : ℕ
deriving DecidableEq

inductive NodeEventType where
  | join
  | leave
  | update
deriving DecidableEq

structure NodeEvent where
  type : NodeEventType
  node : NodeInfo
deriving DecidableEq

end Gmaker.Discovery
