import CellMachine.Cell

/-!
# Nodes

The plainest payload: a numbered node of a chosen size with a list of edges.
-/

namespace CellMachine

structure Node where
  id : Nat
  kind : String
  bytes : Nat
  alignment : Nat
  /-- Edges, oldest first. -/
  edges : List Value
deriving DecidableEq, Repr

instance : Payload Node where
  size n := n.bytes
  align n := n.alignment
  typeName n := n.kind
  children n := n.edges

namespace Node

def addEdge (n : Node) (v : Value) : Node := { n with edges := n.edges ++ [v] }

def removeEdges (n : Node) (v : Value) : Node :=
  { n with edges := n.edges.filter (· != v) }

end Node

end CellMachine
