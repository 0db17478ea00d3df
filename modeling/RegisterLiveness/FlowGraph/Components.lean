import RegisterLiveness.FlowGraph.Order

/-!
# Strongly connected components

Two blocks are in the same component when each is reachable from the other. `FlowGraph.components`
lists the components sinks first: whenever an edge leads from one component into another, the
target's component comes earlier. A block reaches strictly more blocks than any block of a later
component it reaches, so ordering the components by how many blocks their members reach gives
such an order. Each component lists its blocks by increasing index.
-/

namespace RegisterLiveness

namespace FlowGraph

/-- For every block, whether it is reachable from block `v` (including `v` itself). -/
def reachFrom (g : FlowGraph) (v : Nat) : Array Bool :=
  let nb := g.blockCount
  g.spread nb ((Array.replicate nb false).setIfInBounds v true) [v]

/-- The strongly connected components, sinks first, each by increasing block index. -/
def components (g : FlowGraph) : List (List Nat) :=
  let nb := g.blockCount
  let reach := (List.range nb).toArray.map g.reachFrom
  let reaches (u v : Nat) : Bool := (reach.getD u #[]).getD v false
  let componentOf (v : Nat) : List Nat := (List.range nb).filter fun u => reaches v u && reaches u v
  let comps := (List.range nb).foldl
    (fun acc v => if acc.any (·.contains v) then acc else acc ++ [componentOf v]) []
  let weight (c : List Nat) : Nat := ((reach.getD (c.headD 0) #[]).toList.filter id).length
  comps.mergeSort fun c d => weight c ≤ weight d

end FlowGraph

end RegisterLiveness
