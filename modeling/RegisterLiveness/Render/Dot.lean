import RegisterLiveness.Analysis.Query

/-!
# The control-flow graph as a Graphviz digraph

`Liveness.toDot` draws every block as a box labelled with its instruction range and its live-in
and live-out sets, left-aligned on three lines, followed by one arrow per successor, in the order
the successors are listed.
-/

namespace RegisterLiveness

namespace Liveness

/-- The lines drawing block `bb` and its outgoing edges. -/
def dotBlock (lv : Liveness) (bb : Nat) : List String :=
  let b := lv.graph.block bb
  let inn := (lv.flow.ins.getD bb .empty).render
  let out := (lv.flow.outs.getD bb .empty).render
  let node := s!"    bb_{bb} [label=\"bb_{bb} [" ++ toString b.start ++ ", " ++ toString b.stop ++
    ")\\lin:  " ++ inn ++ "\\lout: " ++ out ++ "\\l\"];"
  node :: b.succs.map fun s => s!"    bb_{bb} -> bb_{s};"

/-- The whole graph in Graphviz syntax, ending with a newline. -/
def toDot (lv : Liveness) : String :=
  let header := ["digraph CFG \x7b", "    node [shape=box fontname=\"monospace\"];"]
  let body := (List.range lv.blockCount).flatMap lv.dotBlock
  "\n".intercalate (header ++ body ++ ["\x7d"]) ++ "\n"

end Liveness

end RegisterLiveness
