/-!
Depth-first search for a cycle in a graph given by the successors of each node.
-/

namespace DialMenu.Cycle

variable {α : Type} [DecidableEq α]

/-- What a search knows when it comes back. -/
inductive Search (α : Type) where
  /-- A cycle: its first node comes again at the end. -/
  | found (cycle : List α)
  /-- No cycle is reachable from these nodes. -/
  | clear (done : List α)
deriving DecidableEq

/-- Searches from each node in turn, until there is a cycle. -/
def searchAll (search : List α → α → Search α) (done : List α) : List α → Search α
  | [] => .clear done
  | node :: nodes =>
    match search done node with
    | .found cycle => .found cycle
    | .clear done => searchAll search done nodes

/-- Searches from `node`, to which `path` leads. From the nodes in `done` no cycle is reachable. The way from
`node` on may be `depth` long; a path of distinct nodes is never longer than there are nodes. -/
def search (next : α → List α) : Nat → List α → List α → α → Search α
  | depth, path, done, node =>
    if node ∈ done then .clear done
    else if node ∈ path then .found (path.dropWhile (· ≠ node) ++ [node])
    else
      match depth with
      | 0 => .clear done
      | depth + 1 =>
        match searchAll (search next depth (path ++ [node])) done (next node) with
        | .found cycle => .found cycle
        | .clear done => .clear (node :: done)

/-- The first cycle found from `nodes`, which hold all successors. -/
def find? (nodes : List α) (next : α → List α) : Option (List α) :=
  match searchAll (search next nodes.length []) [] nodes with
  | .found cycle => some cycle
  | .clear _ => none

end DialMenu.Cycle
