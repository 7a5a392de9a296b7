import DialMenu.Cycle
import Mathlib.Data.List.Chain
import Mathlib.Data.List.Nodup

/-!
A depth-first search without a bound on its depth, as a relation between where it stands and what it finds. The search
is never cut short by its bound. A search that finds nothing has settled every node: its list of finished nodes is an
order in which successors come before the nodes that lead to them, so no way through the graph comes back. A cycle that
is found is a piece of the path that is being searched.
-/

namespace DialMenu.Cycle

variable {α : Type} {next : α → List α}

/-- `target` is a successor of `node`. -/
def Successor (next : α → List α) (target node : α) : Prop := target ∈ next node

/-- Every node of the list has its successors further down the list. -/
inductive Settled (next : α → List α) : List α → Prop
  | nil : Settled next []
  | cons {node : α} {done : List α} : Settled next done → (∀ target ∈ next node, target ∈ done) →
      Settled next (node :: done)

/-- From a settled node every way ends. -/
theorem Settled.acc {done : List α} (settled : Settled next done) {node : α} (mem : node ∈ done) :
    Acc (Successor next) node := by
  induction settled generalizing node with
  | nil => simp at mem
  | @cons head done _ below ih =>
    rcases List.mem_cons.1 mem with rfl | later
    · exact ⟨_, fun target edge => ih (below target edge)⟩
    · exact ih later

/-- No way leads from an accessible node back to itself. -/
theorem not_transGen_self {node : α} (acc : Acc (Successor next) node) :
    ¬ Relation.TransGen (Successor next) node node := by
  intro cycle
  have closed := acc.transGen
  induction closed with
  | intro node _ ih => exact ih node cycle (acc.inv_of_transGen cycle) cycle

/-- The list leads along edges from a node back to itself, and to no node twice before that. -/
structure IsCycle (edge : α → α → Prop) (cycle : List α) : Prop where
  long : 2 ≤ cycle.length
  closes : cycle.head? = cycle.getLast?
  chain : cycle.IsChain edge
  nodup : cycle.dropLast.Nodup

theorem IsCycle.exists_transGen {edge : α → α → Prop} {cycle : List α} (closed : IsCycle edge cycle) :
    ∃ node, Relation.TransGen edge node node := by
  obtain ⟨long, closes, chain, -⟩ := closed
  match cycle, long with
  | node :: second :: rest, _ =>
    have last : node ∈ second :: rest := by
      refine List.mem_of_getLast? ?_
      rw [← List.getLast?_cons_cons, ← closes]
      rfl
    exact ⟨node, (chain.imp fun _ _ => Relation.TransGen.single).rel_cons last⟩

/-- A way that the search may stand on: edges lead along it, past no node twice, and from its end to each of the nodes
that are searched next. -/
structure Way (next : α → List α) (path nodes : List α) : Prop where
  chain : path.IsChain fun node target => target ∈ next node
  nodup : path.Nodup
  leads : ∀ last ∈ path.getLast?, nodes ⊆ next last

namespace Way

variable {path nodes : List α} {node : α}

theorem nil (nodes : List α) : Way next [] nodes := ⟨.nil, .nil, nofun⟩

theorem skip (way : Way next path (node :: nodes)) : Way next path nodes where
  chain := way.chain
  nodup := way.nodup
  leads last there := (List.cons_subset.1 (way.leads last there)).2

/-- The way goes on to a node that is not on it. -/
theorem step (way : Way next path (node :: nodes)) (off : node ∉ path) : Way next (path ++ [node]) (next node) where
  chain := way.chain.append (List.isChain_singleton node) fun last there target here => by
    obtain rfl := Option.some.inj here
    exact (List.cons_subset.1 (way.leads last there)).1
  nodup := List.concat_eq_append ▸ List.Nodup.concat off way.nodup
  leads last there := by
    rw [List.getLast?_concat, Option.mem_some_iff] at there
    rw [there]
    exact List.Subset.refl _

variable [DecidableEq α]

/-- The way comes back to a node that is on it: from there on it is a cycle. -/
theorem isCycle (way : Way next path (node :: nodes)) (on : node ∈ path) :
    IsCycle (fun node target => target ∈ next node) (path.dropWhile (· ≠ node) ++ [node]) := by
  obtain ⟨front, back, rfl, off⟩ := List.eq_append_cons_of_mem on
  have passed : ∀ a ∈ front, decide (a ≠ node) = true := fun a mem =>
    decide_eq_true fun same => off (same ▸ mem)
  have cut : (front ++ node :: back).dropWhile (· ≠ node) = node :: back := by
    rw [List.dropWhile_append_of_pos passed]
    simp
  have part : (node :: back) <:+ front ++ node :: back := List.suffix_append _ _
  rw [cut]
  refine ⟨by simp, by rw [List.getLast?_concat]; rfl, ?_, ?_⟩
  · refine (way.chain.suffix part).append (List.isChain_singleton node) fun last there target here => ?_
    obtain rfl := Option.some.inj here
    refine (List.cons_subset.1 (way.leads last ?_)).1
    rwa [List.getLast?_append_of_ne_nil _ (List.cons_ne_nil _ _)]
  · rw [List.dropLast_concat]
    exact way.nodup.sublist part.sublist

end Way

/-- The cycle that was found, if any. -/
def Search.cycle? : Search α → Option (List α)
  | .found cycle => some cycle
  | .clear _ => none

variable [DecidableEq α]

/-- A depth-first search from each of the nodes in turn, to which `path` leads, with no bound on its depth. The nodes in
`done` are not searched again. -/
inductive Visits (next : α → List α) : List α → List α → List α → Search α → Prop
  | nil {path done : List α} : Visits next path done [] (.clear done)
  | finished {path done nodes : List α} {node : α} {result : Search α} : node ∈ done →
      Visits next path done nodes result → Visits next path done (node :: nodes) result
  | again {path done nodes : List α} {node : α} : node ∉ done → node ∈ path →
      Visits next path done (node :: nodes) (.found (path.dropWhile (· ≠ node) ++ [node]))
  | found {path done nodes : List α} {node : α} {cycle : List α} : node ∉ done → node ∉ path →
      Visits next (path ++ [node]) done (next node) (.found cycle) →
      Visits next path done (node :: nodes) (.found cycle)
  | clear {path done nodes middle : List α} {node : α} {result : Search α} : node ∉ done → node ∉ path →
      Visits next (path ++ [node]) done (next node) (.clear middle) → Visits next path (node :: middle) nodes result →
      Visits next path done (node :: nodes) result

namespace Visits

variable {path done nodes : List α} {result other : Search α}

/-- A search comes to one end only. -/
theorem unique (visits : Visits next path done nodes result) (visits' : Visits next path done nodes other) :
    result = other := by
  induction visits generalizing other with
  | nil =>
    cases visits'
    rfl
  | finished before _ ih =>
    cases visits' with
    | finished _ rest => exact ih rest
    | again fresh | found fresh | clear fresh => exact absurd before fresh
  | again fresh on =>
    cases visits' with
    | finished before => exact absurd before fresh
    | again => rfl
    | found _ off | clear _ off => exact absurd on off
  | found fresh off _ ih =>
    cases visits' with
    | finished before => exact absurd before fresh
    | again _ on => exact absurd on off
    | found _ _ below => exact ih below
    | clear _ _ below => cases ih below
  | clear fresh off _ _ ihBelow ih =>
    cases visits' with
    | finished before => exact absurd before fresh
    | again _ on => exact absurd on off
    | found _ _ below => cases ihBelow below
    | clear _ _ below rest =>
      cases ihBelow below
      exact ih rest

/-- A search that finds no cycle settles its nodes. -/
theorem settled {done' : List α} (visits : Visits next path done nodes (.clear done')) (before : Settled next done) :
    Settled next done' ∧ done ⊆ done' ∧ nodes ⊆ done' := by
  generalize ended : Search.clear done' = result at visits
  induction visits generalizing done' with
  | nil =>
    cases ended
    exact ⟨before, List.Subset.refl _, List.nil_subset _⟩
  | finished mem _ ih =>
    obtain ⟨settled, grown, covered⟩ := ih before ended
    exact ⟨settled, grown, List.cons_subset.2 ⟨grown mem, covered⟩⟩
  | again | found => cases ended
  | clear _ _ _ _ ihBelow ih =>
    obtain ⟨settledBelow, grownBelow, below⟩ := ihBelow before rfl
    obtain ⟨settled, grown, covered⟩ := ih (settledBelow.cons fun target edge => below edge) ended
    obtain ⟨here, middle⟩ := List.cons_subset.1 grown
    exact ⟨settled, List.Subset.trans grownBelow middle, List.cons_subset.2 ⟨here, covered⟩⟩

/-- A cycle that is found on a way is one of the graph. -/
theorem isCycle {cycle : List α} (visits : Visits next path done nodes (.found cycle)) (way : Way next path nodes) :
    IsCycle (fun node target => target ∈ next node) cycle := by
  generalize ended : Search.found cycle = result at visits
  induction visits with
  | nil => cases ended
  | finished _ _ ih => exact ih way.skip ended
  | @again path done nodes node _ on =>
    cases ended
    exact way.isCycle on
  | found _ off _ ih => exact ih (way.step off) ended
  | clear _ _ _ _ _ ih => exact ih way.skip ended

end Visits

/-- A search with room for every path of distinct nodes is not cut short. -/
theorem visits_searchAll {nodes : List α} (closed : ∀ node, ∀ target ∈ next node, target ∈ nodes) {depth : Nat}
    {path done targets : List α} (inside : targets ⊆ nodes) (among : path ⊆ nodes) (distinct : path.Nodup)
    (room : nodes.length ≤ depth + path.length) :
    Visits next path done targets (searchAll (search next depth path) done targets) := by
  induction depth using Nat.strongRecOn generalizing path done targets with
  | ind depth ih =>
    induction targets generalizing done with
    | nil => exact .nil
    | cons node targets ihRest =>
      obtain ⟨here, rest⟩ := List.cons_subset.1 inside
      unfold searchAll search
      by_cases before : node ∈ done
      · rw [if_pos before]
        exact .finished before (ihRest rest)
      rw [if_neg before]
      by_cases on : node ∈ path
      · rw [if_pos on]
        exact .again before on
      rw [if_neg on]
      have distinct' : (path ++ [node]).Nodup := List.concat_eq_append ▸ List.Nodup.concat on distinct
      have among' : path ++ [node] ⊆ nodes := List.append_subset.2 ⟨among, List.cons_subset.2 ⟨here, List.nil_subset _⟩⟩
      -- the path and its next node are distinct, so there is room for them
      have longer := distinct'.length_le_of_subset among'
      rw [List.length_append, List.length_singleton] at longer
      obtain ⟨below, rfl⟩ : ∃ below, depth = below + 1 := Nat.exists_eq_add_one.2 (by omega)
      have deeper : Visits next (path ++ [node]) done (next node) _ :=
        ih below (Nat.lt_succ_self below) (closed node) among' distinct' (by simp; omega)
      dsimp only
      generalize searchAll (search next below (path ++ [node])) done (next node) = found at deeper ⊢
      cases found with
      | found cycle => exact .found before on deeper
      | clear middle => exact .clear before on deeper (ihRest rest)

section Find

variable {nodes : List α} (closed : ∀ node, ∀ target ∈ next node, target ∈ nodes)
include closed

/-- The search ends, and answers what an unbounded one finds. -/
theorem exists_visits : ∃ result, Visits next [] [] nodes result ∧ find? nodes next = result.cycle? := by
  refine ⟨_, visits_searchAll closed (List.Subset.refl nodes) (List.nil_subset _) .nil (Nat.le_refl _), ?_⟩
  unfold find?
  split <;> rename_i ended <;> rw [ended] <;> rfl

/-- Where no cycle is found, every way from the nodes ends. -/
theorem acc_of_find?_eq_none (none : find? nodes next = none) {node : α} (mem : node ∈ nodes) :
    Acc (Successor next) node := by
  obtain ⟨result, visits, answer⟩ := exists_visits closed
  rw [none] at answer
  cases result with
  | found cycle => cases answer
  | clear done =>
    obtain ⟨settled, -, all⟩ := visits.settled .nil
    exact settled.acc (all mem)

/-- What is found is a cycle. -/
theorem isCycle_of_find? {cycle : List α} (some : find? nodes next = some cycle) :
    IsCycle (fun node target => target ∈ next node) cycle := by
  obtain ⟨result, visits, answer⟩ := exists_visits closed
  rw [some] at answer
  cases result with
  | found other =>
    obtain rfl := Option.some.inj answer
    exact visits.isCycle (.nil nodes)
  | clear done => cases answer

end Find

end DialMenu.Cycle
