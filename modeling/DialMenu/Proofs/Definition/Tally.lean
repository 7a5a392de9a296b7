import DialMenu.Proofs.Definition.Findings
import Mathlib.Data.List.Count

/-!
How often the check of a definition reports what it finds. At a state the rules report different kinds of violations,
and only the targets and the names of its candidates can be wrong more than once.
-/

namespace DialMenu

/-- What comes from the value at one key is all that a list over a table has of it. -/
theorem Table.filter_flatMap {κ α β : Type} [Ord κ] [DecidableEq κ] [Std.LawfulEqOrd κ] {table : Table κ α}
    {f : κ → α → List β} {P : β → Bool} {k : κ} (own : ∀ key value, ∀ b ∈ f key value, P b = true → key = k) :
    (table.entries.flatMap fun entry => f entry.1 entry.2).filter P =
      ((table.get? k).toList.flatMap (f k)).filter P := by
  have other (key : κ) (value : α) (differ : key ≠ k) : (f key value).filter P = [] :=
    List.filter_eq_nil_iff.2 fun b mem holds => differ (own key value b mem holds)
  obtain ⟨entries, sorted⟩ := table
  unfold get?
  induction entries with
  | nil => rfl
  | cons entry rest ih =>
    obtain ⟨key, value⟩ := entry
    obtain ⟨below, sortedRest⟩ := List.pairwise_cons.1 sorted
    rw [List.flatMap_cons, List.filter_append]
    by_cases here : key = k
    · subst here
      have later : (rest.flatMap fun entry => f entry.1 entry.2).filter P = [] := by
        refine List.filter_eq_nil_iff.2 fun b mem holds => ?_
        obtain ⟨entry, inside, found⟩ := List.mem_flatMap.1 mem
        have less := below entry inside
        rw [own _ _ b found holds] at less
        simp at less
      simp [Entries.get?, later]
    · rw [other key value here, List.nil_append, ih sortedRest]
      simp [Entries.get?, here]

namespace Definition

variable {definition : Definition} {names : Names} {id : String} {state : State} {violation : Violation}

/-- What is reported of the definition as a whole. -/
def heading (definition : Definition) : List Violation :=
  reportIf (!definition.states.contains definition.initial) (.missingInitial definition.initial) ++
    (definition.unboundedChain?.map Violation.unboundedChain).toList

theorem state?_of_mem_heading (mem : violation ∈ definition.heading) : violation.state? = none := by
  rcases List.mem_append.1 mem with initial | chain
  · rw [(mem_reportIf.1 initial).2]
    rfl
  · obtain ⟨cycle, -, rfl⟩ := Option.map_eq_some_iff.1 (Option.mem_toList.1 chain)
    rfl

/-- The whole report, counted: what is reported of the definition, the states one by one for their graph, and again for
their names. -/
theorem countP_violations_eq (P : Violation → Bool) : (definition.violations names).countP P =
    definition.heading.countP P +
      (definition.states.entries.flatMap fun entry => entry.2.violations definition entry.1).countP P +
      (definition.states.entries.flatMap fun entry => entry.2.unresolved names entry.1).countP P := by
  unfold violations graphViolations nameViolations heading
  simp only [List.countP_append]
  omega

/-- What is reported at a state comes from that state. -/
theorem countP_violations {P : Violation → Bool} (found : definition.state? id = some state)
    (own : ∀ violation, P violation = true → violation.state? = some id) :
    (definition.violations names).countP P = (state.report definition names id).countP P := by
  have found : definition.states.get? id = some state := found
  have heading : definition.heading.countP P = 0 := List.countP_eq_zero.2 fun violation mem holds => by
    simpa [state?_of_mem_heading mem] using own violation holds
  have states (part : String → State → List Violation)
      (within : ∀ key value, part key value ⊆ value.report definition names key) :
      (definition.states.entries.flatMap fun entry => part entry.1 entry.2).countP P = (part id state).countP P := by
    have place (key : String) (value : State) : ∀ violation ∈ part key value, P violation = true → key = id := by
      intro violation mem holds
      have defect := State.mem_report_iff_defect.1 (within key value mem)
      exact Option.some.inj (defect.state?_eq.symm.trans (own _ holds))
    rw [List.countP_eq_length_filter, Table.filter_flatMap place, found, List.countP_eq_length_filter]
    simp
  rw [countP_violations_eq, heading,
    states (fun id state => state.violations definition id) fun _ _ => List.subset_append_left _ _,
    states (fun id state => state.unresolved names id) fun _ _ => List.subset_append_right _ _,
    State.report, List.countP_append, Nat.zero_add]

/-- What is reported without a state is reported of the definition. -/
theorem countP_violations_of_none {P : Violation → Bool}
    (own : ∀ violation, P violation = true → violation.state? = none) :
    (definition.violations names).countP P = definition.heading.countP P := by
  have states (part : String → State → List Violation)
      (within : ∀ key value, part key value ⊆ value.report definition names key) :
      (definition.states.entries.flatMap fun entry => part entry.1 entry.2).countP P = 0 := by
    refine List.countP_eq_zero.2 fun violation mem holds => ?_
    obtain ⟨entry, -, inside⟩ := List.mem_flatMap.1 mem
    have defect := State.mem_report_iff_defect.1 (within entry.1 entry.2 inside)
    exact nomatch defect.state?_eq.symm.trans (own _ holds)
  rw [countP_violations_eq,
    states (fun id state => state.violations definition id) fun _ _ => List.subset_append_left _ _,
    states (fun id state => state.unresolved names id) fun _ _ => List.subset_append_right _ _, Nat.add_zero]

theorem map_kind_reportIf (condition : Bool) (violation : Violation) :
    ((reportIf condition violation).map Violation.kind).Sublist [violation.kind] := by
  cases condition <;> simp [reportIf]

theorem nodup_kinds_heading : (definition.heading.map Violation.kind).Nodup := by
  have chain : ((definition.unboundedChain?.map Violation.unboundedChain).toList.map Violation.kind).Sublist
      ["UnboundedChain"] := by
    cases definition.unboundedChain? with
    | none => exact List.nil_sublist _
    | some => exact List.Sublist.refl _
  rw [heading, List.map_append]
  exact ((map_kind_reportIf _ _).append chain).nodup (by simp [Violation.kind])

theorem countP_kind_le_one {found : List Violation} (nodup : (found.map Violation.kind).Nodup) (kind : String) :
    (found.countP fun violation => violation.kind = kind) ≤ 1 := by
  have counted := List.nodup_iff_count_le_one.1 nodup kind
  rwa [List.count_eq_countP, List.countP_map] at counted

namespace State

/-- The kinds of what is reported of a state, apart from targets and names: no kind comes twice. -/
theorem nodup_kinds :
    ((state.finalViolations id ++ state.raiseViolations id ++ state.callViolations id).map Violation.kind).Nodup := by
  have final : ((state.finalViolations id).map Violation.kind).Sublist
      ["FinalWithTransitions", "FinalWithEffects"] := by
    unfold finalViolations
    split
    · rw [List.map_append]
      exact (map_kind_reportIf _ _).append (map_kind_reportIf _ _)
    · exact List.nil_sublist _
  have call : ((state.callViolations id).map Violation.kind).Sublist ["MissingDoneRoute", "MissingErrorRoute"] := by
    unfold callViolations
    split
    · exact List.nil_sublist _
    · rw [List.map_append]
      exact (map_kind_reportIf _ _).append (map_kind_reportIf _ _)
  have raise : ∃ kind ∈ ["UnhandledRaise", "RaiseWithoutFallback"],
      ((state.raiseViolations id).map Violation.kind).Sublist [kind, "RaiseAndInvoke"] := by
    unfold raiseViolations
    split
    · exact ⟨_, List.mem_cons_self, List.nil_sublist _⟩
    · dsimp only
      rw [List.map_append]
      split
      · exact ⟨_, List.mem_cons_self, (List.Sublist.refl _).append (map_kind_reportIf _ _)⟩
      · exact ⟨_, List.mem_cons_of_mem _ List.mem_cons_self, (map_kind_reportIf _ _).append (map_kind_reportIf _ _)⟩
  obtain ⟨kind, mem, raise⟩ := raise
  rw [List.map_append, List.map_append]
  refine ((final.append raise).append call).nodup ?_
  rcases List.mem_pair.1 mem with rfl | rfl <;> decide

theorem report_eq : state.report definition names id = state.targetViolations definition id ++
    (state.finalViolations id ++ state.raiseViolations id ++ state.callViolations id) ++ state.unresolved names id := by
  simp [report, violations]

theorem kind_of_mem_targetViolations (mem : violation ∈ state.targetViolations definition id) :
    violation.kind = "UnknownTarget" := by
  obtain ⟨route, -, -, rfl⟩ := mem_targetViolations_iff.1 mem
  rfl

theorem kind_of_mem_unresolved (mem : violation ∈ state.unresolved names id) : violation.kind = "UnresolvedName" := by
  obtain ⟨kind, name, -, -, rfl⟩ := mem_unresolved_iff.1 mem
  rfl

/-- A state has no defect twice, apart from its targets and its names. -/
theorem countP_kind_report_le_one {kind : String} (notTarget : kind ≠ "UnknownTarget")
    (notName : kind ≠ "UnresolvedName") :
    ((state.report definition names id).countP fun violation => violation.kind = kind) ≤ 1 := by
  have targets : (state.targetViolations definition id).countP (fun violation => violation.kind = kind) = 0 :=
    List.countP_eq_zero.2 fun violation mem same =>
      notTarget ((of_decide_eq_true same).symm.trans (kind_of_mem_targetViolations mem))
  have unresolved : (state.unresolved names id).countP (fun violation => violation.kind = kind) = 0 :=
    List.countP_eq_zero.2 fun violation mem same =>
      notName ((of_decide_eq_true same).symm.trans (kind_of_mem_unresolved mem))
  rw [report_eq, List.countP_append, List.countP_append, targets, unresolved, Nat.zero_add, Nat.add_zero]
  exact countP_kind_le_one nodup_kinds kind

end State

/-- Of each kind there is one violation at most without a state, and one at each state; only targets and names can be
wrong more than once. -/
theorem countP_kind_violations_le_one (violation : Violation) (notTarget : violation.kind ≠ "UnknownTarget")
    (notName : violation.kind ≠ "UnresolvedName") :
    ((definition.violations names).countP fun other =>
      other.kind = violation.kind ∧ other.state? = violation.state?) ≤ 1 := by
  have fewer (found : List Violation) :
      (found.countP fun other => other.kind = violation.kind ∧ other.state? = violation.state?) ≤
        found.countP fun other => other.kind = violation.kind :=
    List.countP_mono_left fun other _ same => decide_eq_true (of_decide_eq_true same).1
  cases place : violation.state? with
  | none =>
    rw [countP_violations_of_none fun other same => (of_decide_eq_true same).2]
    rw [place] at fewer
    exact (fewer _).trans (countP_kind_le_one nodup_kinds_heading _)
  | some id =>
    rw [place] at fewer
    cases found : definition.state? id with
    | some state =>
      rw [countP_violations found fun other same => (of_decide_eq_true same).2]
      exact (fewer _).trans (State.countP_kind_report_le_one notTarget notName)
    | none =>
      refine Nat.le_trans (Nat.le_of_eq (List.countP_eq_zero.2 fun other mem same => ?_)) (Nat.zero_le 1)
      obtain ⟨state, here, -⟩ := exists_defect_of_mem mem (of_decide_eq_true same).2
      rw [found] at here
      cases here

theorem State.count_other_eq_zero {kind : String} (others : kind = "UnknownTarget" ∨ kind = "UnresolvedName")
    (same : violation.kind = kind) :
    (state.finalViolations id ++ state.raiseViolations id ++ state.callViolations id).count violation = 0 := by
  refine List.count_eq_zero.2 fun mem => ?_
  simp only [List.mem_append, mem_finalViolations_iff, mem_raiseViolations_iff, mem_callViolations_iff] at mem
  rcases others with rfl | rfl <;> cases violation <;> simp [Violation.kind] at mem same

/-- A target that is not defined is reported for every candidate that leads there. -/
theorem count_unknownTarget {target : String} (found : definition.state? id = some state)
    (undefined : definition.state? target = none) :
    (definition.violations names).count (.unknownTarget id target) = (state.offers.map Route.target).count target := by
  have injective : Function.Injective (Violation.unknownTarget id) := fun _ _ same =>
    (Violation.unknownTarget.inj same).2
  have missing : (!definition.states.contains target) = true := by
    rw [Table.contains, show definition.states.get? target = none from undefined]
    rfl
  have targets : state.targetViolations definition id =
      ((state.offers.map Route.target).filter fun target => !definition.states.contains target).map
        (.unknownTarget id) := by
    rw [State.targetViolations, State.routes_eq_offers, List.filter_map, List.map_map]
    rfl
  have unresolved : (state.unresolved names id).count (.unknownTarget id target) = 0 :=
    List.count_eq_zero.2 fun mem => absurd (State.kind_of_mem_unresolved mem) (by simp [Violation.kind])
  rw [List.count_eq_countP, countP_violations found fun violation same => ?_, ← List.count_eq_countP, State.report_eq,
    List.count_append, List.count_append, State.count_other_eq_zero (.inl rfl) rfl, unresolved, targets,
    List.count_map_of_injective _ _ injective, List.count_filter (by exact missing)]
  · rfl
  · rw [eq_of_beq same]
    rfl

/-- Of the names of one kind that have no binding each is reported as often as it comes. -/
theorem count_unbound (id : String) {kind : NameKind} {name : String} (unbound : names.binds kind name = false)
    (other : NameKind) (listed : List String) :
    ((listed.filter fun name => !names.binds other name).map (Violation.unresolvedName id other)).count
      (.unresolvedName id kind name) = if kind = other then listed.count name else 0 := by
  split
  · rename_i same
    subst same
    have injective : Function.Injective (Violation.unresolvedName id kind) := fun _ _ same =>
      (Violation.unresolvedName.inj same).2.2
    rw [List.count_map_of_injective _ _ injective, List.count_filter (by rw [unbound, Bool.not_false])]
  · rename_i differ
    refine List.count_eq_zero.2 fun mem => ?_
    obtain ⟨_, -, same⟩ := List.mem_map.1 mem
    exact differ (Violation.unresolvedName.inj same).2.1.symm

theorem Route.count_unresolved {kind : NameKind} {name : String} (unbound : names.binds kind name = false)
    (route : Route) :
    (Route.unresolved names id route).count (.unresolvedName id kind name) = (route.named kind).count name := by
  have guard := count_unbound id unbound .guard route.guard.toList
  have action := count_unbound id unbound .action route.actions
  rw [Route.unresolved, List.count_append]
  refine (congrArg₂ (· + ·) guard action).trans ?_
  cases kind <;> simp [DialMenu.Route.named]

/-- A name without a binding is reported for every time that the state refers to it. -/
theorem count_unresolvedName {kind : NameKind} {name : String} (found : definition.state? id = some state)
    (unbound : names.binds kind name = false) :
    (definition.violations names).count (.unresolvedName id kind name) = (state.named kind).count name := by
  have targets : (state.targetViolations definition id).count (.unresolvedName id kind name) = 0 :=
    List.count_eq_zero.2 fun mem => absurd (State.kind_of_mem_targetViolations mem) (by simp [Violation.kind])
  have routes : (state.routes.flatMap (Route.unresolved names id)).count (.unresolvedName id kind name) =
      (state.offers.flatMap fun route => route.named kind).count name := by
    rw [List.count_flatMap, List.count_flatMap, State.routes_eq_offers]
    exact congrArg List.sum (List.map_congr_left fun route _ => Route.count_unresolved unbound route)
  have unresolved : (state.unresolved names id).count (.unresolvedName id kind name) =
      (state.named kind).count name := by
    have service := count_unbound id unbound .service (state.call.toList.map Call.service)
    rw [State.unresolved, List.count_append, routes]
    refine (congrArg _ service).trans ?_
    cases kind <;> simp [State.named]
  rw [List.count_eq_countP, countP_violations found fun violation same => ?_, ← List.count_eq_countP, State.report_eq,
    List.count_append, List.count_append, State.count_other_eq_zero (.inr rfl) rfl, targets, unresolved]
  · simp
  · rw [eq_of_beq same]
    rfl

theorem unboundedChain_mem_violations_iff {cycle : List String} :
    .unboundedChain cycle ∈ definition.violations names ↔ definition.unboundedChain? = some cycle := by
  rw [mem_violations_iff]
  constructor
  · rintro (defect | ⟨other, found, same⟩)
    · cases defect with
      | state _ here => cases here
    · rw [found, Violation.unboundedChain.inj same]
  · exact fun found => .inr ⟨cycle, found, rfl⟩

/-- The report holds the defects of the definition, each as often as it is there, and nothing else. -/
structure Reports (definition : Definition) (names : Names) (found : List Violation) : Prop where
  defect : ∀ violation : Violation, violation.isUnboundedChain = false →
    (violation ∈ found ↔ definition.Defect names violation)
  /-- A target that is not defined comes once for each candidate that leads there. -/
  targets : ∀ id state target, definition.state? id = some state → definition.state? target = none →
    found.count (.unknownTarget id target) = (state.offers.map Route.target).count target
  /-- A name that is not bound comes once for each time that the state refers to it. -/
  unresolved : ∀ id state kind name, definition.state? id = some state → names.binds kind name = false →
    found.count (.unresolvedName id kind name) = (state.named kind).count name
  /-- Any other kind of violation comes once at most, at each state or without one. -/
  once : ∀ violation : Violation, violation.kind ≠ "UnknownTarget" → violation.kind ≠ "UnresolvedName" →
    (found.countP fun other => other.kind = violation.kind ∧ other.state? = violation.state?) ≤ 1
  raises : ∀ id kind other, .unhandledRaise id kind ∈ found → .raiseWithoutFallback id other ∉ found
  chain : (∃ cycle, .unboundedChain cycle ∈ found) ↔ ∃ id, Relation.TransGen definition.Leads id id
  cycle : ∀ cycle, .unboundedChain cycle ∈ found → Cycle.IsCycle definition.Leads cycle

theorem reports_violations (definition : Definition) (names : Names) :
    definition.Reports names (definition.violations names) where
  defect violation noChain := by
    rw [mem_violations_iff]
    refine or_iff_left ?_
    rintro ⟨cycle, -, rfl⟩
    cases noChain
  targets _ _ _ := count_unknownTarget
  unresolved _ _ _ _ := count_unresolvedName
  once := countP_kind_violations_le_one
  raises id kind other unhandled guarded := by
    obtain ⟨_, found, unhandled⟩ := exists_defect_of_mem unhandled rfl
    obtain ⟨_, found', guarded⟩ := exists_defect_of_mem guarded rfl
    obtain rfl := Option.some.inj (found.symm.trans found')
    cases unhandled with
    | unhandledRaise raises empty =>
      cases guarded with
      | raiseWithoutFallback raises' offered =>
        obtain rfl := Option.some.inj (raises.symm.trans raises')
        exact offered empty
  chain := by
    have none : ¬ definition.unboundedChain? = none ↔ ∃ id, Relation.TransGen definition.Leads id id :=
      (not_congr unboundedChain?_eq_none_iff).trans not_forall_not
    rw [← none]
    exact (exists_congr fun _ => unboundedChain_mem_violations_iff).trans Option.ne_none_iff_exists'.symm
  cycle cycle reported := by
    have edges : (fun id target => target ∈ definition.automaticTargets id) = definition.Leads :=
      funext fun id => funext fun target => propext mem_automaticTargets_iff_leads
    rw [← edges]
    exact Cycle.isCycle_of_find? (automaticTargets_closed definition) (unboundedChain_mem_violations_iff.1 reported)

/-- The check of a definition finds nothing exactly if the definition is flawless. Otherwise it reports what is wrong,
as often as it is, and nothing else. -/
theorem violations_exact (definition : Definition) (names : Names) :
    (definition.violations names = [] ↔ definition.Flawless names) ∧
      definition.Reports names (definition.violations names) :=
  ⟨violations_eq_nil_iff, reports_violations definition names⟩

end Definition

end DialMenu
