import DialMenu.Draft
import DialMenu.Proofs.Compilation
import DialMenu.Proofs.Fold

/-!
Candidates and service calls that are put together call by call. A script holds the calls. What they make is read off
the script, without any draft, and it is what building the draft gives.
-/

namespace DialMenu

theorem List.exists_forall₂_iff {α β : Type} {R : α → β → Prop} {xs : List α} :
    (∃ ys, List.Forall₂ R xs ys) ↔ ∀ x ∈ xs, ∃ y, R x y := by
  induction xs with
  | nil => exact iff_of_true ⟨[], .nil⟩ (by simp)
  | cons x xs ih =>
    rw [List.forall_mem_cons, ← ih]
    constructor
    · rintro ⟨_, related⟩
      cases related with
      | cons here later => exact ⟨⟨_, here⟩, _, later⟩
    · rintro ⟨⟨_, here⟩, _, later⟩
      exact ⟨_, .cons here later⟩

theorem Except.mapM_eq_ok_iff {ε α β : Type} {f : α → Except ε β} {xs : List α} {ys : List β} :
    xs.mapM f = .ok ys ↔ List.Forall₂ (fun x y => f x = .ok y) xs ys := by
  refine ⟨Except.forall₂_of_mapM_eq_ok, fun each => ?_⟩
  induction each with
  | nil => rfl
  | cons here _ ih =>
    rw [List.mapM_cons, here, ih]
    rfl

/-- A build that can only fail over a target that is not there. -/
def LacksOnlyTarget {α : Type} (built : Except BuildError α) : Prop := ∀ err, built = .error err → err = .missingTarget

namespace LacksOnlyTarget

variable {α β : Type}

theorem ok (a : α) : LacksOnlyTarget (.ok a) := nofun

theorem bind {built : Except BuildError α} {next : α → Except BuildError β} (first : LacksOnlyTarget built)
    (later : ∀ a, LacksOnlyTarget (next a)) : LacksOnlyTarget (built >>= next) := by
  cases built with
  | error err =>
    rintro _ ⟨⟩
    exact first err rfl
  | ok a => exact later a

theorem mapM {build : α → Except BuildError β} (each : ∀ a, LacksOnlyTarget (build a)) (items : List α) :
    LacksOnlyTarget (items.mapM build) := by
  induction items with
  | nil => exact ok []
  | cons item items ih =>
    rw [List.mapM_cons]
    exact (each item).bind fun _ => ih.bind fun _ => ok _

end LacksOnlyTarget

namespace RouteDraft

/-- A call on the draft of a candidate. -/
inductive Step where
  | towards (state : String)
  | when (guard : String)
  | act (action : String)
deriving DecidableEq

namespace Step

def apply (route : RouteDraft) : Step → RouteDraft
  | towards state => route.towards state
  | when guard => route.when guard
  | act action => route.act action

def target? : Step → Option String
  | towards state => some state
  | when _ | act _ => none

def guard? : Step → Option String
  | when guard => some guard
  | towards _ | act _ => none

def action? : Step → Option String
  | act action => some action
  | towards _ | when _ => none

end Step

variable {steps : List Step} {route : Route}

def ofSteps (steps : List Step) : RouteDraft := steps.foldl Step.apply {}

/-- The candidate has the last target and the last guard of the calls, and all their actions in order. -/
structure Makes (steps : List Step) (route : Route) : Prop where
  target : (steps.filterMap Step.target?).getLast? = some route.target
  guard : (steps.filterMap Step.guard?).getLast? = route.guard
  actions : steps.filterMap Step.action? = route.actions

/-- A target is set. -/
def Targeted (steps : List Step) : Prop := ∃ state, .towards state ∈ steps

theorem Step.apply_eq (route : RouteDraft) (step : Step) : apply route step =
    { target := step.target?.or route.target, guard := step.guard?.or route.guard,
      actions := route.actions ++ step.action?.toList } := by
  cases step <;> simp [apply, RouteDraft.towards, RouteDraft.when, RouteDraft.act, target?, guard?, action?]

theorem ofSteps_eq (steps : List Step) : ofSteps steps =
    { target := (steps.filterMap Step.target?).getLast?, guard := (steps.filterMap Step.guard?).getLast?,
      actions := steps.filterMap Step.action? } := by
  have target := foldl_overwritten RouteDraft.target
    (fun route step => congrArg RouteDraft.target (Step.apply_eq route step)) {} steps
  have guard := foldl_overwritten RouteDraft.guard
    (fun route step => congrArg RouteDraft.guard (Step.apply_eq route step)) {} steps
  have actions := foldl_added RouteDraft.actions
    (fun route step => congrArg RouteDraft.actions (Step.apply_eq route step)) {} steps
  rw [Option.or_none] at target guard
  rw [List.nil_append] at actions
  rw [← target, ← guard, ← actions]
  rfl

theorem build_ofSteps_iff : (ofSteps steps).build = .ok route ↔ Makes steps route := by
  rw [ofSteps_eq, build]
  cases target : (steps.filterMap Step.target?).getLast? with
  | none => exact iff_of_false nofun fun makes => nomatch target.symm.trans makes.target
  | some state =>
    constructor
    · rintro ⟨⟩
      exact ⟨target, rfl, rfl⟩
    · intro makes
      rw [makes.guard, makes.actions, Option.some.inj (target.symm.trans makes.target)]

theorem exists_makes_iff : (∃ route, Makes steps route) ↔ Targeted steps := by
  constructor
  · rintro ⟨route, makes⟩
    obtain ⟨step, mem, sets⟩ := List.mem_filterMap.1 (List.mem_of_getLast? makes.target)
    cases step with
    | towards state => exact ⟨state, mem⟩
    | «when» => cases sets
    | act => cases sets
  · rintro ⟨state, mem⟩
    have sets : steps.filterMap Step.target? ≠ [] := List.ne_nil_of_mem (List.mem_filterMap.2 ⟨_, mem, rfl⟩)
    exact ⟨⟨_, _, _⟩, List.getLast?_eq_some_getLast sets, rfl, rfl⟩

theorem lacksOnlyTarget_build (draft : RouteDraft) : LacksOnlyTarget draft.build := by
  intro err failed
  unfold build at failed
  split at failed <;> cases failed
  rfl

theorem makes_rightUnique : Relator.RightUnique Makes := fun _ _ _ makes makes' =>
  Except.ok.inj ((build_ofSteps_iff.2 makes).symm.trans (build_ofSteps_iff.2 makes'))

theorem mapM_build_iff {routes : List (List Step)} {built : List Route} :
    (routes.map ofSteps).mapM build = .ok built ↔ List.Forall₂ Makes routes built := by
  rw [Except.mapM_eq_ok_iff, List.forall₂_map_left_iff]
  simp only [build_ofSteps_iff]

end RouteDraft

namespace CallDraft

/-- A call on the draft of a service call, with the calls on the draft of the candidate that it adds. -/
inductive Step where
  | done (route : List RouteDraft.Step)
  | error (route : List RouteDraft.Step)
deriving DecidableEq

namespace Step

def apply (call : CallDraft) : Step → CallDraft
  | done route => call.done (.ofSteps route)
  | error route => call.error (.ofSteps route)

def done? : Step → Option (List RouteDraft.Step)
  | done route => some route
  | error _ => none

def error? : Step → Option (List RouteDraft.Step)
  | error route => some route
  | done _ => none

theorem apply_eq (call : CallDraft) (step : Step) : apply call step =
    { service := call.service, onDone := call.onDone ++ (step.done?.map RouteDraft.ofSteps).toList,
      onError := call.onError ++ (step.error?.map RouteDraft.ofSteps).toList } := by
  cases step <;> simp [apply, CallDraft.done, CallDraft.error, done?, error?]

end Step

structure Script where
  service : String
  steps : List Step := []
deriving DecidableEq

namespace Script

variable {script : Script} {call : Call}

def onDone (script : Script) : List (List RouteDraft.Step) := script.steps.filterMap Step.done?

def onError (script : Script) : List (List RouteDraft.Step) := script.steps.filterMap Step.error?

def draft (script : Script) : CallDraft := script.steps.foldl Step.apply { service := script.service }

/-- The call has the candidates for each outcome in the order in which they were given. -/
structure Makes (script : Script) (call : Call) : Prop where
  service : script.service = call.service
  onDone : List.Forall₂ RouteDraft.Makes script.onDone call.onDone
  onError : List.Forall₂ RouteDraft.Makes script.onError call.onError

/-- Every candidate has a target. -/
def Targeted (script : Script) : Prop :=
  (∀ route ∈ script.onDone, RouteDraft.Targeted route) ∧ ∀ route ∈ script.onError, RouteDraft.Targeted route

theorem draft_eq (script : Script) : script.draft =
    { service := script.service, onDone := script.onDone.map .ofSteps, onError := script.onError.map .ofSteps } := by
  have service : script.draft.service = script.service :=
    foldl_kept CallDraft.service (fun _ _ => by rw [Step.apply_eq]) _ script.steps
  have onDone := foldl_added CallDraft.onDone (fun call step => congrArg CallDraft.onDone (Step.apply_eq call step))
    { service := script.service } script.steps
  have onError := foldl_added CallDraft.onError (fun call step => congrArg CallDraft.onError (Step.apply_eq call step))
    { service := script.service } script.steps
  rw [List.nil_append, ← List.map_filterMap] at onDone onError
  rw [Script.onDone, Script.onError, ← onDone, ← onError]
  exact congrArg (CallDraft.mk · _ _) service

theorem build_draft_iff : script.draft.build = .ok call ↔ script.Makes call := by
  rw [draft_eq, build]
  simp only [Except.bind_eq_ok_iff, RouteDraft.mapM_build_iff]
  constructor
  · rintro ⟨onDone, answered, onError, rejected, ⟨⟩⟩
    exact ⟨rfl, answered, rejected⟩
  · intro makes
    refine ⟨_, makes.onDone, _, makes.onError, ?_⟩
    rw [makes.service]
    rfl

theorem exists_makes_iff : (∃ call, script.Makes call) ↔ script.Targeted := by
  unfold Targeted
  simp only [← RouteDraft.exists_makes_iff, ← List.exists_forall₂_iff]
  constructor
  · rintro ⟨_, makes⟩
    exact ⟨⟨_, makes.onDone⟩, _, makes.onError⟩
  · rintro ⟨⟨onDone, answered⟩, onError, rejected⟩
    exact ⟨⟨script.service, onDone, onError⟩, rfl, answered, rejected⟩

theorem makes_rightUnique : Relator.RightUnique Makes := fun _ _ _ makes makes' =>
  Except.ok.inj ((build_draft_iff.2 makes).symm.trans (build_draft_iff.2 makes'))

end Script

theorem lacksOnlyTarget_build (draft : CallDraft) : LacksOnlyTarget draft.build :=
  (LacksOnlyTarget.mapM RouteDraft.lacksOnlyTarget_build _).bind fun _ =>
    (LacksOnlyTarget.mapM RouteDraft.lacksOnlyTarget_build _).bind fun _ => .ok _

end CallDraft

end DialMenu
