import DialMenu.Proofs.Draft.Routes

/-!
States that are put together call by call. The candidates for all kinds of events come in one list; building the state
sorts them by kind and keeps their order.
-/

namespace DialMenu

namespace StateDraft

/-- A call on the draft of a state, with the calls on the drafts that it adds. -/
inductive Step where
  | describe (description : String)
  | tag (label : Tag)
  | on (kind : EventKind) (route : List RouteDraft.Step)
  | transit (route : List RouteDraft.Step)
  | back (route : List RouteDraft.Step)
  | raises (kind : EventKind) (feedback : Option String)
  | raisesRetry (feedback : String)
  | calls (call : CallDraft.Script)
deriving DecidableEq

namespace Step

def apply (state : StateDraft) : Step → StateDraft
  | describe description => state.describe description
  | tag label => state.tag label
  | on kind route => state.route kind (.ofSteps route)
  | transit route => state.transit (.ofSteps route)
  | back route => state.back (.ofSteps route)
  | raises kind feedback => state.raises kind feedback
  | raisesRetry feedback => state.raisesRetry feedback
  | calls call => state.calls call.draft

def description? : Step → Option String
  | describe description => some description
  | _ => none

def tag? : Step → Option Tag
  | tag label => some label
  | _ => none

/-- The candidate, with the kind of event that it is for. -/
def route? : Step → Option (EventKind × List RouteDraft.Step)
  | on kind route => some (kind, route)
  | transit route => some (.transit, route)
  | back route => some (.back, route)
  | _ => none

def raise? : Step → Option EntryRaise
  | raises kind feedback => some { kind, feedback }
  | raisesRetry feedback => some { kind := .retry, feedback := some feedback }
  | _ => none

def call? : Step → Option CallDraft.Script
  | calls call => some call
  | _ => none

theorem apply_eq (state : StateDraft) (step : Step) : apply state step =
    { id := state.id
      kind := state.kind
      description := step.description?.or state.description
      tags := state.tags ++ step.tag?.toList.filter (· ∉ state.tags)
      raise := step.raise?.or state.raise
      call := (step.call?.map CallDraft.Script.draft).or state.call
      on := state.on ++ (step.route?.map fun entry => (entry.1, RouteDraft.ofSteps entry.2)).toList } := by
  cases step with
  | tag label =>
    by_cases known : label ∈ state.tags <;>
      simp [apply, StateDraft.tag, description?, tag?, route?, raise?, call?, known]
  | _ =>
    simp [apply, StateDraft.describe, StateDraft.route, StateDraft.transit, StateDraft.back, StateDraft.raises,
      StateDraft.raisesRetry, StateDraft.calls, description?, tag?, route?, raise?, call?]

end Step

structure Script where
  id : String
  kind : StateKind := .normal
  steps : List Step := []
deriving DecidableEq

/-- What is listed for one kind of event. -/
def ofKind {α : Type} (kind : EventKind) (entry : EventKind × α) : Option α :=
  if entry.1 = kind then some entry.2 else none

/-- The table of candidates that are given one after another. -/
def tabulate (routes : List (EventKind × Route)) : Table EventKind (List Route) :=
  routes.foldl (fun on entry => addRoute on entry.1 entry.2) .empty

theorem getD_addRoute (on : Table EventKind (List Route)) (entry : EventKind × Route) (kind : EventKind) :
    ((addRoute on entry.1 entry.2).get? kind).getD [] = (on.get? kind).getD [] ++ (ofKind kind entry).toList := by
  unfold addRoute ofKind
  rw [Table.get?_insert]
  split
  · rename_i same
    rw [same]
    rfl
  · simp

/-- Each kind has its own candidates in the order in which they were given, whatever is given between them. -/
theorem getD_tabulate (routes : List (EventKind × Route)) (kind : EventKind) :
    ((tabulate routes).get? kind).getD [] = routes.filterMap (ofKind kind) :=
  foldl_added (fun on => (on.get? kind).getD []) (fun on entry => getD_addRoute on entry kind) .empty routes

theorem tabulate_ne_nil (routes : List (EventKind × Route)) (kind : EventKind) :
    (tabulate routes).get? kind ≠ some [] := by
  induction routes using List.reverseRecOn with
  | nil => exact nofun
  | append_singleton routes entry ih =>
    unfold tabulate at ih ⊢
    rw [List.foldl_append, List.foldl_cons, List.foldl_nil, addRoute, Table.get?_insert]
    split
    · simp
    · exact ih

/-- Building and tabulating in one go is building first. -/
theorem foldlM_addRoute (drafts : List (EventKind × RouteDraft)) (on : Table EventKind (List Route)) :
    drafts.foldlM (fun on (kind, route) => return addRoute on kind (← route.build)) on =
      (drafts.mapM fun entry => Prod.mk entry.1 <$> entry.2.build) >>= fun routes =>
        .ok (routes.foldl (fun on entry => addRoute on entry.1 entry.2) on) := by
  induction drafts generalizing on with
  | nil => rfl
  | cons entry drafts ih =>
    obtain ⟨kind, route⟩ := entry
    rw [List.foldlM_cons, List.mapM_cons]
    dsimp only
    cases route.build with
    | error => rfl
    | ok route =>
      refine (ih _).trans ?_
      cases drafts.mapM fun entry => Prod.mk entry.1 <$> entry.2.build <;> rfl

/-- The call, if there is one. -/
def buildCall : Option CallDraft → Except BuildError (Option Call)
  | some call => some <$> call.build
  | none => .ok none

/-- The candidates one by one, each for its kind of event. -/
def buildRoutes (listed : List (EventKind × RouteDraft)) : Except BuildError (List (EventKind × Route)) :=
  listed.mapM fun entry => Prod.mk entry.1 <$> entry.2.build

theorem build_eq (state : StateDraft) : state.build = buildCall state.call >>= fun call =>
    buildRoutes state.on >>= fun routes => .ok
      { kind := state.kind, description := state.description, tags := state.tags, raise := state.raise, call,
        on := tabulate routes } := by
  have listed : state.on.foldlM (fun on (kind, route) => return addRoute on kind (← route.build)) Table.empty =
      buildRoutes state.on >>= fun routes => .ok (tabulate routes) := foldlM_addRoute state.on .empty
  unfold build buildCall
  rw [listed]
  cases state.call with
  | none => cases buildRoutes state.on <;> rfl
  | some call => cases buildRoutes state.on <;> cases call.build <;> rfl

theorem lacksOnlyTarget_build (state : StateDraft) : LacksOnlyTarget state.build := by
  have route (entry : EventKind × RouteDraft) : LacksOnlyTarget (Prod.mk entry.1 <$> entry.2.build) := by
    rw [map_eq_pure_bind]
    exact (RouteDraft.lacksOnlyTarget_build entry.2).bind fun _ => .ok _
  have called : LacksOnlyTarget (buildCall state.call) := by
    cases state.call with
    | none => exact .ok none
    | some call =>
      rw [buildCall, map_eq_pure_bind]
      exact (CallDraft.lacksOnlyTarget_build call).bind fun _ => .ok _
  rw [build_eq]
  exact called.bind fun _ => (LacksOnlyTarget.mapM route state.on).bind fun _ => .ok _

namespace Script

variable {script : Script} {state : Definition.State}

def start (script : Script) : StateDraft :=
  match script.kind with
  | .normal => { id := script.id }
  | .final => .final script.id

def draft (script : Script) : StateDraft := script.steps.foldl Step.apply script.start

/-- All candidates, in the order in which they were given. -/
def listed (script : Script) : List (EventKind × List RouteDraft.Step) := script.steps.filterMap Step.route?

def candidates (script : Script) (kind : EventKind) : List (List RouteDraft.Step) :=
  script.listed.filterMap (ofKind kind)

/-- The call that is not overwritten by another. -/
def call (script : Script) : Option CallDraft.Script := (script.steps.filterMap Step.call?).getLast?

/-- The state has the last description, the last raise and the last call that were given, every tag once, and for each
kind of event its candidates in the order in which they were given. -/
structure Makes (script : Script) (state : Definition.State) : Prop where
  kind : script.kind = state.kind
  description : (script.steps.filterMap Step.description?).getLast? = state.description
  tags : (script.steps.filterMap Step.tag?).eraseDups = state.tags
  raise : (script.steps.filterMap Step.raise?).getLast? = state.raise
  call : Option.Rel CallDraft.Script.Makes script.call state.call
  candidates : ∀ kind, List.Forall₂ RouteDraft.Makes (script.candidates kind) (state.candidates kind)
  /-- No kind of event is in the table without a candidate. -/
  nonempty : ∀ kind, state.on.get? kind ≠ some []

/-- Every candidate has a target, those of a call that is overwritten apart. -/
def Targeted (script : Script) : Prop :=
  (∀ entry ∈ script.listed, RouteDraft.Targeted entry.2) ∧ ∀ call, script.call = some call → call.Targeted

theorem draft_eq (script : Script) : script.draft =
    { id := script.id
      kind := script.kind
      description := (script.steps.filterMap Step.description?).getLast?
      tags := (script.steps.filterMap Step.tag?).eraseDups
      raise := (script.steps.filterMap Step.raise?).getLast?
      call := script.call.map CallDraft.Script.draft
      on := script.listed.map fun entry => (entry.1, .ofSteps entry.2) } := by
  have start : script.start = { id := script.id, kind := script.kind } := by
    unfold start
    cases script.kind <;> rfl
  have id : script.draft.id = script.start.id :=
    foldl_kept StateDraft.id (fun _ _ => by rw [Step.apply_eq]) _ script.steps
  have kind : script.draft.kind = script.start.kind :=
    foldl_kept StateDraft.kind (fun _ _ => by rw [Step.apply_eq]) _ script.steps
  have description := foldl_overwritten StateDraft.description
    (fun state step => congrArg StateDraft.description (Step.apply_eq state step)) script.start script.steps
  have tags := foldl_collected StateDraft.tags (fun state step => congrArg StateDraft.tags (Step.apply_eq state step))
    (congrArg StateDraft.tags start) script.steps
  have raise := foldl_overwritten StateDraft.raise
    (fun state step => congrArg StateDraft.raise (Step.apply_eq state step)) script.start script.steps
  have call := foldl_overwritten StateDraft.call
    (fun state step => congrArg StateDraft.call (Step.apply_eq state step)) script.start script.steps
  have on := foldl_added StateDraft.on (fun state step => congrArg StateDraft.on (Step.apply_eq state step))
    script.start script.steps
  rw [← List.map_filterMap] at call on
  rw [List.getLast?_map] at call
  unfold draft at id kind ⊢
  rw [start] at id kind description tags raise call on ⊢
  simp only [Option.or_none, List.nil_append] at description raise call on
  unfold Script.call listed
  rw [← description, ← tags, ← raise, ← call, ← on]
  exact congrArg₂ (StateDraft.mk · · _ _ _ _ _) id kind

theorem Makes.targeted (makes : script.Makes state) : script.Targeted := by
  refine ⟨fun entry mem => ?_, fun call called => ?_⟩
  · have inside : entry.2 ∈ script.candidates entry.1 :=
      List.mem_filterMap.2 ⟨entry, mem, if_pos rfl⟩
    exact RouteDraft.exists_makes_iff.1 (List.exists_forall₂_iff.1 ⟨_, makes.candidates entry.1⟩ _ inside)
  · have related := makes.call
    rw [called] at related
    generalize state.call = made at related
    cases related with
    | some made => exact CallDraft.Script.exists_makes_iff.1 ⟨_, made⟩

/-- What a build of the state puts together from its call and its candidates. -/
def assemble (script : Script) (call : Option Call) (routes : List (EventKind × Route)) : Definition.State where
  kind := script.kind
  description := (script.steps.filterMap Step.description?).getLast?
  tags := (script.steps.filterMap Step.tag?).eraseDups
  raise := (script.steps.filterMap Step.raise?).getLast?
  call := call
  on := tabulate routes

/-- The candidates are made one by one, each for its kind of event. -/
abbrev MakesEach : List (EventKind × List RouteDraft.Step) → List (EventKind × Route) → Prop :=
  List.Forall₂ fun entry made => entry.1 = made.1 ∧ RouteDraft.Makes entry.2 made.2

theorem buildCall_iff {call : Option Call} :
    buildCall (script.call.map CallDraft.Script.draft) = .ok call ↔
      Option.Rel CallDraft.Script.Makes script.call call := by
  cases script.call with
  | none =>
    constructor
    · rintro ⟨⟩
      exact .none
    · rintro ⟨⟩
      rfl
  | some called =>
    refine Except.map_eq_ok_iff.trans ⟨?_, fun related => ?_⟩
    · rintro ⟨made, built, rfl⟩
      exact .some (CallDraft.Script.build_draft_iff.1 built)
    · cases related with
      | some makes => exact ⟨_, CallDraft.Script.build_draft_iff.2 makes, rfl⟩

theorem buildRoutes_iff {listed : List (EventKind × List RouteDraft.Step)} {routes : List (EventKind × Route)} :
    buildRoutes (listed.map fun entry => (entry.1, .ofSteps entry.2)) = .ok routes ↔ MakesEach listed routes := by
  have entry (kind : EventKind) (steps : List RouteDraft.Step) (made : EventKind × Route) :
      Prod.mk kind <$> (RouteDraft.ofSteps steps).build = .ok made ↔ kind = made.1 ∧ RouteDraft.Makes steps made.2 := by
    refine Except.map_eq_ok_iff.trans ⟨?_, ?_⟩
    · rintro ⟨route, built, rfl⟩
      exact ⟨rfl, RouteDraft.build_ofSteps_iff.1 built⟩
    · rintro ⟨rfl, makes⟩
      exact ⟨_, RouteDraft.build_ofSteps_iff.2 makes, rfl⟩
  rw [buildRoutes, Except.mapM_eq_ok_iff, List.forall₂_map_left_iff]
  simp only [entry]

theorem build_draft_eq_ok_iff : script.draft.build = .ok state ↔
    ∃ call, Option.Rel CallDraft.Script.Makes script.call call ∧
      ∃ routes, MakesEach script.listed routes ∧ script.assemble call routes = state := by
  rw [draft_eq, build_eq]
  simp only [Except.bind_eq_ok_iff, buildCall_iff, buildRoutes_iff, Except.ok.injEq, assemble]

theorem makes_assemble {call : Option Call} {routes : List (EventKind × Route)}
    (called : Option.Rel CallDraft.Script.Makes script.call call) (made : MakesEach script.listed routes) :
    script.Makes (script.assemble call routes) where
  kind := rfl
  description := rfl
  tags := rfl
  raise := rfl
  call := called
  candidates kind := by
    unfold Definition.State.candidates assemble
    rw [getD_tabulate]
    refine List.rel_filterMap ?_ made
    intro entry made here
    unfold ofKind
    rw [here.1]
    split
    · exact .some here.2
    · exact .none
  nonempty := tabulate_ne_nil routes

theorem makes_of_build (built : script.draft.build = .ok state) : script.Makes state := by
  obtain ⟨call, called, routes, made, rfl⟩ := build_draft_eq_ok_iff.1 built
  exact makes_assemble called made

theorem exists_build (targeted : script.Targeted) : ∃ state, script.draft.build = .ok state := by
  have called : ∃ call, Option.Rel CallDraft.Script.Makes script.call call := by
    cases called : script.call with
    | none => exact ⟨none, .none⟩
    | some call =>
      obtain ⟨made, makes⟩ := CallDraft.Script.exists_makes_iff.2 (targeted.2 call called)
      exact ⟨some made, .some makes⟩
  have listed : ∃ routes, MakesEach script.listed routes := by
    refine List.exists_forall₂_iff.2 fun entry mem => ?_
    obtain ⟨route, makes⟩ := RouteDraft.exists_makes_iff.2 (targeted.1 entry mem)
    exact ⟨(entry.1, route), rfl, makes⟩
  obtain ⟨call, called⟩ := called
  obtain ⟨routes, made⟩ := listed
  exact ⟨_, build_draft_eq_ok_iff.2 ⟨call, called, routes, made, rfl⟩⟩

/-- A script makes one state at most. -/
theorem makes_rightUnique : Relator.RightUnique Makes := by
  intro script state state' makes makes'
  have call : state.call = state'.call := by
    have related := makes.call
    have related' := makes'.call
    generalize script.call = called, state.call = call, state'.call = call' at related related' ⊢
    cases related with
    | none => cases related'; rfl
    | some made =>
      cases related' with
      | some made' => rw [CallDraft.Script.makes_rightUnique made made']
  have on : state.on = state'.on := by
    refine Table.ext_get? fun kind => ?_
    have same := RouteDraft.makes_rightUnique.forall₂ (makes.candidates kind) (makes'.candidates kind)
    have nonempty := makes.nonempty kind
    have nonempty' := makes'.nonempty kind
    unfold Definition.State.candidates at same
    cases found : state.on.get? kind <;> cases found' : state'.on.get? kind <;> simp_all
  obtain ⟨⟩ := state
  obtain ⟨⟩ := state'
  obtain rfl := call
  obtain rfl := on
  obtain rfl := makes.kind.symm.trans makes'.kind
  obtain rfl := makes.description.symm.trans makes'.description
  obtain rfl := makes.tags.symm.trans makes'.tags
  obtain rfl := makes.raise.symm.trans makes'.raise
  rfl

theorem build_draft_of_not_targeted (lacking : ¬ script.Targeted) : script.draft.build = .error .missingTarget := by
  cases built : script.draft.build with
  | error err => rw [lacksOnlyTarget_build script.draft err built]
  | ok state => exact absurd (makes_of_build built).targeted lacking

/-- The entry that the script adds to the table of states. -/
def Enters (script : Script) (entry : String × Definition.State) : Prop :=
  script.id = entry.1 ∧ script.Makes entry.2

theorem enters_rightUnique : Relator.RightUnique Enters := by
  rintro script ⟨id, state⟩ ⟨id', state'⟩ ⟨rfl, makes⟩ ⟨rfl, makes'⟩
  exact congrArg _ (makes_rightUnique makes makes')

theorem map_id_of_enters {scripts : List Script} {entries : List (String × Definition.State)}
    (each : List.Forall₂ Enters scripts entries) : scripts.map Script.id = entries.map (·.1) := by
  induction each with
  | nil => rfl
  | cons here _ ih => rw [List.map_cons, List.map_cons, here.1, ih]

@[simp] theorem id_draft (script : Script) : script.draft.id = script.id := by rw [draft_eq]

/-- What is wrong first with a state that comes after others. -/
inductive Faulty (machine : String) (earlier : List String) (script : Script) : BuildError → Prop
  | missingTarget : ¬ script.Targeted → Faulty machine earlier script .missingTarget
  | duplicateState : script.Targeted → script.id ∈ earlier →
      Faulty machine earlier script (.duplicateState machine script.id)

end Script

end StateDraft

end DialMenu
