import DialMenu.Proofs.Interpreter.Adequacy
import DialMenu.Proofs.Interpreter.Clock
import DialMenu.Proofs.Interpreter.Feedback
import Mathlib.Data.Option.Basic

/-!
What a turn depends on: the states that it passes, and their candidates up to the one that is taken. A machine that is
the same there makes the same turn, whatever else it has. So a menu can be extended without a change to its old turns.
-/

namespace DialMenu

variable {C σ : Type}

namespace Transition

/-- Lists of candidates that are the same up to the selected one. If none is selected, they are the same. -/
inductive Kept (context : C) (event : Event) : List (Transition C) → List (Transition C) → Prop
  | selected {before after after' : List (Transition C)} {t : Transition C} : t.Admits context event →
      (∀ u ∈ before, ¬ u.Admits context event) →
      Kept context event (before ++ t :: after) (before ++ t :: after')
  | refused {candidates : List (Transition C)} : NoneEligible candidates context event →
      Kept context event candidates candidates

/-- More candidates behind one without a guard are never reached. -/
inductive Grown (candidates : List (Transition C)) : List (Transition C) → Prop
  | same : Grown candidates candidates
  | behind {t : Transition C} (more : List (Transition C)) : t ∈ candidates → t.guard = none →
      Grown candidates (candidates ++ more)

/-- More candidates behind one without a guard, if there is one. -/
def offering (more candidates : List (Transition C)) : List (Transition C) :=
  if candidates.any fun t => t.guard.isNone then candidates ++ more else candidates

variable {context : C} {event : Event} {candidates others : List (Transition C)}

theorem grown_offering (more candidates : List (Transition C)) : Grown candidates (offering more candidates) := by
  rw [offering]
  split
  · rename_i holds
    obtain ⟨t, mem, free⟩ := List.any_eq_true.1 holds
    exact .behind more mem (Option.isNone_iff_eq_none.1 free)
  · exact .same

theorem Kept.select_eq (kept : Kept context event candidates others) :
    select others context event = select candidates context event := by
  cases kept with
  | selected admits earlier =>
    rw [select_eq_some_iff.2 ⟨_, _, rfl, admits, earlier⟩, select_eq_some_iff.2 ⟨_, _, rfl, admits, earlier⟩]
  | refused => rfl

theorem Kept.firstEligible {t : Transition C} (kept : Kept context event candidates others)
    (first : t.FirstEligible candidates context event) : t.FirstEligible others context event :=
  select_eq_some_iff.1 (kept.select_eq.trans (select_eq_some_iff.2 first))

theorem Kept.noneEligible (kept : Kept context event candidates others)
    (refused : NoneEligible candidates context event) : NoneEligible others context event :=
  select_eq_none_iff.1 (kept.select_eq.trans (select_eq_none_iff.2 refused))

theorem Kept.refl (context : C) (event : Event) (candidates : List (Transition C)) :
    Kept context event candidates candidates := by
  cases selected : select candidates context event with
  | none => exact .refused (select_eq_none_iff.1 selected)
  | some t =>
    obtain ⟨before, after, rfl, admits, earlier⟩ := select_eq_some_iff.1 selected
    exact .selected admits earlier

theorem Grown.kept (grown : Grown candidates others) (context : C) (event : Event) :
    Kept context event candidates others := by
  cases grown with
  | same => exact .refl context event candidates
  | @behind t more mem free =>
    cases selected : select candidates context event with
    | none =>
      -- The candidate without a guard is eligible, so some candidate is selected.
      exact absurd (admits_of_free free context event) (select_eq_none_iff.1 selected t mem)
    | some u =>
      obtain ⟨before, after, rfl, admits, earlier⟩ := select_eq_some_iff.1 selected
      rw [List.append_assoc, List.cons_append]
      exact .selected admits earlier

end Transition

namespace Machine

/-- States that do the same when they are entered, as far as their candidates are the same. -/
structure State.SameEntry (state other : State C σ) : Prop where
  kind : other.kind = state.kind
  raise : other.raise = state.raise
  service : other.call.map Invocation.service = state.call.map Invocation.service

namespace State.SameEntry

variable {state other : State C σ}

theorem refl (state : State C σ) : state.SameEntry state := ⟨rfl, rfl, rfl⟩

theorem isFinal (same : state.SameEntry other) : other.isFinal = state.isFinal := by
  rw [State.isFinal, State.isFinal, same.kind]

theorem exists_call {call : Invocation C σ} (same : state.SameEntry other) (calls : state.call = some call) :
    ∃ call', other.call = some call' ∧ call'.service = call.service := by
  have service := same.service
  rw [calls, Option.map_some] at service
  exact Option.map_eq_some_iff.1 service

theorem call_eq_none (same : state.SameEntry other) (silent : state.call = none) : other.call = none := by
  have service := same.service
  rw [silent, Option.map_none] at service
  exact Option.map_eq_none_iff.1 service

theorem acts (same : state.SameEntry other) (acts : state.raise.isSome ∨ state.call.isSome) :
    other.raise.isSome ∨ other.call.isSome := by
  have service := congrArg Option.isSome same.service
  rw [Option.isSome_map, Option.isSome_map] at service
  rwa [same.raise, service]

end State.SameEntry

/-- The other machine has the states of this one. They do the same there, and have more candidates only where these are
never reached. It may have more states. -/
def Extends (machine other : Machine C σ) : Prop :=
  ∀ id state, machine.state? id = some state → ∃ state', other.state? id = some state' ∧ state.SameEntry state' ∧
    ∀ trigger, Transition.Grown (state.designated trigger) (state'.designated trigger)

/-- The state with more candidates wherever one has no guard. -/
def State.offering (more : List (Transition C)) (state : State C σ) : State C σ :=
  { state with
    on := fun kind => Transition.offering more (state.on kind)
    call := state.call.map fun call =>
      { call with
        onDone := Transition.offering more call.onDone
        onError := Transition.offering more call.onError } }

/-- The machine with more candidates wherever one has no guard. -/
def offering (machine : Machine C σ) (more : List (Transition C)) : Machine C σ :=
  { machine with states := machine.states.mapValues fun _ state => state.offering more }

theorem State.grown_designated_offering (more : List (Transition C)) (state : State C σ) (trigger : Trigger) :
    Transition.Grown (state.designated trigger) ((state.offering more).designated trigger) := by
  cases trigger with
  | event kind | raise kind => exact Transition.grown_offering more (state.on kind)
  | done | error =>
    rw [designated, designated, State.offering]
    cases state.call with
    | none => exact .same
    | some call => exact Transition.grown_offering more _

theorem extends_offering (machine : Machine C σ) (more : List (Transition C)) :
    machine.Extends (machine.offering more) := by
  intro id state found
  have found' : (machine.offering more).state? id = some (state.offering more) := by
    have mapped := Table.get?_mapValues (fun _ state => State.offering more state) machine.states id
    exact mapped.trans (congrArg _ found)
  have service : (state.offering more).call.map Invocation.service = state.call.map Invocation.service := by
    rw [State.offering, Option.map_map]
    rfl
  exact ⟨_, found', ⟨rfl, rfl, service⟩, state.grown_designated_offering more⟩

/-- A state under a new id may be added. -/
theorem Extends.insert {machine other : Machine C σ} (extended : machine.Extends other) {id : String}
    (new : machine.state? id = none) (added : State C σ) :
    machine.Extends { other with states := other.states.insert id added } := by
  intro name state found
  obtain ⟨state', found', same, grown⟩ := extended name state found
  refine ⟨state', ?_, same, grown⟩
  rw [state?, Table.get?_insert, if_neg]
  · exact found'
  · rintro rfl
    rw [new] at found
    cases found

/-- The state with these candidates for a kind of events, in place of those it had. -/
def State.handling (state : State C σ) (kind : EventKind) (candidates : List (Transition C)) : State C σ :=
  { state with on := fun other => if other = kind then candidates else state.on other }

/-- The machine with these candidates for a kind of events in a state. -/
def handling (machine : Machine C σ) (id : String) (kind : EventKind) (candidates : List (Transition C)) :
    Machine C σ :=
  { machine with states := machine.states.mapValues fun name state =>
      if name = id then state.handling kind candidates else state }

theorem State.designated_handling {kind : EventKind} {trigger : Trigger} (state : State C σ)
    (candidates : List (Transition C)) (entered : trigger ≠ .event kind) (raised : trigger ≠ .raise kind) :
    (state.handling kind candidates).designated trigger = state.designated trigger := by
  cases trigger with
  | event other => exact if_neg fun same => entered (congrArg Trigger.event same)
  | raise other => exact if_neg fun same => raised (congrArg Trigger.raise same)
  | done | error => rfl

theorem state?_handling (machine : Machine C σ) (id : String) (kind : EventKind) (candidates : List (Transition C))
    (name : String) : (machine.handling id kind candidates).state? name =
      (machine.state? name).map fun state => if name = id then state.handling kind candidates else state :=
  Table.get?_mapValues _ _ _

end Machine

variable [Context C]

/-- Where a turn looks for a candidate: the state, what designates its candidates there, and the context and the event
that they meet. -/
inductive Consults (i : Interpreter C σ) (now : Instant) (event : Event) (start : Position C σ) :
    String → Machine.State C σ → Trigger → C → Event → Prop
  | event {state : Machine.State C σ} : i.machine.state? start.state = some state →
      Consults i now event start start.state state (.event event.kind) start.context event
  | effect {hops : List Hop} {p : Position C σ} {state : Machine.State C σ} {trigger : Trigger} {context : C}
      {judged : Event} {env : σ} : Walk i now event start hops p → i.machine.state? p.state = some state →
      state.kind ≠ .final → ¬ Spent hops p.state → Effect i event p state trigger context judged env →
      Consults i now event start p.state state trigger context judged

namespace Interpreter

/-- The other machine does the same as this one when the states of the turn are entered, or lacks the same of them, and
it keeps the candidates that the turn looks through. -/
structure AgreesAlong (i : Interpreter C σ) (other : Machine C σ) (now : Instant) (event : Event)
    (start : Position C σ) : Prop where
  entry : ∀ id, id = start.state ∨
      id ∈ (i.step now start.state start.context event start.env).trace.path →
    Option.Rel Machine.State.SameEntry (i.machine.state? id) (other.state? id)
  kept : ∀ id state trigger context judged, Consults i now event start id state trigger context judged →
    ∀ state', other.state? id = some state' →
      Transition.Kept context judged (state.designated trigger) (state'.designated trigger)

/-- The other machine makes the same turn, at whatever time. -/
def SameTurn (i : Interpreter C σ) (other : Machine C σ) (now later : Instant) (event : Event)
    (start : Position C σ) : Prop :=
  Interpreter.step { i with machine := other } later start.state start.context event start.env =
    (i.step now start.state start.context event start.env).retimed later

end Interpreter

variable {i : Interpreter C σ} {other : Machine C σ} {now : Instant} {event : Event} {start p q : Position C σ}
  {hops : List Hop} {state state' : Machine.State C σ}

/-- A walk stands on the path of its turn. -/
theorem Walk.mem_path (walk : Walk i now event start hops p) :
    p.state ∈ (i.step now start.state start.context event start.env).trace.path := by
  obtain ⟨hop, last, target⟩ := Option.map_eq_some_iff.1 walk.last
  have made := walk.hops_isPrefix.subset (List.mem_of_getLast? last)
  rw [← target]
  exact List.mem_append_right _ (List.mem_map_of_mem made)

/-- Entering a state causes the same in a machine that does the same there. -/
theorem Effect.transfer {trigger : Trigger} {context : C} {judged : Event} {env : σ} (same : state.SameEntry state')
    (effect : Effect i event p state trigger context judged env) :
    Effect { i with machine := other } event p state' trigger context judged env := by
  cases effect with
  | raise raises => exact .raise (same.raise.trans raises)
  | done quiet calls answered =>
    obtain ⟨call', calls', service⟩ := same.exists_call calls
    rw [← service] at answered ⊢
    exact .done (same.raise.trans quiet) calls' answered
  | error quiet calls rejected =>
    obtain ⟨call', calls', service⟩ := same.exists_call calls
    rw [← service] at rejected ⊢
    exact .error (same.raise.trans quiet) calls' rejected

namespace Interpreter.AgreesAlong

variable (agrees : i.AgreesAlong other now event start)

include agrees

theorem exists_state {id : String}
    (on : id = start.state ∨ id ∈ (i.step now start.state start.context event start.env).trace.path)
    (found : i.machine.state? id = some state) :
    ∃ state', other.state? id = some state' ∧ state.SameEntry state' := by
  have alike := agrees.entry id on
  rw [found] at alike
  cases found' : other.state? id with
  | none =>
    rw [found'] at alike
    cases alike
  | some state' =>
    rw [found'] at alike
    cases alike with
    | some same => exact ⟨state', rfl, same⟩

theorem state?_eq_none {id : String}
    (on : id = start.state ∨ id ∈ (i.step now start.state start.context event start.env).trace.path)
    (unknown : i.machine.state? id = none) : other.state? id = none := by
  have alike := agrees.entry id on
  rw [unknown] at alike
  cases found' : other.state? id with
  | none => rfl
  | some state' =>
    rw [found'] at alike
    cases alike

/-- The hops of a turn are made by the other machine too. -/
theorem walk (walk : Walk i now event start hops p) : Walk { i with machine := other } now event start hops p := by
  induction walk with
  | event found first ran =>
    obtain ⟨state', found', -⟩ := agrees.exists_state (.inl rfl) found
    exact .event found' ((agrees.kept _ _ _ _ _ (.event found) state' found').firstEligible first) ran
  | automatic walk found proceeds fresh effect first ran ih =>
    -- What is spent is said by the hops alone, so it is the same in both machines.
    obtain ⟨state', found', same⟩ := agrees.exists_state (.inr walk.mem_path) found
    have kept := agrees.kept _ _ _ _ _ (.effect walk found proceeds fresh effect) state' found'
    have first' := kept.firstEligible first
    exact .automatic ih found' (same.kind ▸ proceeds) fresh (effect.transfer same) first' ran

/-- Where the turn ends, it ends in the other machine too. -/
theorem ending {disposition : Disposition} (walk : Walk i now event start hops p)
    (ending : Ending i event hops p disposition q) :
    Ending { i with machine := other } event hops p disposition q := by
  have on := Or.inr (a := p.state = start.state) walk.mem_path
  cases ending with
  | outside unknown => exact .outside (agrees.state?_eq_none on unknown)
  | final found final =>
    obtain ⟨state', found', same⟩ := agrees.exists_state on found
    exact .final found' (same.kind.trans final)
  | waiting found proceeds quiet silent =>
    obtain ⟨state', found', same⟩ := agrees.exists_state on found
    exact .waiting found' (same.kind ▸ proceeds) (same.raise.trans quiet) (same.call_eq_none silent)
  | again found proceeds acts spent =>
    obtain ⟨state', found', same⟩ := agrees.exists_state on found
    exact .again found' (same.kind ▸ proceeds) (same.acts acts) spent
  | unrouted found proceeds fresh effect refused =>
    obtain ⟨state', found', same⟩ := agrees.exists_state on found
    have kept := agrees.kept _ _ _ _ _ (.effect walk found proceeds fresh effect) state' found'
    exact .unrouted found' (same.kind ▸ proceeds) fresh (effect.transfer same) (kept.noneEligible refused)

/-- At the same time the turns are equal. -/
theorem step_eq : Interpreter.step { i with machine := other } now start.state start.context event start.env =
    i.step now start.state start.context event start.env := by
  rcases i.step_cases now start.state start.context event start.env with
    ⟨unknown, same⟩ | ⟨current, found, refused, same⟩ | ⟨current, last, -, -, walk, ending⟩
  · have unknown' := agrees.state?_eq_none (.inl rfl) unknown
    rw [same]
    simp only [step, unknown']
  · obtain ⟨state', found', entry⟩ := agrees.exists_state (.inl rfl) found
    have kept := agrees.kept _ _ _ _ _ (.event found) state' found'
    have refused' := Transition.select_eq_none_iff.2 (kept.noneEligible refused)
    rw [Machine.State.designated] at refused'
    rw [same]
    simp only [step, found', refused', entry.isFinal]
  · rw [step_of_walk (agrees.walk walk) (agrees.ending walk ending)]
    rfl

theorem sameTurn (later : Instant) : i.SameTurn other now later event start := by
  rw [SameTurn, ← retimed_step _ later now, agrees.step_eq]

end Interpreter.AgreesAlong

theorem Consults.found {id : String} {trigger : Trigger} {context : C} {judged : Event}
    (consults : Consults i now event start id state trigger context judged) : i.machine.state? id = some state := by
  cases consults with
  | event found => exact found
  | effect _ found => exact found

section Resolved

variable {b : Bindings C σ} {definition : Definition}

/-- No hop of a walk of a well-formed definition leads out of the machine. -/
theorem Walk.exists_target (walk : Walk i now event start hops p) (sound : definition.WellFormed)
    (compiled : b.compile definition = .ok i.machine) {hop : Hop} (mem : hop ∈ hops) :
    ∃ state, i.machine.state? hop.target = some state := by
  have here := walk.exists_state sound compiled
  induction walk with
  | event =>
    cases List.mem_singleton.1 mem
    exact here
  | automatic walk _ _ _ _ _ _ ih =>
    rcases List.mem_append.1 mem with earlier | last
    · exact ih earlier (walk.exists_state sound compiled)
    · cases List.mem_singleton.1 last
      exact here

/-- A turn of a resolved machine passes states of the machine only. -/
theorem Interpreter.exists_state_of_mem_path (i : Interpreter C σ)
    (resolved : b.resolve definition = .ok i.machine) (known : i.machine.contains start.state = true) {id : String}
    (on : id = start.state ∨ id ∈ (i.step now start.state start.context event start.env).trace.path) :
    ∃ state, i.machine.state? id = some state := by
  obtain ⟨sound, compiled⟩ := Bindings.wellFormed_of_resolve resolved
  have begins := Option.isSome_iff_exists.1 known
  rcases on with rfl | mem
  · exact begins
  · rcases i.step_cases now start.state start.context event start.env with
      ⟨-, same⟩ | ⟨current, -, -, same⟩ | ⟨current, last, -, -, walk, -⟩
    · rw [same] at mem
      cases mem
    · rw [same] at mem
      cases mem
    · obtain ⟨first, later, hops, origin, -⟩ := walk.head
      rw [Trace.path, hops] at mem
      rcases List.mem_append.1 mem with head | targets
      · cases Option.mem_toList.1 head
        rw [origin]
        exact begins
      · obtain ⟨hop, made, rfl⟩ := List.mem_map.1 targets
        exact walk.exists_target sound compiled (hops ▸ made)

/-- A machine that extends a resolved one agrees with it along every turn. -/
theorem Machine.Extends.agreesAlong (extended : i.machine.Extends other)
    (resolved : b.resolve definition = .ok i.machine) (known : i.machine.contains start.state = true) :
    i.AgreesAlong other now event start where
  entry id on := by
    obtain ⟨state, found⟩ := i.exists_state_of_mem_path resolved known on
    obtain ⟨state', found', same, -⟩ := extended id state found
    rw [found, found']
    exact .some same
  kept id state trigger context judged consults state' found' := by
    obtain ⟨state'', there, -, grown⟩ := extended id state consults.found
    cases there.symm.trans found'
    exact (grown trigger).kept context judged

end Resolved

/-- A machine with other candidates for a kind of events in a state agrees along the turns that do not look for them. -/
theorem Machine.agreesAlong_handling {id : String} {kind : EventKind}
    (unasked : ∀ state trigger context judged, Consults i now event start id state trigger context judged →
      trigger ≠ .event kind ∧ trigger ≠ .raise kind) (candidates : List (Transition C)) :
    i.AgreesAlong (i.machine.handling id kind candidates) now event start where
  entry name _ := by
    rw [state?_handling]
    cases i.machine.state? name with
    | none => exact .none
    | some state =>
      refine .some ?_
      split
      · exact ⟨rfl, rfl, rfl⟩
      · exact .refl state
  kept name state trigger context judged consults state' found' := by
    rw [state?_handling, consults.found, Option.map_some] at found'
    cases found'
    split
    · rename_i here
      obtain ⟨entered, raised⟩ := unasked state trigger context judged (here ▸ consults)
      rw [State.designated_handling state candidates entered raised]
      exact .refl context judged _
    · exact .refl context judged _

/-- A turn depends on the states that it passes and on their candidates up to the selected ones. In particular, every
turn from a state of a resolved machine stays when the machine gets more states, or more candidates behind one without
a guard; and other candidates for a kind of events in a state matter only to the turns that look for them there. -/
theorem Interpreter.turn_local (i : Interpreter C σ) (now later : Instant) (event : Event) (start : Position C σ) :
    (∀ other, i.AgreesAlong other now event start → i.SameTurn other now later event start) ∧
    (∀ (b : Bindings C σ) (definition : Definition) (other : Machine C σ), b.resolve definition = .ok i.machine →
      i.machine.contains start.state = true → i.machine.Extends other → i.SameTurn other now later event start) ∧
    ∀ (id : String) (kind : EventKind) (candidates : List (Transition C)),
      (∀ state trigger context judged, Consults i now event start id state trigger context judged →
        trigger ≠ .event kind ∧ trigger ≠ .raise kind) →
      i.SameTurn (i.machine.handling id kind candidates) now later event start := by
  refine ⟨fun other agrees => agrees.sameTurn later, fun b definition other resolved known extended => ?_,
    fun id kind candidates unasked => ?_⟩
  · have agrees : i.AgreesAlong other now event start := extended.agreesAlong resolved known
    exact agrees.sameTurn later
  · have agrees := Machine.agreesAlong_handling unasked candidates
    exact agrees.sameTurn later

/-- The menu whose call is rejected keeps its turn when it gets a state for help, candidates that lead there, or a way
back to help. -/
theorem turn_local_stuck :
    let event : Event := { kind := .transit, input := "1" }
    let start : Position Rehearsal.Bare Nat := ⟨"menu", {}, 0⟩
    let help : Machine.State Rehearsal.Bare Nat := ⟨"help", .final, [], none, none, fun _ => []⟩
    let more : List (Transition Rehearsal.Bare) := [{ target := "help" }]
    let offered := stuckInterpreter.machine.offering more
    let grown := { offered with states := offered.states.insert "help" help }
    let back := stuckInterpreter.machine.handling "menu" .back more
    let away : Event := { kind := .back, input := "" }
    stuckInterpreter.machine.Extends grown ∧
      stuckInterpreter.SameTurn grown .epoch .latest event start ∧
      stuckInterpreter.AgreesAlong back .epoch event start ∧
      stuckInterpreter.SameTurn back .epoch .latest event start ∧
      (∀ candidates, stuckInterpreter.SameTurn (stuckInterpreter.machine.handling "menu" .back candidates) .epoch
        .latest event start) ∧
      (Interpreter.step { stuckInterpreter with machine := back } .epoch "menu" {} away 0).state = "help" := by
  intro event start help more offered grown back away
  have resolved : stuckBindings.resolve stuckDefinition = .ok stuckInterpreter.machine := rfl
  have extended : stuckInterpreter.machine.Extends grown :=
    (stuckInterpreter.machine.extends_offering more).insert rfl help
  have still : ∀ menu, stuckInterpreter.machine.state? "menu" = some menu → menu.raise = none ∧ menu.call = none := by
    rintro _ ⟨⟩
    exact ⟨rfl, rfl⟩
  have unasked : ∀ state trigger context judged,
      Consults stuckInterpreter .epoch event start "menu" state trigger context judged →
        trigger ≠ .event .back ∧ trigger ≠ .raise .back := by
    intro state trigger context judged consults
    have quiet := still state consults.found
    generalize name : "menu" = id at consults
    cases consults with
    | event => exact ⟨nofun, nofun⟩
    | effect walk found proceeds fresh effect =>
      have acts := effect.acts
      rw [quiet.1, quiet.2] at acts
      simp at acts
  obtain ⟨agreeing, extending, handling⟩ := stuckInterpreter.turn_local .epoch .latest event start
  have agrees : stuckInterpreter.AgreesAlong back .epoch event start := Machine.agreesAlong_handling unasked more
  refine ⟨extended, extending _ _ _ resolved rfl extended, agrees, agreeing back agrees,
    fun candidates => handling "menu" .back candidates unasked, ?_⟩
  decide +kernel

end DialMenu
