import DialMenu.Proofs.Draft.States

/-!
Definitions that are put together call by call. Building a draft gives what its script makes, or fails over what is
wrong first: the first state that is not set, then the first of the states that cannot be built or is there already,
then the graph.
-/

namespace DialMenu

theorem Entries.insert_perm {κ α : Type} [Ord κ] [DecidableEq κ] [Std.LawfulEqOrd κ] {k : κ} {v : α}
    {entries : List (κ × α)} (fresh : get? k entries = none) : (insert k v entries).Perm ((k, v) :: entries) := by
  induction entries with
  | nil => exact List.Perm.refl _
  | cons entry rest ih =>
    obtain ⟨key, value⟩ := entry
    have differ : key ≠ k := by
      rintro rfl
      simp [get?] at fresh
    rw [get?, if_neg differ] at fresh
    unfold insert
    split
    · exact List.Perm.refl _
    · rename_i same
      exact absurd (Std.LawfulEqOrd.compare_eq_iff_eq.1 same).symm differ
    · exact ((ih fresh).cons _).trans (List.Perm.swap _ _ _)

theorem Table.insert_perm {κ α : Type} [Ord κ] [DecidableEq κ] [Std.TransOrd κ] [Std.LawfulEqOrd κ] {table : Table κ α}
    {k : κ} (fresh : table.get? k = none) (v : α) : (table.insert k v).entries.Perm ((k, v) :: table.entries) :=
  Entries.insert_perm fresh

/-- Tables with the same entries in any order are equal. -/
theorem Table.eq_of_perm {κ α : Type} [Ord κ] [DecidableEq κ] [Std.TransOrd κ] [Std.LawfulEqOrd κ] {a b : Table κ α}
    (same : a.entries.Perm b.entries) : a = b :=
  ext_get? fun k => Option.ext fun v => by rw [← mem_entries_iff, ← mem_entries_iff, same.mem_iff]

theorem Table.contains_iff {κ α : Type} [Ord κ] [DecidableEq κ] [Std.LawfulEqOrd κ] {table : Table κ α} {k : κ} :
    table.contains k = true ↔ k ∈ table.entries.map (·.1) := by
  rw [contains, Option.isSome_iff_exists]
  simp [mem_entries_iff]

namespace Draft

/-- A call on the draft of a definition, with the calls on the drafts of the states that it adds. -/
inductive Step where
  | start (initial : String)
  | state (script : StateDraft.Script)
  | extend (scripts : List StateDraft.Script)
deriving DecidableEq

namespace Step

def apply (draft : Draft) : Step → Draft
  | start initial => draft.start initial
  | state script => draft.state script.draft
  | extend scripts => draft.extend (scripts.map StateDraft.Script.draft)

def start? : Step → Option String
  | start initial => some initial
  | state _ | extend _ => none

def states : Step → List StateDraft.Script
  | start _ => []
  | state script => [script]
  | extend scripts => scripts

theorem apply_eq (draft : Draft) (step : Step) : apply draft step =
    { id := draft.id, initial := step.start?.or draft.initial,
      states := draft.states ++ step.states.map StateDraft.Script.draft } := by
  cases step <;> simp [apply, Draft.start, Draft.state, Draft.extend, start?, states]

end Step

structure Script where
  id : String
  steps : List Step := []
deriving DecidableEq

/-- Every state can be built by itself, and no two have one name. -/
structure Sound (scripts : List StateDraft.Script) : Prop where
  targeted : ∀ script ∈ scripts, script.Targeted
  distinct : (scripts.map StateDraft.Script.id).Nodup

namespace Script

variable {script : Script} {definition : Definition}

def draft (script : Script) : Draft := script.steps.foldl Step.apply { id := script.id }

def initial (script : Script) : Option String := (script.steps.filterMap Step.start?).getLast?

def states (script : Script) : List StateDraft.Script := script.steps.flatMap Step.states

theorem draft_eq (script : Script) : script.draft =
    { id := script.id, initial := script.initial, states := script.states.map StateDraft.Script.draft } := by
  have id : script.draft.id = script.id := foldl_kept Draft.id (fun _ _ => by rw [Step.apply_eq]) _ script.steps
  have initial := foldl_overwritten Draft.initial (fun draft step => congrArg Draft.initial (Step.apply_eq draft step))
    { id := script.id } script.steps
  have states := foldl_appended Draft.states (fun draft step => congrArg Draft.states (Step.apply_eq draft step))
    { id := script.id } script.steps
  rw [Option.or_none] at initial
  rw [List.nil_append, ← List.map_flatMap] at states
  unfold Script.initial Script.states
  rw [← initial, ← states]
  exact congrArg (Draft.mk · _ _) id

/-- The definition begins where the script says last, and has one state for each state of the script. -/
structure Makes (script : Script) (definition : Definition) : Prop where
  id : script.id = definition.id
  initial : script.initial = some definition.initial
  states : ∃ entries, List.Forall₂ StateDraft.Script.Enters script.states entries ∧
    definition.states.entries.Perm entries

/-- A first state is set, every candidate has a target, and no state is declared twice. -/
structure Complete (script : Script) : Prop where
  initial : ∃ state, script.initial = some state
  states : Sound script.states

/-- What is wrong first. -/
inductive Fails (script : Script) : BuildError → Prop
  | missingInitialState : script.initial = none → Fails script (.missingInitialState script.id)
  | state {initial : String} {before after : List StateDraft.Script} {state : StateDraft.Script} {err : BuildError} :
      script.initial = some initial → script.states = before ++ state :: after → Sound before →
      state.Faulty script.id (before.map StateDraft.Script.id) err → Fails script err
  | invalidDefinition {definition : Definition} : script.Makes definition → definition.graphViolations ≠ [] →
      Fails script (.invalidDefinition script.id definition.graphViolations)

end Script

/-- The definition, unless the check of its graph finds something. -/
def checked (definition : Definition) : Except BuildError Definition :=
  match definition.graphViolations with
  | [] => .ok definition
  | violations => .error (.invalidDefinition definition.id violations)

theorem checked_cases (definition : Definition) :
    (definition.graphViolations = [] ∧ checked definition = .ok definition) ∨
      definition.graphViolations ≠ [] ∧
        checked definition = .error (.invalidDefinition definition.id definition.graphViolations) := by
  unfold checked
  cases definition.graphViolations with
  | nil => exact .inl ⟨rfl, rfl⟩
  | cons => exact .inr ⟨nofun, rfl⟩

theorem build_eq {draft : Draft} {initial : String} (set : draft.initial = some initial) : draft.build =
    buildStates draft.id .empty draft.states >>= fun states => checked { id := draft.id, initial, states } := by
  rw [build, set]
  rfl

section States

variable {machine : String} {table : Table String Definition.State} {scripts : List StateDraft.Script}

theorem buildStates_cons {draft : StateDraft} {state : Definition.State} (built : draft.build = .ok state)
    (drafts : List StateDraft) : buildStates machine table (draft :: drafts) =
      if table.contains draft.id then .error (.duplicateState machine draft.id)
      else buildStates machine (table.insert draft.id state) drafts := by
  rw [buildStates, built]
  rfl

/-- Sound states that are new to the table are added to it. -/
theorem buildStates_of_sound (sound : Sound scripts)
    (fresh : ∀ script ∈ scripts, table.get? script.id = none) :
    ∃ built entries, buildStates machine table (scripts.map StateDraft.Script.draft) = .ok built ∧
      List.Forall₂ StateDraft.Script.Enters scripts entries ∧ built.entries.Perm (entries ++ table.entries) := by
  induction scripts generalizing table with
  | nil => exact ⟨table, [], rfl, .nil, List.Perm.refl _⟩
  | cons script scripts ih =>
    obtain ⟨here, later⟩ := List.forall_mem_cons.1 sound.targeted
    obtain ⟨other, distinct⟩ := List.nodup_cons.1 sound.distinct
    obtain ⟨new, others⟩ := List.forall_mem_cons.1 fresh
    obtain ⟨state, made⟩ := StateDraft.Script.exists_build here
    have absent : table.contains script.id = false := by rw [Table.contains, new]; rfl
    have stillFresh : ∀ next ∈ scripts, (table.insert script.id state).get? next.id = none := by
      intro next mem
      rw [Table.get?_insert, if_neg fun same => other (List.mem_map.2 ⟨next, mem, same.symm⟩)]
      exact others next mem
    obtain ⟨built, entries, done, each, whole⟩ := ih ⟨later, distinct⟩ stillFresh
    refine ⟨built, (script.id, state) :: entries, ?_, .cons ⟨rfl, StateDraft.Script.makes_of_build made⟩ each, ?_⟩
    · rw [List.map_cons, buildStates_cons made, StateDraft.Script.id_draft, absent]
      exact done
    · exact whole.trans (((Table.insert_perm new state).append_left entries).trans List.perm_middle)

theorem buildStates_append {first second : List StateDraft} {between : Table String Definition.State}
    (done : buildStates machine table first = .ok between) :
    buildStates machine table (first ++ second) = buildStates machine between second := by
  induction first generalizing table with
  | nil =>
    cases done
    rfl
  | cons draft drafts ih =>
    have parts := done
    rw [buildStates] at parts
    obtain ⟨state, made, -⟩ := Except.bind_eq_ok_iff.1 parts
    rw [buildStates_cons made] at done
    rw [List.cons_append, buildStates_cons made]
    split at done
    · cases done
    · rename_i new
      rw [if_neg new]
      exact ih done

/-- The first state with which something is wrong decides, whatever comes behind it. -/
theorem buildStates_of_faulty {before after : List StateDraft.Script} {script : StateDraft.Script} {err : BuildError}
    (sound : Sound before) (faulty : script.Faulty machine (before.map StateDraft.Script.id) err) :
    buildStates machine .empty ((before ++ script :: after).map StateDraft.Script.draft) = .error err := by
  have fresh : ∀ script ∈ before, (Table.empty : Table String Definition.State).get? script.id = none := fun _ _ => rfl
  obtain ⟨built, entries, done, each, whole⟩ := buildStates_of_sound sound fresh
  rw [List.map_append, buildStates_append done, List.map_cons]
  cases faulty with
  | missingTarget lacking =>
    rw [buildStates, StateDraft.Script.build_draft_of_not_targeted lacking]
    rfl
  | duplicateState targeted twice =>
    obtain ⟨state, made⟩ := StateDraft.Script.exists_build targeted
    have there : built.contains script.id = true := by
      rw [StateDraft.Script.map_id_of_enters each] at twice
      rw [Table.contains_iff, (whole.map _).mem_iff]
      simpa [Table.empty] using twice
    rw [buildStates_cons made, StateDraft.Script.id_draft, if_pos there]

/-- Either nothing is wrong with the states, or there is a first one with which something is wrong. -/
theorem sound_or_faulty (machine : String) (scripts : List StateDraft.Script) : Sound scripts ∨
    ∃ before script after err, scripts = before ++ script :: after ∧ Sound before ∧
      script.Faulty machine (before.map StateDraft.Script.id) err := by
  induction scripts using List.reverseRecOn with
  | nil => exact .inl ⟨by simp, List.nodup_nil⟩
  | append_singleton scripts script ih =>
    rcases ih with sound | ⟨before, first, after, err, rfl, sound, faulty⟩
    · by_cases targeted : script.Targeted
      · by_cases twice : script.id ∈ scripts.map StateDraft.Script.id
        · exact .inr ⟨scripts, script, [], _, rfl, sound, .duplicateState targeted twice⟩
        · refine .inl ⟨?_, ?_⟩
          · rintro other mem
            rcases List.mem_append.1 mem with earlier | here
            · exact sound.targeted other earlier
            · rwa [List.mem_singleton.1 here]
          · rw [List.map_append]
            exact List.nodup_append.2 ⟨sound.distinct, by simp, by
              rintro _ earlier _ here rfl
              exact twice (List.mem_singleton.1 here ▸ earlier)⟩
      · exact .inr ⟨scripts, script, [], _, rfl, sound, .missingTarget targeted⟩
    · exact .inr ⟨before, first, after ++ [script], err, by simp, sound, faulty⟩

end States

namespace Script

variable {script : Script} {definition : Definition}

theorem Makes.unique {other : Definition} (makes : script.Makes definition) (makes' : script.Makes other) :
    definition = other := by
  obtain ⟨entries, each, whole⟩ := makes.states
  obtain ⟨entries', each', whole'⟩ := makes'.states
  obtain rfl := StateDraft.Script.enters_rightUnique.forall₂ each each'
  have states := Table.eq_of_perm (whole.trans whole'.symm)
  have id := makes.id.symm.trans makes'.id
  have initial := Option.some.inj (makes.initial.symm.trans makes'.initial)
  cases definition
  cases other
  obtain rfl : _ = _ := states
  obtain rfl : _ = _ := id
  obtain rfl : _ = _ := initial
  rfl

theorem Makes.complete (makes : script.Makes definition) : script.Complete := by
  obtain ⟨entries, each, whole⟩ := makes.states
  refine ⟨⟨_, makes.initial⟩, fun state mem => ?_, ?_⟩
  · obtain ⟨entry, -, made⟩ := List.exists_forall₂_iff.1 ⟨_, each⟩ state mem
    exact made.targeted
  · rw [StateDraft.Script.map_id_of_enters each]
    exact ((whole.map _).nodup_iff).1 definition.states.nodup_keys

/-- A complete script makes a definition, and the check of its graph decides over the build. -/
theorem build_of_complete (complete : script.Complete) :
    ∃ definition, script.Makes definition ∧ script.draft.build = checked definition := by
  obtain ⟨initial, set⟩ := complete.initial
  have fresh : ∀ state ∈ script.states, (Table.empty : Table String Definition.State).get? state.id = none :=
    fun _ _ => rfl
  obtain ⟨built, entries, done, each, whole⟩ := buildStates_of_sound complete.states fresh
  have alone : built.entries.Perm entries := by rwa [Table.empty, List.append_nil] at whole
  refine ⟨⟨script.id, initial, built⟩, ⟨rfl, set, entries, each, alone⟩, ?_⟩
  rw [draft_eq, build_eq set, done]
  rfl

theorem build_of_faulty {initial : String} {before after : List StateDraft.Script} {state : StateDraft.Script}
    {err : BuildError} (set : script.initial = some initial) (listed : script.states = before ++ state :: after)
    (sound : Sound before) (faulty : state.Faulty script.id (before.map StateDraft.Script.id) err) :
    script.draft.build = .error err := by
  rw [draft_eq, build_eq set, listed, buildStates_of_faulty sound faulty]
  rfl

theorem build_of_initial_eq_none (unset : script.initial = none) :
    script.draft.build = .error (.missingInitialState script.id) := by
  rw [draft_eq, build, unset]
  rfl

/-- Either there is a definition to check, or the build fails over what is wrong first. -/
theorem complete_or_fails (script : Script) : script.Complete ∨
    ∃ err, script.Fails err ∧ script.draft.build = .error err := by
  cases set : script.initial with
  | none => exact .inr ⟨_, .missingInitialState set, build_of_initial_eq_none set⟩
  | some initial =>
    rcases sound_or_faulty script.id script.states with sound | ⟨before, state, after, err, listed, sound, faulty⟩
    · exact .inl ⟨⟨initial, set⟩, sound⟩
    · exact .inr ⟨err, .state set listed sound faulty, build_of_faulty set listed sound faulty⟩

theorem build_of_makes (makes : script.Makes definition) : script.draft.build = checked definition := by
  obtain ⟨built, makes', done⟩ := build_of_complete makes.complete
  rw [done, makes.unique makes']

theorem build_draft_iff : script.draft.build = .ok definition ↔
    script.Makes definition ∧ definition.graphViolations = [] := by
  constructor
  · intro built
    rcases script.complete_or_fails with complete | ⟨err, -, failed⟩
    · obtain ⟨made, makes, done⟩ := build_of_complete complete
      rw [built] at done
      rcases checked_cases made with ⟨clear, passed⟩ | ⟨-, failed⟩
      · obtain rfl := Except.ok.inj (done.trans passed)
        exact ⟨makes, clear⟩
      · cases done.trans failed
    · cases built.symm.trans failed
  · rintro ⟨makes, clear⟩
    rw [build_of_makes makes, checked, clear]

theorem build_draft_fails_iff {err : BuildError} : script.draft.build = .error err ↔ script.Fails err := by
  constructor
  · intro failed
    rcases script.complete_or_fails with complete | ⟨err', fails, failed'⟩
    · obtain ⟨made, makes, done⟩ := build_of_complete complete
      rw [failed] at done
      rcases checked_cases made with ⟨-, passed⟩ | ⟨found, refused⟩
      · cases done.trans passed
      · obtain rfl := Except.error.inj (done.trans refused)
        rw [← makes.id]
        exact .invalidDefinition makes found
    · obtain rfl := Except.error.inj (failed.symm.trans failed')
      exact fails
  · intro fails
    cases fails with
    | missingInitialState unset => exact build_of_initial_eq_none unset
    | state set listed sound faulty => exact build_of_faulty set listed sound faulty
    | @invalidDefinition definition makes found =>
      rw [build_of_makes makes, makes.id]
      rcases checked_cases definition with ⟨clear, -⟩ | ⟨-, refused⟩
      · exact absurd clear found
      · exact refused

/-- The build of a draft is exact. A script that sets a first state, gives a target to every candidate and declares no
state twice makes one definition, and any other script none; the build gives that definition if nothing is wrong with
its graph, and otherwise fails over what is wrong first. -/
theorem build_exact (script : Script) :
    (script.Complete ↔ ∃! definition, script.Makes definition) ∧
      (∀ definition, script.draft.build = .ok definition ↔
        script.Makes definition ∧ definition.graphViolations = []) ∧
      ∀ err, script.draft.build = .error err ↔ script.Fails err := by
  refine ⟨⟨fun complete => ?_, fun ⟨_, makes, _⟩ => makes.complete⟩, fun _ => build_draft_iff,
    fun _ => build_draft_fails_iff⟩
  obtain ⟨definition, makes, -⟩ := build_of_complete complete
  exact ⟨definition, makes, fun _ makes' => makes'.unique makes⟩

/-- A candidate without a target is reported before a name that is taken. -/
example : (draft ⟨"demo", [.start "menu", .extend [⟨"menu", .normal, []⟩,
    ⟨"menu", .normal, [.transit [.when "open"]]⟩]]⟩).build = .error .missingTarget := by rfl

end Script

end Draft

end DialMenu
