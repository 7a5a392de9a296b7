import DialMenu.Proofs.Menus.Entry
import DialMenu.Proofs.Menus.JointWrites

/-!
The languages over whole conversations with the language menu. A selection is one of the supported codes and is there
whenever the PIN is asked for. A language that changes anywhere becomes the code that is selected: after a write, even
a partial one, the conversation comes to states from which no other selection can be made.
-/

namespace DialMenu.Menus.Languages

/-- The codes that can be selected. -/
def codes : List String := supported.map (·.2)

theorem mem_codes_of_languageFor? {option code : String} (chosen : languageFor? option = some code) : code ∈ codes :=
  List.mem_map_of_mem (Entries.mem_of_get?_eq_some chosen)

/-- The rejection of a call without a selection. -/
def missingLanguage : ServiceError := .machine changeErrorCode "No language selected."

theorem guard_isValidLanguageOption (year : Int) :
    (Menu.languages.bindings year).guard "isValidLanguageOption" =
      some ⟨"isValidLanguageOption", isValidLanguageOption⟩ := rfl

theorem action_saveLanguageSelection (year : Int) :
    (Menu.languages.bindings year).action "saveLanguageSelection" =
      some ⟨"saveLanguageSelection", saveLanguageSelection⟩ := rfl

theorem action_saveAccountLanguage (year : Int) :
    (Menu.languages.bindings year).action "saveAccountLanguage" =
      some ⟨"saveAccountLanguage", saveAccountLanguage⟩ := rfl

theorem pending_saveAccountLanguage (s : Subscriber) (event : Event) :
    (saveAccountLanguage s event).pending = s.pending := by
  unfold saveAccountLanguage
  split <;> rfl

theorem keeps (year : Int) :
    Change.language.Keeps year (fun t => ∀ code, t.pending.language = some code → code ∈ codes)
      fun t => t.pending.language.isSome = true where
  sound_congr _ _ _ pending sound := pending ▸ sound
  filled_congr _ _ _ pending filled := pending ▸ filled
  entry := by
    refine List.forall_mem_singleton.2
      ⟨_, _, guard_isValidLanguageOption year, action_saveLanguageSelection year, ?_⟩
    intro t tag event accepted _
    exact ⟨fun code chosen => mem_codes_of_languageFor? chosen, accepted⟩
  confirmation := by
    refine List.forall_mem_singleton.2 ⟨_, action_saveAccountLanguage year, fun t event sound => ?_⟩
    dsimp only
    rw [pending_saveAccountLanguage]
    exact sound

/-- It is the rejection of exactly those calls: a failure of a backend is worded otherwise. -/
theorem changeLanguage_missing_iff {s : Subscriber} {b : Backends} :
    (changeLanguage s b).1 = .error missingLanguage ↔ s.pending.language = none := by
  unfold changeLanguage
  cases s.pending.language with
  | none => exact iff_of_true rfl rfl
  | some language =>
    refine iff_of_false ?_ nofun
    dsimp only
    generalize b.updateLanguage s.phone language = written
    rcases written with ⟨err | _, left⟩
    · intro same
      have message := (ServiceError.machine.inj (Except.error.inj same)).2
      exact absurd (prefix_of_append_eq message) (by decide)
    · exact nofun

theorem withPin_changeLanguage_ne {s : Subscriber} (selected : s.pending.language.isSome = true) (event : Event)
    (b : Backends) : (withPin changeLanguage s event b).result ≠ .error missingLanguage := by
  refine withPin_ne (by decide) fun left same => ?_
  rw [changeLanguage_missing_iff.1 same] at selected
  cases selected

/-- Where a language is kept: the account store and the cache have one for each number, the context one for its
account. -/
inductive Place where
  | durable (phone : String)
  | cached (phone : String)
  | context

def languageAt (t : Subscriber) (b : Backends) : Place → Option String
  | .durable phone => b.accounts.language? phone
  | .cached phone => b.cache.language? phone
  | .context => some t.user.account.language

/-- Every language is as it was. -/
def Unmoved (s : Subscriber) (b : Backends) (t : Subscriber) (left : Backends) : Prop :=
  ∀ place, languageAt t left place = languageAt s b place

/-- Every language is as it was, or has become one of the codes. -/
def Follows (allowed : String → Prop) (s : Subscriber) (b : Backends) (t : Subscriber) (left : Backends) : Prop :=
  ∀ place, languageAt t left place = languageAt s b place ∨ ∃ code, allowed code ∧ languageAt t left place = some code

section Follows

variable {allowed allowed' : String → Prop} {s t t' : Subscriber} {b left left' : Backends}

theorem Unmoved.follows (same : Unmoved s b t left) : Follows allowed s b t left := fun place => .inl (same place)

theorem Unmoved.trans (first : Unmoved s b t left) (second : Unmoved t left t' left') : Unmoved s b t' left' :=
  fun place => (second place).trans (first place)

theorem Follows.trans (first : Follows allowed s b t left) (second : Follows allowed t left t' left') :
    Follows allowed s b t' left' := by
  intro place
  rcases second place with same | changed
  · rw [same]
    exact first place
  · exact .inr changed

theorem Follows.mono (follows : Follows allowed s b t left) (allows : ∀ code, allowed code → allowed' code) :
    Follows allowed' s b t left :=
  fun place => (follows place).imp_right fun ⟨code, chosen, now⟩ => ⟨code, allows code chosen, now⟩

theorem unmoved_of_featureRecords (records : left.featureRecords = b.featureRecords) (user : t.user = s.user) :
    Unmoved s b t left := by
  intro place
  cases place with
  | durable phone => exact congrFun (congrArg FeatureRecords.language records) phone
  | cached phone => exact congrArg (fun records => records.cachedLanguages.get? phone) records
  | context => exact congrArg (fun user => some user.account.language) user

end Follows

/-- A write moves no language but to its own. -/
theorem follows_updateLanguage (s : Subscriber) (b : Backends) (phone language : String) :
    Follows (· = language) s b s (b.updateLanguage phone language).2 := by
  let call : JointCall := ⟨.updateLanguage phone language, b.accounts.down, b.cache.down⟩
  have own {other code : String} (asked : JointWrite.languageOf other call.write = some code) : code = language :=
    (JointWrite.updateLanguage.inj (JointWrite.languageOf_eq_some_iff.1 asked)).2.symm
  intro place
  cases place with
  | durable other =>
    have durable := b.durableLanguage_perform call other
    cases written : call.durable (JointWrite.languageOf other) with
    | none =>
      rw [written] at durable
      exact .inl (durable.trans Option.map_id')
    | some code =>
      cases found : b.accounts.language? other with
      | none =>
        rw [found] at durable
        exact .inl (durable.trans found.symm)
      | some before =>
        rw [written, found] at durable
        exact .inr ⟨code, own (JointCall.asked_of_durable written), durable⟩
  | cached other =>
    have cached := b.language?_perform call other
    cases written : call.cached (JointWrite.languageOf other) with
    | none =>
      rw [written] at cached
      exact .inl cached
    | some code =>
      rw [written] at cached
      exact .inr ⟨code, own (JointCall.asked_of_cached written), cached⟩
  | context => exact .inl rfl

/-- The confirmation moves the language of the context to what is selected. -/
theorem follows_saveAccountLanguage (t : Subscriber) (event : Event) (b : Backends) :
    Follows (t.pending.language = some ·) t b (saveAccountLanguage t event) b := by
  intro place
  cases place with
  | durable | cached => exact .inl rfl
  | context =>
    unfold saveAccountLanguage
    cases t.pending.language with
    | none => exact .inl rfl
    | some language => exact .inr ⟨language, rfl, rfl⟩

/-- What the service behind the PIN check does to the languages. Only a write can leave one of them changed, and if it
fails all the same, the rejection is that of the change. -/
theorem withPin_changeLanguage_follows (t : Subscriber) (event : Event) (b : Backends) :
    let answer := withPin changeLanguage t event b
    Follows (t.pending.language = some ·) t b t answer.env ∧
      ∀ err, answer.result = .error err →
        Unmoved t b t answer.env ∨ ∃ message, err = .machine changeErrorCode message := by
  intro answer
  have checking : Unmoved t b t (validatePin t event.input b).2 :=
    unmoved_of_featureRecords (featureRecords_validatePin t event.input b) rfl
  cases checked : (validatePin t event.input b).1 with
  | error err =>
    have rejected : answer = { result := .error err, env := (validatePin t event.input b).2 } :=
      withPin_of_error checked
    rw [rejected]
    exact ⟨checking.follows, fun _ _ => .inl checking⟩
  | ok _ =>
    have worked : answer = _ := withPin_of_ok checked
    rw [worked]
    constructor
    · dsimp only
      rw [backends_changeLanguage]
      cases selected : t.pending.language with
      | none => exact checking.follows
      | some language =>
        have written := follows_updateLanguage t (validatePin t event.input b).2 t.phone language
        exact checking.follows.trans (written.mono fun code same => congrArg some same.symm)
    · intro err failed
      rcases Protection.language.answers t (validatePin t event.input b).2 with ⟨value, done, -⟩ | ⟨message, rejected⟩
      · cases done.symm.trans failed
      · exact .inr ⟨message, Except.error.inj (failed.symm.trans rejected)⟩

/-- A conversation that stands in one of these makes no other selection. -/
def settled : List String := ["accountBlocked", "changeError", "changeSuccess", "exit", "settingsMenu"]

theorem settled_routes : ∀ e ∈ definition.states.entries, e.1 ∈ settled → ∀ route ∈ e.2.routes,
    route.target ∈ settled ∧ route.actions = [] := by decide +kernel

theorem settled_maintains (year : Int) (selected : Option String) :
    (Menu.languages.bindings year).Maintains Menu.languages.definition
      fun id t => id ∈ settled ∧ t.pending.language = selected where
  feedback _ _ _ holds := holds
  route id source declared route mem judged t event _ holds _ := by
    obtain ⟨target, plain⟩ :=
      settled_routes (id, source) ((Table.mem_entries_iff _ _ _).2 declared) holds.1 route mem
    rw [plain]
    exact ⟨target, holds.2⟩

/-- The classifier shows a failed change by its code. -/
def ShowsChangeError (classify : ServiceError → Failure) : Prop :=
  ∀ message, (classify (.machine changeErrorCode message)).code = changeErrorCode

theorem state_rejected_of_changeError {now : Instant} {t : Subscriber} {failure : Failure} {b : Backends}
    (shown : failure.code = changeErrorCode) : (Sequel.language.rejected now t failure b).state ∈ settled := by
  have apart : changeErrorCode ≠ invalidPinCode := by decide
  have taken : Sequel.language.rejection? t failure = some .blocked ∨
      Sequel.language.rejection? t failure = some .failed := by
    cases blocked : Protection.language.shows t failure .blocked with
    | true => exact .inl (List.find?_cons_of_pos blocked)
    | false =>
      have wrong : Protection.language.shows t failure .wrongPin = false := by simp [Protection.shows, shown, apart]
      have failed : Protection.language.shows t failure .failed = true := by
        simp [Protection.shows, shown, Protection.language]
      refine .inr ?_
      simp [Sequel.rejection?, Sequel.order, Sequel.language, blocked, wrong, failed]
  unfold Sequel.rejected
  rcases taken with taken | taken
  · rw [taken]
    exact List.mem_cons_self
  · rw [taken]
    exact List.mem_cons_of_mem _ List.mem_cons_self

section Turn

variable {year : Int} {machine : Machine Subscriber Backends} (classify : ServiceError → Failure) (now : Instant)
  (state : String) (t : Subscriber) (event : Event) (b : Backends)

/-- A keystroke forward in the entry of the PIN keeps the selection, and the languages follow it. If one has changed, no
other selection can be made, as long as the classifier shows a failed change. -/
theorem pinTurn_follows :
    let rest := Menu.languages.pinTurn .language classify now t event b
    rest.context.pending = t.pending ∧ Follows (t.pending.language = some ·) t b rest.context rest.env ∧
      (Unmoved t b rest.context rest.env ∨ (ShowsChangeError classify → rest.state ∈ settled)) := by
  intro rest
  let cleared : Subscriber := Context.setFeedback none t
  let answer := withPin changeLanguage cleared event b
  have follows : Follows (t.pending.language = some ·) t b cleared answer.env :=
    (withPin_changeLanguage_follows cleared event b).1
  by_cases stops : Menu.languages.asksStatus = true ∧ isBlocked t event = true
  · have same : Unmoved t b rest.context rest.env := by
      simp only [rest, Menu.pinTurn, if_pos stops]
      exact fun _ => rfl
    refine ⟨?_, same.follows, .inl same⟩
    simp only [rest, Menu.pinTurn, if_pos stops]
    rfl
  · have on : rest = Sequel.language.rest now cleared classify answer := if_neg stops
    cases answered : answer.result with
    | ok value =>
      rw [on, Sequel.rest, answered]
      refine ⟨pending_saveAccountLanguage cleared (Sequel.answered value), ?_, .inr fun _ => ?_⟩
      · exact follows.trans (follows_saveAccountLanguage cleared (Sequel.answered value) answer.env)
      · exact List.mem_cons_of_mem _ (List.mem_cons_of_mem _ List.mem_cons_self)
    | error err =>
      have rejects : rest = Sequel.language.rejected now cleared (classify err) answer.env := by
        rw [on, Sequel.rest, answered]
      obtain ⟨user, pending⟩ : rest.context.user = t.user ∧ rest.context.pending = t.pending :=
        rejects ▸ Sequel.context_rejected
      have left : rest.env = answer.env := rejects ▸ Sequel.env_rejected
      have kept : Unmoved cleared answer.env rest.context rest.env :=
        unmoved_of_featureRecords (congrArg Backends.featureRecords left) user
      refine ⟨pending, follows.trans kept.follows, ?_⟩
      rcases (withPin_changeLanguage_follows cleared event b).2 err answered with same | ⟨message, rfl⟩
      · have same : Unmoved t b cleared answer.env := same
        exact .inl (same.trans kept)
      · exact .inr fun shows => rejects ▸ state_rejected_of_changeError (shows message)

/-- A turn moves no language; or it came forward from the entry of the PIN and keeps the selection, and the languages
follow it. Then no other selection can be made, as long as the classifier shows a failed change. -/
theorem step_follows (made : Menu.languages.machine year = .ok machine) :
    let rest := Interpreter.step { machine, classify } now state t event b
    Unmoved t b rest.context rest.env ∨
      (state = "enteringPin" ∧ rest.context.pending = t.pending ∧
        Follows (t.pending.language = some ·) t b rest.context rest.env ∧
        (ShowsChangeError classify → rest.state ∈ settled)) := by
  intro rest
  rcases Menu.step_protection made classify now state t event b with ⟨sameEnv, sameUser⟩ | ⟨forward, gate, -, -⟩
  · exact .inl (unmoved_of_featureRecords (congrArg Backends.featureRecords sameEnv) sameUser)
  · obtain rfl : state = "enteringPin" := List.mem_singleton.1 gate
    have turn : rest = Menu.languages.pinTurn .language classify now t event b :=
      Menu.step_pin made (List.mem_singleton_self Sequel.language) classify now t forward b
    obtain ⟨pending, follows, same | stands⟩ := pinTurn_follows classify now t event b
    · exact .inl (turn ▸ same)
    · exact .inr ⟨rfl, turn ▸ pending, turn ▸ follows, turn ▸ stands⟩

end Turn

/-- A conversation that began with `s` and the backends `b`, and where it and the backends stand. Between its turns an
outage may begin or end and PINs may be tried elsewhere: the backends change in any way but in the languages. -/
inductive Runs (year : Int) (classify : ServiceError → Failure) (s : Subscriber) (b : Backends) :
    String → Subscriber → Backends → Prop
  | start : Runs year classify s b definition.initial s b
  | between {state : String} {t : Subscriber} {left other : Backends} :
      Runs year classify s b state t left → Unmoved t left t other → Runs year classify s b state t other
  | turn {state : String} {t : Subscriber} {left : Backends} {machine : Machine Subscriber Backends} :
      Runs year classify s b state t left → Menu.languages.machine year = .ok machine →
      ∀ (now : Instant) (event : Event),
      Runs year classify s b (Interpreter.step { machine, classify } now state t event left).state
        (Interpreter.step { machine, classify } now state t event left).context
        (Interpreter.step { machine, classify } now state t event left).env

section Runs

variable {year : Int} {classify : ServiceError → Failure} {s t : Subscriber} {b left : Backends} {state : String}

theorem Runs.visits (runs : Runs year classify s b state t left) : Menu.languages.Visits s year state t := by
  induction runs with
  | start => exact .start year
  | between _ _ ih => exact ih
  | turn _ made now event ih => exact ih.turn (Int.le_refl year) made classify now event _

/-- The selection is a supported code, and it is there while the PIN is awaited. -/
theorem selected_of_visits (idle : s.pending.language = none) (visits : Menu.languages.Visits s year state t) :
    (∀ code, t.pending.language = some code → code ∈ codes) ∧
      (state ∈ Change.language.awaiting → t.pending.language.isSome = true) :=
  Change.language.kept keeps (fun _ _ _ _ sound => sound) (fun _ code selected => by simp [idle] at selected) visits

/-- Whatever the classifier, languages change to supported codes only. -/
theorem Runs.follows_codes (idle : s.pending.language = none) (runs : Runs year classify s b state t left) :
    Follows (· ∈ codes) s b t left := by
  induction runs with
  | start => exact Unmoved.follows fun _ => rfl
  | between _ same ih => exact ih.trans same.follows
  | @turn state t left machine earlier made now event ih =>
    refine ih.trans ?_
    rcases step_follows classify now state t event left made with same | ⟨-, -, follows, -⟩
    · exact same.follows
    · exact follows.mono (selected_of_visits idle earlier.visits).1

/-- No language has moved, or those that have are what is selected, and no other selection can be made. -/
theorem Runs.unmoved_or_settled (shows : ShowsChangeError classify) (runs : Runs year classify s b state t left) :
    Unmoved s b t left ∨ state ∈ settled ∧ Follows (t.pending.language = some ·) s b t left := by
  induction runs with
  | start => exact .inl fun _ => rfl
  | between _ same ih =>
    rcases ih with before | ⟨stands, follows⟩
    · exact .inl (before.trans same)
    · exact .inr ⟨stands, follows.trans same.follows⟩
  | @turn state t left machine _ made now event ih =>
    rcases step_follows classify now state t event left made with same | ⟨here, pending, follows, stands⟩
    · rcases ih with before | ⟨settles, before⟩
      · exact .inl (before.trans same)
      · obtain ⟨still, selected⟩ := Interpreter.maintains_step { machine, classify }
          (Bindings.wellFormed_of_resolve made).2 (settled_maintains year t.pending.language) now event left
          ⟨settles, rfl⟩
        exact .inr ⟨still, selected ▸ before.trans same.follows⟩
    · rcases ih with before | ⟨settles, -⟩
      · exact .inr ⟨stands shows, pending ▸ before.follows.trans follows⟩
      · exact absurd (here ▸ settles) (by decide)

end Runs

/-- All along a conversation that begins without a selection, the selection is a supported code, and it is there when
the PIN is entered: no call is rejected for want of one. Languages change to supported codes only, and to the one that
is selected, as long as the classifier shows a failed change. -/
theorem languages_follow_selection {year : Int} {classify : ServiceError → Failure} {s t : Subscriber}
    {b left : Backends} {state : String} (idle : s.pending.language = none)
    (runs : Runs year classify s b state t left) :
    (∀ code, t.pending.language = some code → code ∈ codes) ∧
      (state = "enteringPin" → ∃ code, t.pending.language = some code) ∧
      (∀ machine, Menu.languages.machine year = .ok machine → ∀ (now : Instant) (event : Event) (other : Backends),
        ∀ logged ∈ ((Interpreter.mk machine classify).logged.step now state t event (other, [])).env.2,
          logged.result ≠ .error missingLanguage) ∧
      Follows (· ∈ codes) s b t left ∧
      (ShowsChangeError classify → Follows (t.pending.language = some ·) s b t left) := by
  obtain ⟨sound, filled⟩ := selected_of_visits idle runs.visits
  refine ⟨sound, fun here => ?_, fun machine made now event other logged mem => ?_, runs.follows_codes idle,
    fun shows => ?_⟩
  · exact Option.isSome_iff_exists.1 (filled (by rw [here]; decide))
  · obtain ⟨protection, protects, called⟩ := Menu.exists_protection_of_logged made mem
    obtain rfl := List.mem_singleton.1 protects
    obtain ⟨context, env, -, selected, same⟩ := (keeps year).exists_called made sound filled mem called.symm
    rw [same]
    exact withPin_changeLanguage_ne selected event env
  · rcases runs.unmoved_or_settled shows with same | ⟨-, follows⟩
    · exact same.follows
    · exact follows

/-- A user with an account in English. -/
def english : Subscriber := { user := { account := { phone := "+254700000001", language := "eng" } } }

def englishBackends : Backends := { accounts := AccountStore.insert {} "+254700000001" "1234" "eng" }

/-- Swahili is selected, and while the cache is down it is confirmed: the account store has the new language, the cache
none, and the context the old one. -/
theorem languages_follow_selection_outage : ∃ machine, Menu.languages.machine 2024 = .ok machine ∧
    let turn (state : String) (t : Subscriber) (input : String) (b : Backends) :=
      Interpreter.step { machine } .epoch state t { kind := .transit, input } b
    let chosen := turn "firstLanguageSet" english "2" englishBackends
    let outage : Backends := { chosen.env with cache := { chosen.env.cache with down := true } }
    let failed := turn chosen.state chosen.context "1234" outage
    (chosen.state = "enteringPin" ∧ (∃ code, chosen.context.pending.language = some code)) ∧
      failed.state = "changeError" ∧ failed.context.pending.language = some "swa" ∧ "swa" ∈ codes ∧
      failed.env.accounts.language? "+254700000001" = some "swa" ∧
      failed.env.cache.language? "+254700000001" = none ∧ failed.context.user.account.language = "eng" ∧
      Follows (failed.context.pending.language = some ·) english englishBackends failed.context failed.env := by
  obtain ⟨machine, made⟩ := Menu.languages.exists_machine 2024
  refine ⟨machine, made, ?_⟩
  intro turn chosen outage failed
  have known : ∀ m, Menu.languages.machine 2024 = .ok m →
      let turn (state : String) (t : Subscriber) (input : String) (b : Backends) :=
        Interpreter.step { machine := m } .epoch state t { kind := .transit, input } b
      let chosen := turn "firstLanguageSet" english "2" englishBackends
      let outage : Backends := { chosen.env with cache := { chosen.env.cache with down := true } }
      let failed := turn chosen.state chosen.context "1234" outage
      chosen.state = "enteringPin" ∧ failed.state = "changeError" ∧ failed.context.pending.language = some "swa" ∧
        failed.env.accounts.language? "+254700000001" = some "swa" ∧
        failed.env.cache.language? "+254700000001" = none ∧ failed.context.user.account.language = "eng" := by
    intro m same
    cases same
    decide +kernel
  obtain ⟨entered, ended, selected, durable, cached, context⟩ := known machine made
  have first : Runs 2024 ServiceError.classify english englishBackends chosen.state chosen.context chosen.env :=
    .turn .start made _ _
  have paused : Unmoved chosen.context chosen.env chosen.context outage := fun place => by cases place <;> rfl
  have second : Runs 2024 ServiceError.classify english englishBackends failed.state failed.context failed.env :=
    .turn (first.between paused) made _ _
  obtain ⟨-, there, -⟩ := languages_follow_selection rfl first
  obtain ⟨supported, -, -, -, follows⟩ := languages_follow_selection rfl second
  exact ⟨⟨entered, there entered⟩, ended, selected, supported "swa" selected, durable, cached, context,
    follows fun _ => rfl⟩

end DialMenu.Menus.Languages
