import DialMenu.Proofs.Menus.Turn

/-!
Where a menu asks again. What no candidate accepts leads to a state that raises, and from there back to a page. For most
pages this is the page itself; the pages that only continue another one share its state, and so the asking starts over.
-/

namespace DialMenu.Menus.Menu

/-- The pages that continue another one, each with the page where the asking starts over. -/
def restarts : Menu → List (String × String)
  | languages => [("secondLanguageSet", "firstLanguageSet"), ("thirdLanguageSet", "firstLanguageSet")]
  | profile => [("enteringFamilyName", "enteringGivenNames")]
  | guardians => []

/-- The page that asks again when `page` does not accept its input. -/
def asksAgainAt (menu : Menu) (page : String) : String := (menu.restarts.lookup page).getD page

theorem asksAgainAt_eq_self_iff {menu : Menu} {page : String} :
    menu.asksAgainAt page = page ↔ page ∉ menu.restarts.map Prod.fst := by
  unfold asksAgainAt
  have elsewhere : ∀ restart ∈ menu.restarts, restart.2 ≠ restart.1 := by cases menu <;> decide
  cases found : menu.restarts.lookup page with
  | none =>
    refine iff_of_true rfl fun mem => ?_
    obtain ⟨restart, inside, same⟩ := List.mem_map.1 mem
    have other := List.lookup_eq_none_iff.1 found restart inside
    simp [same] at other
  | some first =>
    obtain ⟨before, after, split, -⟩ := List.lookup_eq_some_iff.1 found
    have inside : (page, first) ∈ menu.restarts := by simp [split]
    exact iff_of_false (elsewhere _ inside) fun free => free (List.mem_map_of_mem inside)

/-- A candidate that leads to a state that raises is one for input. It changes nothing, and the state asks again at a
page that waits. -/
def Rejects (menu : Menu) (id : String) (kind : EventKind) (route : Route) : Prop :=
  ∀ raise ∈ (menu.definition.state? route.target).bind Definition.State.raise,
    kind = .transit ∧ route.actions = [] ∧ menu.AsksAgain route.target raise (menu.asksAgainAt id) ∧
      menu.Settles (menu.asksAgainAt id) false

instance (menu : Menu) (id : String) (kind : EventKind) (route : Route) : Decidable (menu.Rejects id kind route) :=
  inferInstanceAs (Decidable (∀ raise ∈ (menu.definition.state? route.target).bind Definition.State.raise, _))

theorem rejects (menu : Menu) :
    ∀ e ∈ menu.definition.states.entries, ∀ kind ∈ EventKind.all, ∀ route ∈ e.2.candidates kind,
      menu.Rejects e.1 kind route := by
  cases menu <;> decide +kernel

/-- A turn whose first hop enters a state that raises ends with the raise's tag and nothing else changed, where the menu
asks again. This is where the turn began, unless that page continues another one. -/
theorem asks_again (year : Int) (menu : Menu) : ∃ machine, menu.machine year = .ok machine ∧
    ∀ (classify : ServiceError → Failure) (now : Instant) (state : String) (s : Subscriber) (event : Event)
      (b : Backends) (hop : Hop) (raise : EntryRaise),
      let rest := Interpreter.step { machine, classify } now state s event b
      rest.trace.hops.head? = some hop → (machine.state? hop.target).bind Machine.State.raise = some raise →
        event.kind = .transit ∧ rest.state = menu.asksAgainAt state ∧
          (rest.state = state ↔ state ∉ menu.restarts.map Prod.fst) ∧
          rest.context = { s with feedback := raise.feedback } ∧ rest.disposition = .waiting ∧ rest.env = b := by
  obtain ⟨machine, made⟩ := menu.exists_machine year
  refine ⟨machine, made, ?_⟩
  intro classify now state s event b hop raise rest head raises
  have compiled := (Bindings.wellFormed_of_resolve made).2
  obtain ⟨route, taken, target⟩ := exists_taken made head
  obtain ⟨source, declared, first⟩ := Option.bind_eq_some_iff.1 taken
  have listed : event.kind ∈ EventKind.all := by cases event.kind <;> decide
  have rejects : menu.Rejects state event.kind route :=
    menu.rejects (state, source) ((Table.mem_entries_iff _ _ _).2 declared) _ listed _ (List.mem_of_find?_eq_some first)
  obtain ⟨entered, found, quick⟩ := Option.bind_eq_some_iff.1 raises
  obtain ⟨asking, declared', same⟩ := Bindings.exists_declared compiled found
  rw [← target] at declared'
  have raising : raise ∈ (menu.definition.state? route.target).bind Definition.State.raise := by
    rw [declared']
    exact same.raise.symm.trans quick
  obtain ⟨forward, plain, again, settles⟩ := rejects raise raising
  have turn : rest = _ := step_of_asksAgain made taken again settles
  rw [turn, plain]
  exact ⟨forward, rfl, asksAgainAt_eq_self_iff, rfl, rfl, rfl⟩

theorem asks_again_names : ∃ machine, Menu.profile.machine 2024 = .ok machine ∧
    let turn (state input : String) : Rest Subscriber Backends :=
      Interpreter.step { machine } .epoch state {} { kind := .transit, input } {}
    ((turn "enteringGivenNames" "x").state = "enteringGivenNames" ∧
      (turn "enteringGivenNames" "x").context = { feedback := some "invalidName" }) ∧
    ((turn "enteringFamilyName" "x").state = "enteringGivenNames" ∧
      (turn "enteringFamilyName" "x").context = { feedback := some "invalidName" }) := by
  obtain ⟨machine, made, turns⟩ := asks_again 2024 .profile
  refine ⟨machine, made, ?_⟩
  intro turn
  have known : ∀ m ∈ (Menu.profile.machine 2024).toOption,
      (m.state? "invalidName").bind Machine.State.raise = some { kind := .retry, feedback := some "invalidName" } ∧
        ∀ state ∈ ["enteringGivenNames", "enteringFamilyName"],
          (Interpreter.step { machine := m } .epoch state {} { kind := .transit, input := "x" } {}).trace.hops.head? =
            some { origin := state, target := "invalidName", trigger := .event .transit, timestamp := .epoch } := by
    decide +kernel
  obtain ⟨raises, heads⟩ := known machine (by rw [made]; rfl)
  have given := turns ServiceError.classify .epoch "enteringGivenNames" {} _ {} _ _ (heads _ (by simp)) raises
  have family := turns ServiceError.classify .epoch "enteringFamilyName" {} _ {} _ _ (heads _ (by simp)) raises
  exact ⟨⟨given.2.1, given.2.2.2.1⟩, family.2.1, family.2.2.2.1⟩

end DialMenu.Menus.Menu
