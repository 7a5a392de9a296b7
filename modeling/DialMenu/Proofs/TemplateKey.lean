import DialMenu.Proofs.Fold
import DialMenu.Proofs.Template
import Mathlib.Data.Set.Operations

/-!
Whose template a state shows. Templates are kept under a single name for a machine and a state, the two ids with a point
between them, and the ids may contain points themselves. So a state shows what was registered last under its name, and
it shows its own template at all times exactly if no other state of the deployment has that name.
-/

namespace DialMenu.Renderer

/-- A call that sets up a renderer. -/
inductive Registration where
  | template (machine state text : String)
  | message (tag text : String)
  | fallback (text : String)
deriving DecidableEq

def register (r : Renderer) : Registration → Renderer
  | .template machine state text => r.withTemplate machine state text
  | .message tag text => r.withMessage tag text
  | .fallback text => r.withFallback text

/-- The renderer that the calls set up, one after another. -/
def ofRegistrations (calls : List Registration) : Renderer := calls.foldl register {}

/-- The same ids with another division: a piece that ends the id of the machine in the first state begins the id of the
state in the second. -/
inductive Moved : String × String → String × String → Prop
  | intro (front middle back : String) : Moved (front ++ "." ++ middle, back) (front, middle ++ "." ++ back)

/-- Two states with one name, each given by its machine and its own id. -/
def SameName (p q : String × String) : Prop := p = q ∨ Moved p q ∨ Moved q p

namespace Registration

/-- The template that a call registers for one of these states. -/
def templateFor (states : String × String → Prop) [DecidablePred states] : Registration → Option String
  | template machine state text => if states (machine, state) then some text else none
  | message _ _ | fallback _ => none

def fallbackText : Registration → Option String
  | fallback text => some text
  | template _ _ _ | message _ _ => none

/-- What the calls register, of which the last counts. -/
def last (registered : Registration → Option String) (calls : List Registration) : Option String :=
  (calls.filterMap registered).getLast?

end Registration

open Registration

section Names

variable {p q : String × String}

theorem Moved.templateKey_eq (moved : Moved p q) : templateKey p.1 p.2 = templateKey q.1 q.2 := by
  cases moved with
  | intro front middle back => simp [templateKey, String.append_assoc]

theorem Moved.ne (moved : Moved p q) : p ≠ q := by
  cases moved with
  | intro front middle back =>
    intro same
    have lengths : (front ++ "." ++ middle).length = front.length := congrArg (·.1.length) same
    rw [String.length_append, String.length_append, show ".".length = 1 from rfl] at lengths
    omega

/-- Of two names that are equal, one has the point behind the other's, or both have it in one place. -/
theorem moved_of_append_eq {machine state machine' state' : String} {middle : List Char}
    (longer : machine'.toList = machine.toList ++ middle)
    (rest : '.' :: state.toList = middle ++ '.' :: state'.toList) :
    (machine, state) = (machine', state') ∨ Moved (machine', state') (machine, state) := by
  cases middle with
  | nil =>
    have machines : machine = machine' := String.toList_inj.1 (by simpa using longer.symm)
    have states : state = state' := String.toList_inj.1 (by simpa using rest)
    exact .inl (by rw [machines, states])
  | cons point middle =>
    obtain ⟨rfl, behind⟩ := List.cons.inj rest
    have front : machine' = machine ++ "." ++ String.ofList middle :=
      String.toList_inj.1 (by simp [longer])
    have back : state = String.ofList middle ++ "." ++ state' := String.toList_inj.1 (by simpa using behind)
    rw [front, back]
    exact .inr (.intro machine (String.ofList middle) state')

theorem sameName_iff : SameName p q ↔ templateKey p.1 p.2 = templateKey q.1 q.2 := by
  obtain ⟨machine, state⟩ := p
  obtain ⟨machine', state'⟩ := q
  constructor
  · rintro (same | moved | moved)
    · rw [same]
    · exact moved.templateKey_eq
    · exact moved.templateKey_eq.symm
  · intro names
    have texts := congrArg String.toList names
    simp only [templateKey, String.toList_append, List.append_assoc] at texts
    rcases List.append_eq_append_iff.1 texts with ⟨middle, longer, rest⟩ | ⟨middle, longer, rest⟩
    · rcases moved_of_append_eq longer rest with same | moved
      · exact .inl same
      · exact .inr (.inr moved)
    · rcases moved_of_append_eq longer rest with same | moved
      · exact .inl same.symm
      · exact .inr (.inl moved)

instance : DecidableRel SameName := fun p q => decidable_of_iff (templateKey p.1 p.2 = templateKey q.1 q.2) sameName_iff.symm

end Names

/-- Of the templates under a name the last one stays, and of the fallbacks as well. -/
theorem ofRegistrations_holds (calls : List Registration) (p : String × String) :
    (ofRegistrations calls).templates.get? (templateKey p.1 p.2) = last (templateFor (SameName p)) calls ∧
      (ofRegistrations calls).fallback = (last fallbackText calls).getD "" := by
  have template (r : Renderer) (call : Registration) : (r.register call).templates.get? (templateKey p.1 p.2) =
      (templateFor (SameName p) call).or (r.templates.get? (templateKey p.1 p.2)) := by
    cases call with
    | template machine state text =>
      refine (Table.get?_insert _ _ _ _).trans ?_
      by_cases named : SameName p (machine, state)
      · rw [templateFor, if_pos named, if_pos (sameName_iff.1 named).symm, Option.some_or]
      · rw [templateFor, if_neg named, if_neg fun same => named (sameName_iff.2 same.symm), Option.none_or]
    | message | fallback => rfl
  have fallback (r : Renderer) (call : Registration) :
      some (r.register call).fallback = (fallbackText call).or (some r.fallback) := by
    cases call <;> rfl
  have templates := foldl_overwritten (fun r : Renderer => r.templates.get? (templateKey p.1 p.2)) template {} calls
  have fallbacks := foldl_overwritten (fun r : Renderer => some r.fallback) fallback {} calls
  exact ⟨templates.trans Option.or_none, Option.some.inj (fallbacks.trans Option.or_some)⟩

variable {C : Type} [Context C]

/-- What these calls show if the last template for any of the given states counts: that template, filled, and without
one the last fallback. -/
def shown (calls : List Registration) (states : String × String → Prop) [DecidablePred states] (context : C) : String :=
  match last (templateFor states) calls with
  | some text => interpolate text ((ofRegistrations calls).valueOf context)
  | none => (last fallbackText calls).getD ""

theorem render_eq_shown (calls : List Registration) (machine state : String) (context : C) :
    (ofRegistrations calls).render machine state context = shown calls (SameName (machine, state)) context := by
  obtain ⟨held, otherwise⟩ := ofRegistrations_holds calls (machine, state)
  unfold shown
  rw [← held, ← otherwise]
  cases found : (ofRegistrations calls).templates.get? (templateKey machine state) with
  | none => rw [render, found]
  | some text => exact render_eq found context

/-- Whatever is registered for these states, each of them shows the last template that was registered for itself, and
the fallback without one. -/
def KeepsApart (states : Set (String × String)) (context : C) : Prop :=
  ∀ calls : List Registration,
    (∀ machine state text, .template machine state text ∈ calls → (machine, state) ∈ states) →
      ∀ machine state, (machine, state) ∈ states →
        (ofRegistrations calls).render machine state context = shown calls (· = (machine, state)) context

section KeepsApart

variable {states : Set (String × String)} {context : C}

/-- Among states with different names a template is for one state only. -/
theorem shown_sameName {calls : List Registration} {machine state : String}
    (only : ∀ machine' state' text, .template machine' state' text ∈ calls →
      SameName (machine, state) (machine', state') → (machine', state') = (machine, state)) :
    shown calls (SameName (machine, state)) context = shown calls (· = (machine, state)) context := by
  have templates : last (templateFor (SameName (machine, state))) calls =
      last (templateFor (· = (machine, state))) calls := by
    refine congrArg List.getLast? (List.filterMap_congr fun call mem => ?_)
    cases call with
    | template machine' state' text =>
      have same : SameName (machine, state) (machine', state') ↔ (machine', state') = (machine, state) :=
        ⟨only machine' state' text mem, fun same => .inl same.symm⟩
      simp only [templateFor, same]
    | message | fallback => rfl
  rw [shown, templates, shown]

theorem keepsApart_of_not_moved (apart : ∀ p ∈ states, ∀ q ∈ states, ¬ Moved p q) : KeepsApart states context := by
  intro calls inside machine state mem
  rw [render_eq_shown]
  refine shown_sameName fun machine' state' text registered named => ?_
  have mem' := inside machine' state' text registered
  rcases named with same | moved | moved
  · exact same.symm
  · exact absurd moved (apart _ mem _ mem')
  · exact absurd moved (apart _ mem' _ mem)

/-- Where a piece can be moved, one call is enough: the other state shows its template in place of the fallback. -/
theorem not_moved_of_keepsApart (apart : KeepsApart states context) {p q : String × String} (first : p ∈ states)
    (second : q ∈ states) : ¬ Moved p q := by
  intro moved
  let calls : List Registration := [.template p.1 p.2 "x"]
  have inside : ∀ machine state text, .template machine state text ∈ calls → (machine, state) ∈ states := by
    intro machine state text registered
    cases List.mem_singleton.1 registered
    exact first
  have own := apart calls inside q.1 q.2 second
  have named : last (templateFor (SameName q)) calls = some "x" := by
    simp [last, calls, templateFor, show SameName q (p.1, p.2) from .inr (.inr moved)]
  have unset : last (templateFor (· = q)) calls = none := by
    simp [last, calls, templateFor, moved.ne]
  have plain (value : String → Option String) : interpolate "x" value = "x" := rfl
  rw [render_eq_shown, shown, shown, named, unset] at own
  have empty : "x" = "" := (plain _).symm.trans own
  exact absurd empty (by decide)

end KeepsApart

/-- A state shows the last template that was registered under its name, filled, and the last fallback if there is none.
A registration for a state of another name does not change that. A renderer keeps states apart exactly if none of their
ids differ by nothing but the place of the point between them, so it does not keep all states apart. -/
theorem render_ofRegistrations (context : C) :
    (∀ calls machine state, (ofRegistrations calls).render machine state context =
      shown calls (SameName (machine, state)) context) ∧
    (∀ (r : Renderer) (p q : String × String) (text : String), ¬ SameName p q →
      (r.withTemplate p.1 p.2 text).render q.1 q.2 context = r.render q.1 q.2 context) ∧
    (∀ states : Set (String × String), KeepsApart states context ↔ ∀ p ∈ states, ∀ q ∈ states, ¬ Moved p q) ∧
    ¬ KeepsApart Set.univ context := by
  refine ⟨fun calls machine state => render_eq_shown calls machine state context, fun r p q text other => ?_, ?_, ?_⟩
  · have kept : (r.withTemplate p.1 p.2 text).templates.get? (templateKey q.1 q.2) =
        r.templates.get? (templateKey q.1 q.2) := by
      rw [withTemplate, Table.get?_insert, if_neg fun same => other (sameName_iff.2 same)]
    rw [render, kept]
    rfl
  · exact fun states => ⟨fun apart p first q second => not_moved_of_keepsApart apart first second,
      keepsApart_of_not_moved⟩
  · exact fun apart => not_moved_of_keepsApart apart trivial trivial (.intro "a" "b" "c")

end DialMenu.Renderer
