import DialMenu.Proofs.Json.Record
import Mathlib.Data.List.Forall2
import Mathlib.Data.List.Induction
import Mathlib.Data.List.Perm.Basic

/-!
Values that say the same in another form. In a record the members may stand in any order, members with other names may
stand among them, and a field that holds its default may be left out; in a map the entries may stand in any order. A
reader of records takes every such form, as soon as it may go as deep as the fields need.
-/

namespace DialMenu

theorem Entries.mem_iff_get?_ofList {κ α : Type} [Ord κ] [DecidableEq κ] [Std.LawfulEqOrd κ]
    {entries : List (κ × α)} (distinct : (entries.map (·.1)).Nodup) (k : κ) (v : α) :
    (k, v) ∈ entries ↔ get? k (ofList entries) = some v := by
  induction entries using List.reverseRecOn with
  | nil => simp [ofList]
  | append_singleton entries entry ih =>
    obtain ⟨key, value⟩ := entry
    rw [List.map_append, List.nodup_append] at distinct
    obtain ⟨others, -, apart⟩ := distinct
    have step : ofList (entries ++ [(key, value)]) = insert key value (ofList entries) := List.foldl_concat ..
    rw [step, get?_insert, List.mem_append, List.mem_singleton, Prod.mk.injEq, ih others]
    by_cases here : key = k
    · subst here
      have missing : get? key (ofList entries) ≠ some v := fun found =>
        apart key (List.mem_map.2 ⟨_, (ih others).2 found, rfl⟩) key (List.mem_singleton.2 rfl) rfl
      simp [missing, eq_comm]
    · simp [here, Ne.symm here]

/-- A table is built from its entries in any order. -/
theorem Table.ofList_of_perm {κ α : Type} [Ord κ] [DecidableEq κ] [Std.TransOrd κ] [Std.LawfulEqOrd κ]
    {table : Table κ α} {entries : List (κ × α)} (moved : entries.Perm table.entries) : ofList entries = table := by
  have distinct : (entries.map (·.1)).Nodup := (moved.map _).nodup_iff.2 table.nodup_keys
  refine ext_get? fun k => Option.ext fun v => ?_
  rw [← mem_entries_iff table, ← moved.mem_iff]
  exact (Entries.mem_iff_get?_ofList distinct k v).symm

namespace Json

variable {α κ : Type}

/-- Which values may stand for a value. -/
abbrev Variation := Json → Json → Prop

namespace Variation

/-- Nothing but the value itself. -/
def fixed : Variation := fun j j' => j' = j

/-- Only `null` for `null`. -/
def nullable (inside : Variation) : Variation
  | null, j' => j' = null
  | j, j' => inside j j'

/-- An array with items that may stand for the items, one by one. -/
inductive Items (inside : Variation) : Variation
  | intro {items items' : List Json} : List.Forall₂ inside items items' → Items inside (array items) (array items')

/-- A map with values that may stand for the values under their keys, in any order. -/
inductive Entries (inside : Variation) : Variation
  | intro {entries changed entries' : List (String × Json)} :
      List.Forall₂ (fun e e' => e'.1 = e.1 ∧ inside e.2 e'.2) entries changed → changed.Perm entries' →
      Entries inside (record entries) (record entries')

end Variation

/-- A field of a record: the value that it need not be given for, and how its value may vary. -/
structure Field where
  name : String
  default : Option Json := none
  inside : Variation := .fixed

namespace Field

/-- A field that need not be given for `null`. -/
def optional (name : String) (inside : Variation := .fixed) : Field := ⟨name, some null, .nullable inside⟩

/-- A field that need not be given for the empty list. -/
def list (name : String) (inside : Variation := .fixed) : Field := ⟨name, some (array []), .Items inside⟩

/-- A field that need not be given for the empty map. -/
def table (name : String) (inside : Variation) : Field := ⟨name, some (record []), .Entries inside⟩

end Field

namespace Variation

/-- What is left of the members of a record: each field is given in some form, or left out if it holds its default. -/
inductive Kept : List Field → List (String × Json) → List (String × Json) → Prop
  | nil : Kept [] [] []
  | given {field : Field} {fields : List Field} {j j' : Json} {members kept : List (String × Json)} :
      field.inside j j' → Kept fields members kept →
      Kept (field :: fields) ((field.name, j) :: members) ((field.name, j') :: kept)
  | leftOut {field : Field} {fields : List Field} {j : Json} {members kept : List (String × Json)} :
      field.default = some j → Kept fields members kept → Kept (field :: fields) ((field.name, j) :: members) kept

/-- A record with what is left of the members and with any members of other names, in any order. -/
inductive Record (fields : List Field) : Variation
  | intro {members kept unknown members' : List (String × Json)} :
      Kept fields members kept → (∀ e ∈ unknown, e.1 ∉ fields.map Field.name) → (kept ++ unknown).Perm members' →
      Record fields (record members) (record members')

end Variation

open Variation

/-- A value is one of its forms, and the reader takes each of them for `a`, if it may enter this many arrays and
objects. -/
structure Accepts (reader : Reader α) (levels : Nat) (vary : Variation) (j : Json) (a : α) : Prop where
  self : vary j j
  takes : ∀ {d j'}, levels ≤ d → vary j j' → reader d j' = some a

section Values

variable {reader : Reader α} {levels : Nat} {inside : Variation} {write : α → Json} {name : String}

theorem accepts_text (s : String) : Accepts text 0 .fixed (str s) s where
  self := rfl
  takes := by
    rintro d _ - rfl
    rfl

theorem accepts_named {ofName : String → Option α} {a : α} (known : ofName name = some a) :
    Accepts (named ofName) 0 .fixed (str name) a where
  self := rfl
  takes := by
    rintro d _ - rfl
    exact known

theorem accepts_nullable (noNull : ∀ a, write a ≠ null) (refused : ∀ d, reader d null = none)
    (each : ∀ a, Accepts reader levels inside (write a) a) (value : Option α) :
    Accepts (Json.nullable reader) levels (.nullable inside) (ofOption write value) value := by
  cases value with
  | none =>
    refine ⟨rfl, ?_⟩
    rintro d _ - rfl
    rfl
  | some a =>
    have forms : Variation.nullable inside (write a) = inside (write a) := by
      funext j'
      rw [Variation.nullable]
      exact noNull a
    refine ⟨?_, fun {d j'} enough varied => ?_⟩
    · rw [ofOption, forms]
      exact (each a).self
    · rw [ofOption, forms] at varied
      have read := (each a).takes enough varied
      rw [Json.nullable, read]
      · rfl
      · rintro rfl
        rw [refused d] at read
        cases read

/-- Parts that are taken one by one are taken together. -/
theorem mapM_of_forall₂ {β : Type} {read : β → Option α} {values : List α} {parts : List β}
    (each : List.Forall₂ (fun a part => read part = some a) values parts) : parts.mapM read = some values := by
  induction each with
  | nil => rfl
  | cons first _ ih =>
    rw [List.mapM_cons, first, ih]
    rfl

theorem accepts_list (each : ∀ a, Accepts reader levels inside (write a) a) (items : List α) :
    Accepts (Json.list reader) (levels + 1) (.Items inside) (ofList write items) items where
  self := .intro (List.forall₂_map_left_iff.2 (List.forall₂_map_right_iff.2
    (List.forall₂_same.2 fun a _ => (each a).self)))
  takes := by
    rintro (_ | d) _ enough ⟨varied⟩
    · exact absurd enough (Nat.not_succ_le_zero levels)
    · exact mapM_of_forall₂ ((List.forall₂_map_left_iff.1 varied).imp fun a _ =>
        (each a).takes (Nat.le_of_succ_le_succ enough))

theorem record_inj {members others : List (String × Json)} : record members = record others ↔ members = others := by
  rw [record, record, object.injEq]
  refine (List.map_injective_iff.2 ?_).eq_iff
  rintro ⟨name, j⟩ ⟨name', j'⟩ same
  simpa using same

theorem accepts_table [Ord κ] [DecidableEq κ] [Std.TransOrd κ] [Std.LawfulEqOrd κ] {key : String → Option κ}
    {nameOf : κ → String} (known : ∀ k, key (nameOf k) = some k) (each : ∀ a, Accepts reader levels inside (write a) a)
    (table : Table κ α) : Accepts (Json.table key reader) (levels + 1) (.Entries inside)
      (ofEntries nameOf write table.entries) table where
  self := .intro (List.forall₂_map_left_iff.2 (List.forall₂_map_right_iff.2
    (List.forall₂_same.2 fun e _ => ⟨rfl, (each e.2).self⟩))) (.refl _)
  takes := by
    intro d j' enough varied
    generalize written : ofEntries nameOf write table.entries = j at varied
    obtain ⟨changed, order⟩ := varied
    obtain rfl := record_inj.1 written
    cases d with
    | zero => exact absurd enough (Nat.not_succ_le_zero levels)
    | succ d =>
      have took (e : κ × α) (e' : String × Json) (form : e'.1 = nameOf e.1 ∧ inside (write e.2) e'.2) :
          entry key (reader d) (.text e'.1, e'.2) = some e := by
        rw [entry, form.1, known, (each e.2).takes (Nat.le_of_succ_le_succ enough) form.2]
        rfl
      -- forms of the entries, put in another order, are forms of the entries in that order
      have shuffled : Relation.Comp (List.Forall₂ _) List.Perm table.entries _ :=
        ⟨_, List.forall₂_map_left_iff.1 changed, order⟩
      rw [List.forall₂_comp_perm_eq_perm_comp_forall₂] at shuffled
      obtain ⟨moved, perm, varied⟩ := shuffled
      rw [record, Json.table, mapM_of_forall₂ (List.forall₂_map_right_iff.2 (varied.imp took)), Option.map_some,
        Table.ofList_of_perm perm.symm]

end Values

section Records

variable {fields : List Field} {members kept unknown members' : List (String × Json)} {j' : Json}

/-- What the members of a record say about a field: some form of its value, or nothing if that is its default. -/
def Field.Found (slot : String → Slot) (field : Field) (member : String × Json) : Prop :=
  (∃ j', slot field.name = .given j' ∧ field.inside member.2 j') ∨
    slot field.name = .absent ∧ field.default = some member.2

theorem Variation.Kept.sublist (kept' : Kept fields members kept) :
    (kept.map Prod.fst).Sublist (fields.map Field.name) := by
  induction kept' with
  | nil => exact .slnil
  | given _ _ ih => exact ih.cons_cons _
  | leftOut _ _ ih => exact ih.cons _

theorem Variation.Kept.self (each : List.Forall₂ (fun field member =>
    member.1 = field.name ∧ field.inside member.2 member.2) fields members) : Kept fields members members := by
  induction each with
  | nil => exact .nil
  | @cons field member _ _ alike _ ih =>
    obtain ⟨name, j⟩ := member
    obtain ⟨rfl, inside⟩ := alike
    exact .given inside ih

/-- Every field is found as it was kept. -/
theorem Variation.Kept.found (kept' : Kept fields members kept) (distinct : (fields.map Field.name).Nodup)
    {slot : String → Slot} (agrees : ∀ name ∈ fields.map Field.name, slot name = slotOf kept name) :
    List.Forall₂ (Field.Found slot) fields members := by
  induction kept' with
  | nil => exact .nil
  | @given field fields j j' members kept inside kept' ih =>
    obtain ⟨fresh, distinctRest⟩ := List.nodup_cons.1 distinct
    obtain ⟨here, later⟩ := List.forall_mem_cons.1 agrees
    refine .cons (.inl ⟨j', here.trans slotOf_self, inside⟩) (ih distinctRest fun name mem => ?_)
    have other : field.name ≠ name := fun same => fresh (same ▸ mem)
    rw [later name mem, slotOf_of_ne other]
  | @leftOut field fields j members kept default kept' ih =>
    obtain ⟨fresh, distinctRest⟩ := List.nodup_cons.1 distinct
    obtain ⟨here, later⟩ := List.forall_mem_cons.1 agrees
    have missing : kept.lookup field.name = none := by
      rw [List.lookup_eq_none_iff]
      refine fun member mem => bne_iff_ne.2 fun same => fresh ?_
      exact kept'.sublist.subset (List.mem_map.2 ⟨member, mem, same.symm⟩)
    refine .cons (.inr ⟨?_, default⟩) (ih distinctRest later)
    rw [here, slotOf, missing]

theorem occurrences_of_perm (distinct : (kept.map Prod.fst).Nodup) {field : String}
    (others : ∀ e ∈ unknown, e.1 ≠ field) (order : (kept ++ unknown).Perm members') :
    occurrences field (members'.map fun (name, value) => (.text name, value)) = (kept.lookup field).toList := by
  have missing : occurrences field (unknown.map fun (name, value) => (.text name, value)) = [] := by
    simpa [occurrences] using others
  have known : occurrences field ((kept ++ unknown).map fun (name, value) => (.text name, value)) =
      (kept.lookup field).toList := by
    rw [occurrences, List.map_append, List.filterMap_append]
    exact (congrArg₂ (· ++ ·) (occurrences_record distinct field) missing).trans (List.append_nil _)
  have same : (occurrences field (members'.map fun (name, value) => (.text name, value))).Perm
      (kept.lookup field).toList := known ▸ (order.symm.map _).filterMap _
  revert same
  cases kept.lookup field with
  | none => exact List.perm_nil.1
  | some j => exact List.perm_singleton.1

/-- A record in any form is read field by field. -/
theorem fields_of_varied (distinct : (fields.map Field.name).Nodup)
    (varied : Variation.Record fields (record members) j') :
    ∃ slot, Json.fields (fields.map Field.name) j' = some slot ∧ List.Forall₂ (Field.Found slot) fields members := by
  generalize written : record members = j at varied
  obtain ⟨kept', others, order⟩ := varied
  obtain rfl := record_inj.1 written
  rename_i kept unknown members'
  have once (name : String) (mem : name ∈ fields.map Field.name) :=
    occurrences_of_perm (kept'.sublist.nodup distinct) (fun e listed same => others e listed (same ▸ mem)) order
  obtain ⟨slot, read, agrees⟩ := fields_of_occurrences (fields.map Field.name) once
  exact ⟨slot, read, kept'.found distinct fun name mem => agrees name (once name mem)⟩

/-- A reader that goes field by field takes every form of a record. -/
theorem accepts_record {reader : Reader α} {levels : Nat} {a : α} (distinct : (fields.map Field.name).Nodup)
    (each : List.Forall₂ (fun field member => member.1 = field.name ∧ field.inside member.2 member.2) fields members)
    (takes : ∀ d j' slot, levels ≤ d → Json.fields (fields.map Field.name) j' = some slot →
      List.Forall₂ (Field.Found slot) fields members → reader (d + 1) j' = some a) :
    Accepts reader (levels + 1) (.Record fields) (record members) a where
  self := .intro (.self each) (fun _ mem => absurd mem List.not_mem_nil) (.of_eq (List.append_nil members))
  takes := by
    intro d j' enough varied
    obtain ⟨slot, read, found⟩ := fields_of_varied distinct varied
    cases d with
    | zero => exact absurd enough (Nat.not_succ_le_zero levels)
    | succ d => exact takes d j' slot (Nat.le_of_succ_le_succ enough) read found

end Records

namespace Field.Found

variable {field : Field} {slot : String → Slot} {reader : Reader α} {levels d : Nat} {inside : Variation}
  {name : String} {j : Json} {a : α} {write : α → Json}

theorem required (found : field.Found slot (name, j)) (needed : field.default = none)
    (accepts : Accepts reader levels field.inside j a) (enough : levels ≤ d) :
    (slot field.name).required (reader d) = some a := by
  rcases found with ⟨j', given, form⟩ | ⟨-, default⟩
  · rw [given]
    exact accepts.takes enough form
  · cases needed.symm.trans default

theorem orDefault {value : α} (found : field.Found slot (name, j)) (own : field.default = some j → value = a)
    (accepts : Accepts reader levels field.inside j a) (enough : levels ≤ d) :
    (slot field.name).orDefault value (reader d) = some a := by
  rcases found with ⟨j', given, form⟩ | ⟨absent, default⟩
  · rw [given]
    exact accepts.takes enough form
  · rw [absent, ← own default]
    rfl

theorem optional {value : Option α} (found : (Field.optional name inside).Found slot (name, ofOption write value))
    (noNull : ∀ a, write a ≠ null)
    (accepts : Accepts (nullable reader) levels (.nullable inside) (ofOption write value) value) (enough : levels ≤ d) :
    (slot name).orDefault none (nullable reader d) = some value := by
  refine found.orDefault (fun null => ?_) accepts enough
  cases value with
  | none => rfl
  | some a => exact absurd (Option.some.inj null).symm (noNull a)

theorem list {items : List α} (found : (Field.list name inside).Found slot (name, ofList write items))
    (accepts : Accepts (Json.list reader) levels (.Items inside) (ofList write items) items) (enough : levels ≤ d) :
    (slot name).orDefault [] (Json.list reader d) = some items := by
  refine found.orDefault (fun empty => ?_) accepts enough
  have same := array.inj (Option.some.inj empty)
  exact (List.map_eq_nil_iff.1 same.symm).symm

theorem table [Ord κ] [Std.TransOrd κ] [Std.LawfulEqOrd κ] {key : String → Option κ} {nameOf : κ → String}
    {table : Table κ α} (found : (Field.table name inside).Found slot (name, ofEntries nameOf write table.entries))
    (accepts : Accepts (Json.table key reader) levels (.Entries inside) (ofEntries nameOf write table.entries) table)
    (enough : levels ≤ d) : (slot name).orDefault .empty (Json.table key reader d) = some table := by
  refine found.orDefault (fun empty => ?_) accepts enough
  have same := record_inj.1 (Option.some.inj empty)
  exact Table.ext_entries (List.map_eq_nil_iff.1 same.symm).symm

end Field.Found

end Json

end DialMenu
