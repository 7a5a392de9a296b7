/-!
Finite maps with ordered keys. The entries are kept sorted by key, so two tables that answer every
look-up alike are equal (`Table.ext_get?`), and walking a table means walking its keys in order.
-/

namespace DialMenu

universe u v v' w

namespace Entries

variable {κ : Type u} {α : Type v}

/-- The value of the first entry for `k`. -/
def get? [DecidableEq κ] (k : κ) : List (κ × α) → Option α
  | [] => none
  | (key, value) :: rest => if key = k then some value else get? k rest

/-- Writes the entry for `k`, before the first greater key. -/
def insert [Ord κ] (k : κ) (v : α) : List (κ × α) → List (κ × α)
  | [] => [(k, v)]
  | (key, value) :: rest =>
    match compare k key with
    | .lt => (k, v) :: (key, value) :: rest
    | .eq => (k, v) :: rest
    | .gt => (key, value) :: insert k v rest

/-- Drops every entry for `k`. -/
def erase [DecidableEq κ] (k : κ) (entries : List (κ × α)) : List (κ × α) :=
  entries.filter fun entry => entry.1 ≠ k

/-- Inserts the entries one after another: of two for one key the later stays. -/
def ofList [Ord κ] (entries : List (κ × α)) : List (κ × α) :=
  entries.foldl (fun done entry => insert entry.1 entry.2 done) []

/-- Changes every value, from the first on, and stops at the first error. -/
def traverse {ε : Type w} {β : Type v'} (f : κ → α → Except ε β) : List (κ × α) → Except ε (List (κ × β))
  | [] => .ok []
  | (key, value) :: rest =>
    match f key value with
    | .error err => .error err
    | .ok changed =>
      match traverse f rest with
      | .error err => .error err
      | .ok others => .ok ((key, changed) :: others)

/-- Keys strictly ascend. -/
def Sorted [Ord κ] (entries : List (κ × α)) : Prop :=
  entries.Pairwise fun a b => compare a.1 b.1 = .lt

instance [Ord κ] (entries : List (κ × α)) : Decidable (Sorted entries) :=
  inferInstanceAs (Decidable (entries.Pairwise fun a b => compare a.1 b.1 = .lt))

section Lookup

variable [DecidableEq κ]

@[simp] theorem get?_nil (k : κ) : get? k ([] : List (κ × α)) = none := rfl

theorem get?_insert [Ord κ] [Std.LawfulEqOrd κ] (k k' : κ) (v : α) (entries : List (κ × α)) :
    get? k' (insert k v entries) = if k = k' then some v else get? k' entries := by
  induction entries with
  | nil => rfl
  | cons entry rest ih =>
    obtain ⟨key, value⟩ := entry
    simp only [insert]
    split
    · rfl
    · rename_i same
      have : k = key := Std.LawfulEqOrd.compare_eq_iff_eq.1 same
      subst this
      simp only [get?]
      split <;> rfl
    · rename_i greater
      have differ : k ≠ key := by
        rintro rfl
        simp at greater
      simp only [get?, ih]
      by_cases atKey : key = k' <;> by_cases atNew : k = k' <;> simp_all

theorem get?_erase (k k' : κ) (entries : List (κ × α)) :
    get? k' (erase k entries) = if k = k' then none else get? k' entries := by
  induction entries with
  | nil => simp [erase]
  | cons entry rest ih =>
    obtain ⟨key, value⟩ := entry
    simp only [erase] at ih
    by_cases removed : key = k <;> by_cases atKey : key = k' <;> by_cases atNew : k = k' <;>
      simp_all [erase, get?]

theorem get?_map {β : Type v'} (f : κ → α → β) (k : κ) (entries : List (κ × α)) :
    get? k (entries.map fun entry => (entry.1, f entry.1 entry.2)) = (get? k entries).map (f k) := by
  induction entries with
  | nil => rfl
  | cons entry rest ih =>
    obtain ⟨key, value⟩ := entry
    simp only [List.map_cons, get?, ih]
    split
    · rename_i here
      rw [here]
      rfl
    · rfl

theorem get?_eq_some_of_mem [Ord κ] [Std.LawfulEqOrd κ] {k : κ} {v : α} {entries : List (κ × α)} (sorted : Sorted entries)
    (mem : (k, v) ∈ entries) : get? k entries = some v := by
  induction entries with
  | nil => simp at mem
  | cons entry rest ih =>
    obtain ⟨key, value⟩ := entry
    obtain ⟨below, sortedRest⟩ := List.pairwise_cons.1 sorted
    rcases List.mem_cons.1 mem with here | there
    · cases here
      simp [get?]
    · have less := below _ there
      have differ : key ≠ k := by
        rintro rfl
        simp at less
      simp [get?, differ, ih sortedRest there]

theorem mem_of_get?_eq_some {k : κ} {v : α} {entries : List (κ × α)}
    (found : get? k entries = some v) : (k, v) ∈ entries := by
  induction entries with
  | nil => simp at found
  | cons entry rest ih =>
    obtain ⟨key, value⟩ := entry
    simp only [get?] at found
    split at found
    · simp_all
    · exact List.mem_cons_of_mem _ (ih found)

end Lookup

theorem keys_traverse {ε : Type w} {β : Type v'} {f : κ → α → Except ε β} {entries : List (κ × α)}
    {changed : List (κ × β)} (done : traverse f entries = .ok changed) :
    changed.map (·.1) = entries.map (·.1) := by
  induction entries generalizing changed with
  | nil =>
    cases done
    rfl
  | cons entry rest ih =>
    obtain ⟨key, value⟩ := entry
    simp only [traverse] at done
    split at done
    · cases done
    · split at done
      · cases done
      · rename_i others
        cases done
        simp [ih others]

section Order

variable [Ord κ]

theorem sorted_iff_keys {entries : List (κ × α)} :
    Sorted entries ↔ (entries.map (·.1)).Pairwise fun a b => compare a b = .lt := by
  rw [Sorted, List.pairwise_map]

theorem mem_insert {k : κ} {v : α} {e : κ × α} {entries : List (κ × α)}
    (mem : e ∈ insert k v entries) : e = (k, v) ∨ e ∈ entries := by
  induction entries with
  | nil => simpa [insert] using mem
  | cons entry rest ih =>
    obtain ⟨key, value⟩ := entry
    simp only [insert] at mem
    split at mem
    · simpa using mem
    · rcases List.mem_cons.1 mem with here | there
      · exact .inl here
      · exact .inr (List.mem_cons_of_mem _ there)
    · rcases List.mem_cons.1 mem with here | there
      · exact .inr (here ▸ List.mem_cons_self)
      · exact (ih there).imp_right (List.mem_cons_of_mem _)

theorem Sorted.nil : Sorted ([] : List (κ × α)) := List.Pairwise.nil

theorem Sorted.insert [Std.TransOrd κ] [Std.LawfulEqOrd κ] {entries : List (κ × α)}
    (sorted : Sorted entries) (k : κ) (v : α) : Sorted (Entries.insert k v entries) := by
  induction entries with
  | nil => exact List.pairwise_singleton _ _
  | cons entry rest ih =>
    obtain ⟨key, value⟩ := entry
    obtain ⟨below, sortedRest⟩ := List.pairwise_cons.1 sorted
    simp only [Entries.insert]
    split
    · rename_i less
      refine List.pairwise_cons.2 ⟨fun e mem => ?_, sorted⟩
      rcases List.mem_cons.1 mem with rfl | there
      · exact less
      · exact Std.TransCmp.lt_trans less (below e there)
    · rename_i same
      have : k = key := Std.LawfulEqOrd.compare_eq_iff_eq.1 same
      subst this
      exact List.pairwise_cons.2 ⟨below, sortedRest⟩
    · rename_i greater
      refine List.pairwise_cons.2 ⟨fun e mem => ?_, ih sortedRest⟩
      rcases mem_insert mem with rfl | there
      · exact Std.OrientedCmp.lt_of_gt greater
      · exact below e there

theorem Sorted.ofList [Std.TransOrd κ] [Std.LawfulEqOrd κ] (entries : List (κ × α)) :
    Sorted (Entries.ofList entries) := by
  suffices ∀ done : List (κ × α), Sorted done →
      Sorted (entries.foldl (fun done entry => Entries.insert entry.1 entry.2 done) done) from
    this [] .nil
  induction entries with
  | nil => exact fun _ sorted => sorted
  | cons entry rest ih => exact fun done sorted => ih _ (sorted.insert entry.1 entry.2)

theorem Sorted.erase [DecidableEq κ] {entries : List (κ × α)} (sorted : Sorted entries) (k : κ) :
    Sorted (Entries.erase k entries) :=
  List.Pairwise.filter _ sorted

/-- A key above all others comes last. -/
theorem insert_above [Std.OrientedOrd κ] {k : κ} {entries : List (κ × α)}
    (above : ∀ e ∈ entries, compare e.1 k = .lt) (v : α) : insert k v entries = entries ++ [(k, v)] := by
  induction entries with
  | nil => rfl
  | cons entry rest ih =>
    obtain ⟨key, value⟩ := entry
    have greater : compare k key = .gt := Std.OrientedCmp.gt_of_lt (above _ List.mem_cons_self)
    rw [insert, greater]
    exact congrArg _ (ih fun e mem => above e (List.mem_cons_of_mem _ mem))

/-- Entries that are sorted already stay as they are. -/
theorem Sorted.ofList_eq [Std.TransOrd κ] {entries : List (κ × α)} (sorted : Sorted entries) :
    Entries.ofList entries = entries := by
  suffices ∀ done : List (κ × α), Sorted (done ++ entries) →
      entries.foldl (fun done entry => Entries.insert entry.1 entry.2 done) done = done ++ entries from
    this [] sorted
  induction entries with
  | nil => exact fun done _ => (List.append_nil done).symm
  | cons entry rest ih =>
    intro done whole
    have above : ∀ e ∈ done, compare e.1 entry.1 = .lt := fun e mem =>
      (List.pairwise_append.1 whole).2.2 e mem entry List.mem_cons_self
    rw [List.foldl_cons, insert_above above, ih (List.pairwise_cons.1 sorted).2 _ (by simpa using whole)]
    simp

/-- Sorted entries are determined by their look-ups. -/
theorem Sorted.ext [DecidableEq κ] [Std.TransOrd κ] [Std.LawfulEqOrd κ] {xs ys : List (κ × α)}
    (sortedX : Sorted xs) (sortedY : Sorted ys) (same : ∀ k, get? k xs = get? k ys) : xs = ys := by
  have irreflexive : ∀ k : κ, compare k k ≠ .lt := fun k less => by simp at less
  induction xs generalizing ys with
  | nil =>
    cases ys with
    | nil => rfl
    | cons y ys =>
      have := same y.1
      simp [get?] at this
  | cons x xs ih =>
    cases ys with
    | nil =>
      have := same x.1
      simp [get?] at this
    | cons y ys =>
      obtain ⟨belowX, sortedXs⟩ := List.pairwise_cons.1 sortedX
      obtain ⟨belowY, sortedYs⟩ := List.pairwise_cons.1 sortedY
      have xInY : (x.1, x.2) ∈ y :: ys := mem_of_get?_eq_some (by
        rw [← same]
        simp [get?])
      have yInX : (y.1, y.2) ∈ x :: xs := mem_of_get?_eq_some (by
        rw [same]
        simp [get?])
      have heads : x = y := by
        rcases List.mem_cons.1 xInY with here | there
        · exact here
        · rcases List.mem_cons.1 yInX with here | there'
          · exact here.symm
          · exact absurd (Std.TransCmp.lt_trans (belowY _ there) (belowX _ there')) (irreflexive y.1)
      subst heads
      congr 1
      refine ih sortedXs sortedYs fun k => ?_
      by_cases atHead : x.1 = k
      · subst atHead
        have missing : ∀ zs : List (κ × α), (∀ e ∈ zs, compare x.1 e.1 = .lt) → get? x.1 zs = none := by
          intro zs below
          cases found : get? x.1 zs with
          | none => rfl
          | some v => exact absurd (below _ (mem_of_get?_eq_some found)) (irreflexive x.1)
        rw [missing xs belowX, missing ys belowY]
      · have := same k
        simpa [get?, atHead] using this

end Order

end Entries

/-- A finite map whose entries ascend by key. -/
structure Table (κ : Type u) (α : Type v) [Ord κ] where
  entries : List (κ × α)
  sorted : Entries.Sorted entries := by decide

namespace Table

variable {κ : Type u} {α : Type v} {β : Type w} [Ord κ]

@[ext] theorem ext_entries {a b : Table κ α} (same : a.entries = b.entries) : a = b := by
  cases a
  cases b
  simp_all

instance [DecidableEq κ] [DecidableEq α] : DecidableEq (Table κ α) := fun a b =>
  decidable_of_iff (a.entries = b.entries) ⟨ext_entries, fun same => same ▸ rfl⟩

/-- The table without entries. -/
def empty : Table κ α := ⟨[], .nil⟩

instance : Inhabited (Table κ α) := ⟨empty⟩

/-- The value at `k`. -/
def get? [DecidableEq κ] (table : Table κ α) (k : κ) : Option α := Entries.get? k table.entries

def contains [DecidableEq κ] (table : Table κ α) (k : κ) : Bool := (table.get? k).isSome

def keys (table : Table κ α) : List κ := table.entries.map (·.1)

def values (table : Table κ α) : List α := table.entries.map (·.2)

section Update

variable [Std.TransOrd κ] [Std.LawfulEqOrd κ]

/-- Writes `v` at `k`. -/
def insert (table : Table κ α) (k : κ) (v : α) : Table κ α :=
  ⟨Entries.insert k v table.entries, table.sorted.insert k v⟩

/-- Of two entries for one key the later stays. -/
def ofList (entries : List (κ × α)) : Table κ α := ⟨Entries.ofList entries, .ofList entries⟩

end Update

@[simp] theorem ofList_entries [Std.TransOrd κ] [Std.LawfulEqOrd κ] (table : Table κ α) :
    ofList table.entries = table :=
  ext_entries table.sorted.ofList_eq

theorem nodup_keys [Std.ReflOrd κ] (table : Table κ α) : (table.entries.map (·.1)).Nodup := by
  refine (Entries.sorted_iff_keys.1 table.sorted).imp ?_
  rintro a b less rfl
  simp at less

/-- Removes `k`. -/
def erase [DecidableEq κ] (table : Table κ α) (k : κ) : Table κ α :=
  ⟨Entries.erase k table.entries, table.sorted.erase k⟩

/-- Changes every value and keeps the keys. -/
def mapValues (f : κ → α → β) (table : Table κ α) : Table κ β :=
  ⟨table.entries.map fun entry => (entry.1, f entry.1 entry.2), by
    simpa [Entries.Sorted, List.pairwise_map] using table.sorted⟩

/-- Changes every value in key order and keeps the keys; stops at the first error. -/
def traverse {ε : Type w} (f : κ → α → Except ε β) (table : Table κ α) : Except ε (Table κ β) :=
  match done : Entries.traverse f table.entries with
  | .error err => .error err
  | .ok changed =>
    .ok ⟨changed, by rw [Entries.sorted_iff_keys, Entries.keys_traverse done, ← Entries.sorted_iff_keys]
                     exact table.sorted⟩

section Laws

variable [DecidableEq κ]

@[simp] theorem get?_empty (k : κ) : (empty : Table κ α).get? k = none := rfl

@[simp] theorem get?_insert [Std.TransOrd κ] [Std.LawfulEqOrd κ] (table : Table κ α) (k k' : κ) (v : α) :
    (table.insert k v).get? k' = if k = k' then some v else table.get? k' :=
  Entries.get?_insert k k' v table.entries

@[simp] theorem get?_erase [Std.LawfulEqOrd κ] (table : Table κ α) (k k' : κ) :
    (table.erase k).get? k' = if k = k' then none else table.get? k' :=
  Entries.get?_erase k k' table.entries

@[simp] theorem get?_mapValues (f : κ → α → β) (table : Table κ α) (k : κ) :
    (table.mapValues f).get? k = (table.get? k).map (f k) :=
  Entries.get?_map f k table.entries

theorem mem_entries_iff [Std.LawfulEqOrd κ] (table : Table κ α) (k : κ) (v : α) :
    (k, v) ∈ table.entries ↔ table.get? k = some v :=
  ⟨Entries.get?_eq_some_of_mem table.sorted, Entries.mem_of_get?_eq_some⟩

/-- Tables that answer every look-up alike are equal. -/
theorem ext_get? [Std.TransOrd κ] [Std.LawfulEqOrd κ] {a b : Table κ α} (same : ∀ k, a.get? k = b.get? k) :
    a = b :=
  ext_entries (a.sorted.ext b.sorted same)

theorem mapValues_insert [Std.TransOrd κ] [Std.LawfulEqOrd κ] (f : κ → α → β) (table : Table κ α) (k : κ) (v : α) :
    (table.insert k v).mapValues f = (table.mapValues f).insert k (f k v) := by
  refine ext_get? fun other => ?_
  rw [get?_mapValues, get?_insert, get?_insert, get?_mapValues]
  split
  · rename_i same
    rw [Option.map_some, same]
  · rfl

/-- Inserting what is there already changes nothing. -/
theorem insert_eq_self [Std.TransOrd κ] [Std.LawfulEqOrd κ] {table : Table κ α} {k : κ} {v : α}
    (there : table.get? k = some v) : table.insert k v = table := by
  refine ext_get? fun other => ?_
  rw [get?_insert]
  split
  · rename_i same
    rw [← same, there]
  · rfl

end Laws

end Table

end DialMenu
