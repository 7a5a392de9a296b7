import DialMenu.Proofs.Json.Record
import DialMenu.Proofs.Wire
import DialMenu.Value

/-!
Free-form values are read back from both encodings, however lists and maps are nested.
-/

namespace DialMenu.Value

/-- Induction over values, in which a list or a map may use the statement for everything directly inside. -/
@[elab_as_elim]
theorem nestedInduction {motive : Value → Prop} (null : motive null) (bool : ∀ b, motive (bool b))
    (int : ∀ n, motive (int n)) (text : ∀ s, motive (text s))
    (list : ∀ items, (∀ item ∈ items, motive item) → motive (list items))
    (map : ∀ entries, (∀ e ∈ entries, motive e.2) → motive (map entries)) (v : Value) : motive v :=
  match v with
  | .null => null
  | .bool b => bool b
  | .int n => int n
  | .text s => text s
  | .list items => list items fun item _ => nestedInduction null bool int text list map item
  | .map entries => map entries fun e _ => nestedInduction null bool int text list map e.2
termination_by sizeOf v
decreasing_by
  · rename_i mem
    have smaller := List.sizeOf_lt_of_mem mem
    simp only [Value.list.sizeOf_spec]
    omega
  · rename_i mem
    have smaller := List.sizeOf_lt_of_mem mem
    have split : sizeOf e = 1 + sizeOf e.1 + sizeOf e.2 := rfl
    simp only [Value.map.sizeOf_spec]
    omega

theorem canonicalItems_iff {items : List Value} : CanonicalItems items ↔ ∀ item ∈ items, item.Canonical := by
  induction items with
  | nil => simp [CanonicalItems]
  | cons item items ih => simp [CanonicalItems, ih]

theorem canonicalEntries_iff {entries : List (String × Value)} :
    CanonicalEntries entries ↔ ∀ e ∈ entries, e.2.Canonical := by
  induction entries with
  | nil => simp [CanonicalEntries]
  | cons e entries ih => simp [CanonicalEntries, ih]

theorem itemsToJson_eq (items : List Value) : itemsToJson items = items.map toJson := by
  induction items with
  | nil => rfl
  | cons item items ih => rw [itemsToJson, ih, List.map_cons]

theorem entriesToJson_eq (entries : List (String × Value)) :
    entriesToJson entries = entries.map fun e => (.text e.1, e.2.toJson) := by
  induction entries with
  | nil => rfl
  | cons e entries ih => rw [entriesToJson, ih, List.map_cons]

theorem encodeItems_eq (items : List Value) : encodeItems items = items.flatMap encode := by
  induction items with
  | nil => rfl
  | cons item items ih => rw [encodeItems, ih, List.flatMap_cons]

theorem encodeEntries_eq (entries : List (String × Value)) :
    encodeEntries entries = entries.flatMap (Wire.ofEntry Wire.ofString encode) := by
  induction entries with
  | nil => rfl
  | cons e entries ih => rw [encodeEntries, ih, List.flatMap_cons, Wire.ofEntry]

/-- Where nothing may be entered, only the null value is read back. -/
theorem ofJson_zero (v : Value) : ofJson 0 v.toJson = if v.toJson.depth ≤ 0 then some v else none := by
  cases v <;> simp [toJson, Json.str, Json.record, ofJson, Json.depth]

/-- Every value is read back from JSON. A list or a map takes two of the levels that may be entered. -/
theorem reads_ofJson {v : Value} (canonical : v.Canonical) : Json.Reads ofJson v.toJson v := by
  intro d
  induction v using nestedInduction generalizing d with
  | null => simp [toJson, Json.str, ofJson, Json.depth]
  | bool b =>
    cases d with
    | zero => exact ofJson_zero (bool b)
    | succ d => simp [toJson, Json.record, ofJson, Json.depth, Json.depthMembers, Json.boolean]
  | int n =>
    cases d with
    | zero => exact ofJson_zero (int n)
    | succ d => simp [toJson, Json.record, ofJson, Json.depth, Json.depthMembers, Json.reads_int64 n d]
  | text s =>
    cases d with
    | zero => exact ofJson_zero (text s)
    | succ d => simp [toJson, Json.record, ofJson, Json.depth, Json.depthMembers, Json.str, Json.text]
  | list items ih =>
    rcases d with _ | _ | d
    · exact ofJson_zero (list items)
    · simp [toJson, Json.record, ofJson, Json.depth, Json.depthMembers]
    · have read := Json.mapM_reads (fun item mem => ih item mem (canonicalItems_iff.1 canonical item mem)) d
      simp only [toJson, Json.record, List.map_cons, List.map_nil, itemsToJson_eq, ofJson, read, Json.depth,
        Json.depthMembers]
      simp
  | map entries ih =>
    rcases d with _ | _ | d
    · exact ofJson_zero (map entries)
    · simp [toJson, Json.record, ofJson, Json.depth, Json.depthMembers]
    · have read := @Json.mapM_entry _ _ some (fun key => key) ofJson toJson entries (fun _ _ => rfl)
        (fun e mem => ih e mem (canonicalEntries_iff.1 canonical.2 e mem)) d
      simp only [toJson, Json.record, List.map_cons, List.map_nil, entriesToJson_eq, ofJson, Json.entries, read,
        Json.depth, Json.depthMembers]
      simp [apply_ite, canonical.1.ofList_eq]

theorem encode_list (items : List Value) : encode (list items) = Wire.ofVariant 4 ++ Wire.ofList encode items := by
  rw [encode, encodeItems_eq, List.append_assoc, Wire.ofList]

theorem encode_map (entries : List (String × Value)) :
    encode (map entries) = Wire.ofVariant 5 ++ Wire.ofList (Wire.ofEntry Wire.ofString encode) entries := by
  rw [encode, encodeEntries_eq, List.append_assoc, Wire.ofList]

/-- A value takes at least the four bytes of its kind. -/
theorem length_encode_pos (v : Value) : 0 < v.encode.length := by
  cases v <;> simp only [encode, List.length_append, Wire.length_ofVariant] <;> omega

/-- Every value is read back from its bytes if the bound on the depth is their number or more. -/
theorem reads_decodeWithin {v : Value} (canonical : v.Canonical) {fuel : Nat} (enough : v.encode.length ≤ fuel) :
    Wire.Reads (decodeWithin (fuel + 1)) v.encode v := by
  induction v using nestedInduction generalizing fuel with
  | null =>
    rw [decodeWithin, encode]
    exact (Wire.reads_variant (by decide)).only (.pure null)
  | bool b =>
    rw [decodeWithin, encode]
    exact (Wire.reads_variant (by decide)).bind ((Wire.reads_flag b).map bool)
  | int n =>
    rw [decodeWithin, encode]
    exact (Wire.reads_variant (by decide)).bind ((Wire.reads_int64 n).map int)
  | text s =>
    rw [decodeWithin, encode]
    exact (Wire.reads_variant (by decide)).bind ((Wire.reads_string s).map text)
  | list items ih =>
    rw [encode_list, List.length_append, Wire.length_ofVariant] at enough
    obtain ⟨fuel, rfl⟩ : ∃ k, fuel = k + 1 := ⟨fuel - 1, by omega⟩
    rw [decodeWithin, encode_list]
    refine (Wire.reads_variant (by decide)).bind (Wire.Reads.map list ?_)
    refine Wire.reads_list (fun item _ => length_encode_pos item) fun item mem => ?_
    have inside := @Wire.length_le_of_mem_flatMap _ encode _ _ mem
    simp only [List.length_append, Wire.ofList] at enough
    exact ih item mem (canonicalItems_iff.1 canonical item mem) (by omega)
  | map entries ih =>
    rw [encode_map, List.length_append, Wire.length_ofVariant] at enough
    obtain ⟨fuel, rfl⟩ : ∃ k, fuel = k + 1 := ⟨fuel - 1, by omega⟩
    rw [decodeWithin, encode_map]
    refine (Wire.reads_variant (by decide)).bind (Wire.Reads.map map ?_)
    have read : Wire.Reads (Wire.list (Wire.entry Wire.string (decodeWithin (fuel + 1))))
        (Wire.ofList (Wire.ofEntry Wire.ofString encode) entries) entries := by
      refine Wire.reads_list (fun e _ => Wire.length_ofEntry_pos e) fun e mem => ?_
      have inside := @Wire.length_le_of_mem_flatMap _ (Wire.ofEntry Wire.ofString encode) _ _ mem
      simp only [List.length_append, Wire.ofList, Wire.ofEntry] at enough inside
      exact Wire.reads_entry (Wire.reads_string e.1) (ih e mem (canonicalEntries_iff.1 canonical.2 e mem) (by omega))
    have sorted := read.map Entries.ofList
    rwa [canonical.1.ofList_eq] at sorted

/-- Every value is read back from its bytes, whatever follows them. -/
theorem reads_decode {v : Value} (canonical : v.Canonical) : Wire.Reads decode v.encode v := by
  intro fits rest
  refine reads_decodeWithin canonical ?_ fits rest
  rw [List.length_append]
  omega

/-- The values of a table are canonical. -/
def CanonicalTable (table : Table String Value) : Prop := ∀ e ∈ table.entries, e.2.Canonical

section Tables

variable {table : Table String Value} (canonical : CanonicalTable table)
include canonical

theorem reads_tableOfJson : Json.Reads (Json.table some ofJson)
    (Json.ofEntries (fun name => name) toJson table.entries) table :=
  Json.reads_table (fun _ _ => rfl) fun e mem => reads_ofJson (canonical e mem)

theorem reads_tableOfBytes : Wire.Reads (Wire.table Wire.string decode)
    (Wire.ofList (Wire.ofEntry Wire.ofString encode) table.entries) table :=
  Wire.reads_table (Wire.reads_list (fun e _ => Wire.length_ofEntry_pos e) fun e mem =>
    Wire.reads_entry (Wire.reads_string e.1) (reads_decode (canonical e mem)))

end Tables

end DialMenu.Value
