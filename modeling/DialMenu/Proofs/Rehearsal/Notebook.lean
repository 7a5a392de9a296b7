import DialMenu.Proofs.Encoding
import DialMenu.Proofs.Value
import DialMenu.Rehearsal.Notebook

/-!
Both encodings of the rehearsal contexts are read back.
-/

namespace DialMenu.Rehearsal

namespace Notebook

/-- The values on record are canonical. -/
def Canonical (n : Notebook) : Prop := Value.CanonicalTable n.data

theorem reads_ofJson {n : Notebook} (canonical : n.Canonical) : Json.Reads ofJson n.toJson n := by
  intro d
  cases d with
  | zero => rfl
  | succ d =>
    have feedback := Json.reads_nullable Json.str n.feedback nofun (fun s _ => Json.reads_text s) d
    rw [toJson, ofJson, Json.fields_record _ (by simp)]
    simp [Json.Slot.orDefault, feedback, Json.reads_texts _ d, Json.reads_boolean _ d,
      Value.reads_tableOfJson canonical d, Json.bind_guard, Json.guard_guard]

theorem reads_decode {n : Notebook} (canonical : n.Canonical) : Wire.Reads decode n.encode n := by
  simp only [encode, List.append_assoc]
  exact (Wire.reads_optionalString _).bind ((Wire.reads_strings _).bind ((Wire.reads_flag _).bind
    (Value.reads_tableOfBytes canonical).last))

theorem faithful {n : Notebook} (canonical : n.Canonical) : Encoded.Faithful n :=
  ⟨reads_ofJson canonical, reads_decode canonical⟩

end Notebook

namespace Bare

theorem reads_ofJson (b : Bare) : Json.Reads ofJson b.toJson b := by
  intro d
  cases d with
  | zero => rfl
  | succ d =>
    rw [toJson, ofJson, Json.fields_record _ (by simp)]
    simp [Json.optional_text _ d, Json.bind_guard]

theorem reads_decode (b : Bare) : Wire.Reads decode b.encode b := (Wire.reads_optionalString _).last

theorem faithful (b : Bare) : Encoded.Faithful b := ⟨b.reads_ofJson, b.reads_decode⟩

end Bare

end DialMenu.Rehearsal
