import DialMenu.Menus.Encoding
import DialMenu.Proofs.Encoding
import DialMenu.Proofs.Value

/-!
Both encodings of the menus' context are read back.
-/

namespace DialMenu.Menus

namespace AccountStatus

theorem ofName?_name (status : AccountStatus) : ofName? status.name = some status := by
  cases status <;> decide

theorem reads_oneOf (status : AccountStatus) : Wire.Reads (Wire.oneOf all) (Wire.ofVariant status.variant) status := by
  cases status <;> exact Wire.reads_oneOf (by decide) rfl

end AccountStatus

namespace Gender

theorem ofName?_name (gender : Gender) : ofName? gender.name = some gender := by
  cases gender <;> decide

theorem reads_oneOf (gender : Gender) : Wire.Reads (Wire.oneOf all) (Wire.ofVariant gender.variant) gender := by
  cases gender <;> exact Wire.reads_oneOf (by decide) rfl

end Gender

namespace Account

theorem reads_ofJson (account : Account) : Json.Reads ofJson account.toJson account := by
  intro d
  cases d with
  | zero => rfl
  | succ d =>
    have status := Json.reads_named account.status.ofName?_name d
    rw [toJson, ofJson, Json.fields_record _ (by simp)]
    simp [Json.Slot.required, Json.reads_text _ d, status, Json.bind_guard, Json.guard_guard]

theorem reads_decode (account : Account) : Wire.Reads decode account.encode account := by
  simp only [encode, List.append_assoc]
  exact (Wire.reads_string _).bind ((Wire.reads_string _).bind ((Wire.reads_string _).bind
    account.status.reads_oneOf.last))

end Account

namespace Profile

theorem reads_ofJson (profile : Profile) : Json.Reads ofJson profile.toJson profile := by
  intro d
  cases d with
  | zero => rfl
  | succ d =>
    have gender := Json.optional_ofOption (fun gender => .str gender.name) profile.gender nofun
      (fun gender _ => Json.reads_named gender.ofName?_name) d
    have year := Json.optional_ofOption (fun year => .integer year.toInt) profile.yearOfBirth nofun
      (fun year _ => Json.reads_int64 year) d
    rw [toJson, ofJson, Json.fields_record _ (by simp)]
    simp [Json.optional_text _ d, gender, year, Json.bind_guard, Json.guard_guard]

theorem reads_decode (profile : Profile) : Wire.Reads decode profile.encode profile := by
  simp only [encode, List.append_assoc]
  exact (Wire.reads_optionalString _).bind ((Wire.reads_optionalString _).bind
    ((Wire.reads_option fun gender _ => gender.reads_oneOf).bind
      ((Wire.reads_option fun year _ => Wire.reads_int64 year).bind (Wire.reads_optionalString _).last)))

end Profile

namespace Identity

theorem reads_ofJson (identity : Identity) : Json.Reads ofJson identity.toJson identity := by
  intro d
  cases d with
  | zero => rfl
  | succ d =>
    rw [toJson, ofJson, Json.fields_record _ (by simp)]
    simp [Json.Slot.required, Json.reads_uint64 _ d, identity.profile.reads_ofJson d, Json.bind_guard, Json.guard_guard]

theorem reads_decode (identity : Identity) : Wire.Reads decode identity.encode identity :=
  (Wire.reads_uint64 _).bind identity.profile.reads_decode.last

end Identity

namespace User

theorem reads_ofJson (user : User) : Json.Reads ofJson user.toJson user := by
  intro d
  cases d with
  | zero => rfl
  | succ d =>
    have identity := Json.optional_ofOption Identity.toJson user.identity nofun
      (fun identity _ => identity.reads_ofJson) d
    rw [toJson, ofJson, Json.fields_record _ (by simp)]
    simp [Json.Slot.required, user.account.reads_ofJson d, identity, Json.reads_texts _ d, Json.bind_guard,
      Json.guard_guard]

theorem reads_decode (user : User) : Wire.Reads decode user.encode user := by
  simp only [encode, List.append_assoc]
  exact user.account.reads_decode.bind ((Wire.reads_option fun identity _ => identity.reads_decode).bind
    (Wire.reads_strings _).last)

end User

namespace Pending

theorem reads_entryOfJson (name : String) (entry : Option String) :
    Json.Reads (entryOfJson name) (entryToJson name entry) entry := by
  intro d
  cases d with
  | zero => rfl
  | succ d =>
    rw [entryToJson, entryOfJson, Json.fields_record _ (by simp)]
    simp [Json.optional_text _ d]

theorem reads_ofJson {pending : Pending} (canonical : Value.CanonicalTable pending.extra) :
    Json.Reads ofJson pending.toJson pending := by
  intro d
  cases d with
  | zero => rfl
  | succ d =>
    rw [toJson, ofJson, Json.fields_record _ (by simp)]
    simp [Json.Slot.required, reads_entryOfJson _ _ d, pending.profile.reads_ofJson d,
      Value.reads_tableOfJson canonical d, Json.bind_guard, Json.guard_guard]

theorem reads_decode {pending : Pending} (canonical : Value.CanonicalTable pending.extra) :
    Wire.Reads decode pending.encode pending := by
  simp only [encode, List.append_assoc]
  exact (Wire.reads_optionalString _).bind (pending.profile.reads_decode.bind ((Wire.reads_optionalString _).bind
    (Value.reads_tableOfBytes canonical).last))

end Pending

namespace Subscriber

/-- The values that the menus keep are canonical. -/
def Canonical (s : Subscriber) : Prop := Value.CanonicalTable s.pending.extra

theorem reads_ofJson {s : Subscriber} (canonical : s.Canonical) : Json.Reads ofJson s.toJson s := by
  intro d
  cases d with
  | zero => rfl
  | succ d =>
    rw [toJson, ofJson, Json.fields_record _ (by simp)]
    simp [Json.Slot.required, s.user.reads_ofJson d, Pending.reads_ofJson canonical d, Json.reads_texts _ d,
      Json.optional_text _ d, Json.bind_guard, Json.guard_guard]

theorem reads_decode {s : Subscriber} (canonical : s.Canonical) : Wire.Reads decode s.encode s := by
  simp only [encode, List.append_assoc]
  exact s.user.reads_decode.bind ((Pending.reads_decode canonical).bind ((Wire.reads_strings _).bind
    (Wire.reads_optionalString _).last))

theorem faithful {s : Subscriber} (canonical : s.Canonical) : Encoded.Faithful s :=
  ⟨reads_ofJson canonical, reads_decode canonical⟩

end Subscriber

end DialMenu.Menus
