import DialMenu.Menus.Backends
import DialMenu.Proofs.Fold

/-!
The profile store over a whole history of partial updates, between which it may go down and come up again. What the
store has for an address is told field by field by the updates for that address that were accepted: the value that was
set last. Merging is an algebra in which two updates are as good as one.
-/

namespace DialMenu.Menus

namespace Profile

@[simp] theorem merged_empty (profile : Profile) : profile.merged {} = profile := by simp [merged]

@[simp] theorem empty_merged (profile : Profile) : merged {} profile = profile := by simp [merged]

@[simp] theorem merged_self (profile : Profile) : profile.merged profile = profile := by simp [merged]

theorem merged_assoc (first second third : Profile) :
    (first.merged second).merged third = first.merged (second.merged third) := by
  simp [merged, Option.or_assoc]

/-- The value that the updates set last, if one of them sets the field. -/
def lastSet {α : Type} (field : Profile → Option α) (updates : List Profile) : Option α :=
  (updates.filterMap field).getLast?

theorem lastSet_concat {α : Type} (field : Profile → Option α) (updates : List Profile) (update : Profile) :
    lastSet field (updates ++ [update]) = (field update).or (lastSet field updates) :=
  getLast?_filterMap_concat updates update field

/-- Each field has the value that the updates set last, and none if no update sets it. -/
structure Collects (profile : Profile) (updates : List Profile) : Prop where
  givenNames : profile.givenNames = lastSet Profile.givenNames updates
  familyName : profile.familyName = lastSet Profile.familyName updates
  gender : profile.gender = lastSet Profile.gender updates
  yearOfBirth : profile.yearOfBirth = lastSet Profile.yearOfBirth updates
  location : profile.location = lastSet Profile.location updates

theorem collects_empty : Collects {} [] := ⟨rfl, rfl, rfl, rfl, rfl⟩

theorem Collects.merged {profile : Profile} {updates : List Profile} (collects : profile.Collects updates)
    (update : Profile) : (profile.merged update).Collects (updates ++ [update]) := by
  obtain ⟨givenNames, familyName, gender, yearOfBirth, location⟩ := collects
  constructor
  · rw [lastSet_concat, ← givenNames, Profile.merged]
  · rw [lastSet_concat, ← familyName, Profile.merged]
  · rw [lastSet_concat, ← gender, Profile.merged]
  · rw [lastSet_concat, ← yearOfBirth, Profile.merged]
  · rw [lastSet_concat, ← location, Profile.merged]

end Profile

/-- What can be done to a profile store. -/
inductive ProfileOperation where
  | upsert (address : String) (update : Profile)
  | setDown (down : Bool)
deriving DecidableEq

/-- The updates for the address that a store accepts, which is down or up at first. -/
def ProfileOperation.accepted (address : String) : Bool → List ProfileOperation → List Profile
  | _, [] => []
  | _, .setDown down :: rest => accepted address down rest
  | true, .upsert _ _ :: rest => accepted address true rest
  | false, .upsert other update :: rest =>
    if other = address then update :: accepted address false rest else accepted address false rest

namespace ProfileStore

/-- The store after one operation. -/
def perform (store : ProfileStore) : ProfileOperation → ProfileStore
  | .upsert address update => (store.upsert address update).2
  | .setDown down => { store with down }

/-- The store after a history. -/
def after (store : ProfileStore) (history : List ProfileOperation) : ProfileStore := history.foldl perform store

variable {store : ProfileStore} {address : String} {updates : List Profile}

theorem upsert_of_down (down : store.down = true) (address : String) (update : Profile) :
    store.upsert address update = (.error (.unavailable "profiles"), store) := if_pos down

/-- A store that is up merges the update into what it has, and into the empty profile if it has nothing. -/
theorem upsert_of_up (up : store.down = false) (address : String) (update : Profile) :
    store.upsert address update = (.ok (), { store with
      profiles := store.profiles.insert address (((store.profiles.get? address).getD {}).merged update) }) := by
  rw [upsert, if_neg (by simp [up])]
  cases store.profiles.get? address <;> simp

theorem down_upsert (store : ProfileStore) (address : String) (update : Profile) :
    (store.upsert address update).2.down = store.down := by
  cases down : store.down with
  | true => rw [upsert_of_down down, down]
  | false => rw [upsert_of_up down, down]

/-- Updates for other addresses change nothing here. -/
theorem get?_upsert_of_ne {other : String} (differ : other ≠ address) (update : Profile) :
    (store.upsert other update).2.profiles.get? address = store.profiles.get? address := by
  cases down : store.down with
  | true => rw [upsert_of_down down]
  | false => rw [upsert_of_up down, Table.get?_insert, if_neg differ]

/-- The store has a profile for the address once there is an update, and the profile collects the updates. -/
structure Reflects (store : ProfileStore) (address : String) (updates : List Profile) : Prop where
  known : (store.profiles.get? address).isSome = true ↔ updates ≠ []
  collects : ((store.profiles.get? address).getD {}).Collects updates

theorem Reflects.congr {store' : ProfileStore} (same : store'.profiles.get? address = store.profiles.get? address)
    (reflects : store.Reflects address updates) : store'.Reflects address updates := by
  obtain ⟨known, collects⟩ := reflects
  exact ⟨same ▸ known, same ▸ collects⟩

theorem Reflects.upsert (reflects : store.Reflects address updates) (up : store.down = false) (update : Profile) :
    (store.upsert address update).2.Reflects address (updates ++ [update]) := by
  have stored : (store.upsert address update).2.profiles.get? address =
      some (((store.profiles.get? address).getD {}).merged update) := by
    rw [upsert_of_up up, Table.get?_insert, if_pos rfl]
  refine ⟨?_, ?_⟩
  · rw [stored]
    exact iff_of_true rfl (List.append_ne_nil_of_right_ne_nil _ (List.cons_ne_nil _ _))
  · rw [stored]
    exact reflects.collects.merged update

/-- A history adds the updates that are accepted in it. -/
theorem Reflects.after (reflects : store.Reflects address updates) (history : List ProfileOperation) :
    (store.after history).Reflects address (updates ++ ProfileOperation.accepted address store.down history) := by
  induction history generalizing store updates with
  | nil => rwa [ProfileOperation.accepted, List.append_nil]
  | cons operation rest ih =>
    cases operation with
    | setDown down =>
      have switched : (store.perform (.setDown down)).Reflects address updates := ⟨reflects.known, reflects.collects⟩
      exact ih switched
    | upsert other update =>
      cases down : store.down with
      | true =>
        have refused : store.perform (.upsert other update) = store := by rw [perform, upsert_of_down down]
        rw [ProfileStore.after, List.foldl_cons, refused, ProfileOperation.accepted, ← down]
        exact ih reflects
      | false =>
        have still := (down_upsert store other update).trans down
        have next (updates' : List Profile) (reflects' : (store.upsert other update).2.Reflects address updates') :=
          still ▸ ih reflects'
        by_cases here : other = address
        · subst here
          have more := next _ (reflects.upsert down update)
          rw [List.append_assoc] at more
          rwa [ProfileOperation.accepted, if_pos rfl]
        · rw [ProfileOperation.accepted, if_neg here]
          exact next _ (reflects.congr (get?_upsert_of_ne here update))

/-- What a store answers for an address, and what an upsert does to it, by the updates that were accepted so far. -/
structure AnswersBy (store : ProfileStore) (address : String) (updates : List Profile) : Prop where
  /-- While the store is up there is no profile exactly if there is no update. -/
  missing : store.down = false → (store.profile? address = .ok none ↔ updates = [])
  /-- Otherwise there is one, and it collects the updates. -/
  stored : store.down = false → updates ≠ [] →
    ∃ profile, store.profile? address = .ok (some profile) ∧ profile.Collects updates
  unanswered : store.down = true → store.profile? address = .error (.unavailable "profiles")
  /-- A store that is up accepts every update. -/
  accepted : store.down = false → ∀ update, (store.upsert address update).1 = .ok ()
  /-- A store that is down refuses every update and stays as it is. -/
  refused : store.down = true → ∀ update, store.upsert address update = (.error (.unavailable "profiles"), store)
  /-- Updates for other addresses change nothing here. -/
  separate : ∀ other update, other ≠ address →
    (store.upsert other update).2.profile? address = store.profile? address
  /-- Two updates one after the other are as good as one. -/
  merges : ∀ first second, ((store.upsert address first).2.upsert address second).2 =
    (store.upsert address (first.merged second)).2

theorem upsert_upsert (store : ProfileStore) (address : String) (first second : Profile) :
    ((store.upsert address first).2.upsert address second).2 = (store.upsert address (first.merged second)).2 := by
  cases down : store.down with
  | true => rw [upsert_of_down down, upsert_of_down down, upsert_of_down down]
  | false =>
    have still := (down_upsert store address first).trans down
    rw [upsert_of_up still, upsert_of_up down, upsert_of_up down]
    refine congrArg (fun profiles => ({ store with profiles } : ProfileStore)) (Table.ext_get? fun other => ?_)
    simp only [Table.get?_insert, if_true, Option.getD_some, Profile.merged_assoc]
    split <;> rfl

theorem answersBy_of_reflects (reflects : store.Reflects address updates) : store.AnswersBy address updates where
  missing up := by
    have known := reflects.known
    rw [profile?, if_neg (by simp [up])]
    cases found : store.profiles.get? address <;> simpa [found] using known
  stored up some := by
    obtain ⟨profile, there⟩ := Option.isSome_iff_exists.1 (reflects.known.2 some)
    have collects := reflects.collects
    rw [there] at collects
    exact ⟨profile, by rw [profile?, if_neg (by simp [up]), there], collects⟩
  unanswered down := if_pos down
  accepted up update := by rw [upsert_of_up up]
  refused down := upsert_of_down down address
  separate other update differ := by
    rw [profile?, profile?, down_upsert, get?_upsert_of_ne differ]
  merges := upsert_upsert store address

/-- After any history a new store answers by the updates that were accepted in it. Merging is associative and
idempotent, and the empty profile is its unit. -/
theorem answersBy_after (history : List ProfileOperation) (address : String) :
    (({} : ProfileStore).after history).AnswersBy address (ProfileOperation.accepted address false history) ∧
      (∀ first second third : Profile, (first.merged second).merged third = first.merged (second.merged third)) ∧
      ∀ profile : Profile,
        profile.merged profile = profile ∧ profile.merged {} = profile ∧ Profile.merged {} profile = profile := by
  have new : ({} : ProfileStore).Reflects address [] := ⟨iff_of_false nofun (· rfl), Profile.collects_empty⟩
  refine ⟨answersBy_of_reflects (new.after history), Profile.merged_assoc, fun profile => ?_⟩
  exact ⟨profile.merged_self, profile.merged_empty, profile.empty_merged⟩

/-- An update during an outage is lost, and a later one overrides the fields that it sets. -/
example : (({} : ProfileStore).after [.upsert "a" { givenNames := some "John", location := some "Embu" },
      .setDown true, .upsert "a" { givenNames := some "Jane" }, .setDown false,
      .upsert "a" { location := some "Nairobi" }]).profiles.get? "a" =
    some { givenNames := some "John", location := some "Nairobi" } := by decide

end ProfileStore

end DialMenu.Menus
