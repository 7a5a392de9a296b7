import DialMenu.Proofs.Fold
import DialMenu.Proofs.Session.Conversation
import DialMenu.Proofs.Session.Records
import DialMenu.Proofs.Time.Saturation
import Mathlib.Data.Set.Card

/-!
The store in memory as a map of leases. What a key has is told by the requests so far: the record that was last written
there, if it was not deleted since, until its lifetime ends. Requests that write nothing there, and the removal of what
has expired, never show.
-/

namespace DialMenu

variable {C : Type}

/-- A record with the instant at which it expires. -/
structure Lease (C : Type) where
  session : Session C
  ends : Instant
deriving DecidableEq

namespace MemoryStore

/-- What a store can be asked. -/
inductive Request (C : Type) where
  | get (key : String)
  | set (session : Session C) (ttl : Duration)
  | delete (key : String)
  | size

/-- What a request writes under a key: a lease, or nothing in place of it. A lifetime that is too long is refused. -/
def Request.write? (key : String) (now : Instant) : Request C → Option (Option (Lease C))
  | set session ttl =>
    if session.key = key ∧ ttl.total ≤ longestLifetime then some (some ⟨session, now.addSaturating ttl⟩) else none
  | delete other => if other = key then some none else none
  | get _ | size => none

/-- The lease under a key after a history of requests: what was written there last. -/
def lease? (key : String) (history : List (Instant × Request C)) : Option (Lease C) :=
  (history.filterMap fun entry => entry.2.write? key entry.1).getLast?.join

theorem lease?_concat (key : String) (history : List (Instant × Request C)) (entry : Instant × Request C) :
    lease? key (history ++ [entry]) = (entry.2.write? key entry.1).getD (lease? key history) := by
  rw [lease?, getLast?_filterMap_concat, lease?]
  cases entry.2.write? key entry.1 <;> rfl

theorem lease?_unwritten {key : String} {earlier : Instant} {request : Request C}
    (nothing : request.write? key earlier = none) (before rest : List (Instant × Request C)) :
    lease? key (before ++ (earlier, request) :: rest) = lease? key (before ++ rest) := by
  rw [lease?, lease?, List.filterMap_append, List.filterMap_append, List.filterMap_cons, nothing]

/-- A lease comes from a request of the history. -/
theorem exists_set_of_lease? {key : String} {history : List (Instant × Request C)} {lease : Lease C}
    (found : lease? key history = some lease) :
    ∃ now ttl, (now, Request.set lease.session ttl) ∈ history ∧ lease.session.key = key := by
  have last := Option.join_eq_some_iff.1 found
  obtain ⟨⟨now, request⟩, mem, written⟩ := List.mem_filterMap.1 (List.mem_of_getLast? last)
  cases request with
  | get | size => cases written
  | delete other =>
    simp only [Request.write?] at written
    split at written <;> cases written
  | set session ttl =>
    simp only [Request.write?] at written
    split at written
    · rename_i accepted
      cases written
      exact ⟨now, ttl, mem, accepted.1⟩
    · cases written

/-- The number of live records is the number of keys that have one. -/
theorem encard_live (store : MemoryStore) (now : Instant) :
    {key | (store.live? now key).isSome = true}.encard = store.size now := by
  -- Every key has one entry, so the entries that are counted are as many as their keys.
  let keys : List String := (store.records.entries.filter fun entry => entry.2.isLive now).map (·.1)
  have nodup : keys.Nodup := store.records.nodup_keys.sublist (List.filter_sublist.map _)
  have mem (key : String) : key ∈ keys ↔ (store.live? now key).isSome = true := by
    rw [List.mem_map, Option.isSome_iff_exists]
    constructor
    · rintro ⟨⟨_, record⟩, kept, rfl⟩
      obtain ⟨inside, live⟩ := List.mem_filter.1 kept
      exact ⟨record, live?_eq_some_iff.2 ⟨(Table.mem_entries_iff _ _ _).1 inside, of_decide_eq_true live⟩⟩
    · rintro ⟨record, live⟩
      obtain ⟨found, early⟩ := live?_eq_some_iff.1 live
      exact ⟨(key, record), List.mem_filter.2 ⟨(Table.mem_entries_iff _ _ _).2 found, decide_eq_true early⟩, rfl⟩
  have same : {key | (store.live? now key).isSome = true} = (keys.toFinset : Set String) := by
    ext key
    simp only [List.coe_toFinset, Set.mem_ofPred_eq, mem]
  have length : store.size now = keys.length := by
    rw [size, Table.values, List.countP_map, List.countP_eq_length_filter, List.length_map]
    rfl
  rw [same, Set.encard_coe_eq_coe_finsetCard, List.toFinset_card_of_nodup nodup, length]

section Requests

variable [Encoded C]

/-- The store that an operation leaves. -/
def left {α : Type} (result : Except SessionError α × MemoryStore) : MemoryStore := result.2

/-- The store after one request. -/
def serve (store : MemoryStore) (now : Instant) : Request C → MemoryStore
  | .get key => left (get (C := C) now key store)
  | .set session ttl => left (set now session ttl store)
  | .delete key => left (delete key store)
  | .size => store

/-- The store after a history of requests, each at its reading of the clock. -/
def after (store : MemoryStore) (history : List (Instant × Request C)) : MemoryStore :=
  history.foldl (fun store entry => store.serve entry.1 entry.2) store

theorem after_concat (store : MemoryStore) (history : List (Instant × Request C)) (entry : Instant × Request C) :
    store.after (history ++ [entry]) = (store.after history).serve entry.1 entry.2 :=
  List.foldl_concat ..

/-- From this instant on the live records are those of the leases. -/
structure Reflects (store : MemoryStore) (codec : Codec) (now : Instant) (history : List (Instant × Request C)) :
    Prop where
  form : store.codec = codec
  live? : ∀ later, now ≤ later → ∀ key, store.live? later key =
    ((lease? key history).filter fun lease => later < lease.ends).map fun lease =>
      ⟨lease.session.written codec, lease.ends⟩

theorem get_eq : get (C := C) = (operationsIn (.encoded C)).get := congrArg SessionStore.get operations_eq

theorem get_eq_live? (store : MemoryStore) (now : Instant) (key : String) : (get (C := C) now key store).1 =
    match store.live? now key with
    | some record => some <$> Session.decode store.codec record.bytes
    | none => .ok none := by
  rw [get_eq, MemoryStore.get_fst]
  rfl

/-- Reading removes at most a record that has expired. -/
theorem sameFrom_get (store : MemoryStore) (now : Instant) (key : String) :
    (get (C := C) now key store).2.SameFrom now store := by
  rw [get_eq, operationsIn]
  dsimp only
  cases gone : store.live? now key with
  | none => exact .without gone
  | some record => exact .refl _ _

theorem live?_holding (store : MemoryStore) (now : Instant) (key other : String) (record : Record) :
    (store.holding key record).live? now other =
      if key = other then (some record).filter fun record => record.isLive now else store.live? now other := by
  rw [MemoryStore.live?, get?_holding]
  split <;> rfl

namespace Reflects

variable {store : MemoryStore} {codec : Codec} {now : Instant} {history : List (Instant × Request C)}

theorem empty (codec : Codec) (now : Instant) : Reflects { codec } codec now ([] : List (Instant × Request C)) :=
  ⟨rfl, fun _ _ _ => rfl⟩

theorem mono (reflects : store.Reflects codec now history) {later : Instant} (order : now ≤ later) :
    store.Reflects codec later history :=
  ⟨reflects.form, fun latest passes => reflects.live? latest (Instant.le_trans order passes)⟩

/-- A request that writes nothing and that no reading shows changes nothing. -/
theorem of_sameFrom (reflects : store.Reflects codec now history) {store' : MemoryStore}
    (same : store'.SameFrom now store) {request : Request C} (quiet : ∀ key, request.write? key now = none) :
    store'.Reflects codec now (history ++ [(now, request)]) where
  form := same.codec.trans reflects.form
  live? later order key := by
    rw [same.live? later order key, reflects.live? later order key, lease?_concat, quiet, Option.getD_none]

/-- One request keeps the live records those of the leases. -/
theorem serve (reflects : store.Reflects codec now history) (request : Request C) :
    (store.serve now request).Reflects codec now (history ++ [(now, request)]) := by
  cases request with
  | get key => exact reflects.of_sameFrom (sameFrom_get store now key) fun _ => rfl
  | size => exact reflects.of_sameFrom (.refl now store) fun _ => rfl
  | delete key =>
    refine ⟨reflects.form, fun later order other => ?_⟩
    have removed : store.serve now (.delete (C := C) key) = store.without key := rfl
    rw [removed, live?_without, lease?_concat, Request.write?]
    by_cases here : key = other
    · rw [if_pos here, if_pos here]
      rfl
    · rw [if_neg here, if_neg here]
      exact reflects.live? later order other
  | set session ttl =>
    rw [MemoryStore.serve, set_eq]
    by_cases tooLong : longestLifetime < ttl.total
    · -- A refused write leaves the store, and is no write of the history.
      have quiet (key : String) : (Request.set session ttl).write? key now = none := by
        rw [Request.write?, if_neg fun accepted => Nat.not_le_of_lt tooLong accepted.2]
      rw [if_pos tooLong]
      exact reflects.of_sameFrom (.refl now store) quiet
    · have accepted : ttl.total ≤ longestLifetime := Nat.le_of_not_lt tooLong
      rw [if_neg tooLong]
      refine ⟨reflects.form, fun later order other => ?_⟩
      rw [left, live?_holding, lease?_concat, Request.write?, reflects.form]
      by_cases here : session.key = other
      · rw [if_pos here, if_pos ⟨here, accepted⟩, Option.getD_some]
        cases early : decide (later < now.addSaturating ttl) <;> simp [Option.filter, Record.isLive, early]
      · rw [if_neg here, if_neg fun both => here both.1, Option.getD_none]
        exact reflects.live? later order other

/-- What is read is the session of the lease, if the records of the history can be read back. -/
theorem get_fst (reflects : store.Reflects codec now history)
    (survive : ∀ earlier session ttl, (earlier, .set session ttl) ∈ history →
      Session.decode codec (session.written codec) = .ok session) (key : String) :
    (get now key store).1 = .ok (((lease? key history).filter fun lease => now < lease.ends).map Lease.session) := by
  rw [get_eq_live?, reflects.live? now (Instant.le_refl now) key, reflects.form]
  cases found : (lease? key history).filter fun lease => now < lease.ends with
  | none => rfl
  | some lease =>
    have held := (Option.filter_eq_some_iff.1 found).1
    obtain ⟨earlier, ttl, mem, -⟩ := exists_set_of_lease? held
    exact congrArg (some <$> ·) (survive earlier lease.session ttl mem)

/-- The keys that are counted are those where something is read. -/
theorem encard_readable (reflects : store.Reflects codec now history)
    (survive : ∀ earlier session ttl, (earlier, .set session ttl) ∈ history →
      Session.decode codec (session.written codec) = .ok session) :
    {key | ∃ session : Session C, (get now key store).1 = .ok (some session)}.encard = store.size now := by
  rw [← encard_live]
  congr 1
  ext key
  simp only [Set.mem_ofPred_eq]
  rw [reflects.get_fst survive, reflects.live? now (Instant.le_refl now) key, Option.isSome_map]
  cases (lease? key history).filter fun lease => now < lease.ends with
  | none => simp
  | some lease => simp

/-- Stores of the same leases answer alike. -/
theorem live?_congr (reflects : store.Reflects codec now history) {other : MemoryStore}
    {history' : List (Instant × Request C)} (reflects' : other.Reflects codec now history') {key : String}
    (same : lease? key history = lease? key history') : store.live? now key = other.live? now key := by
  rw [reflects.live? now (Instant.le_refl now), reflects'.live? now (Instant.le_refl now), same]

end Reflects

/-- After every history in the order of its readings the live records are those of the leases. -/
theorem reflects_after (codec : Codec) {history : List (Instant × Request C)} {now : Instant}
    (ordered : (history.map Prod.fst ++ [now]).Pairwise (· ≤ ·)) :
    (after { codec } history).Reflects codec now history := by
  induction history using List.reverseRecOn generalizing now with
  | nil => exact .empty codec now
  | append_singleton history entry ih =>
    -- The earlier requests are reflected at the reading of this one, and what it leaves stays so until now.
    obtain ⟨time, request⟩ := entry
    rw [List.map_append, List.map_singleton] at ordered
    obtain ⟨before, -, last⟩ := List.pairwise_append.1 ordered
    have order : time ≤ now := last time (by simp) now (by simp)
    rw [after_concat]
    exact ((ih before).serve request).mono order

theorem set_fst_eq_ok_iff {now : Instant} {session : Session C} {ttl : Duration} {store : MemoryStore} :
    (set now session ttl store).1 = .ok () ↔ ttl.total ≤ longestLifetime := by
  rw [set_eq]
  by_cases tooLong : longestLifetime < ttl.total
  · rw [if_pos tooLong]
    exact ⟨nofun, fun accepted => absurd tooLong (Nat.not_lt_of_le accepted)⟩
  · rw [if_neg tooLong]
    exact ⟨fun _ => Nat.le_of_not_lt tooLong, fun _ => rfl⟩

/-- What was written without any lifetime is never read. -/
theorem get_of_set_zero {now later : Instant} (order : now ≤ later) (session : Session C) (store : MemoryStore) :
    (get (C := C) later session.key (left (set now session .zero store))).1 = .ok none := by
  have short : ¬longestLifetime < Duration.zero.total := Nat.not_lt_zero _
  have past : ¬later < now := Instant.not_lt_iff.2 order
  have gone : (store.holding session.key ⟨session.written store.codec, now⟩).live? later session.key = none := by
    rw [live?_holding, if_pos rfl, Option.filter_some, Record.isLive, decide_eq_false past]
    rfl
  rw [set_eq, if_neg short, left, Instant.addSaturating_zero, get_eq_live?, gone]

/-- Requests answered as by a map of leases, after a history that began with nothing. -/
structure Answers (codec : Codec) (history : List (Instant × Request C)) (now : Instant) : Prop where
  /-- What is read is what was last written, if it was not deleted since and its lifetime did not end. -/
  get (key : String) : (get now key (after { codec } history)).1 =
    .ok (((lease? key history).filter fun lease => now < lease.ends).map Lease.session)
  /-- The keys where something is read are those that are counted. -/
  size : {key | ∃ session : Session C,
    (MemoryStore.get now key (after { codec } history)).1 = .ok (some session)}.encard =
      (after { codec } history).size now
  /-- Writing fails for a lifetime that cannot be counted only, and `lease?` takes that for no write. -/
  set (session : Session C) (ttl : Duration) :
    (set now session ttl (after { codec } history)).1 = .ok () ↔ ttl.total ≤ longestLifetime
  /-- A lifetime of no time is over at once. -/
  zero {later : Instant} (order : now ≤ later) (session : Session C) :
    (MemoryStore.get (C := C) later session.key
      (left (MemoryStore.set now session .zero (after { codec } history)))).1 = .ok none
  /-- A request that wrote nothing under a key might as well not have been made there: a read, also where it removed
  something, a failed write, and whatever was about another key. -/
  unwritten {before rest : List (Instant × Request C)} {earlier : Instant} {request : Request C}
    (made : history = before ++ (earlier, request) :: rest) {key : String}
    (nothing : request.write? key earlier = none) :
    (MemoryStore.get (C := C) now key (after { codec } history)).1 =
      (MemoryStore.get now key (after { codec } (before ++ rest))).1
  /-- The count is that without the requests that wrote nothing at all. -/
  uncounted {before rest : List (Instant × Request C)} {earlier : Instant} {request : Request C}
    (made : history = before ++ (earlier, request) :: rest)
    (nothing : ∀ key, request.write? key earlier = none) :
    (after { codec } history).size now = (after { codec } (before ++ rest)).size now

/-- The store answers as a map of leases does, whatever was asked before. A lease ends after its lifetime or at the
latest instant, whichever is first. -/
theorem answers_leases (codec : Codec) (history : List (Instant × Request C)) (now : Instant)
    (ordered : (history.map Prod.fst ++ [now]).Pairwise (· ≤ ·))
    (survive : ∀ earlier session ttl, (earlier, .set session ttl) ∈ history →
      Session.decode codec (session.written codec) = .ok session) :
    Answers codec history now ∧ ∀ (start later : Instant) (ttl : Duration),
      start.isLeap = false → later.isLeap = false →
        (later < start.addSaturating ttl ↔ later.ticks < min (start.ticks + ttl.total) Instant.latest.ticks) := by
  have reflects := reflects_after codec ordered
  have shorter {before rest : List (Instant × Request C)} {entry : Instant × Request C}
      (made : history = before ++ entry :: rest) :
      (after { codec } (before ++ rest)).Reflects codec now (before ++ rest) := by
    have fewer : (before ++ rest).Sublist history := by
      rw [made]
      exact (List.Sublist.refl before).append (List.sublist_cons_self entry rest)
    exact reflects_after codec (ordered.sublist ((fewer.map Prod.fst).append (.refl [now])))
  refine ⟨⟨reflects.get_fst survive, reflects.encard_readable survive, fun session ttl => set_fst_eq_ok_iff,
    fun order session => get_of_set_zero order session _, fun made _ nothing => ?_, fun made nothing => ?_⟩,
    fun start later ttl plain plain' => Instant.lt_addSaturating_iff plain plain' ttl⟩
  · have live := reflects.live?_congr (shorter made) (made ▸ lease?_unwritten nothing _ _)
    rw [get_eq_live?, get_eq_live?, live, reflects.form, (shorter made).form]
  · have live key := reflects.live?_congr (shorter made) (made ▸ lease?_unwritten (nothing key) _ _)
    rw [← ENat.natCast_inj, ← encard_live, ← encard_live]
    simp only [live]

end Requests

def visitSession (key : String) : Session Rehearsal.Bare := .fresh default key "demo" "menu" {} (.ofSeconds 180)

/-- A record of a minute and two of three minutes. After the minute the first is read, another is deleted, and the
first is to be written again for longer than can be counted. -/
def visitHistory : List (Instant × Request Rehearsal.Bare) :=
  let minute : Instant := { Instant.epoch with second := 60, second_mem := by decide }
  [(.epoch, .set (visitSession "pub") (.ofSeconds 60)),
    (.epoch, .set (visitSession "tel") (.ofSeconds 180)),
    (.epoch, .set (visitSession "old") (.ofSeconds 180)),
    (minute, .get "pub"), (minute, .delete "old"),
    (minute, .set (visitSession "pub") (.ofSeconds 18446744073709551615))]

theorem answers_leases_visits :
    let minute : Instant := ⟨60, 0, by decide, by decide⟩
    let store := after { codec := .binary } visitHistory
    (visitHistory.map Prod.fst ++ [minute]).Pairwise (· ≤ ·) ∧ Answers .binary visitHistory minute ∧
      (get minute "tel" store).1 = .ok (some (visitSession "tel")) ∧
      (∀ key ∈ ["pub", "old"],
        (get minute key store).1 = (.ok none : Except SessionError (Option (Session Rehearsal.Bare)))) ∧
      store.size minute = 1 ∧ ¬minute < Instant.epoch.addSaturating (.ofSeconds 60) := by
  intro minute store
  have ordered : (visitHistory.map Prod.fst ++ [minute]).Pairwise (· ≤ ·) := by decide +kernel
  have fits (key : String) (small : key ∈ ["pub", "tel", "old"]) :
      Session.decode .binary ((visitSession key).written .binary) = .ok (visitSession key) := by
    refine Session.decode_written_of_fits ⟨Rehearsal.Bare.faithful _, ?_⟩ (Session.current_fresh ..)
    revert key
    decide +kernel
  have survive : ∀ earlier session ttl, (earlier, .set session ttl) ∈ visitHistory →
      Session.decode .binary (session.written .binary) = .ok session := by
    intro earlier session ttl mem
    simp only [visitHistory, List.mem_cons, Prod.mk.injEq, Request.set.injEq, reduceCtorEq, and_false, false_or,
      List.not_mem_nil, or_false] at mem
    obtain ⟨-, rfl, -⟩ | ⟨-, rfl, -⟩ | ⟨-, rfl, -⟩ | ⟨-, rfl, -⟩ := mem <;> exact fits _ (by decide)
  obtain ⟨answers, ends⟩ := answers_leases .binary visitHistory minute ordered survive
  have leases : (lease? "tel" visitHistory).filter (fun lease => minute < lease.ends) =
        some ⟨visitSession "tel", Instant.epoch.addSaturating (.ofSeconds 180)⟩ ∧
      ∀ key ∈ ["pub", "old"], (lease? key visitHistory).filter (fun lease => minute < lease.ends) = none := by
    decide +kernel
  have single : store.size minute = 1 := by decide +kernel
  refine ⟨ordered, answers, ?_, fun key mem => ?_, single, (ends .epoch minute _ rfl rfl).not.2 (by decide)⟩
  · rw [answers.get, leases.1]
    rfl
  · rw [answers.get, leases.2 key mem]
    rfl

end MemoryStore

end DialMenu
