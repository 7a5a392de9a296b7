import DialMenu.Proofs.Session.Overlap
import DialMenu.Proofs.Time.Saturation

/-!
The answer to a keystroke, the record and the response to the transport agree on whether the conversation goes on.
-/

namespace DialMenu

variable {C σ : Type}

/-- The turn goes on with this conversation, and grants it the lifetime of the configuration. -/
structure Turn.Continues (turn : Turn C) (session : Session C) (config : Config) : Prop where
  id : turn.session.id = session.id
  key : turn.session.key = session.key
  machine : turn.session.machine = session.machine
  version : turn.session.version = session.version
  createdAt : turn.session.createdAt = session.createdAt
  lifetime : turn.session.lifetime = config.lifetime

theorem Turn.isTerminal_iff {turn : Turn C} : turn.isTerminal = true ↔ turn.disposition ≠ .waiting := decide_eq_true_iff

theorem Reply.frame_eq_end_iff {reply : Reply} : reply.frame = "END" ++ " " ++ reply.text ↔ reply.terminate = true := by
  rw [frame]
  cases reply.terminate with
  | true => exact ⟨fun _ => rfl, fun _ => rfl⟩
  | false =>
    constructor
    · intro same
      rw [String.append_left_inj, String.append_left_inj] at same
      exact absurd same (by decide)
    · exact nofun

namespace Switchboard

section Advance

variable {S : Type} {board : Switchboard C σ S} [Context C] {now : Instant} {session : Session C} {event : Event}
  {env env' : σ} {turn : Turn C}

theorem continues_of_advance (advanced : board.advance now session event env = (.ok turn, env')) :
    turn.Continues session board.config := by
  obtain ⟨_, -, place, -⟩ := advance_eq_ok_iff.1 advanced
  constructor
  all_goals
    rw [place]
    rfl

/-- A finished turn is in a final state of its machine, and one that waits is not. -/
theorem state_of_advance (advanced : board.advance now session event env = (.ok turn, env')) :
    ∃ i, board.interpreters.get? turn.session.machine = some i ∧
      (turn.disposition = .finished → i.machine.isTerminal turn.session.state = true) ∧
      (turn.disposition = .waiting → i.machine.isTerminal turn.session.state = false) := by
  obtain ⟨i, registered, place, disposition, -⟩ := advance_eq_ok_iff.1 advanced
  obtain ⟨finished, waiting⟩ := i.state_of_disposition now session.state session.context event env
  rw [place, disposition]
  exact ⟨i, registered, finished, fun waits => (waiting waits).2⟩

end Advance

section Memory

variable [Encoded C] {board : Switchboard C σ MemoryStore}

/-- Loading changes at most the record under the key of what it loads. -/
theorem sameBut_of_loadOr (memory : board.store = MemoryStore.operationsIn (.encoded C)) {stamp : Stamp}
    {sessionId : String} {context : C} {store loaded : MemoryStore} {session : Session C}
    (load : board.loadOr stamp sessionId context store = (.ok session, loaded)) : loaded.SameBut session.key store := by
  rcases loadOr_cases memory load with ⟨_, -, -, rfl⟩ | ⟨made, rfl⟩
  · exact .refl _ _
  · obtain ⟨_, -, rfl⟩ := fresh_eq_ok_iff.1 made
    exact .without _ _

theorem current_of_loadOr (memory : board.store = MemoryStore.operationsIn (.encoded C)) {stamp : Stamp}
    {sessionId : String} {context : C} {store loaded : MemoryStore} {session : Session C}
    (load : board.loadOr stamp sessionId context store = (.ok session, loaded)) :
    session.Current := by
  rcases loadOr_cases memory load with ⟨_, -, read, -⟩ | ⟨made, -⟩
  · exact Session.current_of_decode read
  · obtain ⟨_, -, rfl⟩ := fresh_eq_ok_iff.1 made
    exact Session.current_fresh ..

variable [Context C] [Inhabited C]

/-- When a keystroke is answered, the conversation has come to its end if and only if the response says so, and if and
only if no record of it is left. Otherwise its record is that of the turn. All else about the conversation is as it was
loaded, and so are the records of all others. -/
theorem handle_agrees (memory : board.store = MemoryStore.operations C) {stamp : Stamp} {sessionId : String}
    {event : Event} {store : MemoryStore} {env : σ} {turn : Turn C}
    (handled : (board.handle stamp sessionId event store env).1 = .ok turn) (render : String → String → C → String) :
    let reply := turn.replyWith render
    let left := (board.handle stamp sessionId event store env).2.1
    let expiry := stamp.now.addSaturating board.config.ttl
    (turn.disposition ≠ .waiting ↔ reply.terminate = true) ∧
    (turn.disposition ≠ .waiting ↔ reply.frame = "END" ++ " " ++ reply.text) ∧
    (turn.disposition ≠ .waiting ↔ left.records.get? turn.session.key = none) ∧
    (turn.disposition ≠ .waiting → ∀ now, (board.store.get now turn.session.key left).1 = .ok none) ∧
    (turn.disposition = .waiting → turn.session.FitsIn store.codec →
      (∃ record, left.records.get? turn.session.key = some record ∧
        Session.decode left.codec record.bytes = .ok turn.session) ∧
      (∀ now, now < expiry → (board.store.get now turn.session.key left).1 = .ok (some turn.session)) ∧
      (0 < board.config.lifetime → stamp.now < .latest → stamp.now < expiry)) ∧
    (∀ key, key ≠ turn.session.key → left.records.get? key = store.records.get? key) ∧
    (∃ session, (board.loadOr stamp sessionId default store).1 = .ok session ∧ turn.Continues session board.config) ∧
    ∃ i, board.interpreters.get? turn.session.machine = some i ∧
      (turn.disposition = .finished → i.machine.isTerminal turn.session.state = true) ∧
      (turn.disposition = .waiting → i.machine.isTerminal turn.session.state = false) := by
  intro reply left expiry
  rw [MemoryStore.operations_eq] at memory
  obtain ⟨session, loaded, load, advanced, committed⟩ := exists_of_handle_eq_ok handled
  have continues := continues_of_advance advanced
  have before : loaded.SameBut turn.session.key store := continues.key ▸ sameBut_of_loadOr memory load
  have others : left.SameBut turn.session.key store := by
    have same := sameBut_commit memory stamp.now turn loaded
    rw [committed] at same
    exact same.trans before
  have stored : left.records.get? turn.session.key =
      if turn.isTerminal then none else some ⟨turn.session.written store.codec, expiry⟩ := by
    rw [← before.codec]
    exact get?_of_commit memory committed
  have missing : turn.disposition ≠ .waiting ↔ left.records.get? turn.session.key = none := by
    rw [stored, ← Turn.isTerminal_iff]
    cases turn.isTerminal <;> simp
  have ends : turn.disposition ≠ .waiting ↔ reply.terminate = true := Turn.isTerminal_iff.symm
  refine ⟨ends, ends.trans Reply.frame_eq_end_iff.symm, missing, fun ended now => ?_, fun waits fits => ?_, others.get?,
    ⟨session, congrArg Prod.fst load, continues⟩, state_of_advance advanced⟩
  · rw [memory, MemoryStore.get_fst, MemoryStore.live?_of_get?_eq_none (missing.1 ended)]
  · have decoded : Session.decode left.codec (turn.session.written store.codec) = .ok turn.session := by
      rw [others.codec]
      exact Session.decode_written_of_fits fits (current_of_advance (current_of_loadOr memory load) advanced)
    rw [if_neg (mt Turn.isTerminal_iff.1 (not_not.2 waits))] at stored
    have lasts : 0 < board.config.ttl.seconds → stamp.now < .latest → stamp.now < expiry := Instant.lt_addSaturating
    refine ⟨⟨_, stored, decoded⟩, fun now early => ?_, lasts⟩
    rw [memory, MemoryStore.get_fst, MemoryStore.live?_eq_some_iff.2 ⟨stored, early⟩]
    exact congrArg (some <$> ·) decoded

end Memory

end Switchboard

theorem handle_agrees_visits :
    (∃ turn, (visitBoard.handle default "tel" (rushEvents true) { codec := .binary } 0).1 = .ok turn ∧
      turn.disposition = .finished ∧ (∀ render, (turn.replyWith render).terminate = true) ∧
      (visitBoard.handle default "tel" (rushEvents true) { codec := .binary } 0).2.1.records.get? turn.session.key =
        none) ∧
    ∃ turn, (visitBoard.handle default "tel" (rushEvents false) { codec := .binary } 0).1 = .ok turn ∧
      turn.disposition = .waiting ∧ (∀ render, (turn.replyWith render).terminate ≠ true) ∧
      (visitBoard.store.get .epoch turn.session.key
        (visitBoard.handle default "tel" (rushEvents false) { codec := .binary } 0).2.1).1 =
          .ok (some turn.session) := by
  have memory : visitBoard.store = MemoryStore.operations Rehearsal.Bare := rfl
  constructor
  · have told : (visitBoard.handle default "tel" (rushEvents true) { codec := .binary } 0).1.map
        (fun turn => turn.disposition) = .ok .finished := by
      decide +kernel
    obtain ⟨turn, handled, finished⟩ := Except.map_eq_ok_iff.1 told
    have ended : turn.disposition ≠ .waiting := by simp [finished]
    have agrees := Switchboard.handle_agrees memory handled
    exact ⟨turn, handled, finished, fun render => (agrees render).1.1 ended, (agrees fun _ _ _ => "").2.2.1.1 ended⟩
  · have told : (visitBoard.handle default "tel" (rushEvents false) { codec := .binary } 0).1.map
        (fun turn => (turn.disposition, turn.session.key, turn.session.machine, turn.session.state,
          turn.session.context)) =
        .ok (.waiting, "ussd:session:tel", "demo", "menu", { feedback := some "7" }) := by
      decide +kernel
    obtain ⟨turn, handled, same⟩ := Except.map_eq_ok_iff.1 told
    simp only [Prod.mk.injEq] at same
    obtain ⟨waits, key, machine, state, context⟩ := same
    have agrees := Switchboard.handle_agrees memory handled
    have fits : turn.session.FitsIn .binary := by
      rw [Session.FitsIn, key, machine, state, context]
      exact ⟨Rehearsal.Bare.faithful _, by decide +kernel⟩
    obtain ⟨-, -, -, -, stored, -⟩ := agrees fun _ _ _ => ""
    obtain ⟨-, readable, lasts⟩ := stored waits fits
    exact ⟨turn, handled, waits, fun render => mt (agrees render).1.2 (not_not.2 waits),
      readable .epoch (lasts (by decide) (by decide))⟩

end DialMenu
