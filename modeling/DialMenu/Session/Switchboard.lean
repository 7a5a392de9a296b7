import DialMenu.Interpreter
import DialMenu.Session.Config
import DialMenu.Session.Store
import DialMenu.Template

/-!
The work on one keystroke: load the conversation, advance it by a step, and store it or end it. Nothing locks
a key between loading and storing; of two overlapping requests the last to store wins.
-/

namespace DialMenu

/-- The result of a step on a conversation, before it is stored. -/
structure Turn (C : Type) where
  session : Session C
  disposition : Disposition
  trace : Trace

def Turn.isTerminal {C : Type} (turn : Turn C) : Bool := turn.disposition.isTerminal

structure Switchboard (C σ S : Type) where
  interpreters : Table String (Interpreter C σ) := .empty
  store : SessionStore S C
  config : Config

namespace Switchboard

variable {C σ S : Type}

/-- Registers an interpreter under the name of its machine. -/
def register (board : Switchboard C σ S) (i : Interpreter C σ) : Switchboard C σ S :=
  { board with interpreters := board.interpreters.insert i.machine.id i }

def interpreter (board : Switchboard C σ S) (machine : String) : Except SessionError (Interpreter C σ) :=
  match board.interpreters.get? machine with
  | some i => .ok i
  | none => .error (.unknownMachine machine)

/-- A new conversation at the beginning of a machine. -/
def fresh (board : Switchboard C σ S) (stamp : Stamp) (sessionId machine : String) (context : C) :
    Except SessionError (Session C) :=
  (board.interpreter machine).map fun i =>
    .fresh stamp (board.config.keyFor sessionId) machine i.machine.initial context board.config.ttl

/-- The stored conversation, or a new one in the entry machine with the given context. -/
def loadOr (board : Switchboard C σ S) (stamp : Stamp) (sessionId : String) (context : C) (store : S) :
    Except SessionError (Session C) × S :=
  match board.store.get stamp.now (board.config.keyFor sessionId) store with
  | (.error err, store) => (.error err, store)
  | (.ok (some session), store) => (.ok session, store)
  | (.ok none, store) => (board.fresh stamp sessionId board.config.entry context, store)

/-- Stores a new conversation at the beginning of a machine, in place of whatever is stored. -/
def start (board : Switchboard C σ S) (stamp : Stamp) (sessionId machine : String) (context : C) (store : S) :
    Except SessionError (Session C) × S :=
  match board.fresh stamp sessionId machine context with
  | .error err => (.error err, store)
  | .ok session =>
    let (result, store) := board.store.set stamp.now session board.config.ttl store
    (result.map fun _ => session, store)

/-- Ends a conversation whose turn is terminal, and stores any other with a new lifetime. -/
def commit (board : Switchboard C σ S) (now : Instant) (turn : Turn C) (store : S) : Except SessionError Unit × S :=
  if turn.isTerminal then board.store.delete turn.session.key store
  else board.store.set now turn.session board.config.ttl store

variable [Context C]

/-- Runs one step and stores nothing. -/
def advance (board : Switchboard C σ S) (now : Instant) (session : Session C) (event : Event) (env : σ) :
    Except SessionError (Turn C) × σ :=
  match board.interpreter session.machine with
  | .error err => (.error err, env)
  | .ok i =>
    let rest := i.step now session.state session.context event env
    (.ok { session := session.advanced now rest.state rest.context board.config.ttl
           disposition := rest.disposition, trace := rest.trace }, rest.env)

/-- Loads, advances and commits: the answer to one keystroke. -/
def handle [Inhabited C] (board : Switchboard C σ S) (stamp : Stamp) (sessionId : String) (event : Event)
    (store : S) (env : σ) : Except SessionError (Turn C) × S × σ :=
  match board.loadOr stamp sessionId default store with
  | (.error err, store) => (.error err, store, env)
  | (.ok session, store) =>
    match board.advance stamp.now session event env with
    | (.error err, env) => (.error err, store, env)
    | (.ok turn, env) =>
      let (result, store) := board.commit stamp.now turn store
      (result.map fun _ => turn, store, env)

end Switchboard

/-- The response that shows where a turn came to rest, in whatever words. -/
def Turn.replyWith {C : Type} (turn : Turn C) (render : String → String → C → String) : Reply where
  text := render turn.session.machine turn.session.state turn.session.context
  terminate := turn.isTerminal

/-- The response in the texts of a deployment. -/
def Turn.reply {C : Type} [Context C] (turn : Turn C) (renderer : Renderer) : Reply := turn.replyWith renderer.render

end DialMenu
