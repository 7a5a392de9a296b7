import DialMenu.Event
import DialMenu.Table

/-!
Texts with placeholders. Filling is a single pass: a placeholder is what stands between an opening brace and
the next closing one, and a value that is put in is not looked at again.
-/

namespace DialMenu

namespace Template

variable (value : String → Option String)

mutual

/-- Fills a text. Unknown names stay as they are. -/
def fill : List Char → List Char
  | [] => []
  | c :: cs => if c = '\x7b' then fillName [] cs else c :: fill cs

/-- Fills the rest of a text behind an opening brace and the characters `name`, which are in reverse. A brace
that is never closed stays as it is. -/
def fillName (name : List Char) : List Char → List Char
  | [] => '\x7b' :: name.reverse
  | c :: cs =>
    if c = '\x7d' then
      match value (String.ofList name.reverse) with
      | some text => text.toList ++ fill cs
      | none => '\x7b' :: name.reverse ++ '\x7d' :: fill cs
    else fillName (c :: name) cs

end

end Template

/-- Fills the placeholders of a template. -/
def interpolate (template : String) (value : String → Option String) : String :=
  String.ofList (Template.fill value template.toList)

/-- The texts of a deployment: templates by machine and state, messages by feedback tag. -/
structure Renderer where
  /-- Under the name of the machine, a point, and the name of the state. -/
  templates : Table String String := .empty
  messages : Table String String := .empty
  /-- The text of a state without a template. -/
  fallback : String := ""
deriving DecidableEq, Inhabited

namespace Renderer

def templateKey (machine state : String) : String := machine ++ "." ++ state

def withTemplate (r : Renderer) (machine state text : String) : Renderer :=
  { r with templates := r.templates.insert (templateKey machine state) text }

def withMessage (r : Renderer) (tag text : String) : Renderer := { r with messages := r.messages.insert tag text }

def withFallback (r : Renderer) (text : String) : Renderer := { r with fallback := text }

variable {C : Type} [Context C]

/-- The message for the context's feedback tag. -/
def message (r : Renderer) (context : C) : String :=
  ((Context.feedback context).bind fun tag => r.messages.get? tag).getD ""

/-- The text of a state: its template, filled with the feedback message and the context's own values. -/
def render (r : Renderer) (machine state : String) (context : C) : String :=
  match r.templates.get? (templateKey machine state) with
  | none => r.fallback
  | some template =>
    interpolate template fun name =>
      if name = "feedback" then some (r.message context) else Context.placeholder context name

end Renderer

/-- A response to the transport. -/
structure Reply where
  text : String
  /-- The conversation ends with this response. -/
  terminate : Bool
deriving DecidableEq, Inhabited

/-- The response as it is sent: `CON` for a conversation that goes on, `END` for its end. -/
def Reply.frame (reply : Reply) : String := (if reply.terminate then "END" else "CON") ++ " " ++ reply.text

end DialMenu
