import DialMenu.Encoding
import DialMenu.Event
import DialMenu.Value

/-!
Contexts for trying out machines: a notebook that records what happens to it, and a context that holds
nothing but the feedback tag.
-/

namespace DialMenu.Rehearsal

structure Notebook where
  feedback : Option String := none
  notes : List String := []
  blocked : Bool := false
  data : Table String Value := .empty
deriving DecidableEq, Inhabited

/-- A context with a feedback tag and nothing else. -/
structure Bare where
  feedback : Option String := none
deriving DecidableEq, Inhabited

namespace Notebook

/-- Texts stand for themselves and integers for their numerals; nothing else can be shown. -/
def placeholder (n : Notebook) (name : String) : Option String :=
  match n.data.get? name with
  | some (.text s) => some s
  | some (.int i) => some (String.ofList (Numeral.ofInt i.toInt))
  | _ => none

instance : Context Notebook where
  feedback := feedback
  setFeedback tag n := { n with feedback := tag }
  placeholder := placeholder

def toJson (n : Notebook) : Json := .record [
  ("feedback", Json.ofOption .str n.feedback),
  ("notes", Json.ofList .str n.notes),
  ("blocked", .bool n.blocked),
  ("data", Json.ofEntries (fun name => name) Value.toJson n.data.entries)]

/-- Every field may be left out. -/
def ofJson : Json.Reader Notebook
  | 0, _ => none
  | d + 1, j => do
    let field ← Json.fields ["feedback", "notes", "blocked", "data"] j
    let feedback ← (field "feedback").orDefault none (Json.nullable Json.text d)
    let notes ← (field "notes").orDefault [] (Json.list Json.text d)
    let blocked ← (field "blocked").orDefault false (Json.boolean d)
    let data ← (field "data").orDefault .empty (Json.table some Value.ofJson d)
    pure { feedback, notes, blocked, data }

def encode (n : Notebook) : Bytes :=
  Wire.ofOption Wire.ofString n.feedback ++ Wire.ofList Wire.ofString n.notes ++ Wire.ofFlag n.blocked ++
    Wire.ofList (Wire.ofEntry Wire.ofString Value.encode) n.data.entries

def decode : Wire.Reader Notebook := do
  let feedback ← Wire.option Wire.string
  let notes ← Wire.list Wire.string
  let blocked ← Wire.flag
  let data ← Wire.table Wire.string Value.decode
  pure { feedback, notes, blocked, data }

instance : Encoded Notebook where
  toJson := toJson
  ofJson := ofJson
  encode := encode
  decode := decode

end Notebook

namespace Bare

instance : Context Bare where
  feedback := feedback
  setFeedback tag b := { b with feedback := tag }

def toJson (b : Bare) : Json := .record [("feedback", Json.ofOption .str b.feedback)]

def ofJson : Json.Reader Bare
  | 0, _ => none
  | d + 1, j => do
    let field ← Json.fields ["feedback"] j
    let feedback ← (field "feedback").optional (Json.text d)
    pure { feedback }

def encode (b : Bare) : Bytes := Wire.ofOption Wire.ofString b.feedback

def decode : Wire.Reader Bare := do
  let feedback ← Wire.option Wire.string
  pure { feedback }

instance : Encoded Bare where
  toJson := toJson
  ofJson := ofJson
  encode := encode
  decode := decode

end Bare

end DialMenu.Rehearsal
