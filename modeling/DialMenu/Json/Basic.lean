/-!
JSON values as written. Members of an object keep their order and their repetitions, since what a
repetition means is for the reader of the object to say.
-/

namespace DialMenu

/-- What a string literal denotes. -/
inductive Json.Literal where
  | text (s : String)
  /-- An escaped half of a surrogate pair without the other half: no text. -/
  | unpaired
deriving DecidableEq, Inhabited

inductive Json where
  | null
  | bool (b : Bool)
  /-- A number without fraction and exponent, and not `-0`. -/
  | integer (n : Int)
  /-- Any other number. Nothing here takes one, so its value is not kept. -/
  | real
  | string (s : Json.Literal)
  | array (items : List Json)
  | object (members : List (Json.Literal × Json))
deriving Inhabited

namespace Json

def str (s : String) : Json := .string (.text s)

/-- An object with the given members, in this order. -/
def record (members : List (String × Json)) : Json :=
  .object (members.map fun (name, value) => (.text name, value))

mutual

/-- Arrays and objects around the deepest value. -/
def depth : Json → Nat
  | array items => depthItems items + 1
  | object members => depthMembers members + 1
  | _ => 0

def depthItems : List Json → Nat
  | [] => 0
  | item :: items => max item.depth (depthItems items)

def depthMembers : List (Literal × Json) → Nat
  | [] => 0
  | (_, value) :: members => max value.depth (depthMembers members)

end

end Json

end DialMenu
