import DialMenu.Json.Token

/-!
JSON text as a whole. A value is written as its words without blanks between them. It is read in one pass
over the words, which keeps the arrays and objects that are still open on a stack.
-/

namespace DialMenu.Json

mutual

/-- The words of a value. -/
def words : Json → List Token
  | null => [.null]
  | bool b => [.bool b]
  | integer n => [.integer n]
  | real => [.real]
  | string s => [.string s]
  | array [] => [.openBracket, .closeBracket]
  | array (item :: items) => .openBracket :: (words item ++ wordsOfItems items)
  | object [] => [.openBrace, .closeBrace]
  | object ((key, value) :: members) =>
    .openBrace :: .string key :: .colon :: (words value ++ wordsOfMembers members)

/-- The words after an item: the other items, and the end of the array. -/
def wordsOfItems : List Json → List Token
  | [] => [.closeBracket]
  | item :: items => .comma :: (words item ++ wordsOfItems items)

/-- The words after a member: the other members, and the end of the object. -/
def wordsOfMembers : List (Literal × Json) → List Token
  | [] => [.closeBrace]
  | (key, value) :: members => .comma :: .string key :: .colon :: (words value ++ wordsOfMembers members)

end

/-- The text of a value, without blanks. -/
def write (j : Json) : String := String.ofList (j.words.flatMap Token.spelling)

/-- An array or object that is still open, with what came before in reverse order. -/
inductive Open where
  | array (before : List Json)
  | object (before : List (Literal × Json)) (key : Literal)

/-- What may come next. -/
inductive Expectation where
  /-- A value, or directly after the opening bracket also the closing one. -/
  | value (first : Bool)
  /-- A key, or directly after the opening brace also the closing one. -/
  | key (first : Bool) (before : List (Literal × Json))
  | colon (before : List (Literal × Json)) (key : Literal)
  /-- Whatever may follow the value that is now complete. -/
  | rest (done : Json)

/-- Reads on with the words that are left. -/
def resume : Expectation → List Open → List Token → Option Json
  | .rest done, [], [] => some done
  | .rest done, .array before :: outer, .comma :: ts => resume (.value false) (.array (done :: before) :: outer) ts
  | .rest done, .array before :: outer, .closeBracket :: ts =>
    resume (.rest (array (done :: before).reverse)) outer ts
  | .rest done, .object before key :: outer, .comma :: ts => resume (.key false ((key, done) :: before)) outer ts
  | .rest done, .object before key :: outer, .closeBrace :: ts =>
    resume (.rest (object ((key, done) :: before).reverse)) outer ts
  | .key _ before, outer, .string key :: ts => resume (.colon before key) outer ts
  | .key true _, outer, .closeBrace :: ts => resume (.rest (object [])) outer ts
  | .colon before key, outer, .colon :: ts => resume (.value false) (.object before key :: outer) ts
  | .value true, .array _ :: outer, .closeBracket :: ts => resume (.rest (array [])) outer ts
  | .value _, outer, .openBracket :: ts => resume (.value true) (.array [] :: outer) ts
  | .value _, outer, .openBrace :: ts => resume (.key true []) outer ts
  | .value _, outer, .null :: ts => resume (.rest null) outer ts
  | .value _, outer, .bool b :: ts => resume (.rest (bool b)) outer ts
  | .value _, outer, .integer n :: ts => resume (.rest (integer n)) outer ts
  | .value _, outer, .real :: ts => resume (.rest real) outer ts
  | .value _, outer, .string s :: ts => resume (.rest (string s)) outer ts
  | _, _, _ => none

/-- The value that the words spell, if they spell exactly one. -/
def ofWords (ts : List Token) : Option Json := resume (.value false) [] ts

/-- Reads a text that holds one value and nothing else but blanks. -/
def read (s : String) : Option Json := tokens s.toList >>= ofWords

end DialMenu.Json
