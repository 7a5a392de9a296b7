import DialMenu.Template
import Mathlib.Data.List.TakeWhile

/-!
Templates cut into literals and placeholders. A template is cut in one way, and filling it puts a text in the place of
each placeholder and leaves the literals as they are.
-/

namespace DialMenu

namespace Template

/-- A text in pieces: literals, and the names of the placeholders between them. -/
inductive Cut where
  | last (literal : String)
  | hole (literal name : String) (rest : Cut)
deriving DecidableEq

/-- A name as a placeholder. -/
def placeholder (name : String) : String := "\x7b" ++ name ++ "\x7d"

namespace Cut

/-- The literals, with a text in the place of each placeholder. -/
def assemble (text : String → String) : Cut → String
  | last literal => literal
  | hole literal name rest => literal ++ text name ++ rest.assemble text

/-- The template that is cut. -/
def written (cut : Cut) : String := cut.assemble placeholder

/-- The template with the values that are known. A placeholder without a value stays. -/
def filled (value : String → Option String) (cut : Cut) : String :=
  cut.assemble fun name => (value name).getD (placeholder name)

/-- The names of the placeholders. -/
def names : Cut → List String
  | last _ => []
  | hole _ name rest => name :: rest.names

/-- The literal behind the last placeholder. -/
def ending : Cut → String
  | last literal => literal
  | hole _ _ rest => rest.ending

/-- No brace is opened in a literal before a placeholder, and none is closed in a name. In the last literal no brace is
closed behind the first one that is opened. -/
inductive Exact : Cut → Prop
  | last {literal : String} : '\x7d' ∉ literal.toList.dropWhile (· ≠ '\x7b') → Exact (.last literal)
  | hole {literal name : String} {rest : Cut} : '\x7b' ∉ literal.toList → '\x7d' ∉ name.toList → Exact rest →
      Exact (.hole literal name rest)

theorem assemble_congr {text text' : String → String} {cut : Cut} (same : ∀ name ∈ cut.names, text name = text' name) :
    cut.assemble text = cut.assemble text' := by
  induction cut with
  | last => rfl
  | hole literal name rest ih =>
    obtain ⟨here, later⟩ := List.forall_mem_cons.1 same
    rw [assemble, assemble, here, ih later]

theorem toList_written_hole (literal name : String) (rest : Cut) : (hole literal name rest).written.toList =
    literal.toList ++ '\x7b' :: (name.toList ++ '\x7d' :: rest.written.toList) := by
  simp [written, assemble, placeholder]

theorem dropWhile_append_cons {c : Char} {front : List Char} (off : c ∉ front) (rest : List Char) :
    (front ++ c :: rest).dropWhile (· ≠ c) = c :: rest := by
  have passed : ∀ a ∈ front, decide (a ≠ c) = true := fun a mem => decide_eq_true fun same => off (same ▸ mem)
  rw [List.dropWhile_append_of_pos passed, List.dropWhile_cons_of_neg (by simp)]

/-- Where a character comes first is where a text is divided. -/
theorem eq_of_append_cons_eq {c : Char} {front front' rest rest' : List Char} (off : c ∉ front) (off' : c ∉ front')
    (same : front ++ c :: rest = front' ++ c :: rest') : front = front' ∧ rest = rest' := by
  have behind : c :: rest = c :: rest' := by
    rw [← dropWhile_append_cons off rest, same, dropWhile_append_cons off' rest']
  rw [behind] at same
  exact ⟨List.append_cancel_right same, (List.cons.inj behind).2⟩

namespace Exact

/-- There is no placeholder in the last literal. -/
theorem ne_hole {literal front name : String} {rest : Cut} (exact : (Cut.last literal).Exact)
    (free : '\x7b' ∉ front.toList) : literal ≠ (Cut.hole front name rest).written := by
  rintro rfl
  cases exact with
  | last unclosed =>
    rw [toList_written_hole, dropWhile_append_cons free] at unclosed
    simp at unclosed

/-- No text is cut in two ways. -/
theorem unique {cut cut' : Cut} (exact : cut.Exact) (exact' : cut'.Exact) (same : cut.written = cut'.written) :
    cut = cut' := by
  induction exact generalizing cut' with
  | @last literal unclosed =>
    cases exact' with
    | last => exact congrArg Cut.last same
    | hole free => exact absurd same (ne_hole (.last unclosed) free)
  | @hole literal name rest free closed _ ih =>
    cases exact' with
    | last unclosed => exact absurd same.symm (ne_hole (.last unclosed) free)
    | @hole literal' name' rest' free' closed' exact' =>
      have texts := congrArg String.toList same
      rw [toList_written_hole, toList_written_hole] at texts
      obtain ⟨literals, behind⟩ := eq_of_append_cons_eq free free' texts
      obtain ⟨names, rests⟩ := eq_of_append_cons_eq closed closed' behind
      rw [String.toList_inj.1 literals, String.toList_inj.1 names, ih exact' (String.toList_inj.1 rests)]

end Exact

/-- Every text can be cut: at the first brace that is opened and closed again, and then behind it. -/
theorem exists_exact (cs : List Char) : ∃ cut : Cut, cut.Exact ∧ cut.written.toList = cs := by
  induction long : cs.length using Nat.strongRecOn generalizing cs with
  | ind length ih =>
    by_cases opened : '\x7b' ∈ cs
    · obtain ⟨literal, behind, rfl, free⟩ := List.eq_append_cons_of_mem opened
      by_cases shut : '\x7d' ∈ behind
      · obtain ⟨name, after, rfl, closed⟩ := List.eq_append_cons_of_mem shut
        obtain ⟨rest, exact, text⟩ := ih after.length (by simp at long; omega) after rfl
        refine ⟨.hole (String.ofList literal) (String.ofList name) rest, .hole ?_ ?_ exact, ?_⟩
        · rwa [String.toList_ofList]
        · rwa [String.toList_ofList]
        · rw [toList_written_hole, String.toList_ofList, String.toList_ofList, text]
      · refine ⟨.last (String.ofList (literal ++ '\x7b' :: behind)), .last ?_, String.toList_ofList⟩
        rw [String.toList_ofList, dropWhile_append_cons free]
        simp [shut]
    · refine ⟨.last (String.ofList cs), .last ?_, String.toList_ofList⟩
      have passed : cs.dropWhile (· ≠ '\x7b') = [] :=
        List.dropWhile_eq_nil_iff.2 fun c mem => decide_eq_true fun same => opened (same ▸ mem)
      rw [String.toList_ofList, passed]
      exact List.not_mem_nil

end Cut

variable {value : String → Option String}

theorem fill_append {literal : List Char} (free : '\x7b' ∉ literal) (rest : List Char) :
    fill value (literal ++ rest) = literal ++ fill value rest := by
  induction literal with
  | nil => rfl
  | cons c cs ih =>
    obtain ⟨other, later⟩ := not_or.1 (mt List.mem_cons.2 free)
    rw [List.cons_append, fill, if_neg (Ne.symm other), ih later, List.cons_append]

theorem fillName_append {name : List Char} (closed : '\x7d' ∉ name) (before rest : List Char) :
    fillName value before (name ++ rest) = fillName value (name.reverse ++ before) rest := by
  induction name generalizing before with
  | nil => rfl
  | cons c cs ih =>
    obtain ⟨other, later⟩ := not_or.1 (mt List.mem_cons.2 closed)
    rw [List.cons_append, fillName, if_neg (Ne.symm other), ih later]
    simp

/-- A literal stays, a placeholder gives way to its text, and the rest is filled from behind it. -/
theorem fill_hole {literal name : String} (free : '\x7b' ∉ literal.toList) (closed : '\x7d' ∉ name.toList)
    (rest : List Char) :
    fill value (literal.toList ++ '\x7b' :: (name.toList ++ '\x7d' :: rest)) =
      literal.toList ++ ((value name).getD (placeholder name)).toList ++ fill value rest := by
  rw [fill_append free, fill, if_pos rfl, fillName_append closed, fillName, if_pos rfl, List.append_nil,
    List.reverse_reverse, String.ofList_toList, List.append_assoc]
  cases value name with
  | some text => rfl
  | none => simp [placeholder]

/-- The last literal stays as it is, also with a brace that is never closed. -/
theorem fill_last {literal : String} (unclosed : '\x7d' ∉ literal.toList.dropWhile (· ≠ '\x7b')) :
    fill value literal.toList = literal.toList := by
  by_cases opened : '\x7b' ∈ literal.toList
  · obtain ⟨front, behind, text, free⟩ := List.eq_append_cons_of_mem opened
    rw [text, Cut.dropWhile_append_cons free] at unclosed
    have open' := @fillName_append value _ (not_or.1 (mt List.mem_cons.2 unclosed)).2 [] []
    rw [text, fill_append free, fill, if_pos rfl]
    simp only [List.append_nil] at open'
    rw [open', fillName, List.reverse_reverse]
  · have plain := @fill_append value _ opened []
    rwa [List.append_nil, fill, List.append_nil] at plain

theorem fill_written {cut : Cut} (exact : cut.Exact) : fill value cut.written.toList = (cut.filled value).toList := by
  induction exact with
  | last unclosed => exact fill_last unclosed
  | hole free closed _ ih =>
    rw [Cut.toList_written_hole, fill_hole free closed, ih]
    simp [Cut.filled, Cut.assemble]

/-- What stands behind a text that ends without an open brace is filled by itself. -/
theorem fill_written_append {cut : Cut} (exact : cut.Exact) (free : '\x7b' ∉ cut.ending.toList) (rest : List Char) :
    fill value (cut.written.toList ++ rest) = (cut.filled value).toList ++ fill value rest := by
  induction exact with
  | last => exact fill_append free rest
  | @hole literal name more free' closed _ ih =>
    have text : (Cut.hole literal name more).written.toList ++ rest =
        literal.toList ++ '\x7b' :: (name.toList ++ '\x7d' :: (more.written.toList ++ rest)) := by
      rw [Cut.toList_written_hole]
      simp
    rw [text, fill_hole free' closed, ih free]
    simp [Cut.filled, Cut.assemble]

end Template

open Template

theorem interpolate_written {cut : Cut} (exact : cut.Exact) (value : String → Option String) :
    interpolate cut.written value = cut.filled value := by
  rw [interpolate, fill_written exact, String.ofList_toList]

variable {C : Type} [Context C]

/-- The texts that a renderer has for placeholders: always one for the feedback, which is empty without a tag and
without a message for the tag, and for any other name what the context says. -/
def Renderer.valueOf (r : Renderer) (context : C) (name : String) : Option String :=
  if name = "feedback" then
    match Context.feedback context with
    | some tag => some ((r.messages.get? tag).getD "")
    | none => some ""
  else Context.placeholder context name

theorem Renderer.render_eq {r : Renderer} {machine state template : String}
    (registered : r.templates.get? (templateKey machine state) = some template) (context : C) :
    r.render machine state context = interpolate template (r.valueOf context) := by
  have values : (fun name => if name = "feedback" then some (r.message context) else Context.placeholder context name) =
      r.valueOf context := by
    funext name
    unfold valueOf message
    cases Context.feedback context <;> rfl
  rw [render, registered, ← values]

/-- A template is cut in one way, and filling it fills that cut: literals stay, and each placeholder gives way to its
value. Only the values of its own names matter, whatever else stands in braces in a value; what follows a template that
ends without an open brace is filled by itself; and without values the template stays as it is. A registered template is
rendered with a text for the feedback and the values of the context. -/
theorem interpolate_exact (template : String) (value : String → Option String) (r : Renderer) (machine state : String)
    (context : C) :
    (∃! cut : Cut, cut.Exact ∧ cut.written = template) ∧
      (∀ cut : Cut, cut.Exact → cut.written = template →
        interpolate template value = cut.filled value ∧
          (∀ other, (∀ name ∈ cut.names, other name = value name) →
            interpolate template other = interpolate template value) ∧
          ('\x7b' ∉ cut.ending.toList → ∀ behind,
            interpolate (template ++ behind) value = interpolate template value ++ interpolate behind value) ∧
          (r.templates.get? (Renderer.templateKey machine state) = some template →
            r.render machine state context = cut.filled (r.valueOf context))) ∧
      interpolate template (fun _ => none) = template := by
  obtain ⟨cut, exact, text⟩ := Cut.exists_exact template.toList
  obtain rfl := String.toList_inj.1 text
  refine ⟨⟨cut, ⟨exact, rfl⟩, fun other ⟨exact', same⟩ => exact'.unique exact same⟩, ?_, interpolate_written exact _⟩
  intro cut' exact' same
  obtain rfl := exact'.unique exact same
  refine ⟨interpolate_written exact value, fun other alike => ?_, fun free behind => ?_, fun registered => ?_⟩
  · rw [interpolate_written exact, interpolate_written exact]
    exact Cut.assemble_congr fun name mem => by rw [alike name mem]
  · rw [interpolate_written exact, interpolate, String.toList_append, fill_written_append exact free,
      String.ofList_append, String.ofList_toList]
    rfl
  · rw [Renderer.render_eq registered, interpolate_written exact]

/-- A value with a placeholder in it is put in as it is. -/
example : interpolate "\x7bto\x7d: \x7bsum\x7d" (fun name => if name = "to" then some "\x7bsum\x7d" else some "7") =
    "\x7bsum\x7d: 7" := by cbv

end DialMenu
