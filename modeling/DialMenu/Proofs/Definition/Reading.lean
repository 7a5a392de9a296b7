import DialMenu.Definition.Json
import DialMenu.Proofs.Json.Spelling
import DialMenu.Proofs.Json.Variation

/-!
Reading a definition from its text. The text that is written for a definition is not the only one: fields may stand in
another order, fields that hold their default may be missing, fields that nobody knows may be there, and there may be
blanks between the words. Every such text is read as that definition.
-/

namespace DialMenu

open Json (Accepts accepts_text accepts_named accepts_nullable accepts_list accepts_table accepts_record)

theorem StateKind.ofName?_name (kind : StateKind) : ofName? kind.name = some kind := by
  cases kind <;> decide

theorem StateKind.name_inj {kind other : StateKind} : kind.name = other.name ↔ kind = other := by
  cases kind <;> cases other <;> decide

theorem Tag.ofName?_name (tag : Tag) : ofName? tag.name = some tag := by
  cases tag <;> decide

theorem EventKind.accepts (kind : EventKind) : Accepts ofJson 0 .fixed kind.toJson kind :=
  accepts_named kind.ofName?_name

theorem Tag.accepts (tag : Tag) : Accepts (Json.named ofName?) 0 .fixed (.str tag.name) tag :=
  accepts_named tag.ofName?_name

namespace Route

def fields : List Json.Field := [{ name := "target" }, .optional "guard", .list "actions"]

theorem accepts (route : Route) : Accepts ofJson 2 (.Record fields) route.toJson route := by
  have target := accepts_text route.target
  have guard := accepts_nullable nofun (fun _ => rfl) accepts_text route.guard
  have actions := accepts_list accepts_text route.actions
  refine accepts_record (by decide)
    (.cons ⟨rfl, target.self⟩ (.cons ⟨rfl, guard.self⟩ (.cons ⟨rfl, actions.self⟩ .nil))) ?_
  rintro d j' field enough read (_ | ⟨targetFound, _ | ⟨guardFound, _ | ⟨actionsFound, -⟩⟩⟩)
  have read : Json.fields ["target", "guard", "actions"] j' = some field := read
  simp [ofJson, read, targetFound.required rfl target (Nat.zero_le d), guardFound.optional nofun guard (Nat.zero_le d),
    actionsFound.list actions enough]

end Route

namespace Call

def fields : List Json.Field :=
  [{ name := "service" }, .list "on_done" (.Record Route.fields), .list "on_error" (.Record Route.fields)]

theorem accepts (call : Call) : Accepts ofJson 4 (.Record fields) call.toJson call := by
  have service := accepts_text call.service
  have onDone := accepts_list Route.accepts call.onDone
  have onError := accepts_list Route.accepts call.onError
  refine accepts_record (by decide)
    (.cons ⟨rfl, service.self⟩ (.cons ⟨rfl, onDone.self⟩ (.cons ⟨rfl, onError.self⟩ .nil))) ?_
  rintro d j' field enough read (_ | ⟨serviceFound, _ | ⟨doneFound, _ | ⟨errorFound, -⟩⟩⟩)
  have read : Json.fields ["service", "on_done", "on_error"] j' = some field := read
  simp [ofJson, read, serviceFound.required rfl service (Nat.zero_le d), doneFound.list onDone enough,
    errorFound.list onError enough]

end Call

namespace EntryRaise

def fields : List Json.Field := [{ name := "kind" }, .optional "feedback"]

theorem accepts (raise : EntryRaise) : Accepts ofJson 1 (.Record fields) raise.toJson raise := by
  have kind := raise.kind.accepts
  have feedback := accepts_nullable nofun (fun _ => rfl) accepts_text raise.feedback
  refine accepts_record (by decide) (.cons ⟨rfl, kind.self⟩ (.cons ⟨rfl, feedback.self⟩ .nil)) ?_
  rintro d j' field enough read (_ | ⟨kindFound, _ | ⟨feedbackFound, -⟩⟩)
  have read : Json.fields ["kind", "feedback"] j' = some field := read
  simp [ofJson, read, kindFound.required rfl kind enough, feedbackFound.optional nofun feedback enough]

end EntryRaise

namespace Definition

namespace State

def fields : List Json.Field := [
  { name := "kind", default := some (.str StateKind.normal.name) },
  .optional "description",
  .list "tags",
  .optional "raise" (.Record EntryRaise.fields),
  .optional "invoke" (.Record Call.fields),
  .table "on" (.Items (.Record Route.fields))]

theorem accepts (state : State) : Accepts ofJson 5 (.Record fields) state.toJson state := by
  have kind := accepts_named state.kind.ofName?_name
  have description := accepts_nullable nofun (fun _ => rfl) accepts_text state.description
  have tags := accepts_list Tag.accepts state.tags
  have raise := accepts_nullable nofun (by rintro (_ | d) <;> rfl) EntryRaise.accepts state.raise
  have call := accepts_nullable nofun (by rintro (_ | d) <;> rfl) Call.accepts state.call
  have on := accepts_table EventKind.ofName?_name (accepts_list Route.accepts) state.on
  refine accepts_record (by decide) (.cons ⟨rfl, kind.self⟩ (.cons ⟨rfl, description.self⟩ (.cons ⟨rfl, tags.self⟩
    (.cons ⟨rfl, raise.self⟩ (.cons ⟨rfl, call.self⟩ (.cons ⟨rfl, on.self⟩ .nil)))))) ?_
  rintro d j' field enough read (_ | ⟨kindFound, _ | ⟨descriptionFound, _ | ⟨tagsFound, _ | ⟨raiseFound,
    _ | ⟨callFound, _ | ⟨onFound, -⟩⟩⟩⟩⟩⟩)
  have read : Json.fields ["kind", "description", "tags", "raise", "invoke", "on"] j' = some field := read
  have normal (same : some (Json.str StateKind.normal.name) = some (.str state.kind.name)) : .normal = state.kind :=
    StateKind.name_inj.1 (Json.Literal.text.inj (Json.string.inj (Option.some.inj same)))
  have shallow : 1 ≤ d := by omega
  simp [ofJson, read, kindFound.orDefault normal kind (Nat.zero_le d),
    descriptionFound.optional nofun description (Nat.zero_le d), tagsFound.list tags shallow,
    raiseFound.optional nofun raise shallow, callFound.optional nofun call enough, onFound.table on enough]

end State

def fields : List Json.Field :=
  [{ name := "id" }, { name := "initial" }, { name := "states", inside := .Entries (.Record State.fields) }]

theorem accepts (definition : Definition) : Accepts ofJson 7 (.Record fields) definition.toJson definition := by
  have id := accepts_text definition.id
  have initial := accepts_text definition.initial
  have states := accepts_table (fun _ => rfl) State.accepts definition.states
  refine accepts_record (by decide)
    (.cons ⟨rfl, id.self⟩ (.cons ⟨rfl, initial.self⟩ (.cons ⟨rfl, states.self⟩ .nil))) ?_
  rintro d j' field enough read (_ | ⟨idFound, _ | ⟨initialFound, _ | ⟨statesFound, -⟩⟩⟩)
  have read : Json.fields ["id", "initial", "states"] j' = some field := read
  simp [ofJson, read, idFound.required rfl id (Nat.zero_le d), initialFound.required rfl initial (Nat.zero_le d),
    statesFound.required rfl states enough]

/-- The texts of a definition: those of every value that says the same as the one that is written for it. -/
def Spelled (definition : Definition) (s : String) : Prop :=
  ∃ j, Json.Variation.Record fields definition.toJson j ∧ j.Spells s

/-- A definition is read from each of its texts, and the one that is written for it is among them. -/
theorem read_eq_of_spelled (definition : Definition) :
    read definition.write = some definition ∧ definition.Spelled definition.write ∧
      ∀ s, definition.Spelled s → read s = some definition := by
  have texts (s : String) (spelled : definition.Spelled s) : read s = some definition := by
    obtain ⟨j, form, spells⟩ := spelled
    rw [read, Json.Reader.ofText, Json.read_of_spells spells]
    have deep : 7 ≤ Json.nesting := by decide
    exact definition.accepts.takes deep form
  have own : definition.Spelled definition.write := ⟨_, definition.accepts.self, Json.spells_write _⟩
  exact ⟨texts _ own, own, texts⟩

/-- A machine that ends with the first keystroke. -/
def brief : Definition where
  id := "pin"
  initial := "ask"
  states := ⟨[("ask", { on := ⟨[(.transit, [{ target := "end" }])], by decide⟩ }), ("end", { kind := .final })], by decide⟩

/-- A text for it: with a note, with the members the other way around, and without what holds its default. -/
def briefText : String :=
  "\x7b \"note\": [0.0],\n\"states\":\x7b\"end\":\x7b\"kind\":\"final\"\x7d," ++
    "\"ask\":\x7b\"on\":\x7b\"TRANSIT\":[\x7b\"target\":\"end\"\x7d]\x7d\x7d\x7d,\"initial\":\"ask\",\"id\":\"pin\"\x7d"

/-- The value of that text. -/
def briefForm : Json := .record [
  ("note", .array [.real]),
  ("states", .record [
    ("end", .record [("kind", .str "final")]),
    ("ask", .record [("on", .record [("TRANSIT", .array [.record [("target", .str "end")]])])])]),
  ("initial", .str "ask"),
  ("id", .str "pin")]

theorem toList_briefText :
    briefText.toList = Json.spread [[], [' '], [], [' '], [], [], [], ['\n']] briefForm.words := by
  decide +kernel

theorem form_briefForm : Json.Variation.Record fields brief.toJson briefForm := by
  have unknown (fields : List Json.Field) : ∀ e ∈ ([] : List (String × Json)), e.1 ∉ fields.map Json.Field.name :=
    fun _ mem => absurd mem List.not_mem_nil
  refine @Json.Variation.Record.intro _ _ [("id", .str "pin"), ("initial", .str "ask"), ("states", _)] [("note", _)] _
    (.given rfl (.given rfl (.given ?_ .nil))) (by decide) (List.reverse_perm _).symm
  refine .intro (.cons ⟨by rfl, ?ask⟩ (.cons ⟨by rfl, ?final⟩ .nil)) (.swap _ _ _)
  case ask =>
    refine .intro (.leftOut rfl (.leftOut rfl (.leftOut rfl (.leftOut rfl (.leftOut rfl (.given ?_ .nil)))))) (unknown _)
      (.refl _)
    refine .intro (.cons ⟨by rfl, .intro (.cons ?_ .nil)⟩ .nil) (.refl _)
    exact .intro (.given rfl (.leftOut rfl (.leftOut rfl .nil))) (unknown _) (.refl _)
  case final =>
    exact .intro (.given rfl (.leftOut rfl (.leftOut rfl (.leftOut rfl (.leftOut rfl (.leftOut rfl .nil))))))
      (unknown _) (.refl _)

theorem spelled_briefText : brief.Spelled briefText := by
  have blanks : ∀ cs ∈ [[], [' '], [], [' '], [], [], [], ['\n']], Json.Blank cs := by simp [Json.Blank]
  refine ⟨briefForm, form_briefForm, ?_⟩
  rw [Json.Spells, toList_briefText]
  exact Json.layout_spread blanks briefForm.words

theorem read_briefText : brief.Spelled briefText ∧ read briefText = some brief :=
  ⟨spelled_briefText, (read_eq_of_spelled brief).2.2 briefText spelled_briefText⟩

end Definition

end DialMenu
