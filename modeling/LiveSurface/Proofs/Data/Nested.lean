import LiveSurface.Proofs.Data.Parts
import LiveSurface.Proofs.Number.Numeral
import LiveSurface.Render.Pass

/-!
# Places inside nested lists

Below a list the data model is an element of bound data, and paths are read from there. Such a
place has a path of its own in the whole model: the bindings on the way, each followed by the index
or the key of the chosen element. What is read inside a nested list is what stands at this path,
with the inner path behind it (`read_nested`).
-/
namespace LiveSurface

namespace Path

/-- The segments of a text, where blanks at its ends count. -/
def pieces (text : List Char) : List String := ((parts text).filter (· ≠ [])).map String.ofList

theorem parts_ne_nil (text : List Char) : parts text ≠ [] := by
  cases text with
  | nil => exact List.cons_ne_nil _ _
  | cons c rest =>
    unfold parts
    split
    · exact List.cons_ne_nil _ _
    · split <;> exact List.cons_ne_nil _ _

theorem parts_append_slash (text more : List Char) :
    parts (text ++ '/' :: more) = parts text ++ parts more := by
  induction text with
  | nil => rfl
  | cons c rest ih =>
    cases split : parts rest with
    | nil => exact absurd split (parts_ne_nil rest)
    | cons part others =>
      by_cases slash : c = '/' <;> simp [parts, slash, ih, split]

theorem parts_of_no_slash {text : List Char} (plain : '/' ∉ text) : parts text = [text] := by
  induction text with
  | nil => rfl
  | cons c rest ih =>
    rw [List.mem_cons, not_or] at plain
    rw [parts, if_neg (Ne.symm plain.1), ih plain.2]

theorem pieces_append_slash (text more : List Char) :
    pieces (text ++ '/' :: more) = pieces text ++ pieces more := by
  simp [pieces, parts_append_slash]

theorem pieces_of_no_slash {s : String} (some' : s ≠ "") (plain : '/' ∉ s.toList) :
    pieces s.toList = [s] := by
  simp [pieces, parts_of_no_slash plain, some']

/-- A text without blanks at its ends. -/
def Trimmed (s : String) : Prop := Text.trim s = s

instance (s : String) : Decidable (Trimmed s) := inferInstanceAs (Decidable (_ = _))

theorem trimmed_iff {s : String} :
    Trimmed s ↔ (∀ c ∈ s.toList.head?, Text.isBlank c = false) ∧
      ∀ c ∈ s.toList.getLast?, Text.isBlank c = false := by
  rw [← Text.trimBy_eq_self_iff, Trimmed, Text.trim, ← String.toList_inj, String.toList_ofList]

theorem segments_of_trimmed {s : String} (trimmed : Trimmed s) :
    segments s = pieces s.toList := by
  have same : Text.trimBy Text.isBlank s.toList = s.toList :=
    Text.trimBy_eq_self_iff.mpr (trimmed_iff.mp trimmed)
  rw [segments, same, pieces]

theorem Trimmed.around {first last : String} (trimmed : Trimmed first) (trimmed' : Trimmed last)
    (some' : first ≠ "") (some'' : last ≠ "") (middle : String) :
    Trimmed (first ++ middle ++ last) := by
  have begins : first.toList ≠ [] := by simpa using some'
  have ends : last.toList ≠ [] := by simpa using some''
  rw [trimmed_iff] at trimmed trimmed' ⊢
  rw [String.toList_append, String.toList_append]
  constructor
  · rw [List.append_assoc, List.head?_append, Option.or_of_isSome (List.isSome_head?.mpr begins)]
    exact trimmed.1
  · rw [List.getLast?_append, Option.or_of_isSome (List.getLast?_isSome.mpr ends)]
    exact trimmed'.2

theorem Trimmed.append {first last : String} (trimmed : Trimmed first) (trimmed' : Trimmed last) :
    Trimmed (first ++ last) := by
  by_cases empty : first = ""
  · simpa [empty] using trimmed'
  · by_cases empty' : last = ""
    · simpa [empty'] using trimmed
    · simpa using trimmed.around trimmed' empty empty' ""

end Path

namespace Value

theorem wellFormed_of_inside {part v : Value} (inside : part.Inside v)
    (wellFormed : v.WellFormed) : part.WellFormed := by
  cases inside with
  | item member =>
    rw [WellFormed, wellFormedItems_iff] at wellFormed
    exact wellFormed _ member
  | field member =>
    rw [WellFormed, wellFormedFields_iff] at wellFormed
    exact wellFormed.2 _ member

theorem wellFormed_read {v : Value} (wellFormed : v.WellFormed) (segments : List String) :
    (v.read segments).WellFormed :=
  read_of_inside (by simp [WellFormed]) wellFormed_of_inside wellFormed segments

/-- An item of a list is found under the digits of its index, if there are not too many of them. -/
theorem child_toString {items : List Value} {index : Nat} {item : Value}
    (found : items[index]? = some item)
    (short : (toString index).length ≤ Numeral.maxDigits) :
    (Value.list items).child (toString index) = item := by
  simp only [child, Numeral.whole_toString short]
  simp [found]

/-- With distinct keys the value of a field is found under its key. -/
theorem child_key {fields : Fields} {key : String} {value : Value}
    (distinct : (Value.obj fields).WellFormed) (member : (key, value) ∈ fields) :
    (Value.obj fields).child key = value := by
  rw [WellFormed] at distinct
  simp [child, Entries.get?_of_mem distinct.1 member]

end Value

/-- A path that leads to a place from the root of a model, and below it with more text behind. -/
structure Value.Leads (model : Value) (way : String) (data : Value) : Prop where
  trimmed : Path.Trimmed way
  closed : ∀ more, Path.pieces (way.toList ++ more) = Path.pieces way.toList ++ Path.pieces more
  data : data = model.read (Path.pieces way.toList)

namespace Value.Leads

variable {model data : Value} {way : String}

theorem root (model : Value) : model.Leads "" model where
  trimmed := by decide
  closed _ := rfl
  data := rfl

theorem read (leads : model.Leads way data) {path : String} (trimmed : Path.Trimmed path) :
    data.read (Path.segments path) = model.read (Path.segments (way ++ path)) := by
  rw [Path.segments_of_trimmed (leads.trimmed.append trimmed), String.toList_append, leads.closed,
    Value.read_append, ← leads.data, Path.segments_of_trimmed trimmed]

/-- The segments of a path that goes on with a binding and the segment of an element. -/
theorem pieces_step (leads : model.Leads way data) (path : String) {segment : String}
    (some' : segment ≠ "") (plain : '/' ∉ segment.toList) (more : List Char) :
    Path.pieces ((way ++ path ++ "/" ++ segment ++ "/").toList ++ more) =
      Path.pieces way.toList ++ Path.pieces path.toList ++ [segment] ++ Path.pieces more := by
  have spelled : (way ++ path ++ "/" ++ segment ++ "/").toList ++ more =
      way.toList ++ (path.toList ++ '/' :: (segment.toList ++ '/' :: more)) := by
    simp
  rw [spelled, leads.closed, Path.pieces_append_slash, Path.pieces_append_slash,
    Path.pieces_of_no_slash some' plain]
  simp

/-- One element down: the path goes on with the binding and the segment of the element. -/
theorem step (leads : model.Leads way data) {path segment : String} (named : path ≠ "")
    (trimmed : Path.Trimmed path) (some' : segment ≠ "") (plain : '/' ∉ segment.toList) :
    model.Leads (way ++ path ++ "/" ++ segment ++ "/")
      ((data.read (Path.segments path)).child segment) := by
  have whole := leads.pieces_step path some' plain []
  rw [List.append_nil] at whole
  have nothing : Path.pieces [] = [] := rfl
  refine ⟨?_, ?_, ?_⟩
  · have front : way ++ path ≠ "" := by simp [named]
    have slash : Path.Trimmed "/" := by decide
    simpa [String.append_assoc] using
      (leads.trimmed.append trimmed).around slash front (by decide) ("/" ++ segment)
  · intro more
    rw [leads.pieces_step path some' plain more, whole, nothing, List.append_nil]
  · rw [whole, nothing, List.append_nil, Value.read_append, Value.read_append, ← leads.data,
      ← Path.segments_of_trimmed trimmed]
    rfl

end Value.Leads

theorem toString_no_slash (n : Nat) : toString n ≠ "" ∧ '/' ∉ (toString n).toList := by
  constructor
  · intro empty
    exact Text.toString_ne_nil n (by rw [empty]; rfl)
  · intro member
    exact absurd (Text.isDigit_of_mem_toString member) (by decide)

namespace Template

variable {template : Template}

theorem bound_eq {path : String} (binding : template.dataBinding = some path) (named : path ≠ "")
    (data : Value) : template.bound data = data.read (Path.segments path) := by
  simp only [bound, binding, if_neg named]

/-- The segment of a path that leads to an element of the bound data: in a list the digits of the
index, which are more than are read only for lists beyond any memory, and in an object a key that
can stand in a path. -/
inductive Names (template : Template) (data : Value) : Nat → String → Prop
  | index {items : List Value} {n : Nat} (bound : template.bound data = .list items)
    (short : (toString n).length ≤ Numeral.maxDigits) : Names template data n (toString n)
  | key {fields : Fields} {n : Nat} {key : String} (bound : template.bound data = .obj fields)
    (keyed : fields.keys[n]? = some key) (some' : key ≠ "") (plain : '/' ∉ key.toList) :
    Names template data n key

theorem Names.plain {data : Value} {n : Nat} {segment : String}
    (names : template.Names data n segment) : segment ≠ "" ∧ '/' ∉ segment.toList := by
  cases names with
  | index bound short => exact toString_no_slash n
  | key bound keyed some' plain => exact ⟨some', plain⟩

end Template

namespace Pass

variable {template : Template} {ids : Option (List String)} {scope : Scope}
  {row : List (String × Scope)}

/-- The children of a list over a bound list: one for each item, in order. -/
theorem listScopes?_of_items {items : List Value} (bound : template.bound scope.data = .list items)
    (ids : Option (List String)) :
    listScopes? (some ⟨ids, some template⟩) scope =
      some (items.map fun item => (template.componentId, { scope with data := item })) := by
  simp only [listScopes?, Template.listChildren?, Template.items?, bound, Option.map_some,
    List.map_map]
  rfl

/-- The children of a list over a bound object: one for each field, in the order of the keys. -/
theorem listScopes?_of_fields {fields : Fields} (bound : template.bound scope.data = .obj fields)
    (ids : Option (List String)) :
    listScopes? (some ⟨ids, some template⟩) scope =
      some (fields.map fun field => (template.componentId, { scope with data := field.2 })) := by
  simp only [listScopes?, Template.listChildren?, Template.items?, bound, Option.map_some,
    List.map_map]
  rfl

/-- The data model of a child is the element that its segment leads to. -/
theorem data_of_names (children : listScopes? (some ⟨ids, some template⟩) scope = some row)
    (wellFormed : (template.bound scope.data).WellFormed) {n : Nat} {inner : Scope}
    (chosen : row[n]? = some (template.componentId, inner)) {segment : String}
    (names : template.Names scope.data n segment) :
    inner.data = (template.bound scope.data).child segment := by
  cases names with
  | index bound short =>
    cases children.symm.trans (listScopes?_of_items bound ids)
    rw [List.getElem?_map, Option.map_eq_some_iff] at chosen
    obtain ⟨item, found, same⟩ := chosen
    cases same
    rw [bound, Value.child_toString found short]
  | key bound keyed some' plain =>
    cases children.symm.trans (listScopes?_of_fields bound ids)
    rw [List.getElem?_map, Option.map_eq_some_iff] at chosen
    obtain ⟨⟨key, value⟩, found, same⟩ := chosen
    cases same
    rw [Entries.keys, List.getElem?_map, found, Option.map_some, Option.some.injEq] at keyed
    subst keyed
    rw [bound] at wellFormed ⊢
    exact (Value.child_key wellFormed (List.mem_of_getElem? found)).symm

end Pass

/-- A place inside nested lists with its path: the bindings on the way to it, each followed by the
index or the key of the element that was chosen there. -/
inductive Nested (model : Value) : String → Scope → Prop
  | root (trail : List String) : Nested model "" ⟨model, trail⟩
  | enter {way : String} {scope : Scope} (outer : Nested model way scope) (id : String) :
    Nested model way (scope.enter id)
  | element {way path segment : String} {scope inner : Scope} {template : Template}
    {ids : Option (List String)} {row : List (String × Scope)} {n : Nat}
    (outer : Nested model way scope) (binding : template.dataBinding = some path)
    (named : path ≠ "") (trimmed : Path.Trimmed path)
    (children : Pass.listScopes? (some ⟨ids, some template⟩) scope = some row)
    (chosen : row[n]? = some (template.componentId, inner))
    (names : template.Names scope.data n segment) :
    Nested model (way ++ path ++ "/" ++ segment ++ "/") inner

namespace Nested

variable {model : Value} {way : String} {scope : Scope}

/-- The path of a place leads there. -/
theorem leads (nested : Nested model way scope) (wellFormed : model.WellFormed) :
    model.Leads way scope.data := by
  induction nested with
  | root trail => exact .root model
  | enter _ id ih => exact ih
  | element _ binding named trimmed children chosen names ih =>
    have next := ih.step named trimmed names.plain.1 names.plain.2
    rw [← Template.bound_eq binding named] at next
    rw [Pass.data_of_names children ?_ chosen names]
    · exact next
    · rw [Template.bound_eq binding named, ih.data]
      exact Value.wellFormed_read (Value.wellFormed_read wellFormed _) _

end Nested

/-- What a place inside nested lists reads. Its data model is what stands in the whole model at the
path of the place, and a descriptor with a path has there the value that the whole model has at both
paths together. A list at the place has one child for each element of what it is bound to, with the
element as its data model, in the order of the items or of the keys. -/
theorem read_nested {model : Value} (wellFormed : model.WellFormed) {way : String} {scope : Scope}
    (nested : Nested model way scope) :
    scope.data = model.read (Path.segments way) ∧
    (∀ path, Path.Trimmed path →
      Binding.resolve (.obj [("path", .str path)]) scope.data =
        model.read (Path.segments (way ++ path))) ∧
    ∀ template ids,
      (∀ items, template.bound scope.data = .list items →
        Pass.listScopes? (some ⟨ids, some template⟩) scope =
          some (items.map fun item => (template.componentId, { scope with data := item }))) ∧
      ∀ fields, template.bound scope.data = .obj fields →
        Pass.listScopes? (some ⟨ids, some template⟩) scope =
          some (fields.map fun field =>
            (template.componentId, { scope with data := field.2 })) := by
  have leads := nested.leads wellFormed
  refine ⟨?_, ?_, ?_⟩
  · rw [Path.segments_of_trimmed leads.trimmed]
    exact leads.data
  · intro path trimmed
    exact leads.read trimmed
  · intro template ids
    exact ⟨fun items bound => Pass.listScopes?_of_items bound ids,
      fun fields bound => Pass.listScopes?_of_fields bound ids⟩

/-- In the second row of a group whose key begins and ends with a blank. -/
theorem read_nested_of_rows :
    let rows : Value := .list [.obj [("name", .str "a")], .obj [("name", .str "b")]]
    let group : Value := .obj [("rows", rows)]
    let model : Value := .obj [("groups", .obj [("other", .null), (" first ", group)])]
    let scope : Scope := ⟨.obj [("name", .str "b")], ["list", "group"]⟩
    let way := "" ++ "/groups" ++ "/" ++ " first " ++ "/" ++ "rows" ++ "/" ++ toString 1 ++ "/"
    model.WellFormed ∧ Nested model way scope ∧ Path.Trimmed "name" ∧
      scope.data = model.read (Path.segments way) ∧
      model.read (Path.segments (way ++ "name")) = .str "b" := by
  intro rows group model scope way
  have wellFormed : model.WellFormed := by
    simp [model, group, rows, Value.WellFormed, Value.WellFormedFields, Value.WellFormedItems]
  let outer : Template := ⟨"group", some "/groups"⟩
  let inner : Template := ⟨"row", some "rows"⟩
  let groups : List (String × Scope) :=
    [("group", ⟨.null, ["list"]⟩), ("group", ⟨group, ["list"]⟩)]
  let members : List (String × Scope) :=
    [("row", ⟨.obj [("name", .str "a")], ["list", "group"]⟩), ("row", scope)]
  have start : Nested model "" ⟨model, ["list"]⟩ := (Nested.root []).enter "list"
  have children : Pass.listScopes? (some ⟨none, some outer⟩) ⟨model, ["list"]⟩ = some groups :=
    ((read_nested wellFormed start).2.2 outer none).2 _ rfl
  have chosen : groups[1]? = some (outer.componentId, ⟨group, ["list"]⟩) := rfl
  have chosen' : members[1]? = some (inner.componentId, scope) := rfl
  have names : outer.Names model 1 " first " := .key rfl rfl (by decide) (by decide)
  have names' : inner.Names group 1 (toString 1) := .index rfl (by decide)
  have place : Nested model ("" ++ "/groups" ++ "/" ++ " first " ++ "/") ⟨group, ["list"]⟩ :=
    .element start rfl (by decide) (by decide) children chosen names
  have children' : Pass.listScopes? (some ⟨none, some inner⟩) ⟨group, ["list", "group"]⟩ =
      some members :=
    ((read_nested wellFormed (place.enter "group")).2.2 inner none).1 _ rfl
  have nested : Nested model way scope :=
    .element (place.enter "group") rfl (by decide) (by decide) children' chosen' names'
  have trimmed : Path.Trimmed "name" := by decide
  obtain ⟨data, read, -⟩ := read_nested wellFormed nested
  exact ⟨wellFormed, nested, trimmed, data, (read "name" trimmed).symm⟩

end LiveSurface
