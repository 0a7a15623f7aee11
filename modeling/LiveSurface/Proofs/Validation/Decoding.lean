import LiveSurface.Component.Definition
import LiveSurface.Message
import LiveSurface.Proofs.Validation.Lenient

/-!
# Messages and definitions, field by field

A message is what the fields of the body under its tag are by themselves (`Message.forms`): the
first tag that is there is picked, the body makes a message where its one required field passes its
check, and every other field stands for its default where it does not. A definition is read in the
same way, and its component is an object of one named entry (`decode_field_by_field`).
-/
namespace LiveSurface

open Validation

namespace Message

/-- What the fields of a body make by themselves under each tag; an earlier tag wins. -/
def forms : List (String × (Fields → Option Message)) :=
  [("beginRendering", fun body =>
      (given? "surfaceId" nonEmpty body).map fun id =>
        beginRendering id (givenOr "root" (nullable nonEmpty) none body)
          (givenOr "styles" (nullable (record Styles.read)) none body)),
    ("surfaceUpdate", fun body =>
      (given? "surfaceId" nonEmpty body).map fun id =>
        surfaceUpdate id (givenOr "components" anyList [] body)),
    ("dataModelUpdate", fun body =>
      (given? "surfaceId" nonEmpty body).map fun id =>
        dataModelUpdate id (givenOr "path" (nullable text) none body)
          (givenOr "contents" anyList [] body) (givenOr "value" (nullable object) none body)),
    ("userAction", fun body =>
      (given? "name" nonEmpty body).map fun name =>
        userAction name (givenOr "surfaceId" (nullable text) none body)
          (givenOr "sourceComponentId" (nullable text) none body)
          (givenOr "context" anyList [] body)),
    ("deleteSurface", fun body => (given? "surfaceId" nonEmpty body).map deleteSurface)]

/-- The fields that are read under a tag. -/
def fieldNames (tag : String) : List String :=
  match tag with
  | "beginRendering" => ["surfaceId", "root", "styles"]
  | "surfaceUpdate" => ["surfaceId", "components"]
  | "dataModelUpdate" => ["surfaceId", "path", "contents", "value"]
  | "userAction" => ["name", "surfaceId", "sourceComponentId", "context"]
  | "deleteSurface" => ["surfaceId"]
  | _ => []

/-- The field that a body must have under a tag. -/
def requiredField (tag : String) : String :=
  if tag = "userAction" then "name" else "surfaceId"

theorem leniently_readBeginRendering :
    ("beginRendering", leniently readBeginRendering) = forms[0] := by
  have parts := (((ByField.required "surfaceId" nonEmpty).map beginRendering).apply
    (.maybe "root" nonEmpty) (by simp)).apply (.maybe "styles" (record Styles.read)) (by simp)
  refine congrArg (Prod.mk _) (funext fun body => (parts.leniently_eq body).trans ?_)
  cases given? "surfaceId" nonEmpty body <;> rfl

theorem leniently_readSurfaceUpdate :
    ("surfaceUpdate", leniently readSurfaceUpdate) = forms[1] := by
  have parts := ((ByField.required "surfaceId" nonEmpty).map surfaceUpdate).apply
    (.optional "components" anyList []) (by simp)
  refine congrArg (Prod.mk _) (funext fun body => (parts.leniently_eq body).trans ?_)
  cases given? "surfaceId" nonEmpty body <;> rfl

theorem leniently_readDataModelUpdate :
    ("dataModelUpdate", leniently readDataModelUpdate) = forms[2] := by
  have parts := ((((ByField.required "surfaceId" nonEmpty).map dataModelUpdate).apply
    (.maybe "path" text) (by simp)).apply (.optional "contents" anyList []) (by simp)).apply
    (.maybe "value" object) (by simp)
  refine congrArg (Prod.mk _) (funext fun body => (parts.leniently_eq body).trans ?_)
  cases given? "surfaceId" nonEmpty body <;> rfl

theorem leniently_readUserAction :
    ("userAction", leniently readUserAction) = forms[3] := by
  have parts := ((((ByField.required "name" nonEmpty).map userAction).apply
    (.maybe "surfaceId" text) (by simp)).apply (.maybe "sourceComponentId" text) (by simp)).apply
    (.optional "context" anyList []) (by simp)
  refine congrArg (Prod.mk _) (funext fun body => (parts.leniently_eq body).trans ?_)
  cases given? "name" nonEmpty body <;> rfl

theorem leniently_readDeleteSurface :
    ("deleteSurface", leniently readDeleteSurface) = forms[4] := by
  have parts := (ByField.required "surfaceId" nonEmpty).map deleteSurface
  exact congrArg (Prod.mk _) (funext fun body => parts.leniently_eq body)

theorem variants_eq_forms :
    variants.map (fun variant => (variant.1, leniently variant.2)) = forms := by
  simp only [variants, List.map_cons, List.map_nil, leniently_readBeginRendering,
    leniently_readSurfaceUpdate, leniently_readDataModelUpdate, leniently_readUserAction,
    leniently_readDeleteSurface]
  rfl

/-- A message is what the body under the first tag makes. -/
theorem decode?_eq_some_iff {raw : Value} {m : Message} :
    decode? raw = some m ↔ ∃ fields form body, raw = .obj fields ∧
      forms.find? (fun form => Entries.has fields form.1) = some form ∧
      Entries.get? fields form.1 = some (.obj body) ∧ form.2 body = some m := by
  cases raw with
  | obj fields =>
    have picked : forms.find? (fun form => Entries.has fields form.1) =
        (variants.find? fun variant => Entries.has fields variant.1).map fun variant =>
          (variant.1, leniently variant.2) := by
      rw [← variants_eq_forms, List.find?_map]
      rfl
    simp only [decode?, picked, Option.map_eq_some_iff, Value.obj.injEq, exists_and_left,
      exists_eq_left']
    cases variants.find? fun variant => Entries.has fields variant.1 with
    | none => simp
    | some variant =>
      cases here : Entries.get? fields variant.1 with
      | none => simp [here]
      | some v => cases v <;> simp [here]
  | _ => simp [decode?]

theorem isSome_given?_nonEmpty {name : String} {body : Fields} :
    (given? name nonEmpty body).isSome ↔
      ∃ s, s ≠ "" ∧ Entries.get? body name = some (.str s) := by
  simp only [Option.isSome_iff_exists, given?_nonEmpty_eq_some_iff, and_comm]

/-- A body makes a message exactly if its required field is a text that is not empty. -/
theorem isSome_form {form : String × (Fields → Option Message)} (member : form ∈ forms)
    (body : Fields) :
    (form.2 body).isSome ↔
      ∃ s, s ≠ "" ∧ Entries.get? body (requiredField form.1) = some (.str s) := by
  rw [← isSome_given?_nonEmpty]
  simp only [forms, List.mem_cons, List.not_mem_nil, or_false] at member
  rcases member with rfl | rfl | rfl | rfl | rfl <;> simp [requiredField]

theorem tag_of_form {form : String × (Fields → Option Message)} (member : form ∈ forms)
    {body : Fields} (m : Message) (made : form.2 body = some m) : m.tag = form.1 := by
  simp only [forms, List.mem_cons, List.not_mem_nil, or_false] at member
  rcases member with rfl | rfl | rfl | rfl | rfl <;>
    obtain ⟨s, -, rfl⟩ := Option.map_eq_some_iff.mp made <;> rfl

/-- A form reads no other fields than those of its tag. -/
theorem form_congr {form : String × (Fields → Option Message)} (member : form ∈ forms)
    {body other : Fields}
    (same : ∀ name ∈ fieldNames form.1, Entries.get? body name = Entries.get? other name) :
    form.2 body = form.2 other := by
  simp only [forms, List.mem_cons, List.not_mem_nil, or_false] at member
  rcases member with rfl | rfl | rfl | rfl | rfl <;>
    simp only [fieldNames, List.forall_mem_cons] at same <;>
    simp only [givenOr, given?, same]

/-- The order of the entries does not decide which tag is picked. -/
theorem decode?_perm {fields others : Fields} (same : fields.Perm others)
    (distinct : fields.keys.Nodup) : decode? (.obj fields) = decode? (.obj others) := by
  have found := Entries.get?_perm same distinct
  have present : Entries.has fields = Entries.has others :=
    funext fun key => by rw [Entries.has, found, Entries.has]
  simp only [decode?, present, found]

end Message

namespace Definition

/-- The name and the properties of a component that has exactly one entry. -/
def single? : Fields → Option (String × Value)
  | [(kind, props)] => if kind = "" then none else some (kind, props)
  | _ => none

theorem single?_eq_some_iff {component : Fields} {kind : String} {props : Value} :
    single? component = some (kind, props) ↔ component = [(kind, props)] ∧ kind ≠ "" := by
  unfold single?
  split
  · next name value => split <;> grind
  · next other => simp_all

/-- The three fields of a definition. -/
def readFields (body : Fields) : Checked (String × Option Double × Fields) :=
  (fun id weight component => (id, weight, component)) <$> required "id" nonEmpty body
    <*> maybe "weight" real body <*> required "component" object body

/-- The definition of an identifier and a weight whose component has exactly one entry. -/
def settle : String × Option Double × Fields → Checked Definition
  | (id, weight, component) =>
    match single? component with
    | some (kind, props) => .valid ⟨id, weight, kind, props⟩
    | none => .refuse .valueError

theorem read_eq (body : Fields) : read body = (readFields body).andThen settle := by
  refine congrArg (Checked.andThen (readFields body)) (funext ?_)
  rintro ⟨id, weight, component⟩
  rcases component with _ | ⟨⟨kind, props⟩, _ | _⟩
  · rfl
  · by_cases empty : kind = "" <;> simp [settle, single?, empty]
  · rfl

theorem topField?_of_mem_settle (parts : String × Option Double × Fields) (c : Complaint)
    (member : c ∈ (settle parts).complaints) : c.topField? = none := by
  simp only [settle] at member
  split at member
  · cases member
  · obtain rfl := List.mem_singleton.mp member
    rfl

/-- A definition is what the fields of an object are by themselves. -/
theorem decode?_obj (body : Fields) :
    decode? (.obj body) =
      (given? "id" nonEmpty body).bind fun id =>
        ((given? "component" object body).bind single?).map fun component =>
          ⟨id, givenOr "weight" (nullable real) none body, component.1, component.2⟩ := by
  have parts : ByField _ readFields _ := (((ByField.required "id" nonEmpty).map
    fun id (weight : Option Double) (component : Fields) => (id, weight, component)).apply
    (.maybe "weight" real) (by simp)).apply (.required "component" object) (by simp)
  have fields := parts.leniently_andThen_eq settle topField?_of_mem_settle body
  rw [decode?, funext read_eq, fields]
  cases given? "id" nonEmpty body with
  | none => rfl
  | some id =>
    cases given? "component" object body with
    | none => rfl
    | some component =>
      simp only [Option.map_some, Option.bind_some, settle]
      cases single? component <;> rfl

/-- Definitions are the objects with a text that is not empty as identifier and an object with
exactly one entry, whose name is not empty, as component. -/
theorem decode?_eq_some_iff {raw : Value} {definition : Definition} :
    decode? raw = some definition ↔ ∃ body, raw = .obj body ∧
      (Entries.get? body "id" = some (.str definition.id) ∧ definition.id ≠ "") ∧
      (Entries.get? body "component" = some (.obj [(definition.kind, definition.props)]) ∧
        definition.kind ≠ "") ∧
      definition.weight = givenOr "weight" (nullable real) none body := by
  cases raw with
  | obj body =>
    obtain ⟨id, weight, kind, props⟩ := definition
    simp only [decode?_obj, Option.bind_eq_some_iff, Option.map_eq_some_iff, Definition.mk.injEq,
      Value.obj.injEq, exists_eq_left', given?_nonEmpty_eq_some_iff, given?_object_eq_some_iff,
      Prod.exists, single?_eq_some_iff]
    constructor
    · rintro ⟨_, named, _, _, ⟨_, found, rfl, kept⟩, rfl, rfl, rfl, rfl⟩
      exact ⟨named, ⟨found, kept⟩, rfl⟩
    · rintro ⟨named, ⟨found, kept⟩, rfl⟩
      exact ⟨id, named, kind, props, ⟨_, found, rfl, kept⟩, rfl, rfl, rfl, rfl⟩
  | _ => simp [decode?]

/-- What stands for the weight decides about the weight alone. -/
theorem decode?_set_weight (body : Fields) (v : Value) :
    decode? (.obj (Entries.set body "weight" v)) = (decode? (.obj body)).map fun definition =>
      { definition with weight := (nullable real v).toOption.getD none } := by
  have weight : givenOr "weight" (nullable real) none (Entries.set body "weight" v) =
      (nullable real v).toOption.getD none := by
    simp [givenOr, given?]
  have id : given? "id" nonEmpty (Entries.set body "weight" v) = given? "id" nonEmpty body := by
    simp [given?]
  have component : given? "component" object (Entries.set body "weight" v) =
      given? "component" object body := by
    simp [given?]
  rw [decode?_obj, decode?_obj, weight, id, component]
  cases given? "id" nonEmpty body with
  | none => rfl
  | some id => cases (given? "component" object body).bind single? <;> rfl

end Definition

/-- Messages and definitions are read field by field. A message is what the body under the first
tag that is there makes, in whatever order the entries stand: the body is an object whose required
field is a text that is not empty, and every other field is what it reads to by itself, or its
default where it is absent or invalid, whatever else the body holds. A definition is an object whose
identifier is a text that is not empty and whose component is an object with exactly one entry,
whose name is not empty; what stands for the weight decides about the weight alone. -/
theorem decode_field_by_field :
    (∀ raw m, Message.decode? raw = some m ↔ ∃ fields form body, raw = .obj fields ∧
      Message.forms.find? (fun form => Entries.has fields form.1) = some form ∧
      Entries.get? fields form.1 = some (.obj body) ∧ form.2 body = some m) ∧
    (∀ form ∈ Message.forms, ∀ body,
      ((form.2 body).isSome ↔ ∃ s, s ≠ "" ∧
        Entries.get? body (Message.requiredField form.1) = some (.str s)) ∧
      (∀ m, form.2 body = some m → m.tag = form.1) ∧
      ∀ other, (∀ name ∈ Message.fieldNames form.1,
        Entries.get? body name = Entries.get? other name) → form.2 body = form.2 other) ∧
    (∀ fields others : Fields, fields.Perm others → fields.keys.Nodup →
      Message.decode? (.obj fields) = Message.decode? (.obj others)) ∧
    (∀ raw definition, Definition.decode? raw = some definition ↔ ∃ body, raw = .obj body ∧
      (Entries.get? body "id" = some (.str definition.id) ∧ definition.id ≠ "") ∧
      (Entries.get? body "component" = some (.obj [(definition.kind, definition.props)]) ∧
        definition.kind ≠ "") ∧
      definition.weight = givenOr "weight" (nullable real) none body) ∧
    ∀ body v, Definition.decode? (.obj (Entries.set body "weight" v)) =
      (Definition.decode? (.obj body)).map fun definition =>
        { definition with weight := (nullable real v).toOption.getD none } :=
  ⟨fun _ _ => Message.decode?_eq_some_iff,
    fun _ member body => ⟨Message.isSome_form member body, Message.tag_of_form member,
      fun _ => Message.form_congr member⟩,
    fun _ _ => Message.decode?_perm, fun _ _ => Definition.decode?_eq_some_iff,
    Definition.decode?_set_weight⟩

/-- An update of components whose list is none, next to an unknown field and a later tag. -/
theorem decode_field_by_field_of_mixed :
    let body : Fields := [("surfaceId", .str "s"), ("components", .int 3), ("other", .null)]
    let sparse : Fields := [("components", .int 3), ("surfaceId", .str "s")]
    let fields : Fields := [("deleteSurface", .null), ("surfaceUpdate", .obj body)]
    let form := Message.forms[1]
    form ∈ Message.forms ∧
      (∀ name ∈ Message.fieldNames form.1, Entries.get? body name = Entries.get? sparse name) ∧
      fields.Perm fields.reverse ∧ fields.keys.Nodup ∧
      form.2 sparse = some (.surfaceUpdate "s" []) ∧
      Message.decode? (.obj fields.reverse) = some (.surfaceUpdate "s" []) := by
  intro body sparse fields form
  have member : form ∈ Message.forms := List.getElem_mem _
  have same : ∀ name ∈ Message.fieldNames form.1,
      Entries.get? body name = Entries.get? sparse name := by decide
  have turned : fields.Perm fields.reverse := fields.reverse_perm.symm
  have distinct : fields.keys.Nodup := by decide
  have made : form.2 body = some (.surfaceUpdate "s" []) := rfl
  obtain ⟨decoded, forms, ordered, -⟩ := decode_field_by_field
  refine ⟨member, same, turned, distinct, ?_, ?_⟩
  · rw [← (forms form member body).2.2 sparse same, made]
  · rw [← ordered fields fields.reverse turned distinct, decoded]
    exact ⟨fields, form, body, rfl, rfl, rfl, made⟩

end LiveSurface
