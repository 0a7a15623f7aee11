import LiveSurface.Data.Path

/-!
# Putting and reading

An update and a reading at paths into a data model form a lens. What was put at a path is read back
at and below it, the way to it consists of objects, and a reading that leaves this way finds what
the old model holds there, as long as the two went through objects together
(`updateModel_updated`). Readings go into lists, and updates do not: a list on the way to an update
gives way to an object.
-/
namespace LiveSurface

namespace Value

/-- An object of any fields. -/
def IsObject (v : Value) : Prop := ∃ fields, v = .obj fields

/-- A field of an object, null of anything else; unlike a step of a reading it does not go into
lists. -/
def field (v : Value) (segment : String) : Value :=
  (Entries.get? v.fieldsOrNone segment).getD .null

/-- Puts a value at a place; whatever is no object on the way becomes one. -/
def put (v : Value) (segments : List String) (new : Value) : Value :=
  match segments with
  | [] => new
  | segment :: rest =>
    .obj (Entries.set v.fieldsOrNone segment ((v.field segment).put rest new))

theorem IsObject.field_eq {v : Value} (object : v.IsObject) (segment : String) :
    v.field segment = v.child segment := by
  obtain ⟨fields, rfl⟩ := object
  rfl

theorem field_of_not_isObject {v : Value} (other : ¬ v.IsObject) (segment : String) :
    v.field segment = .null := by
  cases v with
  | obj fields => exact absurd ⟨fields, rfl⟩ other
  | _ => rfl

theorem not_isObject_null : ¬ Value.null.IsObject := by
  rintro ⟨fields, same⟩
  cases same

theorem put_isObject (v : Value) (segment : String) (rest : List String) (new : Value) :
    (v.put (segment :: rest) new).IsObject := ⟨_, rfl⟩

@[simp] theorem child_put (v : Value) (segment other : String) (rest : List String)
    (new : Value) :
    (v.put (segment :: rest) new).child other =
      if segment = other then (v.field segment).put rest new else v.field other := by
  simp only [put, child, Entries.get?_set]
  split <;> rfl

/-- What was put at a place is read back there and below. -/
theorem read_put_append (v new : Value) (p rest : List String) :
    (v.put p new).read (p ++ rest) = new.read rest := by
  induction p generalizing v with
  | nil => rfl
  | cons segment p ih =>
    rw [List.cons_append, read_cons, child_put, if_pos rfl]
    exact ih (v.field segment)

/-- The way to a place where something was put consists of objects. -/
theorem isObject_read_put (v new : Value) (way : List String) (segment : String)
    (rest : List String) : ((v.put (way ++ segment :: rest) new).read way).IsObject := by
  induction way generalizing v with
  | nil => exact put_isObject v segment rest new
  | cons first way ih =>
    rw [List.cons_append, read_cons, child_put, if_pos rfl]
    exact ih (v.field first)

/-- A reading that goes through objects and then leaves the way to a place does not see what is
put there. -/
theorem read_put_of_objects (v new : Value) (common : List String) {a b : String} (apart : a ≠ b)
    (s t : List String) (objects : ∀ d, d <+: common → (v.read d).IsObject) :
    (v.put (common ++ a :: s) new).read (common ++ b :: t) = v.read (common ++ b :: t) := by
  induction common generalizing v with
  | nil =>
    have here : v.IsObject := objects [] (List.prefix_refl [])
    rw [List.nil_append, List.nil_append, read_cons, child_put, if_neg apart, here.field_eq,
      read_cons]
  | cons segment common ih =>
    have here : v.IsObject := objects [] List.nil_prefix
    rw [List.cons_append, List.cons_append, read_cons, child_put, if_pos rfl, here.field_eq,
      read_cons]
    refine ih (v.child segment) ?_
    intro d inside
    exact objects (segment :: d) (List.cons_prefix_cons.mpr ⟨rfl, inside⟩)

/-- A reading that leaves the way to a place finds nothing when something on the way that both
share was no object before. -/
theorem read_put_of_not_object (v new : Value) {common d : List String} {a b : String}
    (apart : a ≠ b) (s t : List String) (inside : d <+: common) (other : ¬ (v.read d).IsObject) :
    (v.put (common ++ a :: s) new).read (common ++ b :: t) = .null := by
  induction common generalizing v d with
  | nil =>
    rw [List.prefix_nil.mp inside, read_nil] at other
    rw [List.nil_append, List.nil_append, read_cons, child_put, if_neg apart,
      field_of_not_isObject other, read_null]
  | cons segment common ih =>
    rw [List.cons_append, List.cons_append, read_cons, child_put, if_pos rfl]
    by_cases here : v.IsObject
    · rw [here.field_eq]
      cases d with
      | nil => exact absurd here other
      | cons first d =>
        obtain ⟨rfl, deeper⟩ := List.cons_prefix_cons.mp inside
        exact ih (v.child first) deeper other
    · -- from here on the way is made anew, and null is no object either
      rw [field_of_not_isObject here]
      exact ih .null List.nil_prefix not_isObject_null

end Value

/-- Below the root an update puts its payload at the place. -/
theorem Fields.obj_write_eq_put (v : Value) (segment : String) (rest : List String)
    (payload : Fields) :
    Value.obj (Fields.write v.fieldsOrNone (segment :: rest) payload) =
      v.put (segment :: rest) (.obj payload) := by
  induction rest generalizing v segment with
  | nil => rfl
  | cons next rest ih =>
    rw [Value.put, ← ih (v.field segment) next]
    rfl

/-- Of the fields that are set one after another the last one of a name counts; here every name
comes once. -/
theorem Entries.get?_update {α : Type} (entries : Entries α) {more : Entries α}
    (distinct : more.keys.Nodup) (key : String) :
    get? (update entries more) key = (get? more key).or (get? entries key) := by
  induction more generalizing entries with
  | nil => rfl
  | cons entry rest ih =>
    obtain ⟨k, v⟩ := entry
    obtain ⟨new, distinct⟩ := List.nodup_cons.mp distinct
    have step : update entries ((k, v) :: rest) = update (set entries k v) rest := rfl
    rw [step, ih _ distinct, get?_set]
    by_cases same : k = key
    · subst same
      have absent : get? rest k = none := by
        rw [← Option.not_isSome_iff_eq_none, get?_isSome_iff]
        exact new
      simp [get?, absent]
    · simp [get?, same]

/-- What a reading finds in a model after an update: `model` and `new` are the models before and
after, the payload was put at `p`, and `q` is read. At the root the payload counts field by field.
Elsewhere `q` goes to the payload or below it, stops on the way to it, or leaves this way. -/
structure Updated (model new : Value) (payload : Fields) (p q : List String) : Prop where
  replaced : p = [] → ∀ key rest v, q = key :: rest → Entries.get? payload key = some v →
    new.read q = v.read rest
  kept : p = [] → ∀ key rest, q = key :: rest → Entries.get? payload key = none →
    (model.IsObject → new.read q = model.read q) ∧ (¬ model.IsObject → new.read q = .null)
  below : p ≠ [] → ∀ rest, q = p ++ rest → new.read q = (Value.obj payload).read rest
  above : q <+: p → q ≠ p → (new.read q).IsObject
  beside : ∀ common a b s t, a ≠ b → p = common ++ a :: s → q = common ++ b :: t →
    ((∀ d, d <+: common → (model.read d).IsObject) → new.read q = model.read q) ∧
    ((∃ d, d <+: common ∧ ¬ (model.read d).IsObject) → new.read q = .null)

theorem Updated.of_root (model : Value) {payload : Fields} (distinct : payload.keys.Nodup)
    (q : List String) :
    Updated model (.obj (Fields.write model.fieldsOrNone [] payload)) payload [] q where
  replaced _ key rest v at_q found := by
    subst at_q
    rw [Fields.write, Value.read_cons, Value.child, Entries.get?_update _ distinct, found]
    rfl
  kept _ key rest at_q absent := by
    subst at_q
    rw [Fields.write, Value.read_cons, Value.child, Entries.get?_update _ distinct, absent,
      Option.none_or]
    constructor
    · intro object
      rw [Value.read_cons, ← object.field_eq]
      rfl
    · intro other
      have nothing := Value.field_of_not_isObject other key
      rw [Value.field] at nothing
      rw [nothing, Value.read_null]
  below nonempty := absurd rfl nonempty
  above inside proper := absurd (List.prefix_nil.mp inside) proper
  beside common a b s t _ at_p := by simp at at_p

theorem Updated.of_put (model : Value) (payload : Fields) (segment : String)
    (rest q : List String) :
    Updated model (model.put (segment :: rest) (.obj payload)) payload (segment :: rest) q where
  replaced root := by cases root
  kept root := by cases root
  below _ tail at_q := by
    rw [at_q, Value.read_put_append]
  above inside proper := by
    obtain ⟨tail, whole⟩ := inside
    cases tail with
    | nil => exact absurd (by simpa using whole) proper
    | cons next tail =>
      rw [← whole]
      exact Value.isObject_read_put model _ q next tail
  beside common a b s t apart at_p at_q := by
    rw [at_p, at_q]
    constructor
    · exact Value.read_put_of_objects model _ common apart s t
    · rintro ⟨d, inside, other⟩
      exact Value.read_put_of_not_object model _ apart s t inside other

/-- Updates and readings form a lens: an update of any model with any object succeeds, and every
reading of the new model is told by the payload and the old model. -/
theorem updateModel_updated (model : Value) {path : Value} {place : List String} {payload : Fields}
    (leads : Path.ofValue path = .ok place) (distinct : payload.keys.Nodup) :
    ∃ new, updateModel model path (.obj payload) = .ok new ∧
      ∀ query, Updated model (.obj new) payload place query := by
  refine ⟨Fields.write model.fieldsOrNone place payload, by rw [updateModel, leads]; rfl, ?_⟩
  intro query
  cases place with
  | nil => exact Updated.of_root model distinct _
  | cons segment rest =>
    rw [Fields.obj_write_eq_put]
    exact Updated.of_put model payload segment rest _

/-- A list on the way to an update gives way to an object, and readings of its items find nothing
afterwards. -/
theorem updateModel_updated_of_list :
    let model : Value := .obj [("a", .list [.int 10]), ("n", .int 1)]
    let payload : Fields := [("c", .bool true)]
    Path.ofValue (.str "/a/b") = .ok ["a", "b"] ∧ payload.keys.Nodup ∧ ∃ new,
      updateModel model (.str "/a/b") (.obj payload) = .ok new ∧
      model.read ["a", "0"] = .int 10 ∧ (Value.obj new).read ["a", "0"] = .null := by
  intro model payload
  have leads : Path.ofValue (.str "/a/b") = .ok ["a", "b"] := by rfl
  have distinct : payload.keys.Nodup := by decide
  obtain ⟨new, made, updated⟩ := updateModel_updated model leads distinct
  have outside :=
    (updated ["a", "0"]).beside ["a"] "b" "0" [] [] (by decide) (by decide) (by decide)
  refine ⟨leads, distinct, new, made, by decide, outside.2 ⟨["a"], List.prefix_refl _, ?_⟩⟩
  rintro ⟨fields, same⟩
  cases same

end LiveSurface
