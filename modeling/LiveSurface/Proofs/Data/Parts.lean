import LiveSurface.Render.Template

/-!
# Values inside values

What is read from a value is null or stands inside it. So whatever null has, and passes from a value
to the items and the fields in it, is passed to all that is read from the value
(`Value.read_of_inside`) and to the elements of what a template is bound to
(`Template.items_of_inside`).
-/
namespace LiveSurface

/-- An item of a list, or the value of a field of an object. -/
inductive Value.Inside : Value → Value → Prop
  | item {v : Value} {items : List Value} (member : v ∈ items) : Inside v (.list items)
  | field {key : String} {v : Value} {fields : Fields} (member : (key, v) ∈ fields) :
      Inside v (.obj fields)

theorem Value.child_cases (v : Value) (segment : String) :
    v.child segment = .null ∨ (v.child segment).Inside v := by
  unfold child
  split
  · next fields =>
    cases found : Entries.get? fields segment with
    | none => exact .inl rfl
    | some value => exact .inr (.field (Entries.mem_of_get? found))
  · next items =>
    split
    · next n _ =>
      split
      · cases found : items[n.toNat]? with
        | none => exact .inl rfl
        | some item => exact .inr (.item (List.mem_of_getElem? found))
      · exact .inl rfl
    · exact .inl rfl
  · exact .inl rfl

section
variable {motive : Value → Prop} (null : motive .null)
  (inside : ∀ {part v : Value}, part.Inside v → motive v → motive part)
include null inside

theorem Value.read_of_inside {v : Value} (holds : motive v) (segments : List String) :
    motive (v.read segments) := by
  induction segments generalizing v with
  | nil => exact holds
  | cons segment rest ih =>
    refine ih ?_
    rcases v.child_cases segment with nothing | part
    · rw [nothing]
      exact null
    · exact inside part holds

theorem Template.bound_of_inside (template : Template) {model : Value} (holds : motive model) :
    motive (template.bound model) := by
  unfold bound
  split
  · split
    · exact null
    · exact Value.read_of_inside null inside holds _
  · exact null

theorem Template.items_of_inside {template : Template} {model : Value} {items : List Value}
    (holds : motive model) (found : template.items? model = some items) :
    ∀ item ∈ items, motive item := by
  have bound := template.bound_of_inside null inside holds
  unfold items? at found
  split at found
  · next fields bindsTo =>
    cases found
    intro item member
    obtain ⟨⟨key, value⟩, own, rfl⟩ := List.mem_map.mp member
    rw [bindsTo] at bound
    exact inside (.field own) bound
  · next items bindsTo =>
    cases found
    intro item member
    rw [bindsTo] at bound
    exact inside (.item member) bound
  · cases found

end

end LiveSurface
