import LiveSurface.Proofs.Data.Written
import LiveSurface.Proofs.Render.Ancestry
import LiveSurface.Proofs.Render.Isolation

/-!
# Malformed properties

Where an error comes from. Every node of a tree is made by one visit of the pass, which finds a
component at its place after a count of components, and a visit can be followed from the root
without a look at what it makes. A registered component that is not on the way to itself is an error
when its visit meets a limit, when its own properties are malformed, and in one case more: a button
whose label stands in a text with malformed properties (`resolve_error_iff`). Apart from these stand
texts that cannot be written, of which there are none where the data model can be written.
-/
namespace LiveSurface

/-- The properties of a component of a known kind are neither null nor an object, or do not pass
their checks. -/
def Definition.Malformed (definition : Definition) : Prop :=
  ∃ kind, Kind.ofName? definition.kind = some kind ∧
    match definition.props with
    | .null => False
    | .obj body => ∀ component, Component.read kind body ≠ .valid component
    | _ => True

/-- A button takes its label from a text with malformed properties. -/
def Registry.Mislabels (registry : Registry) (definition : Definition) : Prop :=
  ∃ target text, definition.labelTarget? = some target ∧ target ≠ "" ∧
    registry.get? target = some text ∧ text.kind = Kind.text.name ∧ text.Malformed

/-- A text with a data model in which what it shows cannot be written. -/
def Definition.Unwritten (definition : Definition) (data : Value) : Prop :=
  ∃ descriptor hint fault,
    Component.parse definition.kind definition.props = .ok (.text descriptor hint) ∧
      Descriptor.display descriptor data = .error fault

/-- A component with a data model in which its text cannot be written: a text's own, or the label
that a button takes from a text. -/
def Registry.Unwritten (registry : Registry) (definition : Definition) (data : Value) : Prop :=
  definition.Unwritten data ∨
  ∃ target text, definition.labelTarget? = some target ∧ target ≠ "" ∧
    registry.get? target = some text ∧ text.kind = Kind.text.name ∧ text.Unwritten data

theorem Definition.not_unwritten {definition : Definition} {data : Value}
    (written : data.isWritten = true) : ¬ definition.Unwritten data := by
  rintro ⟨descriptor, hint, fault, -, fails⟩
  obtain ⟨s, shown⟩ := Descriptor.display_of_isWritten descriptor written
  rw [shown] at fails
  cases fails

theorem Registry.not_unwritten {registry : Registry} {definition : Definition} {data : Value}
    (written : data.isWritten = true) : ¬ registry.Unwritten definition data := by
  rintro (own | ⟨_, _, -, -, -, -, label⟩)
  · exact Definition.not_unwritten written own
  · exact Definition.not_unwritten written label

theorem Component.read_nil (kind : Kind) :
    ∃ component, Component.read kind [] = .valid component := by
  cases kind <;> exact ⟨_, rfl⟩

theorem Validation.Checked.named_eq_error_iff {α : Type} (model : String) (checked : Checked α) :
    (∃ failure, checked.named model = .error failure) ↔ ∀ a, checked ≠ .valid a := by
  cases checked <;> simp [named]

/-- The properties that are refused are the malformed ones. -/
theorem Definition.malformed_iff (definition : Definition) :
    definition.Malformed ↔
      ∃ fault, Component.parse definition.kind definition.props = .error fault := by
  unfold Malformed Component.parse
  cases Kind.ofName? definition.kind with
  | none => simp
  | some kind =>
    simp only [Option.some.injEq, exists_eq_left']
    cases definition.props with
    | null =>
      obtain ⟨component, valid⟩ := Component.read_nil kind
      simp [valid, Validation.Checked.named, Except.mapError]
    | obj body =>
      dsimp only
      rw [← Validation.Checked.named_eq_error_iff kind.modelName]
      cases (Component.read kind body).named kind.modelName <;> simp [Except.mapError]
    | _ => simp

namespace Pass

variable {registry : Registry} {limits : Limits} {reports : Bool}

theorem label_eq_error_iff (child : Option String) (data : Value) :
    (∃ failure, label registry child data = .error failure) ↔
      ∃ target text, child = some target ∧ registry.get? target = some text ∧
        text.kind = Kind.text.name ∧ (text.Malformed ∨ text.Unwritten data) := by
  unfold label
  cases child with
  | none => simp
  | some target =>
    cases found : registry.get? target with
    | none => simp [found]
    | some text =>
      simp only [Option.bind_some, found, Option.some.injEq, exists_and_left, exists_eq_left',
        Definition.malformed_iff, Definition.Unwritten]
      by_cases kind : text.kind = Kind.text.name
      · simp only [kind, ↓reduceIte, true_and]
        cases Component.parse Kind.text.name text.props with
        | error fault => simp
        | ok component =>
          cases component with
          | text descriptor hint => simp [Result.mapError_eq_error_iff]
          | _ => simp
      · simp [kind]

/-- A text fails by itself where it cannot be written, and a button over the text that its label
stands in. -/
theorem frame?_eq_error_iff {definition : Definition} {component : Component} {scope : Scope}
    (parsed : Component.parse definition.kind definition.props = .ok component) :
    (∃ failure, frame? registry reports scope component = .error failure) ↔
      registry.Mislabels definition ∨ registry.Unwritten definition scope.data := by
  simp only [Registry.Mislabels, Registry.Unwritten, Definition.labelTarget?,
    Definition.Unwritten, parsed]
  cases component with
  | text descriptor hint =>
    simp [frame?, Result.map_eq_error_iff, Result.mapError_eq_error_iff]
  | button target primary action =>
    simp only [frame?, Result.map_eq_error_iff]
    rw [label_eq_error_iff]
    simp [Option.filter_eq_some_iff, and_assoc, and_or_left, exists_or, Definition.Unwritten]
  | _ => simp [frame?]

/-- A component with room fails by itself over its own properties, over a text that cannot be
written, and a button over the properties of the text that its label stands in. -/
theorem outline_error_iff {definition : Definition} {id : String} {scope : Scope}
    (new : id ∉ scope.trail) (room : scope.trail.length < limits.maxDepth) :
    (∃ failure, outline registry limits reports definition id scope = .error failure) ↔
      definition.Malformed ∨ registry.Mislabels definition ∨
        registry.Unwritten definition scope.data := by
  have shallow : ¬ limits.maxDepth ≤ scope.trail.length := by omega
  simp only [outline, new, shallow, ↓reduceIte, Definition.malformed_iff]
  cases parsed : Component.parse definition.kind definition.props with
  | error fault => simp
  | ok component =>
    have fails : (∃ failure, frame? registry reports (scope.enter id) component =
        .error failure) ↔
        registry.Mislabels definition ∨ registry.Unwritten definition scope.data :=
      frame?_eq_error_iff parsed
    simpa using fails

theorem componentId_of_resolve {id : String} {scope : Scope} {spent after : Int} {node : Node}
    (made : (plain registry limits reports).resolve id scope spent = (.ok (some node), after)) :
    node.componentId = some id := by
  rcases resolve_cases registry limits reports id scope spent with
    ⟨_, _, ends, shown⟩ | ⟨_, _, _, _, -, -, -, -, shown⟩
  · rw [made] at shown
    cases shown
    cases ends with
    | absent missing => rfl
    | overLimit found beyond => rfl
    | refused found within outlined => exact Failure.diagnostic_componentId ..
  · rw [made] at shown
    cases shown
    rfl

/-- The node of a registered component that is not too far from the root. It is an error where a
limit is met, and otherwise over malformed properties or a text that cannot be written. -/
theorem kind_of_resolve {id : String} {scope : Scope} {spent after : Int} {node : Node}
    {definition : Definition} (found : registry.get? id = some definition)
    (near : scope.trail.length ≤ limits.maxDepth)
    (made : (plain registry limits reports).resolve id scope spent = (.ok (some node), after))
    (acyclic : node.kind ≠ .cycle) :
    node.kind = .error ↔
      limits.maxNodes ≤ spent ∨ scope.trail.length = limits.maxDepth ∨
        definition.Malformed ∨ registry.Mislabels definition ∨
          registry.Unwritten definition scope.data := by
  rcases resolve_cases registry limits reports id scope spent with
    ⟨_, _, ends, shown⟩ | ⟨own, frame, children, _, found', within, outlined, -, shown⟩
  · rw [made] at shown
    cases shown
    cases ends with
    | absent missing =>
      rw [missing] at found
      cases found
    | overLimit found' beyond => exact iff_of_true rfl (.inl (by omega))
    | refused found' within outlined =>
      rw [found'] at found
      cases found
      rcases outline_error outlined with ⟨-, rfl⟩ | ⟨-, deep, rfl⟩ | ⟨new, room, own⟩
      · exact absurd rfl acyclic
      · exact iff_of_true rfl (.inr (.inl (Nat.le_antisymm near deep)))
      · rw [own.diagnostic_eq]
        exact iff_of_true rfl (.inr (.inr ((outline_error_iff new room).mp ⟨_, outlined⟩)))
  · rw [made] at shown
    cases shown
    rw [found'] at found
    cases found
    obtain ⟨new, room, -⟩ := outline_ok outlined
    refine iff_of_false (kind_ne_error_of_outline outlined) ?_
    rintro (beyond | deep | wrong)
    · omega
    · omega
    · obtain ⟨failure, refused⟩ := (outline_error_iff new room).mpr wrong
      rw [outlined] at refused
      cases refused

/-- A component at its place, and the count of components before it. -/
structure Visit where
  id : String
  scope : Scope
  spent : Int

/-- What a visit shows. -/
def Visit.shown (visit : Visit) (pass : Pass Node) : Spent HostFailure (Option Node) :=
  pass.resolve visit.id visit.scope visit.spent

theorem Visit.eq_of_shown {visit : Visit} {pass : Pass Node} {result : Option Node}
    (made : (visit.shown pass).1 = .ok result) :
    pass.resolve visit.id visit.scope visit.spent = (.ok result, (visit.shown pass).2) :=
  Prod.ext made rfl

section
variable (registry : Registry) (limits : Limits) (reports : Bool)

/-- The visits of a pass that starts with one: from a component with a frame it goes on to each
component of the row below, after what those before it have spent. -/
inductive Visits (start : Visit) : Visit → Prop
  | start : Visits start start
  | next {visit : Visit} {definition : Definition} {frame : Frame}
    {before after : List (String × Scope)} {entry : String × Scope} {nodes : List Node}
    {spent : Int} (visited : Visits start visit)
    (found : registry.get? visit.id = some definition) (within : visit.spent + 1 ≤ limits.maxNodes)
    (outlined :
      outline registry limits reports definition visit.id visit.scope = .ok (some frame))
    (row : frame.below = before ++ entry :: after)
    (passed : each (plain registry limits reports).resolve before (visit.spent + 1) =
      (.ok nodes, spent)) :
    Visits start ⟨entry.1, entry.2, spent⟩

end

theorem Visits.near {start visit : Visit} (visited : Visits registry limits reports start visit)
    (near : start.scope.trail.length ≤ limits.maxDepth) :
    visit.scope.trail.length ≤ limits.maxDepth := by
  cases visited with
  | start => exact near
  | next _ _ _ outlined row _ =>
    obtain ⟨-, room, component, -, framed⟩ := outline_ok outlined
    rw [trail_of_below framed (by rw [row]; simp), Scope.enter, List.length_append]
    exact room

/-- Where the data model can be written, all visits have such data models. -/
theorem Visits.isWritten {start visit : Visit}
    (visited : Visits registry limits reports start visit)
    (written : start.scope.data.isWritten = true) : visit.scope.data.isWritten = true := by
  induction visited with
  | start => exact written
  | @next visit _ _ _ _ _ _ _ _ _ _ outlined row _ ih =>
    obtain ⟨-, -, component, -, framed⟩ := outline_ok outlined
    have here : (visit.scope.enter visit.id).data.isWritten = true := ih
    exact data_of_below (motive := fun v => v.isWritten = true) rfl Value.isWritten_of_inside here
      framed (by rw [row]; simp)

theorem each_split {child : Resolve Node} {row : List (String × Scope)} {spent after : Int}
    {nodes : List Node} (made : each child row spent = (.ok nodes, after)) {node : Node}
    (member : node ∈ nodes) :
    ∃ before entry rest earlier middle, row = before ++ entry :: rest ∧
      each child before spent = (.ok earlier, middle) ∧
      (child entry.1 entry.2 middle).1 = .ok (some node) := by
  induction row generalizing spent nodes with
  | nil =>
    cases made
    cases member
  | cons entry rest ih =>
    rcases first : child entry.1 entry.2 spent with ⟨failure | head, middle⟩
    · simp [each, first] at made
    · rcases others : each child rest middle with ⟨failure | tail, last⟩
      · simp [each, first, others] at made
      · simp only [each, first, others, Prod.mk.injEq, Except.ok.injEq] at made
        obtain ⟨rfl, rfl⟩ := made
        rcases List.mem_append.mp member with here | later
        · obtain rfl := Option.mem_toList.mp here
          exact ⟨[], entry, rest, [], spent, rfl, rfl, by rw [first]⟩
        · obtain ⟨before, own, left, earlier, count, rfl, passed, made⟩ := ih others later
          refine ⟨entry :: before, own, left, head.toList ++ earlier, count, rfl, ?_, made⟩
          simp only [each, first, passed]

/-- Every node of a tree is made by a visit, at the place that the nodes around it tell. -/
theorem visits_of_occurs {start visit : Visit} {tree node : Node} {above : List Node}
    (occurs : tree.Occurs above node) (visited : Visits registry limits reports start visit)
    (made : (visit.shown (plain registry limits reports)).1 = .ok (some tree)) :
    ∃ inner, Visits registry limits reports start inner ∧
      (inner.shown (plain registry limits reports)).1 = .ok (some node) ∧
      inner.scope.trail.map some = visit.scope.trail.map some ++ above.map Node.componentId := by
  induction occurs generalizing visit with
  | root tree => exact ⟨visit, visited, made, by simp⟩
  | child member inside ih =>
    rcases resolve_cases registry limits reports visit.id visit.scope visit.spent with
      ⟨_, _, ends, shown⟩ | ⟨_, frame, children, _, found, within, outlined, below, shown⟩
    · rw [Visit.shown, shown] at made
      cases made
      rw [ends.children] at member
      cases member
    · rw [Visit.shown, shown] at made
      cases made
      obtain ⟨before, entry, rest, earlier, spent, row, passed, made⟩ := each_split below member
      obtain ⟨inner, reached, told, around⟩ :=
        ih (.next visited found within outlined row passed) made
      refine ⟨inner, reached, told, ?_⟩
      obtain ⟨-, -, component, -, framed⟩ := outline_ok outlined
      have deeper : entry.2.trail = visit.scope.trail ++ [visit.id] :=
        trail_of_below framed (by rw [row]; simp)
      rw [around, deeper, List.map_append, List.append_assoc]
      rfl

/-- A pass from a root, with all of its budget. Every node of its tree is made by a visit that
stands below the nodes around it. And where a visit to a registered component makes a node that is
not a cycle, that node is an error exactly when the components before it have spent the limit, when
as many components stand around it as the limit allows, when its own properties are malformed, when
it is a button with the label of a text with malformed properties, or when its text, or the text of
its label, cannot be written with the data model at its place. The last never happens where all
whole numbers in the data model of the pass can be written. -/
theorem resolve_error_iff (registry : Registry) (limits : Limits) (reports : Bool) (id : String)
    (data : Value) :
    let pass := plain registry limits reports
    let start : Visit := ⟨id, ⟨data, []⟩, 0⟩
    (∃ tree after, pass.resolve id ⟨data, []⟩ 0 = (.ok tree, after) ∧
      ∀ top ∈ tree, ∀ above node, top.Occurs above node →
        ∃ visit, Visits registry limits reports start visit ∧
          (visit.shown pass).1 = .ok (some node) ∧ node.componentId = some visit.id ∧
          visit.scope.trail.map some = above.map Node.componentId) ∧
    (∀ visit node definition, Visits registry limits reports start visit →
      (visit.shown pass).1 = .ok (some node) →
      registry.get? visit.id = some definition → node.kind ≠ .cycle →
      (node.kind = .error ↔
        limits.maxNodes ≤ visit.spent ∨ visit.scope.trail.length = limits.maxDepth ∨
          definition.Malformed ∨ registry.Mislabels definition ∨
            registry.Unwritten definition visit.scope.data)) ∧
    (data.isWritten = true → ∀ visit definition, Visits registry limits reports start visit →
      ¬ registry.Unwritten definition visit.scope.data) := by
  intro pass start
  refine ⟨?_, ?_, ?_⟩
  · obtain ⟨tree, after, made, -⟩ := resolve_shows registry limits reports id ⟨data, []⟩ 0
    refine ⟨tree, after, made, ?_⟩
    rintro top rfl above node occurs
    have shown : (start.shown pass).1 = .ok (some top) := by rw [Visit.shown, made]
    obtain ⟨visit, visited, told, around⟩ := visits_of_occurs occurs .start shown
    exact ⟨visit, visited, told, componentId_of_resolve (Visit.eq_of_shown told), around⟩
  · intro visit node definition visited made found acyclic
    have near := visited.near (Nat.zero_le limits.maxDepth)
    exact kind_of_resolve found near (Visit.eq_of_shown made) acyclic
  · intro written visit definition visited
    exact Registry.not_unwritten (visited.isWritten written)

/-- In a column of a button without readable properties and a text, only the button is an error. -/
theorem resolve_error_iff_of_column :
    let children : Children := ⟨some ["bad", "good"], none⟩
    let bad : Definition := ⟨"bad", none, "Button", .str "press"⟩
    let good : Definition := ⟨"good", none, "Text", .null⟩
    let registry : Registry :=
      [⟨"root", none, "Column", .obj [("children", children.toValue)]⟩, bad, good]
    let pass := plain registry ⟨3, 5⟩ true
    let start : Visit := ⟨"root", ⟨.null, []⟩, 0⟩
    let first : Visit := ⟨"bad", ⟨.null, ["root"]⟩, 1⟩
    let second : Visit := ⟨"good", ⟨.null, ["root"]⟩, 2⟩
    Visits registry ⟨3, 5⟩ true start first ∧ Visits registry ⟨3, 5⟩ true start second ∧
    (∃ node, (first.shown pass).1 = .ok (some node) ∧ node.kind = .error) ∧
    (bad.Malformed ∨ registry.Mislabels bad) ∧
    (∃ node, (second.shown pass).1 = .ok (some node) ∧ node.kind = .text) ∧
    ¬ good.Malformed ∧ ¬ registry.Mislabels good := by
  intro children bad good registry pass start first second
  let row : List (String × Scope) := [("bad", ⟨.null, ["root"]⟩), ("good", ⟨.null, ["root"]⟩)]
  have root : outline registry ⟨3, 5⟩ true
      ⟨"root", none, "Column", .obj [("children", children.toValue)]⟩ "root" ⟨.null, []⟩ =
      .ok (some { kind := .column, props := [("alignment", .str "start")], below := row }) := rfl
  have within : start.spent + 1 ≤ ((⟨3, 5⟩ : Limits).maxNodes : Int) := by decide
  have left : row = [] ++ ("bad", ⟨.null, ["root"]⟩) :: [("good", ⟨.null, ["root"]⟩)] := rfl
  have right : row = [("bad", ⟨.null, ["root"]⟩)] ++ ("good", ⟨.null, ["root"]⟩) :: [] := rfl
  have visited : Visits registry ⟨3, 5⟩ true start first := .next .start rfl within root left rfl
  have visited' : Visits registry ⟨3, 5⟩ true start second :=
    .next .start rfl within root right rfl
  obtain ⟨-, errors, unwritten⟩ := resolve_error_iff registry ⟨3, 5⟩ true "root" .null
  have wrong := (errors first _ bad visited rfl rfl NodeKind.noConfusion).mp rfl
  have sound := (errors second _ good visited' rfl rfl NodeKind.noConfusion).not.mp
    NodeKind.noConfusion
  rw [not_or, not_or, not_or, not_or] at sound
  refine ⟨visited, visited', ⟨_, rfl, rfl⟩, ?_, ⟨_, rfl, rfl⟩, sound.2.2.1, sound.2.2.2.1⟩
  rcases wrong with beyond | deep | malformed | mislabelled | other
  · exact absurd beyond (by decide)
  · exact absurd deep (by decide)
  · exact .inl malformed
  · exact .inr mislabelled
  · exact absurd other (unwritten rfl first bad visited)

/-- A button within the limits, with properties that pass their checks, is an error because those of
the text that it takes its label from do not. -/
theorem button_lost_of_malformed_label :
    let button : Definition := ⟨"root", none, "Button", .obj [("child", .str "t")]⟩
    let registry : Registry := [button, ⟨"t", none, "Text", .obj [("text", .int 5)]⟩]
    let pass := plain registry ⟨5, 10⟩ true
    ¬ button.Malformed ∧
    ∃ node, pass.resolve "root" ⟨.null, []⟩ 0 = (.ok (some node), 1) ∧ node.kind = .error ∧
      node.componentId = some "root" := by
  intro button registry pass
  refine ⟨?_, _, rfl, rfl, rfl⟩
  rw [Definition.malformed_iff]
  rintro ⟨fault, refused⟩
  cases refused

end Pass
end LiveSurface
