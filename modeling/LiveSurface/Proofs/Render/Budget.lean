import LiveSurface.Proofs.Render.Derivation

/-!
# The budget of a pass

How much a pass can show. Every node but a diagnostic for an error or an unregistered identifier
is paid for by one component of the budget, and a node that is paid for has at most as many
children as its definition lists or the data holds side by side. So what is left of the budget
bounds the size of the tree (`resolve_bounded`), whatever the components refer to.
-/
namespace LiveSurface

namespace Value

mutual

/-- The largest number of items or fields side by side, at any depth of a value. -/
def width : Value → Nat
  | .list items => max items.length (itemsWidth items)
  | .obj fields => max fields.length (fieldsWidth fields)
  | _ => 0
termination_by structural v => v

/-- The largest width of an item. -/
def itemsWidth : List Value → Nat
  | [] => 0
  | item :: rest => max (width item) (itemsWidth rest)
termination_by structural v => v

/-- The largest width of the value of a field. -/
def fieldsWidth : List (String × Value) → Nat
  | [] => 0
  | (_, value) :: rest => max (width value) (fieldsWidth rest)
termination_by structural v => v

end

theorem width_le_itemsWidth {item : Value} {items : List Value} (member : item ∈ items) :
    item.width ≤ itemsWidth items := by
  induction items with
  | nil => simp at member
  | cons first rest ih =>
    simp only [itemsWidth]
    rcases List.mem_cons.mp member with rfl | later
    · omega
    · have := ih later
      omega

theorem width_le_fieldsWidth {key : String} {value : Value} {fields : Fields}
    (member : (key, value) ∈ fields) : value.width ≤ fieldsWidth fields := by
  induction fields with
  | nil => simp at member
  | cons first rest ih =>
    obtain ⟨k, v⟩ := first
    simp only [fieldsWidth]
    rcases List.mem_cons.mp member with same | later
    · cases same
      omega
    · have := ih later
      omega

theorem width_le_of_inside {most : Nat} {part v : Value} (inside : part.Inside v)
    (wide : v.width ≤ most) : part.width ≤ most := by
  refine Nat.le_trans ?_ wide
  cases inside with
  | item member =>
    rw [width]
    exact Nat.le_trans (width_le_itemsWidth member) (Nat.le_max_right _ _)
  | field member =>
    rw [width]
    exact Nat.le_trans (width_le_fieldsWidth member) (Nat.le_max_right _ _)

end Value

namespace Template

theorem width_bound_le (template : Template) (model : Value) :
    (template.bound model).width ≤ model.width :=
  template.bound_of_inside (motive := fun v => v.width ≤ model.width) (Nat.zero_le _)
    Value.width_le_of_inside (Nat.le_refl _)

theorem length_keys_le (template : Template) (model : Value) :
    (template.keys model).length ≤ model.width := by
  have bound := template.width_bound_le model
  unfold keys
  split
  · next fields found =>
    simp only [found, Value.width] at bound
    simp only [List.length_map]
    omega
  · next items found =>
    simp only [found, Value.width] at bound
    simp only [List.length_map, List.length_range]
    omega
  · exact Nat.zero_le _

/-- There are at most as many elements of bound data as the data is wide. -/
theorem length_items_le {template : Template} {model : Value} {items : List Value}
    (found : template.items? model = some items) : items.length ≤ model.width := by
  have bound := template.width_bound_le model
  unfold items? at found
  split at found
  · next fields bindsTo =>
    cases found
    simp only [bindsTo, Value.width] at bound
    simp only [List.length_map]
    omega
  · next items bindsTo =>
    cases found
    simp only [bindsTo, Value.width] at bound
    omega
  · cases found

end Template

/-- The identifiers that a definition lists as its children. -/
def Definition.listed (definition : Definition) : List String :=
  match Component.parse definition.kind definition.props with
  | .ok (.column (some ⟨some ids, _⟩) _) | .ok (.row (some ⟨some ids, _⟩) _) => ids
  | _ => []

/-- How many components can still be spent. -/
def Limits.room (limits : Limits) (spent : Int) : Nat := (limits.maxNodes - spent).toNat

namespace Pass

variable {registry : Registry} {limits : Limits} {reports : Bool}

/-- No component has more components below it than its definition lists or the data is wide. -/
theorem length_below_le {definition : Definition} {component : Component} {scope : Scope}
    {frame : Frame} {fan : Nat} (one : 1 ≤ fan) (listed : definition.listed.length ≤ fan)
    (wide : scope.data.width ≤ fan)
    (parsed : Component.parse definition.kind definition.props = .ok component)
    (framed : frame? registry reports scope component = .ok (some frame)) :
    frame.below.length ≤ fan := by
  rcases below_of_frame framed with none | ⟨children, _, rfl, column⟩ | ⟨children, _, rfl, row⟩ |
    ⟨target, rfl, card⟩ | ⟨children, rfl, list⟩
  · simp [none]
  · rw [column]
    unfold columnScopes
    split
    · simpa [Definition.listed, parsed] using listed
    · next template =>
      have := template.length_keys_le scope.data
      simp only [Template.columnChildren, List.length_map]
      omega
    · exact Nat.zero_le _
  · rw [row]
    unfold rowScopes
    split
    · simpa [Definition.listed, parsed] using listed
    · exact Nat.zero_le _
  · rw [card]
    unfold cardScopes
    cases target.filter (· ≠ "") with
    | none => exact Nat.zero_le _
    | some target => exact one
  · unfold listScopes? at list
    split at list
    · obtain ⟨made, elements, same⟩ := Option.map_eq_some_iff.mp list
      obtain ⟨items, found, rfl⟩ := Option.map_eq_some_iff.mp elements
      have := Template.length_items_le found
      simp only [← same, List.length_map]
      omega
    · cases list

end Pass

/-- A node is solid unless it tells of an error or of an identifier that is not registered. -/
def Node.solid (node : Node) : Bool := node.kind ≠ .error ∧ node.kind ≠ .notFound

namespace Pass

variable {registry : Registry} {limits : Limits} {reports : Bool}

theorem room_of_within {spent : Int} (within : spent + 1 ≤ limits.maxNodes) :
    limits.room spent = limits.room (spent + 1) + 1 := by
  unfold Limits.room
  omega

theorem room_antitone (limits : Limits) {spent after : Int} (advance : spent ≤ after) :
    limits.room after ≤ limits.room spent := by
  unfold Limits.room
  omega

theorem flattenAll_append (nodes others : List Node) :
    Node.flattenAll (nodes ++ others) = Node.flattenAll nodes ++ Node.flattenAll others := by
  simp only [Node.flattenAll_eq, List.flatMap_append]

theorem flattenAll_framed (frame : Frame) (id : String) (children nodes : List Node) :
    Node.flattenAll (frame.node id children :: nodes) =
      frame.node id children :: (Node.flattenAll children ++ Node.flattenAll nodes) := rfl

theorem flattenAll_leaf {node : Node} (leaf : node.children = []) :
    Node.flattenAll [node] = [node] := by
  obtain ⟨kind, id, text, props, action, children⟩ := node
  obtain rfl : children = [] := leaf
  rfl

theorem Ends.length_le {id : String} {scope : Scope} {spent after : Int} {node : Option Node}
    (ends : Ends registry limits reports id scope spent node after) :
    (Node.flattenAll node.toList).length ≤ 1 := by
  cases node with
  | none => exact Nat.zero_le 1
  | some tree =>
    rw [Option.toList_some, flattenAll_leaf ends.children]
    exact Nat.le_refl 1

theorem Ends.solid_le {id : String} {scope : Scope} {spent after : Int} {node : Option Node}
    (ends : Ends registry limits reports id scope spent node after) :
    (Node.flattenAll node.toList).countP Node.solid + limits.room after ≤ limits.room spent := by
  have single : (Node.flattenAll node.toList).countP Node.solid ≤ 1 :=
    Nat.le_trans List.countP_le_length ends.length_le
  cases ends with
  | absent missing => exact Nat.le_of_eq (Nat.zero_add _)
  | overLimit found beyond =>
    have := room_antitone limits (show spent ≤ spent + 1 by omega)
    exact Nat.le_trans (Nat.le_of_eq (Nat.zero_add _)) this
  | refused found within outlined =>
    have paid := room_of_within within
    omega
  | nothing found within outlined =>
    have := room_of_within within
    simp only [Option.toList_none, Node.flattenAll, List.countP_nil]
    omega

/-- Solid nodes are paid for. -/
theorem Shows.solid_le {row : List (String × Scope)} {spent after : Int} {nodes : List Node}
    (shown : Shows registry limits reports row spent nodes after) :
    (Node.flattenAll nodes).countP Node.solid + limits.room after ≤ limits.room spent := by
  induction shown with
  | nil spent => exact Nat.le_of_eq (Nat.zero_add _)
  | ends first _ ih =>
    have head := first.solid_le
    rw [flattenAll_append, List.countP_append]
    omega
  | @framed id scope row spent middle after definition frame children nodes _ within _ _ _ ihBelow
      ih =>
    have paid := room_of_within within
    have self : (if (frame.node id children).solid then 1 else 0) ≤ 1 := by split <;> omega
    rw [flattenAll_framed, List.countP_cons, List.countP_append]
    omega

/-- A row shows as at most one node a component, and as many more as can be paid for times the
number of components that stand side by side below one. -/
theorem Shows.length_le {fan : Nat} (one : 1 ≤ fan)
    (listed : ∀ definition ∈ registry, definition.listed.length ≤ fan)
    {row : List (String × Scope)} {spent after : Int} {nodes : List Node}
    (shown : Shows registry limits reports row spent nodes after)
    (wide : ∀ entry ∈ row, entry.2.data.width ≤ fan) :
    (Node.flattenAll nodes).length + fan * limits.room after ≤
      row.length + fan * limits.room spent := by
  induction shown with
  | nil spent => exact Nat.le_refl _
  | ends first _ ih =>
    have single := first.length_le
    have head := Nat.mul_le_mul_left fan (room_antitone limits first.advance)
    have tail := ih fun entry member => wide entry (List.mem_cons_of_mem _ member)
    rw [flattenAll_append, List.length_append, List.length_cons]
    omega
  | @framed id scope row spent middle after definition frame children nodes found within outlined
      _ _ ihBelow ih =>
    obtain ⟨-, -, component, parsed, framed⟩ := outline_ok outlined
    have here : (scope.enter id).data.width ≤ fan := wide (id, scope) (by simp)
    have side := length_below_le one (listed definition (List.mem_of_find?_eq_some found)) here
      parsed framed
    have inner := ihBelow fun entry member =>
      data_of_below (motive := fun v => v.width ≤ fan) (Nat.zero_le _) Value.width_le_of_inside here
        framed member
    have tail := ih fun entry member => wide entry (List.mem_cons_of_mem _ member)
    have paid : fan * limits.room spent = fan * limits.room (spent + 1) + fan := by
      rw [room_of_within within, Nat.mul_succ]
    rw [flattenAll_framed, List.length_cons, List.length_append, List.length_cons]
    omega

/-- Every pass ends with a result, never gives back what was spent, and shows no more than its
budget has room for: no more solid nodes than components can still be spent, and no more nodes in
all than that many times the width of the definitions and the data, and one. -/
theorem resolve_bounded (registry : Registry) (limits : Limits) (reports : Bool) (id : String)
    (scope : Scope) (spent : Int) :
    ∃ node after, (plain registry limits reports).resolve id scope spent = (.ok node, after) ∧
      spent ≤ after ∧
      (Node.flattenAll node.toList).countP Node.solid ≤ limits.room spent ∧
      ∀ fan : Nat, 1 ≤ fan → (∀ definition ∈ registry, definition.listed.length ≤ fan) →
        scope.data.width ≤ fan →
        (Node.flattenAll node.toList).length ≤ 1 + fan * limits.room spent := by
  obtain ⟨node, after, made, shown⟩ := resolve_shows registry limits reports id scope spent
  refine ⟨node, after, made, shown.advance, ?_, ?_⟩
  · have := shown.solid_le
    omega
  · intro fan one listed wide
    have := shown.length_le one listed fun entry member => by
      rw [List.mem_singleton.mp member]
      exact wide
    rw [List.length_singleton] at this
    omega

/-- A column that lists itself and a text stays within the bounds of its budget. -/
theorem resolve_bounded_of_self_reference :
    let registry : Registry :=
      [⟨"root", none, "Column",
          .obj [("children", .obj [("explicitList", .list [.str "root", .str "text"])])]⟩,
        ⟨"text", none, "Text", .null⟩]
    (∀ definition ∈ registry, definition.listed.length ≤ 2) ∧
      ∃ node after, (plain registry ⟨3, 5⟩ true).resolve "root" ⟨.null, []⟩ 1 = (.ok node, after) ∧
        (Node.flattenAll node.toList).length ≤ 1 + 2 * 4 := by
  intro registry
  have listed : ∀ definition ∈ registry, definition.listed.length ≤ 2 := by decide
  obtain ⟨node, after, made, -, -, size⟩ :=
    resolve_bounded registry ⟨3, 5⟩ true "root" ⟨.null, []⟩ 1
  exact ⟨listed, node, after, made, size 2 (by decide) listed (by decide)⟩

end Pass
end LiveSurface
