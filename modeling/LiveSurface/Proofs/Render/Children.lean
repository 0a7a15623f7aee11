import LiveSurface.Proofs.Render.Ample
import LiveSurface.Proofs.Render.Siblings
import LiveSurface.Proofs.Validation.Lenient

/-!
# Children one by one

A row or a column within the budget shows its children in the order in which it lists them, each as
it shows by itself. What a row of components spends does not depend on where its count starts
(`Shows.shift`), so the components can change places (`Shows.perm`); and below a component nothing
is read of its own definition but its kind (`Shows.revise`), so the list can be turned around in the
definition (`resolve_children`). Which components show as nothing is told apart as well.
-/
namespace LiveSurface

open Validation

namespace Component

/-- The identifiers that a row or a column lists. -/
def listed? : Component → Option (List String)
  | .column (some ⟨some ids, _⟩) _ | .row (some ⟨some ids, _⟩) _ => some ids
  | _ => none

/-- A row or a column that lists other identifiers. -/
def relist (ids : List String) : Component → Component
  | .column (some ⟨some _, template⟩) alignment => .column (some ⟨some ids, template⟩) alignment
  | .row (some ⟨some _, template⟩) distribution => .row (some ⟨some ids, template⟩) distribution
  | component => component

theorem relist_listed {component : Component} {ids : List String}
    (listed : component.listed? = some ids) : component.relist ids = component := by
  unfold listed? at listed
  split at listed <;> cases listed <;> rfl

/-- The kind of a component, none where it is not known. -/
def kind? : Component → Option Kind
  | text .. => some .text
  | button .. => some .button
  | column .. => some .column
  | row .. => some .row
  | card .. => some .card
  | list .. => some .list
  | icon .. => some .icon
  | divider .. => some .divider
  | spacer .. => some .spacer
  | unknown .. => none

theorem kind?_of_read {kind : Kind} {body : Fields} {component : Component}
    (valid : read kind body = .valid component) : component.kind? = some kind := by
  cases kind <;>
    simp only [read, Checked.map_eq, Checked.seq_eq, Checked.apply_eq_valid_iff,
      Checked.map_eq_valid_iff] at valid
  case text | column | row | icon =>
    obtain ⟨_, _, ⟨_, -, rfl⟩, -, rfl⟩ := valid
    rfl
  case button =>
    obtain ⟨_, _, ⟨_, _, ⟨_, -, rfl⟩, -, rfl⟩, -, rfl⟩ := valid
    rfl
  case card | list | divider | spacer =>
    obtain ⟨_, -, rfl⟩ := valid
    rfl

theorem valid_of_named {model : String} {checked : Checked Component} {component : Component}
    (named : (checked.named model).mapError Fault.invalid = .ok component) :
    checked = .valid component := by
  cases checked with
  | valid own =>
    cases named
    rfl
  | invalid first rest => cases named

theorem kind?_of_parse {kind : String} {props : Value} {component : Component}
    (parsed : parse kind props = .ok component) : component.kind? = Kind.ofName? kind := by
  unfold parse at parsed
  split at parsed
  · next unknown =>
    cases parsed
    exact unknown.symm
  · next known named =>
    rw [named]
    split at parsed
    · exact kind?_of_read (valid_of_named parsed)
    · exact kind?_of_read (valid_of_named parsed)
    · cases parsed

theorem ne_text_of_listed? {kind : String} {props : Value} {component : Component}
    {ids : List String} (parsed : parse kind props = .ok component)
    (listed : component.listed? = some ids) : kind ≠ Kind.text.name := by
  rintro rfl
  have text : component.kind? = some .text := kind?_of_parse parsed
  cases component <;> simp_all [kind?, listed?]

end Component

/-- The children of a list have a template that is bound to a list or an object. -/
def Children.Bound (children : Option Children) (data : Value) : Prop :=
  ∃ spec template path, children = some spec ∧ spec.template = some template ∧
    template.dataBinding = some path ∧ path ≠ "" ∧
    ((∃ items, data.read (Path.segments path) = .list items) ∨
      ∃ fields, data.read (Path.segments path) = .obj fields)

/-- Two registries that hold the same but for the properties of one component, which is not a
text. -/
structure Registry.Revised (registry other : Registry) (x : String) : Prop where
  same : ∀ key, key ≠ x → registry.get? key = other.get? key
  own : ∃ definition props, registry.get? x = some definition ∧
    other.get? x = some { definition with props } ∧ definition.kind ≠ Kind.text.name

namespace Pass

variable {registry other : Registry} {limits : Limits} {reports : Bool} {x : String}

theorem Ends.shift {id : String} {scope : Scope} {spent after : Int} {node : Option Node}
    (ends : Ends registry limits reports id scope spent node after)
    (enough : after ≤ limits.maxNodes) (offset : Int) (room : after + offset ≤ limits.maxNodes) :
    Ends registry limits reports id scope (spent + offset) node (after + offset) := by
  cases ends with
  | absent missing => exact .absent missing
  | overLimit found beyond => omega
  | refused found within outlined =>
    rw [Int.add_right_comm] at room ⊢
    exact .refused found room outlined
  | nothing found within outlined =>
    rw [Int.add_right_comm] at room ⊢
    exact .nothing found room outlined

/-- A row that ends within the limit shows the same from any other count that leaves it room. -/
theorem Shows.shift {row : List (String × Scope)} {spent after : Int} {nodes : List Node}
    (shown : Shows registry limits reports row spent nodes after)
    (enough : after ≤ limits.maxNodes) (offset : Int) (room : after + offset ≤ limits.maxNodes) :
    Shows registry limits reports row (spent + offset) nodes (after + offset) := by
  induction shown with
  | nil spent => exact .nil _
  | ends first rest ih =>
    have later := rest.advance
    exact .ends (first.shift (by omega) offset (by omega)) (ih enough room)
  | framed found within outlined below rest ihBelow ih =>
    have inner := below.advance
    have later := rest.advance
    have children := ihBelow (by omega) (by omega)
    rw [Int.add_right_comm] at children
    exact .framed found (by omega) outlined children (ih enough room)

/-- A row is its first component and the rest. -/
theorem Shows.cons_inv {entry : String × Scope} {row : List (String × Scope)}
    {spent after : Int} {nodes : List Node}
    (shown : Shows registry limits reports (entry :: row) spent nodes after) :
    ∃ node middle others, Shows registry limits reports [entry] spent (Option.toList node) middle ∧
      Shows registry limits reports row middle others after ∧
      nodes = node.toList ++ others := by
  cases shown with
  | ends first rest => exact ⟨_, _, _, first.shows, rest, rfl⟩
  | framed found within outlined below rest =>
    exact ⟨some _, _, _, .framed found within outlined below (.nil _), rest, rfl⟩

/-- A row that ends within the limit spends the same in any order. -/
theorem Shows.perm {row row' : List (String × Scope)} (turned : row.Perm row') {spent after : Int}
    {nodes : List Node} (shown : Shows registry limits reports row spent nodes after)
    (enough : after ≤ limits.maxNodes) :
    ∃ nodes', Shows registry limits reports row' spent nodes' after := by
  induction turned generalizing spent nodes with
  | nil => exact ⟨nodes, shown⟩
  | cons entry _ ih =>
    obtain ⟨node, middle, others, first, rest, rfl⟩ := shown.cons_inv
    obtain ⟨others', rest'⟩ := ih rest
    exact ⟨_, first.append rest'⟩
  | swap entry entry' row =>
    obtain ⟨_, middle, _, first, rest, rfl⟩ := shown.cons_inv
    obtain ⟨_, last, _, second, tail, rfl⟩ := rest.cons_inv
    have before := first.advance
    have between := second.advance
    have later := tail.advance
    -- the second component takes the count of the first, and the first ends where both end
    have second' := second.shift (by omega) (spent - middle) (by omega)
    have first' := first.shift (by omega) (last - middle) (by omega)
    rw [show middle + (spent - middle) = spent by omega] at second'
    rw [show spent + (last - middle) = last + (spent - middle) by omega,
      show middle + (last - middle) = last by omega] at first'
    exact ⟨_, second'.append (first'.append tail)⟩
  | trans _ _ ih ih' =>
    obtain ⟨middle, shown'⟩ := ih shown
    exact ih' shown'

/-- A component that ends within the limit shows as with an ample budget. -/
theorem resolve_eq_ample {id : String} {scope : Scope} {start : Int}
    (enough : ((plain registry limits reports).resolve id scope start).2 ≤ limits.maxNodes) :
    ((plain registry limits reports).resolve id scope start).1 =
      .ok (ample registry limits reports id scope) := by
  obtain ⟨node, after, made, same⟩ := resolve_ample registry limits reports id scope start
  rw [made] at enough ⊢
  rw [same enough]

/-- Every component of a row that ends within the limit shows by itself as with an ample budget. -/
theorem Shows.resolve_alone {row : List (String × Scope)} {spent after : Int} {nodes : List Node}
    (shown : Shows registry limits reports row spent nodes after)
    (enough : after ≤ limits.maxNodes) {entry : String × Scope} (member : entry ∈ row) {start : Int}
    (earlier : start ≤ spent) :
    ((plain registry limits reports).resolve entry.1 entry.2 start).1 =
      .ok (ample registry limits reports entry.1 entry.2) := by
  induction row generalizing spent nodes with
  | nil => cases member
  | cons first row ih =>
    obtain ⟨node, middle, others, head, rest, rfl⟩ := shown.cons_inv
    have forth := head.advance
    have later := rest.advance
    rcases List.mem_cons.mp member with rfl | below
    · have alone := head.shift (by omega) (start - spent) (by omega)
      rw [show spent + (start - spent) = start by omega] at alone
      refine resolve_eq_ample ?_
      rw [alone.resolve_eq]
      omega
    · exact ih rest below (by omega)

/-- No label is taken from a component that is not a text. -/
theorem label_of_revised (revised : registry.Revised other x) (child : Option String)
    (data : Value) : label registry child data = label other child data := by
  cases child with
  | none => rfl
  | some key =>
    by_cases self : key = x
    · subst self
      obtain ⟨definition, props, found, found', notText⟩ := revised.own
      simp only [label, Option.bind_some, found, found', if_neg notText]
    · simp only [label, Option.bind_some, revised.same key self]

theorem outline_of_revised (revised : registry.Revised other x) (limits : Limits) (reports : Bool)
    (definition : Definition) (id : String) (scope : Scope) :
    outline registry limits reports definition id scope =
      outline other limits reports definition id scope := by
  have frames :
      frame? registry reports (scope.enter id) = frame? other reports (scope.enter id) := by
    funext component
    cases component with
    | button target primary action => simp only [frame?, label_of_revised revised]
    | _ => rfl
  simp only [outline, frames]

/-- A component on the way to itself has no frame, whatever its definition is. -/
theorem outline_on_way {id : String} {scope : Scope} (again : id ∈ scope.trail)
    (definition : Definition) :
    outline registry limits reports definition id scope = .error (.cycle id scope.trail) := by
  rw [outline, if_pos again]

/-- Below the component whose properties differ, every component is found with the same kind and
decides the same by itself. -/
theorem found_of_revised (revised : registry.Revised other x) {id : String} {scope : Scope}
    (below : x ∈ scope.trail) {definition : Definition}
    (found : registry.get? id = some definition) :
    ∃ definition', other.get? id = some definition' ∧ definition'.kind = definition.kind ∧
      ∀ limits reports, outline other limits reports definition' id scope =
        outline registry limits reports definition id scope := by
  by_cases self : id = x
  · subst self
    obtain ⟨own, props, found', found'', -⟩ := revised.own
    cases found.symm.trans found'
    refine ⟨_, found'', rfl, fun limits reports => ?_⟩
    rw [outline_on_way below, outline_on_way below]
  · exact ⟨definition, (revised.same id self).symm.trans found, rfl, fun limits reports =>
      (outline_of_revised revised limits reports definition id scope).symm⟩

theorem missing_of_revised (revised : registry.Revised other x) {id : String}
    (missing : registry.get? id = none) : other.get? id = none := by
  have apart : id ≠ x := by
    rintro rfl
    obtain ⟨own, _, found, -⟩ := revised.own
    cases missing.symm.trans found
  exact (revised.same id apart).symm.trans missing

theorem Ends.revise (revised : registry.Revised other x) {id : String} {scope : Scope}
    (below : x ∈ scope.trail) {spent after : Int} {node : Option Node}
    (ends : Ends registry limits reports id scope spent node after) :
    Ends other limits reports id scope spent node after := by
  cases ends with
  | absent missing => exact .absent (missing_of_revised revised missing)
  | overLimit found beyond =>
    obtain ⟨definition, found', kind, -⟩ := found_of_revised revised below found
    exact kind ▸ .overLimit found' beyond
  | refused found within outlined =>
    obtain ⟨definition, found', kind, same⟩ := found_of_revised revised below found
    exact kind ▸ .refused found' within ((same limits reports).trans outlined)
  | nothing found within outlined =>
    obtain ⟨definition, found', kind, same⟩ := found_of_revised revised below found
    exact .nothing found' within ((same limits reports).trans outlined)

/-- Below a component that is not a text, nothing is read of its properties. -/
theorem Shows.revise (revised : registry.Revised other x) {row : List (String × Scope)}
    {spent after : Int} {nodes : List Node}
    (shown : Shows registry limits reports row spent nodes after)
    (below : ∀ entry ∈ row, x ∈ entry.2.trail) :
    Shows other limits reports row spent nodes after := by
  induction shown with
  | nil spent => exact .nil spent
  | ends first _ ih =>
    rw [List.forall_mem_cons] at below
    exact .ends (first.revise revised below.1) (ih below.2)
  | framed found within outlined _ _ ihBelow ih =>
    rw [List.forall_mem_cons] at below
    obtain ⟨definition, found', -, same⟩ := found_of_revised revised below.1 found
    refine .framed found' within ((same limits reports).trans outlined) (ihBelow ?_) (ih below.2)
    intro entry member
    obtain ⟨-, -, component, -, framed⟩ := outline_ok outlined
    rw [trail_of_below framed member]
    exact List.mem_append_left _ below.1

/-- Below a component that is not a text, a row shows the same trees in any order. -/
theorem Shows.each_turned {ids others : List String} {scope : Scope} {spent after : Int}
    {nodes : List Node}
    (shown : Shows registry limits reports (ids.map (·, scope)) spent nodes after)
    (enough : after ≤ limits.maxNodes) (turned : ids.Perm others)
    (revised : registry.Revised other x) (below : x ∈ scope.trail) :
    each (plain other limits reports).resolve (others.map (·, scope)) spent =
      (.ok (others.filterMap fun child => ample registry limits reports child scope), after) := by
  obtain ⟨nodes', shown'⟩ := shown.perm (turned.map _) enough
  have onWay : ∀ entry ∈ others.map (·, scope), x ∈ entry.2.trail := by
    intro entry member
    obtain ⟨_, -, rfl⟩ := List.mem_map.mp member
    exact below
  rw [(shown'.revise revised onWay).each_eq, shown'.eq_ample enough, List.filterMap_map]
  rfl

/-- A row or a column has one and the same frame around any list of children. -/
theorem frame_of_listed {component : Component} {ids : List String}
    (listed : component.listed? = some ids) (scope : Scope) :
    ∃ frame : Frame, ∀ registry reports others,
      frame? registry reports scope (component.relist others) =
        .ok (some { frame with below := others.map (·, scope) }) := by
  unfold Component.listed? at listed
  split at listed
  · next alignment =>
    exact ⟨{ kind := .column,
             props := [("alignment",
               .str (Catalog.choose Catalog.alignments "start" alignment))] },
      fun _ _ _ => rfl⟩
  · next distribution =>
    exact ⟨{ kind := .row,
             props := [("distribution",
               .str (Catalog.choose Catalog.distributions "start" distribution))] },
      fun _ _ _ => rfl⟩
  · cases listed

theorem outline_of_parse {definition : Definition} {component : Component} {id : String}
    {scope : Scope} {frame : Option Frame}
    (parsed : Component.parse definition.kind definition.props = .ok component)
    (new : id ∉ scope.trail) (room : scope.trail.length < limits.maxDepth)
    (framed : frame? registry reports (scope.enter id) component = .ok frame) :
    outline registry limits reports definition id scope = .ok frame := by
  have shallow : ¬ limits.maxDepth ≤ scope.trail.length := by omega
  simp only [outline, if_neg new, if_neg shallow, parsed, framed]

theorem listScopes?_eq_none_iff {children : Option Children} {scope : Scope} :
    listScopes? children scope = none ↔ ¬ Children.Bound children scope.data := by
  rcases children with _ | ⟨ids, _ | ⟨componentId, binding⟩⟩
  · simp [listScopes?, Children.Bound]
  · simp [listScopes?, Children.Bound]
  · cases binding with
    | none => simp [listScopes?, Template.listChildren?, Template.items?, Template.bound,
        Children.Bound]
    | some path =>
      simp only [listScopes?, Template.listChildren?, Option.map_eq_none_iff, Template.items?,
        Template.bound]
      by_cases empty : path = ""
      · simp [Children.Bound, empty]
      · cases read : scope.data.read (Path.segments path) <;>
          simp [Children.Bound, empty, read]

/-- A component decides to show as nothing when its kind is not known, and when it is a list that
is bound to nothing with elements. -/
theorem outline_eq_none_iff {definition : Definition} {id : String} {scope : Scope} :
    outline registry limits reports definition id scope = .ok none ↔
      id ∉ scope.trail ∧ scope.trail.length < limits.maxDepth ∧
        (Kind.ofName? definition.kind = none ∨
          ∃ children, Component.parse definition.kind definition.props = .ok (.list children) ∧
            ¬ Children.Bound children scope.data) := by
  constructor
  · intro outlined
    obtain ⟨new, room, component, parsed, framed⟩ := outline_ok outlined
    refine ⟨new, room, ?_⟩
    cases component with
    | unknown kind body => exact .inl (Component.kind?_of_parse parsed).symm
    | list children =>
      have unbound : listScopes? children (scope.enter id) = none := by
        simpa [frame?] using framed
      have bare := listScopes?_eq_none_iff.mp unbound
      exact .inr ⟨children, parsed, bare⟩
    | text _ _ | button _ _ _ =>
      obtain ⟨shown, -, same⟩ := Result.map_eq_ok_iff.mp framed
      cases same
    | _ => cases framed
  · rintro ⟨new, room, unknown | ⟨children, parsed, unbound⟩⟩
    · obtain ⟨body, parsed⟩ : ∃ body, Component.parse definition.kind definition.props =
          .ok (.unknown definition.kind body) := by
        simp only [Component.parse, unknown]
        exact ⟨_, rfl⟩
      exact outline_of_parse parsed new room rfl
    · have nothing : listScopes? children (scope.enter id) = none :=
        listScopes?_eq_none_iff.mpr unbound
      exact outline_of_parse parsed new room (by simp only [frame?, nothing]; rfl)

theorem resolve_eq_none_iff {id : String} {scope : Scope} {spent : Int} :
    (∃ after, (plain registry limits reports).resolve id scope spent = (.ok none, after)) ↔
      ∃ definition, registry.get? id = some definition ∧ spent + 1 ≤ limits.maxNodes ∧
        outline registry limits reports definition id scope = .ok none := by
  constructor
  · rintro ⟨after, made⟩
    rcases resolve_cases registry limits reports id scope spent with
      ⟨_, _, ends, shown⟩ | ⟨_, _, _, _, -, -, -, -, shown⟩
    · cases made.symm.trans shown
      cases ends with
      | nothing found within outlined => exact ⟨_, found, within, outlined⟩
    · cases made.symm.trans shown
  · rintro ⟨definition, found, within, outlined⟩
    exact ⟨_, (Ends.nothing found within outlined).resolve_eq⟩

/-- The children of a row or a column that lists them, and that stands within the limits of a pass
which ends within its budget. They are, in the order of the list, what each listed component shows
by itself inside the container: from the start of a budget, from any other earlier count, and from
any count at which it ends within the budget. Those that show as nothing leave no gap. A container
that lists the same components in another order is the same around its children in that order, and
spends as much. And a component shows as nothing exactly if it is registered, within all limits and
not on the way to itself, and has an unknown kind or is a list that is bound to nothing with
elements. -/
theorem resolve_children (registry : Registry) (limits : Limits) (reports : Bool) (id : String)
    (scope : Scope) (spent : Int) :
    let pass := plain registry limits reports
    (∀ definition component ids, registry.get? id = some definition →
      Component.parse definition.kind definition.props = .ok component →
      component.listed? = some ids → id ∉ scope.trail → scope.trail.length < limits.maxDepth →
      (pass.resolve id scope spent).2 ≤ limits.maxNodes →
      ∃ (frame : Frame) (tree : String → Option Node) (after : Int),
        frame? registry reports (scope.enter id) component = .ok (some frame) ∧
        pass.resolve id scope spent =
          (.ok (some (frame.node id (ids.filterMap tree))), after) ∧
        (∀ child ∈ ids, ∀ start,
          start ≤ spent ∨ (pass.resolve child (scope.enter id) start).2 ≤ limits.maxNodes →
          (pass.resolve child (scope.enter id) start).1 = .ok (tree child)) ∧
        ∀ (other : Registry) props others, (∀ key, key ≠ id → registry.get? key = other.get? key) →
          other.get? id = some { definition with props } →
          Component.parse definition.kind props = .ok (component.relist others) →
          ids.Perm others →
          (plain other limits reports).resolve id scope spent =
            (.ok (some (frame.node id (others.filterMap tree))), after)) ∧
    ((∃ after, pass.resolve id scope spent = (.ok none, after)) ↔
      ∃ definition, registry.get? id = some definition ∧ spent + 1 ≤ limits.maxNodes ∧
        id ∉ scope.trail ∧ scope.trail.length < limits.maxDepth ∧
        (Kind.ofName? definition.kind = none ∨
          ∃ children, Component.parse definition.kind definition.props = .ok (.list children) ∧
            ¬ Children.Bound children scope.data)) := by
  intro pass
  refine ⟨?_, ?_⟩
  · intro definition component ids found parsed listed new room enough
    have within := within_of_resolve pass found enough
    obtain ⟨frame, framed⟩ := frame_of_listed listed (scope.enter id)
    have own := framed registry reports ids
    rw [Component.relist_listed listed] at own
    have outlined := outline_of_parse parsed new room own
    obtain ⟨nodes, after, below, shown⟩ := each_shows (ids.map (·, scope.enter id))
      (fun entry _ => resolve_shows registry limits reports entry.1 entry.2) (spent + 1)
    have made := resolve_framed found within outlined below
    have ended : after ≤ limits.maxNodes := by
      have same : pass.resolve id scope spent = _ := made
      rwa [same] at enough
    let tree (child : String) := ample registry limits reports child (scope.enter id)
    have trees : nodes = ids.filterMap tree := by
      rw [shown.eq_ample ended, List.filterMap_map]
      rfl
    refine ⟨_, tree, after, own, trees ▸ made, ?_, ?_⟩
    · rintro child member start (earlier | alone)
      · exact shown.resolve_alone ended (List.mem_map_of_mem member) (by omega)
      · exact resolve_eq_ample alone
    · intro other props others same found' parsed' turned
      have revised : registry.Revised other id :=
        ⟨same, definition, props, found, found', Component.ne_text_of_listed? parsed listed⟩
      have outlined' : outline other limits reports { definition with props } id scope =
          .ok (some { frame with below := others.map (·, scope.enter id) }) :=
        outline_of_parse parsed' new room (framed other reports others)
      have onWay : id ∈ (scope.enter id).trail :=
        List.mem_append_right _ (List.mem_singleton_self id)
      have below' := shown.each_turned ended turned revised onWay
      have made' := resolve_framed found' within outlined' below'
      exact made'
  · simp only [pass, resolve_eq_none_iff, outline_eq_none_iff]

/-- A column of a text, a missing reference, a component of an unknown kind and a divider shows its
children the other way round when its list is turned around. -/
theorem resolve_children_of_turned :
    let ids := ["text", "gone", "odd", "line"]
    let column (ids : List String) : Definition :=
      ⟨"root", none, "Column", .obj [("children", Children.toValue ⟨some ids, none⟩)]⟩
    let registry (ids : List String) : Registry :=
      [column ids, ⟨"text", none, "Text", .null⟩, ⟨"odd", none, "Sparkle", .null⟩,
        ⟨"line", none, "Divider", .null⟩]
    let shown (ids : List String) :=
      (plain (registry ids) ⟨5, 9⟩ true).resolve "root" ⟨.null, []⟩ 0
    (registry ids).get? "root" = some (column ids) ∧
    Component.parse "Column" (column ids).props = .ok (.column (some ⟨some ids, none⟩) none) ∧
    (shown ids).2 ≤ 9 ∧
    (∀ key, key ≠ "root" → (registry ids).get? key = (registry ids.reverse).get? key) ∧
    ids.Perm ids.reverse ∧
    ∃ (frame : Frame) (tree : String → Option Node) (after : Int),
      shown ids = (.ok (some (frame.node "root" (ids.filterMap tree))), after) ∧
      shown ids.reverse = (.ok (some (frame.node "root" (ids.reverse.filterMap tree))), after) ∧
      tree "odd" = none := by
  intro ids column registry shown
  have found : (registry ids).get? "root" = some (column ids) := rfl
  have parsed : Component.parse "Column" (column ids).props =
    .ok (.column (some ⟨some ids, none⟩) none) := rfl
  have enough : (shown ids).2 ≤ 9 := by decide
  have same : ∀ key, key ≠ "root" → (registry ids).get? key = (registry ids.reverse).get? key := by
    intro key other
    have apart : ¬ "root" = key := Ne.symm other
    simp [registry, Registry.get?, column, apart]
  have turned : ids.Perm ids.reverse := ids.reverse_perm.symm
  obtain ⟨frame, tree, after, -, made, alone, others⟩ :=
    (resolve_children (registry ids) ⟨5, 9⟩ true "root" ⟨.null, []⟩ 0).1 (column ids)
      (.column (some ⟨some ids, none⟩) none) ids found parsed rfl List.not_mem_nil (by decide)
      enough
  have made' := others (registry ids.reverse) (column ids.reverse).props ids.reverse same rfl rfl
    turned
  have nothing := alone "odd" (by decide) 0 (.inl (Int.le_refl 0))
  have odd : tree "odd" = none := (Except.ok.inj nothing).symm
  exact ⟨found, parsed, enough, same, turned, frame, tree, after, made, made', odd⟩

end Pass
end LiveSurface
