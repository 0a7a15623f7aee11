import LiveSurface.Proofs.Render.Containment
import LiveSurface.Proofs.Render.Steady

/-!
# Siblings

Components that stand side by side share the count of what is spent and nothing else. So while the
budget lasts, a container is made from what each of its children shows by itself, whatever fails in
the others, unless a child lets a failure through its own error boundary, and then the first such
failure is the failure of the container (`resolve_siblings`). A failure gets through only where the
maker of missing references fails, or that of cycles.
-/
namespace LiveSurface

variable {ν : Type}

/-- The makers of errors, and of containers with any number of children, never fail. -/
structure Primitives.Encloses (host : Primitives ν) : Prop where
  error : ∀ id kind message, ∃ node, host.error id kind message = .ok node
  column : ∀ id nodes alignment, ∃ node, host.column id nodes alignment = .ok node
  row : ∀ id nodes distribution, ∃ node, host.row id nodes distribution = .ok node
  list : ∀ id nodes, ∃ node, host.list id nodes = .ok node

/-- What comes out of the error boundary of a component. -/
def Primitives.boundary (host : Primitives ν) (id kind : String) (trail : List String) :
    Except Failure (Option ν) → Except HostFailure (Option ν)
  | .ok node => .ok node
  | .error failure => (host.diagnose failure id kind trail).map some

namespace Component

/-- The components below a container with any number of children, where it is bound to some. -/
def childScopes? (scope : Scope) : Component → Option (List (String × Scope))
  | .column children _ => some (Pass.columnScopes children scope)
  | .row children _ => some (Pass.rowScopes children scope)
  | .list children => Pass.listScopes? children scope
  | _ => none

/-- What a host makes of such a container around nodes. -/
def enclose (host : Primitives ν) (id : String) (nodes : List ν) :
    Component → Except HostFailure ν
  | .column _ alignment =>
    host.column id nodes (Catalog.choose Catalog.alignments "start" alignment)
  | .row _ distribution =>
    host.row id nodes (Catalog.choose Catalog.distributions "start" distribution)
  | _ => host.list id nodes

theorem enclose_ok {host : Primitives ν} (encloses : host.Encloses) (id : String)
    (nodes : List ν) (component : Component) :
    ∃ node, component.enclose host id nodes = .ok node := by
  cases component with
  | column children alignment => exact encloses.column ..
  | row children distribution => exact encloses.row ..
  | _ => exact encloses.list id nodes

end Component

namespace Pass

variable {row : List (String × Scope)}

/-- What a registered component comes to inside its error boundary, once it is spent. -/
def inside (pass : Pass ν) (definition : Definition) (id : String) (scope : Scope) (spent : Int) :
    Spent Failure (Option ν) :=
  if id ∈ scope.trail then (.error (.cycle id scope.trail), spent)
  else if pass.limits.maxDepth ≤ scope.trail.length then
    (.error (.tooDeep pass.limits.maxDepth id), spent)
  else
    match Component.parse definition.kind definition.props with
    | .error fault => (.error (.properties fault), spent)
    | .ok component => make pass pass.resolve id component (scope.enter id) spent

/-- The maker that the diagnostic of a component may need beside that of errors works: that of
missing references where the component is missing, and that of cycles where it is registered. -/
def Catches (pass : Pass ν) (entry : String × Scope) : Prop :=
  match pass.registry.get? entry.1 with
  | none => ∃ node, pass.primitives.notFound entry.1 = .ok node
  | some _ => ∃ node, pass.primitives.cycle entry.1 entry.2.trail = .ok node

theorem resolve_missing (pass : Pass ν) {id : String} (missing : pass.registry.get? id = none)
    (scope : Scope) (spent : Int) :
    pass.resolve id scope spent = ((pass.primitives.notFound id).map some, spent) := by
  rw [resolve_eq_attempt, attempt, missing]

/-- Within the budget a registered component is what it comes to inside its boundary. -/
theorem resolve_inside (pass : Pass ν) {id : String} {definition : Definition}
    (found : pass.registry.get? id = some definition) (scope : Scope) {spent : Int}
    (within : spent + 1 ≤ pass.limits.maxNodes) :
    pass.resolve id scope spent =
      contain pass.primitives id definition.kind scope.trail
        (pass.inside definition id scope (spent + 1)) := by
  have before : ¬ (pass.limits.maxNodes : Int) < spent + 1 := by omega
  simp only [resolve_eq_attempt, attempt, found, if_neg before]
  rfl

/-- A registered component that ends within the budget was spent within it. -/
theorem within_of_resolve (pass : Pass ν) {id : String} {definition : Definition}
    (found : pass.registry.get? id = some definition) {scope : Scope} {spent : Int}
    (enough : (pass.resolve id scope spent).2 ≤ pass.limits.maxNodes) :
    spent + 1 ≤ pass.limits.maxNodes := by
  refine Decidable.of_not_not fun beyond => ?_
  have after : (pass.limits.maxNodes : Int) < spent + 1 := by omega
  rw [resolve_eq_attempt, attempt, found] at enough
  simp only [if_pos after] at enough
  exact beyond enough

@[simp] theorem contain_snd (host : Primitives ν) (id kind : String) (trail : List String)
    (made : Spent Failure (Option ν)) : (contain host id kind trail made).2 = made.2 := by
  rcases made with ⟨failure | node, spent⟩ <;> rfl

theorem contain_fst (host : Primitives ν) (id kind : String) (trail : List String)
    (made : Spent Failure (Option ν)) :
    (contain host id kind trail made).1 = host.boundary id kind trail made.1 := by
  rcases made with ⟨failure | node, spent⟩ <;> rfl

@[simp] theorem finish_snd {α : Type} (made : Spent HostFailure α)
    (maker : α → Except HostFailure ν) : (finish made maker).2 = made.2 := by
  rcases made with ⟨failure | parts, spent⟩ <;> rfl

/-- A container with room below it comes to what is made of its row. -/
theorem inside_of_bound (pass : Pass ν) {definition : Definition} {component : Component}
    {id : String} {scope : Scope}
    (parsed : Component.parse definition.kind definition.props = .ok component)
    (bound : component.childScopes? (scope.enter id) = some row) (new : id ∉ scope.trail)
    (room : scope.trail.length < pass.limits.maxDepth) (spent : Int) :
    pass.inside definition id scope spent =
      finish (each pass.resolve row spent) (component.enclose pass.primitives id) := by
  have shallow : ¬ pass.limits.maxDepth ≤ scope.trail.length := by omega
  simp only [inside, if_neg new, if_neg shallow, parsed]
  cases component with
  | column children alignment => cases bound; rfl
  | row children distribution => cases bound; rfl
  | list children =>
    have scopes : listScopes? children (scope.enter id) = some row := bound
    simp only [make, scopes]
    rfl
  | _ => cases bound

theorem resolve_alone (pass : Pass ν) {entry : String × Scope} {start : Int}
    (within : start + 1 ≤ pass.limits.maxNodes) :
    (pass.resolve entry.1 entry.2 start).1 =
      match pass.registry.get? entry.1 with
      | none => (pass.primitives.notFound entry.1).map some
      | some definition =>
        pass.primitives.boundary entry.1 definition.kind entry.2.trail
          (pass.inside definition entry.1 entry.2 (start + 1)).1 := by
  cases found : pass.registry.get? entry.1 with
  | none => rw [resolve_missing pass found]
  | some definition => rw [resolve_inside pass found entry.2 within, contain_fst]

/-- Nothing gets through the boundary of a component while its diagnostics can be made. -/
theorem resolve_ok_of_catches (pass : Pass ν) (encloses : pass.primitives.Encloses)
    {entry : String × Scope} {start : Int} (within : start + 1 ≤ pass.limits.maxNodes)
    (catches : pass.Catches entry) : ∃ node, (pass.resolve entry.1 entry.2 start).1 = .ok node := by
  rw [resolve_alone pass within]
  unfold Catches at catches
  cases found : pass.registry.get? entry.1 with
  | none =>
    rw [found] at catches
    obtain ⟨node, made⟩ := catches
    exact ⟨some node, by simp only [made]; rfl⟩
  | some definition =>
    rw [found] at catches
    dsimp only
    cases (pass.inside definition entry.1 entry.2 (start + 1)).1 with
    | ok node => exact ⟨node, rfl⟩
    | error failure =>
      obtain ⟨node, made⟩ :=
        pass.primitives.diagnose_ok encloses.error catches failure definition.kind
      exact ⟨some node, by rw [Primitives.boundary, made]; rfl⟩

theorem mapM_ok {α β : Type} {shown : α → Except HostFailure β} {row : List α}
    (each : ∀ a ∈ row, ∃ b, shown a = .ok b) : ∃ made, row.mapM shown = .ok made := by
  induction row with
  | nil => exact ⟨[], rfl⟩
  | cons a rest ih =>
    obtain ⟨b, first⟩ := each a (by simp)
    obtain ⟨others, tail⟩ := ih fun a member => each a (by simp [member])
    exact ⟨b :: others, by rw [List.mapM_cons, first, tail]; rfl⟩

/-- A column, row or list within the limits, in a host that may fail in any maker but those of
errors and of these containers, whatever stands below it. What its children show by themselves, at
any count that is not later, decides what it shows. While none of them lets a failure through, it
is the container around their nodes, in order and without those that show as nothing; and none
does while the diagnostics that it may need can be made. A child that fails inside its boundary
stands as its diagnostic, and a missing child as a missing reference. But a failure of such a
diagnostic is the failure of the container. -/
theorem resolve_siblings (pass : Pass ν) (encloses : pass.primitives.Encloses) {id : String}
    {definition : Definition} {component : Component} {scope : Scope} {start spent : Int}
    (found : pass.registry.get? id = some definition)
    (parsed : Component.parse definition.kind definition.props = .ok component)
    (bound : component.childScopes? (scope.enter id) = some row) (new : id ∉ scope.trail)
    (room : scope.trail.length < pass.limits.maxDepth) (earlier : start ≤ spent)
    (enough : (pass.resolve id scope spent).2 ≤ pass.limits.maxNodes) :
    let host := pass.primitives
    let shown (entry : String × Scope) := (pass.resolve entry.1 entry.2 start).1
    (∀ nodes, row.mapM shown = .ok nodes →
      ∃ node, component.enclose host id nodes.reduceOption = .ok node ∧
        (pass.resolve id scope spent).1 = .ok (some node)) ∧
    (∀ failure, row.mapM shown = .error failure →
      (pass.resolve id scope spent).1 =
        (host.diagnose (.host failure) id definition.kind scope.trail).map some) ∧
    ((∀ entry ∈ row, pass.Catches entry) → ∃ nodes, row.mapM shown = .ok nodes) ∧
    ∀ entry ∈ row, shown entry =
      match pass.registry.get? entry.1 with
      | none => (host.notFound entry.1).map some
      | some child =>
        host.boundary entry.1 child.kind entry.2.trail
          (pass.inside child entry.1 entry.2 (start + 1)).1 := by
  intro host shown
  have within := pass.within_of_resolve found enough
  have made := (pass.resolve_inside found scope within).trans
    (congrArg _ (pass.inside_of_bound parsed bound new room (spent + 1)))
  have below : (each pass.resolve row (spent + 1)).2 ≤ pass.limits.maxNodes := by
    rwa [made, contain_snd, finish_snd] at enough
  have alone := each_eq_mapM (fun entry _ => pass.resolve_steady entry.1 entry.2)
    (show start ≤ spent + 1 by omega) below
  refine ⟨?_, ?_, ?_, ?_⟩
  · intro nodes all
    obtain ⟨node, around⟩ := component.enclose_ok encloses id nodes.reduceOption
    refine ⟨node, around, ?_⟩
    rw [made]
    rw [all] at alone
    generalize each pass.resolve row (spent + 1) = result at alone ⊢
    obtain ⟨_, after⟩ := result
    cases alone
    simp only [finish, around]
    rfl
  · intro failure first
    rw [made]
    rw [first] at alone
    generalize each pass.resolve row (spent + 1) = result at alone ⊢
    obtain ⟨_, after⟩ := result
    cases alone
    rfl
  · intro catches
    exact mapM_ok fun entry member =>
      pass.resolve_ok_of_catches encloses (by omega) (catches entry member)
  · intro entry _
    exact pass.resolve_alone (by omega)

/-- A host that can make neither texts nor cards shows a missing reference between two siblings. -/
theorem resolve_siblings_of_failing_text :
    let host : Primitives Node :=
      { Node.primitives with
        text := fun _ _ _ => .error (.coded "no texts" "text")
        card := fun _ _ => .error (.plain "no cards") }
    let children : Children := ⟨some ["a", "gone", "b"], none⟩
    let root : Definition := ⟨"root", none, "Column", .obj [("children", children.toValue)]⟩
    let registry : Registry := [root, ⟨"a", none, "Text", .null⟩, ⟨"b", none, "Divider", .null⟩]
    let pass : Pass Node := ⟨host, registry, ⟨5, 10⟩, true⟩
    let row : List (String × Scope) :=
      [("a", ⟨.null, ["root"]⟩), ("gone", ⟨.null, ["root"]⟩), ("b", ⟨.null, ["root"]⟩)]
    host.Encloses ∧ (∀ entry ∈ row, pass.Catches entry) ∧
    registry.get? "root" = some root ∧
    Component.parse root.kind root.props = .ok (.column children none) ∧
    (Component.column children none).childScopes? (Scope.enter ⟨.null, []⟩ "root") = some row ∧
    (pass.resolve "root" ⟨.null, []⟩ 0).2 ≤ 10 ∧
    ∃ nodes node, (row.mapM fun entry => (pass.resolve entry.1 entry.2 0).1) = .ok nodes ∧
      (pass.resolve "root" ⟨.null, []⟩ 0).1 = .ok (some node) := by
  intro host children root registry pass row
  have encloses : host.Encloses :=
    ⟨fun _ _ _ => ⟨_, rfl⟩, fun _ _ _ => ⟨_, rfl⟩, fun _ _ _ => ⟨_, rfl⟩, fun _ _ => ⟨_, rfl⟩⟩
  have catches : ∀ entry ∈ row, pass.Catches entry := by
    simp only [row, List.forall_mem_cons, List.not_mem_nil, false_implies, implies_true, and_true]
    exact ⟨⟨_, rfl⟩, ⟨_, rfl⟩, ⟨_, rfl⟩⟩
  have found : registry.get? "root" = some root := rfl
  have parsed : Component.parse root.kind root.props = .ok (.column children none) := rfl
  have bound : (Component.column children none).childScopes? (Scope.enter ⟨.null, []⟩ "root") =
    some row := rfl
  have enough : (pass.resolve "root" ⟨.null, []⟩ 0).2 ≤ pass.limits.maxNodes := by decide
  obtain ⟨shown, -, every, -⟩ := resolve_siblings pass encloses found parsed bound
    (List.not_mem_nil) (by decide) (Int.le_refl 0) enough
  obtain ⟨nodes, all⟩ := every catches
  obtain ⟨node, -, made⟩ := shown nodes all
  exact ⟨encloses, catches, found, parsed, bound, enough, nodes, node, all, made⟩

/-- A host that fails only over missing references loses the siblings of one: the column that
refers to it becomes an error, and what stands after the reference is not even shown. -/
theorem siblings_lost_of_failing_notFound :
    let host : Primitives Node :=
      { Node.primitives with notFound := fun _ => .error (.plain "boom") }
    let children : Children := ⟨some ["a", "gone", "b"], none⟩
    let root : Definition := ⟨"root", none, "Column", .obj [("children", children.toValue)]⟩
    let registry : Registry := [root, ⟨"a", none, "Text", .null⟩, ⟨"b", none, "Divider", .null⟩]
    let pass : Pass Node := ⟨host, registry, ⟨5, 10⟩, true⟩
    host.Encloses ∧ Component.parse root.kind root.props = .ok (.column children none) ∧
    pass.resolve "root" ⟨.null, []⟩ 0 =
      (.ok (some (.mk .error "root" "Error rendering Column"
        [("component_kind", .str "Column"), ("message", .str "boom")] none [])), 2) := by
  intro host children root registry pass
  refine ⟨⟨?_, ?_, ?_, ?_⟩, rfl, rfl⟩
  · exact fun id kind message => ⟨_, rfl⟩
  · exact fun id nodes alignment => ⟨_, rfl⟩
  · exact fun id nodes distribution => ⟨_, rfl⟩
  · exact fun id nodes => ⟨_, rfl⟩

end Pass
end LiveSurface
