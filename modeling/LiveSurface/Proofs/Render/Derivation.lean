import LiveSurface.Proofs.Render.Outline

/-!
# Derivations of passes

What a pass with plain nodes shows, as rules on rows of components: a row is shown from the front,
the first component and everything below it before the rest, and one count of what is spent runs
through all of it. Every pass has a derivation (`resolve_shows`), so what holds along the rules
holds of passes, and every pass comes to an end with a result.
-/
namespace LiveSurface.Pass

section
variable (registry : Registry) (limits : Limits) (reports : Bool)

/-- A component that ends where it stands, with nothing shown below it: its node, if it shows as
anything, and what is spent by then. -/
inductive Ends : String → Scope → Int → Option Node → Int → Prop
  | absent {id : String} {scope : Scope} {spent : Int} (missing : registry.get? id = none) :
    Ends id scope spent (some (.absent id)) spent
  | overLimit {id : String} {scope : Scope} {spent : Int} {definition : Definition}
    (found : registry.get? id = some definition) (beyond : limits.maxNodes < spent + 1) :
    Ends id scope spent
      (some (.failed id definition.kind (LiveSurface.overLimit limits.maxNodes id))) (spent + 1)
  | refused {id : String} {scope : Scope} {spent : Int} {definition : Definition}
    {failure : Failure} (found : registry.get? id = some definition)
    (within : spent + 1 ≤ limits.maxNodes)
    (outlined : outline registry limits reports definition id scope = .error failure) :
    Ends id scope spent (some (failure.diagnostic id definition.kind scope.trail)) (spent + 1)
  | nothing {id : String} {scope : Scope} {spent : Int} {definition : Definition}
    (found : registry.get? id = some definition) (within : spent + 1 ≤ limits.maxNodes)
    (outlined : outline registry limits reports definition id scope = .ok none) :
    Ends id scope spent none (spent + 1)

/-- A row of components, its nodes, and what is spent before and after. -/
inductive Shows : List (String × Scope) → Int → List Node → Int → Prop
  | nil (spent : Int) : Shows [] spent [] spent
  | ends {id : String} {scope : Scope} {row : List (String × Scope)} {spent middle after : Int}
    {node : Option Node} {nodes : List Node}
    (first : Ends registry limits reports id scope spent node middle)
    (rest : Shows row middle nodes after) :
    Shows ((id, scope) :: row) spent (node.toList ++ nodes) after
  | framed {id : String} {scope : Scope} {row : List (String × Scope)}
    {spent middle after : Int} {definition : Definition} {frame : Frame}
    {children nodes : List Node} (found : registry.get? id = some definition)
    (within : spent + 1 ≤ limits.maxNodes)
    (outlined : outline registry limits reports definition id scope = .ok (some frame))
    (below : Shows frame.below (spent + 1) children middle)
    (rest : Shows row middle nodes after) :
    Shows ((id, scope) :: row) spent (frame.node id children :: nodes) after

end

variable {registry : Registry} {limits : Limits} {reports : Bool}

theorem Ends.shows {id : String} {scope : Scope} {spent after : Int} {node : Option Node}
    (ends : Ends registry limits reports id scope spent node after) :
    Shows registry limits reports [(id, scope)] spent node.toList after := by
  simpa using Shows.ends ends (.nil after)

theorem Ends.children {id : String} {scope : Scope} {spent after : Int} {tree : Node}
    (ends : Ends registry limits reports id scope spent (some tree) after) :
    tree.children = [] := by
  cases ends with
  | absent missing => rfl
  | overLimit found beyond => rfl
  | refused found within outlined => exact Failure.diagnostic_children ..

theorem Shows.append {row more : List (String × Scope)} {spent middle after : Int}
    {nodes others : List Node} (shown : Shows registry limits reports row spent nodes middle)
    (rest : Shows registry limits reports more middle others after) :
    Shows registry limits reports (row ++ more) spent (nodes ++ others) after := by
  induction shown with
  | nil spent => exact rest
  | ends first _ ih =>
    rw [List.append_assoc]
    exact .ends first (ih rest)
  | framed found within outlined below _ _ ih => exact .framed found within outlined below (ih rest)

theorem Ends.advance {id : String} {scope : Scope} {spent after : Int} {node : Option Node}
    (ends : Ends registry limits reports id scope spent node after) : spent ≤ after := by
  cases ends <;> omega

/-- The count of what is spent never goes down. -/
theorem Shows.advance {row : List (String × Scope)} {spent after : Int} {nodes : List Node}
    (shown : Shows registry limits reports row spent nodes after) : spent ≤ after := by
  induction shown with
  | nil spent => exact Int.le_refl spent
  | ends first _ ih =>
    have := first.advance
    omega
  | framed found within outlined _ _ ihBelow ih => omega

theorem contain_error (id kind : String) (trail : List String) (failure : Failure) (spent : Int) :
    contain Node.primitives id kind trail (.error failure, spent) =
      (.ok (some (failure.diagnostic id kind trail)), spent) := by
  cases cyclic : failure.isCycle <;> simp [contain, Failure.diagnostic, cyclic] <;> rfl

/-- The step of a pass with plain nodes, read off the outline of a component. -/
theorem attempt_plain (child : Resolve Node) (id : String) (scope : Scope) (spent : Int) :
    (plain registry limits reports).attempt child id scope spent =
      match registry.get? id with
      | none => (.ok (some (.absent id)), spent)
      | some definition =>
        if limits.maxNodes < spent + 1 then
          (.ok (some (.failed id definition.kind (overLimit limits.maxNodes id))), spent + 1)
        else
          match outline registry limits reports definition id scope with
          | .error failure =>
            (.ok (some (failure.diagnostic id definition.kind scope.trail)), spent + 1)
          | .ok none => (.ok none, spent + 1)
          | .ok (some frame) =>
            contain Node.primitives id definition.kind scope.trail
              (finish (each child frame.below (spent + 1)) fun nodes =>
                .ok (frame.node id nodes)) := by
  simp only [attempt, plain_primitives, plain_registry, plain_limits]
  cases registry.get? id with
  | none => rfl
  | some definition =>
    dsimp only
    by_cases beyond : limits.maxNodes < spent + 1
    · simp only [beyond, ↓reduceIte]
      rfl
    · simp only [beyond, ↓reduceIte]
      by_cases again : id ∈ scope.trail
      · simp only [outline, again, ↓reduceIte, contain_error]
      · by_cases deep : limits.maxDepth ≤ scope.trail.length
        · simp only [outline, again, deep, ↓reduceIte, contain_error]
        · simp only [outline, again, deep, ↓reduceIte, make_plain]
          cases Component.parse definition.kind definition.props with
          | error fault => exact contain_error ..
          | ok component =>
            dsimp only
            cases frame? registry reports (scope.enter id) component with
            | error fault => exact contain_error ..
            | ok frame => cases frame <;> rfl

/-- A row is shown as its components are. -/
theorem each_shows {child : Resolve Node} (row : List (String × Scope))
    (shown : ∀ entry ∈ row, ∀ spent, ∃ node after,
      child entry.1 entry.2 spent = (.ok node, after) ∧
        Shows registry limits reports [entry] spent node.toList after) (spent : Int) :
    ∃ nodes after, each child row spent = (.ok nodes, after) ∧
      Shows registry limits reports row spent nodes after := by
  induction row generalizing spent with
  | nil => exact ⟨[], spent, rfl, .nil spent⟩
  | cons entry rest ih =>
    obtain ⟨node, middle, first, head⟩ := shown entry (by simp) spent
    obtain ⟨nodes, after, others, tail⟩ :=
      ih (fun entry member => shown entry (by simp [member])) middle
    refine ⟨node.toList ++ nodes, after, ?_, head.append tail⟩
    simp only [each, first, others]

/-- Every pass with plain nodes ends with a result that has a derivation. -/
theorem resolve_shows (registry : Registry) (limits : Limits) (reports : Bool) (id : String)
    (scope : Scope) (spent : Int) :
    ∃ node after, (plain registry limits reports).resolve id scope spent = (.ok node, after) ∧
      Shows registry limits reports [(id, scope)] spent node.toList after := by
  rw [resolve_eq_attempt, attempt_plain]
  cases found : registry.get? id with
  | none => exact ⟨_, _, rfl, (Ends.absent found).shows⟩
  | some definition =>
    dsimp only
    by_cases beyond : limits.maxNodes < spent + 1
    · simp only [beyond, ↓reduceIte]
      exact ⟨_, _, rfl, (Ends.overLimit found beyond).shows⟩
    · have within : spent + 1 ≤ limits.maxNodes := by omega
      simp only [beyond, ↓reduceIte]
      cases outlined : outline registry limits reports definition id scope with
      | error failure => exact ⟨_, _, rfl, (Ends.refused found within outlined).shows⟩
      | ok frame =>
        cases frame with
        | none => exact ⟨_, _, rfl, (Ends.nothing found within outlined).shows⟩
        | some frame =>
          have below := each_shows frame.below (fun entry member spent =>
            have deeper := room_of_below outlined member
            resolve_shows registry limits reports entry.1 entry.2 spent) (spent + 1)
          obtain ⟨children, after, made, shown⟩ := below
          refine ⟨some (frame.node id children), after, ?_, ?_⟩
          · simp only [made]
            rfl
          · exact .framed found within outlined shown (.nil after)
termination_by limits.maxDepth - scope.trail.length
decreasing_by exact deeper

theorem Ends.resolve_eq {id : String} {scope : Scope} {spent after : Int} {node : Option Node}
    (ends : Ends registry limits reports id scope spent node after) :
    (plain registry limits reports).resolve id scope spent = (.ok node, after) := by
  rw [resolve_eq_attempt, attempt_plain]
  cases ends with
  | absent missing => simp only [missing]
  | overLimit found beyond => simp only [found, if_pos beyond]
  | refused found within outlined =>
    have before : ¬ (limits.maxNodes : Int) < spent + 1 := by omega
    simp only [found, if_neg before, outlined]
  | nothing found within outlined =>
    have before : ¬ (limits.maxNodes : Int) < spent + 1 := by omega
    simp only [found, if_neg before, outlined]

theorem resolve_framed {id : String} {scope : Scope} {spent after : Int} {definition : Definition}
    {frame : Frame} {children : List Node} (found : registry.get? id = some definition)
    (within : spent + 1 ≤ limits.maxNodes)
    (outlined : outline registry limits reports definition id scope = .ok (some frame))
    (below : each (plain registry limits reports).resolve frame.below (spent + 1) =
      (.ok children, after)) :
    (plain registry limits reports).resolve id scope spent =
      (.ok (some (frame.node id children)), after) := by
  have before : ¬ (limits.maxNodes : Int) < spent + 1 := by omega
  rw [resolve_eq_attempt, attempt_plain]
  simp only [found, if_neg before, outlined, below]
  rfl

/-- A component ends where it stands, or it is a frame around what is shown below it. -/
theorem resolve_cases (registry : Registry) (limits : Limits) (reports : Bool) (id : String)
    (scope : Scope) (spent : Int) :
    (∃ node after, Ends registry limits reports id scope spent node after ∧
      (plain registry limits reports).resolve id scope spent = (.ok node, after)) ∨
    ∃ definition frame children after, registry.get? id = some definition ∧
      spent + 1 ≤ limits.maxNodes ∧
      outline registry limits reports definition id scope = .ok (some frame) ∧
      each (plain registry limits reports).resolve frame.below (spent + 1) =
        (.ok children, after) ∧
      (plain registry limits reports).resolve id scope spent =
        (.ok (some (frame.node id children)), after) := by
  cases found : registry.get? id with
  | none => exact .inl ⟨_, _, .absent found, (Ends.absent found).resolve_eq⟩
  | some definition =>
    by_cases beyond : limits.maxNodes < spent + 1
    · exact .inl ⟨_, _, .overLimit found beyond, (Ends.overLimit found beyond).resolve_eq⟩
    · have within : spent + 1 ≤ limits.maxNodes := by omega
      cases outlined : outline registry limits reports definition id scope with
      | error failure =>
        have ends := Ends.refused found within outlined
        exact .inl ⟨_, _, ends, ends.resolve_eq⟩
      | ok frame =>
        cases frame with
        | none =>
          have ends := Ends.nothing found within outlined
          exact .inl ⟨_, _, ends, ends.resolve_eq⟩
        | some frame =>
          obtain ⟨children, after, below, -⟩ := each_shows frame.below
            (fun entry _ => resolve_shows registry limits reports entry.1 entry.2) (spent + 1)
          exact .inr ⟨definition, frame, children, after, rfl, within, outlined, below,
            resolve_framed found within outlined below⟩

/-- A row with a derivation is shown as the derivation says, so it has no other. -/
theorem Shows.each_eq {row : List (String × Scope)} {spent after : Int} {nodes : List Node}
    (shown : Shows registry limits reports row spent nodes after) :
    each (plain registry limits reports).resolve row spent = (.ok nodes, after) := by
  induction shown with
  | nil spent => rfl
  | ends first _ ih => simp only [each, first.resolve_eq, ih]
  | framed found within outlined _ _ ihBelow ih =>
    simp only [each, resolve_framed found within outlined ihBelow, ih]
    rfl

theorem Shows.resolve_eq {id : String} {scope : Scope} {spent after : Int} {node : Option Node}
    (shown : Shows registry limits reports [(id, scope)] spent node.toList after) :
    (plain registry limits reports).resolve id scope spent = (.ok node, after) := by
  obtain ⟨other, after', made, -⟩ := resolve_shows registry limits reports id scope spent
  have single := shown.each_eq
  simp only [each, made, List.append_nil, Prod.mk.injEq, Except.ok.injEq] at single
  obtain ⟨same, rfl⟩ := single
  rw [made]
  cases node <;> cases other <;> simp_all

end LiveSurface.Pass
