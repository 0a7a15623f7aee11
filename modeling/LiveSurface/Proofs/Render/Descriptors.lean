import LiveSurface.Proofs.Number.Nearest
import LiveSurface.Proofs.Render.Children
import LiveSurface.Proofs.Render.Malformed
import LiveSurface.Proofs.Validation.Actions

/-!
# Descriptors that are shown

A descriptor is checked before it is shown: a literal text may come as a number or a boolean, a
whole number becomes a binary64 number, and what is null is left out. Where every field has a value
that fits it, this changes nothing that can be seen (`Descriptor.read_of_fitting`): a text, and a
button around it, show what the descriptor as it was written stands for, and are errors where it
stands for what cannot be written (`Pass.resolve_described`).
-/
namespace LiveSurface

open Validation

namespace Binding

theorem literal?_eq (fields : Fields) : literal? fields = literalKeys.findSome? fields.filled? := by
  unfold literal?
  congr 1
  funext key
  rw [Fields.filled?]
  cases Entries.get? fields key with
  | none => rfl
  | some v => cases v <;> rfl

theorem resolve_obj (fields : Fields) (model : Value) :
    resolve (.obj fields) model =
      (literalKeys.findSome? fields.filled?).getD
        (match fields.filled? "path" with
          | some (.str path) => model.read (Path.segments path)
          | _ => .null) := by
  rw [resolve, literal?_eq]
  cases literalKeys.findSome? fields.filled? with
  | some literal => rfl
  | none =>
    rw [Fields.filled?]
    cases Entries.get? fields "path" with
    | none => rfl
    | some v => cases v <;> rfl

/-- Of two rows of fields that show alike, the first ones that are filled show alike. -/
theorem display_findSome?_congr {fields others : Fields} {names : List String}
    (alike : ∀ name ∈ names,
      (fields.filled? name).map Value.display = (others.filled? name).map Value.display)
    (default : Value) :
    ((names.findSome? fields.filled?).getD default).display =
      ((names.findSome? others.filled?).getD default).display := by
  induction names with
  | nil => rfl
  | cons name rest ih =>
    obtain ⟨first, later⟩ := List.forall_mem_cons.mp alike
    rw [List.findSome?_cons, List.findSome?_cons]
    cases left : fields.filled? name with
    | none =>
      cases right : others.filled? name with
      | none => exact ih later
      | some w => rw [left, right] at first; cases first
    | some v =>
      cases right : others.filled? name with
      | none => rw [left, right] at first; cases first
      | some w =>
        rw [left, right] at first
        exact Option.some.inj first

/-- Descriptors show alike if their literals do, field by field, and their paths are the same. -/
theorem resolveText_congr {fields others : Fields}
    (literals : ∀ name ∈ literalKeys,
      (fields.filled? name).map Value.display = (others.filled? name).map Value.display)
    (path : fields.filled? "path" = others.filled? "path") (model : Value) :
    resolveText (.obj fields) model = resolveText (.obj others) model := by
  rw [resolveText, resolveText, resolve_obj, resolve_obj, path]
  exact display_findSome?_congr literals _

end Binding

/-- The values that a literal text is taken from. -/
inductive Value.Scalar : Value → Prop
  | str (s : String) : Scalar (.str s)
  | bool (b : Bool) : Scalar (.bool b)
  | int (n : Int) : Scalar (.int n)
  | real (d : Double) : Scalar (.real d)

/-- A binary64 number, or a whole number of a magnitude up to which binary64 has all of them. -/
inductive Value.ShortNumber : Value → Prop
  | real (d : Double) : ShortNumber (.real d)
  | int {n : Int} (short : n.natAbs ≤ 2 ^ 53) : ShortNumber (.int n)

namespace Descriptor

/-- Every field of a descriptor is absent, null, or has a value that fits it. -/
structure Fitting (fields : Fields) : Prop where
  string : ∀ v, fields.filled? "literalString" = some v → v.Scalar
  number : ∀ v, fields.filled? "literalNumber" = some v → v.ShortNumber
  boolean : ∀ v, fields.filled? "literalBoolean" = some v → ∃ b, v = .bool b
  path : ∀ v, fields.filled? "path" = some v → ∃ s, v = .str s

theorem literalText_of_scalar {v : Value} {s : String} (scalar : v.Scalar)
    (shows : v.display = .ok s) : literalText v = .valid s := by
  cases scalar with
  | str text =>
    cases shows
    rfl
  | _ => simp only [literalText, shows]

theorem display_of_literalText {v : Value} {s : String} (valid : literalText v = .valid s) :
    v.display = .ok s := by
  cases v with
  | str text =>
    cases valid
    rfl
  | bool _ | int _ | real _ =>
    simp only [literalText] at valid
    split at valid
    · next shown =>
      cases valid
      exact shown
    · cases valid
  | _ => cases valid

/-- A whole number that binary64 has shows as it does in binary64. -/
theorem real_of_shortNumber {v : Value} (short : v.ShortNumber) :
    ∃ d, Validation.real v = .valid d ∧ (Value.real d).display = v.display := by
  cases short with
  | real d => exact ⟨d, rfl, rfl⟩
  | @int n short =>
    obtain ⟨d, made, same⟩ := Double.ofInt?_of_exact (Double.exact_of_natAbs_le short)
    refine ⟨d, by rw [Validation.real, made], ?_⟩
    rw [Value.display, same]
    rfl

/-- A field whose value is read as one that shows the same. -/
theorem exists_set {α : Type} (check : Check α) (form : α → Value) {found : Option Value}
    (shows : ∀ v, found = some v → ∃ a, check v = .valid a ∧ (form a).display = v.display) :
    ∃ set : Option α, found.map check = set.map .valid ∧
      (set.map form).map Value.display = found.map Value.display := by
  cases found with
  | none => exact ⟨none, rfl, rfl⟩
  | some v =>
    obtain ⟨a, checked, same⟩ := shows v rfl
    exact ⟨some a, by rw [Option.map_some, checked, Option.map_some], congrArg some same⟩

theorem exists_text {found : Option Value} (texts : ∀ v, found = some v → ∃ s, v = .str s) :
    ∃ s : Option String, found.map Validation.text = s.map .valid ∧ s.map .str = found := by
  cases found with
  | none => exact ⟨none, rfl, rfl⟩
  | some v =>
    obtain ⟨s, rfl⟩ := texts v rfl
    exact ⟨some s, rfl, rfl⟩

theorem filled?_setFields (d : Descriptor) (name : String) :
    Fields.filled? d.setFields name = d.field? name := by
  have filled : ∀ v, d.field? name = some v → v ≠ .null := by
    intro v set
    unfold field? at set
    split at set
    all_goals simp only [Option.map_eq_some_iff, reduceCtorEq] at set
    all_goals
      obtain ⟨_, -, rfl⟩ := set
      intro same
      cases same
  rw [Fields.filled?, get?_setFields]
  cases set : d.field? name with
  | none => rfl
  | some v => simp [Option.filter_some, filled v set]

/-- The literal text of a descriptor cannot be written. -/
def Unwritten (fields : Fields) : Prop :=
  ∃ v fault, fields.filled? "literalString" = some v ∧ v.display = .error fault

theorem read_of_unwritten {fields : Fields} (unwritten : Unwritten fields) :
    (∀ d, read fields ≠ .valid d) ∧
      ∀ model, ∃ fault, Binding.resolveText (.obj fields) model = .error fault := by
  obtain ⟨v, fault, found, fails⟩ := unwritten
  refine ⟨fun d valid => ?_, fun model => ⟨fault, ?_⟩⟩
  · have string := (read_eq_valid_iff.mp valid).1
    rw [found] at string
    obtain ⟨s, -, same⟩ := Option.map_eq_some_iff.mp string.symm
    have shown := display_of_literalText same.symm
    rw [fails] at shown
    cases shown
  · rw [Binding.resolveText, Binding.resolve_obj, Binding.literalKeys, List.findSome?_cons, found]
    exact fails

/-- A descriptor with fitting fields passes its checks and shows as it was written, if its literal
text can be written. -/
theorem read_of_fitting {fields : Fields} (fitting : Fitting fields)
    (written : ¬ Unwritten fields) :
    ∃ d, read fields = .valid d ∧
      ∀ model, display (some d) model = Binding.resolveText (.obj fields) model := by
  obtain ⟨string, readString, showsString⟩ :=
    exists_set literalText .str fun v found => by
      cases shown : v.display with
      | error fault => exact absurd ⟨v, fault, found, shown⟩ written
      | ok s => exact ⟨s, literalText_of_scalar (fitting.string v found) shown, rfl⟩
  obtain ⟨number, readNumber, showsNumber⟩ :=
    exists_set Validation.real .real fun v found =>
      real_of_shortNumber (fitting.number v found)
  obtain ⟨boolean, readBoolean, showsBoolean⟩ :=
    exists_set flag .bool fun v found => by
      obtain ⟨b, rfl⟩ := fitting.boolean v found
      exact ⟨b, rfl, rfl⟩
  obtain ⟨path, readPath, samePath⟩ := exists_text fitting.path
  refine ⟨⟨string, number, boolean, path⟩,
    read_eq_valid_iff.mpr ⟨readString, readNumber, readBoolean, readPath⟩, fun model => ?_⟩
  refine Binding.resolveText_congr (fun name asked => ?_) ?_ model
  · rw [filled?_setFields]
    simp only [Binding.literalKeys, List.mem_cons, List.not_mem_nil, or_false] at asked
    rcases asked with rfl | rfl | rfl
    · exact showsString
    · exact showsNumber
    · exact showsBoolean
  · rw [filled?_setFields]
    exact samePath

end Descriptor

/-- A text is registered whose properties describe it by fields. -/
def Registry.Describes (registry : Registry) (id : String) (fields : Fields) : Prop :=
  ∃ (definition : Definition) (body : Fields), registry.get? id = some definition ∧
    definition.kind = "Text" ∧ definition.props = .obj body ∧
    Entries.get? body "text" = some (.obj fields) ∧
    ∀ v, body.filled? "usageHint" = some v → ∃ s, v = .str s

/-- A button is registered that takes its label from a component. -/
def Registry.Labels (registry : Registry) (button id : String) : Prop :=
  ∃ definition primary action, registry.get? button = some definition ∧
    Component.parse definition.kind definition.props = .ok (.button (some id) primary action)

/-- A component is not on the way, and there is room for it on the way and in the pass. -/
structure Limits.Admits (limits : Limits) (id : String) (scope : Scope) (spent : Int) : Prop where
  new : id ∉ scope.trail
  shallow : scope.trail.length < limits.maxDepth
  within : spent + 1 ≤ limits.maxNodes

/-- A node shows a text, or is an error in its place where there is none. -/
def Node.Shows (node : Node) (kind : NodeKind) : Except ValueFault String → Prop
  | .ok text => node.kind = kind ∧ node.text = some text
  | .error _ => node.kind = .error

namespace Component

/-- A text with a fitting descriptor passes its checks and shows what the descriptor stands for, if
the literal text can be written. -/
theorem parse_text {body fields : Fields}
    (described : Entries.get? body "text" = some (.obj fields))
    (hinted : ∀ v, body.filled? "usageHint" = some v → ∃ s, v = .str s)
    (fitting : Descriptor.Fitting fields) (written : ¬ Descriptor.Unwritten fields) :
    ∃ descriptor hint, parse "Text" (.obj body) = .ok (.text descriptor hint) ∧
      ∀ model, Descriptor.display descriptor model = Binding.resolveText (.obj fields) model := by
  obtain ⟨d, valid, shows⟩ := Descriptor.read_of_fitting fitting written
  obtain ⟨hint, readHint, -⟩ := Descriptor.exists_text hinted
  have filled : body.filled? "text" = some (.obj fields) := by
    rw [Fields.filled?, described]
    rfl
  have first : maybe "text" (record Descriptor.read) body = .valid (some d) := by
    rw [maybe_eq_valid_iff, filled, Option.map_some, record, valid, Option.map_some]
  have second : maybe "usageHint" Validation.text body = .valid hint :=
    maybe_eq_valid_iff.mpr readHint
  have read : read .text body = .valid (.text (some d) hint) := by
    simp only [Component.read, Checked.map_eq, Checked.seq_eq, first, second]
    rfl
  have known : Kind.ofName? "Text" = some .text := by decide
  refine ⟨some d, hint, ?_, shows⟩
  rw [parse, known]
  show ((Component.read .text body).named _).mapError _ = _
  rw [read]
  rfl

theorem parse_text_of_unwritten {body fields : Fields}
    (described : Entries.get? body "text" = some (.obj fields))
    (unwritten : Descriptor.Unwritten fields) :
    ∃ fault, parse "Text" (.obj body) = .error fault := by
  have filled : body.filled? "text" = some (.obj fields) := by
    rw [Fields.filled?, described]
    rfl
  refine (Definition.malformed_iff ⟨"", none, "Text", .obj body⟩).mp ⟨.text, rfl, ?_⟩
  intro component valid
  simp only [Component.read, Checked.map_eq, Checked.seq_eq, Checked.apply_eq_valid_iff,
    Checked.map_eq_valid_iff] at valid
  obtain ⟨_, _, ⟨text, own, -⟩, -⟩ := valid
  rw [maybe_eq_valid_iff, filled] at own
  obtain ⟨d, -, same⟩ := Option.map_eq_some_iff.mp own.symm
  exact (Descriptor.read_of_unwritten unwritten).1 d same.symm

end Component

namespace Pass

variable {registry : Registry} {limits : Limits} {reports : Bool} {id : String} {scope : Scope}
  {spent : Int}

/-- What a component decides that has nothing below it and shows a text, or fails without one. -/
inductive Tells (kind : NodeKind) : Except Failure (Option Frame) → Except ValueFault String → Prop
  | text {frame : Frame} {text : String} (own : frame.kind = kind) (shows : frame.text = some text)
      (bare : frame.below = []) : Tells kind (.ok (some frame)) (.ok text)
  | fails {failure : Failure} (own : failure.Own) (fault : ValueFault) :
      Tells kind (.error failure) (.error fault)

theorem resolve_of_tells {definition : Definition} {kind : NodeKind}
    {shown : Except ValueFault String} (found : registry.get? id = some definition)
    (admits : limits.Admits id scope spent)
    (tells : Tells kind (outline registry limits reports definition id scope) shown) :
    ∃ node, (plain registry limits reports).resolve id scope spent =
      (.ok (some node), spent + 1) ∧ node.Shows kind shown := by
  have within : ¬ limits.maxNodes < spent + 1 := Int.not_lt.mpr admits.within
  rw [resolve_eq_attempt, attempt_plain, found]
  simp only [within, ↓reduceIte]
  generalize outline registry limits reports definition id scope = outlined at tells
  cases tells with
  | @text frame text own shows bare =>
    refine ⟨frame.node id [], ?_, own, shows⟩
    simp only [bare]
    rfl
  | fails own fault =>
    refine ⟨_, rfl, ?_⟩
    rw [own.diagnostic_eq]
    rfl

theorem outline_of_refused {definition : Definition} {fault : Component.Fault}
    (admits : limits.Admits id scope spent)
    (refused : Component.parse definition.kind definition.props = .error fault) :
    outline registry limits reports definition id scope = .error (.properties fault) := by
  have shallow : ¬ limits.maxDepth ≤ scope.trail.length := Nat.not_le.mpr admits.shallow
  rw [outline, if_neg admits.new, if_neg shallow, refused]

theorem outline_of_parsed {definition : Definition} {component : Component}
    (admits : limits.Admits id scope spent)
    (parsed : Component.parse definition.kind definition.props = .ok component) :
    outline registry limits reports definition id scope =
      frame? registry reports (scope.enter id) component := by
  have shallow : ¬ limits.maxDepth ≤ scope.trail.length := Nat.not_le.mpr admits.shallow
  rw [outline, if_neg admits.new, if_neg shallow, parsed]

theorem tells_of_text (registry : Registry) (reports : Bool) (descriptor : Option Descriptor)
    (hint : Option String) (scope : Scope) :
    Tells .text (frame? registry reports scope (.text descriptor hint))
      (Descriptor.display descriptor scope.data) := by
  simp only [frame?]
  cases shown : Descriptor.display descriptor scope.data with
  | error fault => exact .fails (Descriptor.display_eq_error shown ▸ .unwritten) fault
  | ok text => exact .text rfl rfl rfl

theorem tells_of_button {target : String} {primary : Bool} {action : Option Action}
    {shown : Except ValueFault String} (named : target ≠ "")
    (labelled : (∃ text, shown = .ok text ∧ label registry (some target) scope.data = .ok text) ∨
      ∃ fault failure, shown = .error fault ∧
        label registry (some target) scope.data = .error failure) :
    Tells .button (frame? registry reports scope (.button (some target) primary action)) shown := by
  have kept : (some target).filter (· ≠ "") = some target := by simp [Option.filter_some, named]
  simp only [frame?, kept]
  rcases labelled with ⟨text, rfl, labelled⟩ | ⟨fault, failure, rfl, labelled⟩
  · rw [labelled]
    exact .text rfl rfl rfl
  · rw [labelled]
    exact .fails (own_of_label labelled) fault

/-- A text is shown as its descriptor was written, and so is the label of a button around it. Where
that has no text, both are errors. -/
theorem resolve_described (registry : Registry) (limits : Limits) (reports : Bool) {id : String}
    {fields : Fields} (described : registry.Describes id fields)
    (fitting : Descriptor.Fitting fields) (scope : Scope) (spent : Int) :
    (limits.Admits id scope spent →
      ∃ node, (plain registry limits reports).resolve id scope spent =
          (.ok (some node), spent + 1) ∧
        node.Shows .text (Binding.resolveText (.obj fields) scope.data)) ∧
    ∀ button, id ≠ "" → registry.Labels button id → limits.Admits button scope spent →
      ∃ node, (plain registry limits reports).resolve button scope spent =
          (.ok (some node), spent + 1) ∧
        node.Shows .button (Binding.resolveText (.obj fields) scope.data) := by
  obtain ⟨definition, body, found, kind, props, given, hinted⟩ := described
  by_cases unwritten : Descriptor.Unwritten fields
  · obtain ⟨fault, refused⟩ := Component.parse_text_of_unwritten given unwritten
    obtain ⟨missing, fails⟩ := (Descriptor.read_of_unwritten unwritten).2 scope.data
    rw [← kind, ← props] at refused
    rw [fails]
    constructor
    · intro admits
      refine resolve_of_tells found admits ?_
      rw [outline_of_refused admits refused]
      exact .fails (.properties refused) missing
    · rintro button named ⟨control, primary, action, registered, read⟩ admits
      have labelled : label registry (some id) scope.data = .error (.properties fault) := by
        rw [label, Option.bind_some, found]
        simp only [kind, Kind.name, ↓reduceIte]
        rw [kind] at refused
        rw [refused]
      refine resolve_of_tells registered admits ?_
      rw [outline_of_parsed admits read]
      exact tells_of_button named (.inr ⟨missing, _, rfl, labelled⟩)
  · obtain ⟨descriptor, hint, parsed, shows⟩ := Component.parse_text given hinted fitting unwritten
    rw [← kind, ← props] at parsed
    rw [← shows]
    constructor
    · intro admits
      refine resolve_of_tells found admits ?_
      rw [outline_of_parsed admits parsed]
      exact tells_of_text registry reports descriptor hint (scope.enter id)
    · rintro button named ⟨control, primary, action, registered, read⟩ admits
      have labelled : label registry (some id) scope.data =
          (Descriptor.display descriptor scope.data).mapError .unwritten := by
        rw [label, Option.bind_some, found]
        simp only [kind, Kind.name, ↓reduceIte]
        rw [kind] at parsed
        rw [parsed]
      refine resolve_of_tells registered admits ?_
      rw [outline_of_parsed admits read]
      refine tells_of_button named ?_
      cases shown : Descriptor.display descriptor scope.data with
      | error fault => exact .inr ⟨fault, _, rfl, by rw [shown] at labelled; exact labelled⟩
      | ok text => exact .inl ⟨text, rfl, by rw [shown] at labelled; exact labelled⟩

/-- A text whose literal text is null shows its literal number before the path is asked. -/
theorem resolve_described_of_number :
    let fields : Fields :=
      [("literalString", .null), ("literalNumber", .int (-9007199254740992)),
        ("literalBoolean", .bool false), ("path", .str "/name")]
    let registry : Registry :=
      [⟨"t", none, "Text", .obj [("text", .obj fields), ("usageHint", .str "h1")]⟩,
        ⟨"b", none, "Button", .obj [("child", .str "t"), ("primary", .bool true)]⟩]
    let limits : Limits := ⟨2, 2⟩
    let scope : Scope := ⟨.obj [("name", .str "Ada")], ["top"]⟩
    registry.Describes "t" fields ∧ Descriptor.Fitting fields ∧ limits.Admits "t" scope 0 ∧
      "t" ≠ "" ∧ registry.Labels "b" "t" ∧ limits.Admits "b" scope 1 ∧
      (∃ node, (plain registry limits true).resolve "t" scope 0 = (.ok (some node), 1) ∧
        node.kind = .text ∧ node.text = some "-9007199254740992") ∧
      ∃ node, (plain registry limits true).resolve "b" scope 1 = (.ok (some node), 2) ∧
        node.kind = .button ∧ node.text = some "-9007199254740992" := by
  intro fields registry limits scope
  have described : registry.Describes "t" fields :=
    ⟨_, _, rfl, rfl, rfl, rfl, fun v hint => ⟨"h1", by cases hint; rfl⟩⟩
  have fitting : Descriptor.Fitting fields :=
    { string := fun v found => by cases found
      number := fun v found => by cases found; exact .int (by decide)
      boolean := fun v found => by cases found; exact ⟨false, rfl⟩
      path := fun v found => by cases found; exact ⟨"/name", rfl⟩ }
  have labels : registry.Labels "b" "t" := ⟨_, true, none, rfl, rfl⟩
  have first : limits.Admits "t" scope 0 := ⟨by decide, by decide, by decide⟩
  have second : limits.Admits "b" scope 1 := ⟨by decide, by decide, by decide⟩
  have shown : Binding.resolveText (.obj fields) scope.data = .ok "-9007199254740992" := by rfl
  obtain ⟨text, made, shows⟩ :=
    (resolve_described registry limits true described fitting scope 0).1 first
  obtain ⟨button, made', shows'⟩ :=
    (resolve_described registry limits true described fitting scope 1).2 "b" (by decide) labels
      second
  rw [shown] at shows shows'
  exact ⟨described, fitting, first, by decide, labels, second, ⟨text, made, shows⟩,
    ⟨button, made', shows'⟩⟩

end Pass
end LiveSurface
