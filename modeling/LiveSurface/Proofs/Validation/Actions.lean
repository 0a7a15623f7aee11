import LiveSurface.Component.Properties
import LiveSurface.Proofs.Validation.Lenient
import Mathlib.Data.List.Forall2

/-!
# Actions as they are described

What a host receives of an action is what the action is described by (`Action.reported_of_read`):
its name, and for each entry of its context, in order, the key with those fields of the descriptor
that are there and not null.
-/
namespace LiveSurface

/-- The value of a field that is there and not null. -/
def Fields.filled? (body : Fields) (name : String) : Option Value :=
  (Entries.get? body name).filter (· ≠ .null)

namespace Validation

variable {α : Type} {check : Check α} {name : String} {body : Fields}

@[simp] theorem refuse_ne_valid (reason : Reason) (a : α) :
    (.refuse reason : Checked α) ≠ .valid a := nofun

theorem under_eq_valid_iff {step : Step} {checked : Checked α} {a : α} :
    checked.under step = .valid a ↔ checked = .valid a := by
  cases checked <;> simp [Checked.under]

theorem required_eq_valid_iff {a : α} :
    required name check body = .valid a ↔
      ∃ v, Entries.get? body name = some v ∧ check v = .valid a := by
  unfold required
  cases Entries.get? body name with
  | none => simp
  | some v => simp [under_eq_valid_iff]

theorem optional_eq_valid_iff {default a : α} :
    optional name check default body = .valid a ↔
      (Entries.get? body name = none ∧ a = default) ∨
        ∃ v, Entries.get? body name = some v ∧ check v = .valid a := by
  unfold optional
  cases Entries.get? body name with
  | none => simp [eq_comm]
  | some v => simp [under_eq_valid_iff]

/-- A field that may be absent or null is checked exactly where it is neither. -/
theorem maybe_eq_valid_iff {a : Option α} :
    maybe name check body = .valid a ↔ (body.filled? name).map check = a.map .valid := by
  unfold maybe
  rw [optional_eq_valid_iff, Fields.filled?]
  cases Entries.get? body name with
  | none => cases a <;> simp
  | some v =>
    cases v with
    | null => cases a <;> simp [nullable]
    | _ => cases a <;> simp [nullable, Checked.map_eq_valid_iff]

theorem nonEmpty_eq_valid_iff {v : Value} {s : String} :
    nonEmpty v = .valid s ↔ v = .str s ∧ s ≠ "" := by
  cases v with
  | str t =>
    by_cases empty : t = ""
    · simp [nonEmpty, empty, @eq_comm _ ""]
    · have kept : ∀ s, t = s → s ≠ "" := fun s same => same ▸ empty
      simpa [nonEmpty, empty] using kept s
  | _ => simp [nonEmpty]

theorem record_eq_valid_iff {read : Fields → Checked α} {v : Value} {a : α} :
    record read v = .valid a ↔ ∃ fields, v = .obj fields ∧ read fields = .valid a := by
  cases v <;> simp [record]

theorem itemsFrom_eq_valid_iff {index : Nat} {items : List Value} {values : List α} :
    itemsFrom check index items = .valid values ↔
      List.Forall₂ (fun item a => check item = .valid a) items values := by
  induction items generalizing index values with
  | nil =>
    cases values with
    | nil => simp [itemsFrom]
    | cons a others => exact ⟨nofun, nofun⟩
  | cons item rest ih =>
    simp only [itemsFrom, Checked.apply_eq_valid_iff, Checked.map_eq_valid_iff, under_eq_valid_iff,
      ih]
    cases values with
    | nil => exact ⟨by simp, nofun⟩
    | cons a others => simp

theorem listOf_eq_valid_iff {v : Value} {values : List α} :
    listOf check v = .valid values ↔
      ∃ items, v = .list items ∧
        List.Forall₂ (fun item a => check item = .valid a) items values := by
  cases v <;> simp [listOf, itemsFrom_eq_valid_iff]

end Validation

open Validation

theorem Fields.get?_filter_ne_null {fields : Fields} (distinct : (Entries.keys fields).Nodup)
    (name : String) :
    Entries.get? (fields.filter (·.2 ≠ .null)) name = Fields.filled? fields name := by
  induction fields with
  | nil => rfl
  | cons field rest ih =>
    obtain ⟨key, v⟩ := field
    obtain ⟨new, others⟩ := List.nodup_cons.mp distinct
    have later := ih others
    by_cases same : key = name
    · subst same
      have absent : Entries.get? rest key = none := by
        rw [← Option.not_isSome_iff_eq_none, Entries.get?_isSome_iff]
        exact new
      rw [filled?, absent] at later
      by_cases null : v = .null
      · simpa [filled?, Entries.get?, null, Option.filter_some] using later
      · simp [filled?, Entries.get?, null, Option.filter_some]
    · by_cases null : v = .null <;> simpa [filled?, Entries.get?, null, same] using later

namespace Descriptor

/-- The names of the fields of a descriptor. -/
def names : List String := ["literalString", "literalNumber", "literalBoolean", "path"]

/-- The form in which the value of a field is read. A text, a binary64 number or a boolean in a
field for its type is read as it is. -/
inductive ReadsAs : String → Value → Value → Prop
  | string {v : Value} {s : String} (read : literalText v = .valid s) :
    ReadsAs "literalString" v (.str s)
  | number {v : Value} {d : Double} (read : real v = .valid d) : ReadsAs "literalNumber" v (.real d)
  | boolean {v : Value} {b : Bool} (read : flag v = .valid b) : ReadsAs "literalBoolean" v (.bool b)
  | path {v : Value} {s : String} (read : text v = .valid s) : ReadsAs "path" v (.str s)

theorem read_eq_valid_iff {body : Fields} {d : Descriptor} :
    read body = .valid d ↔
      (body.filled? "literalString").map literalText = d.literalString.map .valid ∧
      (body.filled? "literalNumber").map real = d.literalNumber.map .valid ∧
      (body.filled? "literalBoolean").map flag = d.literalBoolean.map .valid ∧
      (body.filled? "path").map text = d.path.map .valid := by
  simp only [read, Checked.map_eq, Checked.seq_eq, Checked.apply_eq_valid_iff,
    Checked.map_eq_valid_iff, ← maybe_eq_valid_iff]
  constructor
  · rintro ⟨_, _, ⟨_, _, ⟨_, _, ⟨_, string, rfl⟩, number, rfl⟩, boolean, rfl⟩, path, rfl⟩
    exact ⟨string, number, boolean, path⟩
  · rintro ⟨string, number, boolean, path⟩
    exact ⟨_, _, ⟨_, _, ⟨_, _, ⟨_, string, rfl⟩, number, rfl⟩, boolean, rfl⟩, path, rfl⟩

/-- The field of a descriptor with a name, where it is set. -/
def field? (d : Descriptor) : String → Option Value
  | "literalString" => d.literalString.map .str
  | "literalNumber" => d.literalNumber.map .real
  | "literalBoolean" => d.literalBoolean.map .bool
  | "path" => d.path.map .str
  | _ => none

theorem get?_setFields (d : Descriptor) (name : String) :
    Entries.get? d.setFields name = d.field? name := by
  have distinct : (Entries.keys d.allFields).Nodup := by simp [allFields, Entries.keys]
  have present : ∀ v : Option Value, v ≠ some .null →
      (some (orNull v)).filter (· ≠ .null) = v := by
    intro v set
    cases v with
    | none => rfl
    | some v => simpa [orNull, Option.filter_some] using set
  rw [setFields, Fields.get?_filter_ne_null distinct, Fields.filled?]
  unfold field?
  split
  · exact present (d.literalString.map .str) (by simp)
  · exact present (d.literalNumber.map .real) (by simp)
  · exact present (d.literalBoolean.map .bool) (by simp)
  · exact present (d.path.map .str) (by simp)
  · next string number boolean path =>
    have absent : Entries.get? d.allFields name = none := by
      simp [allFields, Entries.get?, Ne.symm string, Ne.symm number, Ne.symm boolean, Ne.symm path]
    rw [absent]
    rfl

theorem isSome_field?_iff {body : Fields} {d : Descriptor} (valid : read body = .valid d)
    (name : String) :
    (d.field? name).isSome = true ↔ name ∈ names ∧ (body.filled? name).isSome = true := by
  obtain ⟨string, number, boolean, path⟩ := read_eq_valid_iff.mp valid
  have string := congrArg Option.isSome string
  have number := congrArg Option.isSome number
  have boolean := congrArg Option.isSome boolean
  have path := congrArg Option.isSome path
  simp only [Option.isSome_map] at string number boolean path
  unfold field?
  split
  · simp [names, string]
  · simp [names, number]
  · simp [names, boolean]
  · simp [names, path]
  · simp_all [names]

/-- What is described by a value is set to the form in which the value is read. -/
theorem field?_of_readsAs {body : Fields} {d : Descriptor} (valid : read body = .valid d)
    {name : String} {v w : Value} (described : body.filled? name = some v)
    (reads : ReadsAs name v w) : d.field? name = some w := by
  obtain ⟨string, number, boolean, path⟩ := read_eq_valid_iff.mp valid
  have alike : ∀ {α : Type} {check : Check α} {set : Option α} {a : α},
      (body.filled? name).map check = set.map .valid → check v = .valid a → set = some a := by
    intro α check set a same checked
    rw [described, Option.map_some, checked] at same
    cases set <;> cases same
    rfl
  cases reads with
  | string checked => rw [field?, alike string checked, Option.map_some]
  | number checked => rw [field?, alike number checked, Option.map_some]
  | boolean checked => rw [field?, alike boolean checked, Option.map_some]
  | path checked => rw [field?, alike path checked, Option.map_some]

end Descriptor

/-- What is told of an entry of a context: its key, and those fields of its descriptor that are
described by something other than null, each in the form in which it is read. -/
inductive ContextEntry.Told : Value → Value → Prop
  | intro {body described fields : Fields} {key : String}
    (named : Entries.get? body "key" = some (.str key))
    (value : (Entries.get? body "value").getD (.obj []) = .obj described)
    (set : ∀ name, Entries.has fields name = true ↔
      name ∈ Descriptor.names ∧ (described.filled? name).isSome = true)
    (same : ∀ name v w, described.filled? name = some v → Descriptor.ReadsAs name v w →
      Entries.get? fields name = some w) :
    Told (.obj body) (.obj [("key", .str key), ("value", .obj fields)])

/-- A report of an action by name, with what is told of each entry of its context in order. -/
inductive Action.Reported : Value → String → List Value → Prop
  | intro {body : Fields} {name : String} {context payload : List Value}
    (named : Entries.get? body "name" = some (.str name))
    (listed : (Entries.get? body "context").getD (.list []) = .list context)
    (told : List.Forall₂ ContextEntry.Told context payload) : Reported (.obj body) name payload

theorem ContextEntry.told_of_read {body : Fields} {entry : ContextEntry}
    (valid : read body = .valid entry) :
    Told (.obj body) (.obj [("key", .str entry.key), ("value", .obj entry.value.setFields)]) := by
  simp only [read, Checked.map_eq, Checked.seq_eq, Checked.apply_eq_valid_iff,
    Checked.map_eq_valid_iff] at valid
  obtain ⟨_, value, ⟨key, named, rfl⟩, valued, rfl⟩ := valid
  obtain ⟨_, found, text⟩ := required_eq_valid_iff.mp named
  obtain ⟨rfl, -⟩ := nonEmpty_eq_valid_iff.mp text
  obtain ⟨described, given, read⟩ : ∃ described,
      (Entries.get? body "value").getD (.obj []) = .obj described ∧
        Descriptor.read described = .valid value := by
    rcases optional_eq_valid_iff.mp valued with ⟨absent, rfl⟩ | ⟨v, given, checked⟩
    · exact ⟨[], by simp [absent], rfl⟩
    · obtain ⟨described, rfl, read⟩ := record_eq_valid_iff.mp checked
      exact ⟨described, by simp [given], read⟩
  refine .intro found given (fun name => ?_) fun name v w filled reads => ?_
  · rw [Entries.has, Descriptor.get?_setFields]
    exact Descriptor.isSome_field?_iff read name
  · rw [Descriptor.get?_setFields]
    exact Descriptor.field?_of_readsAs read filled reads

/-- A host receives what an action is described by. -/
theorem Action.reported_of_read {body : Fields} {action : Action}
    (valid : read body = .valid action) : Reported (.obj body) action.name action.payload := by
  simp only [read, Checked.map_eq, Checked.seq_eq, Checked.apply_eq_valid_iff,
    Checked.map_eq_valid_iff] at valid
  obtain ⟨_, context, ⟨name, named, rfl⟩, entries, rfl⟩ := valid
  obtain ⟨_, found, text⟩ := required_eq_valid_iff.mp named
  obtain ⟨rfl, -⟩ := nonEmpty_eq_valid_iff.mp text
  have told : ∀ items, List.Forall₂ (fun item a => record ContextEntry.read item = .valid a) items
      context → List.Forall₂ ContextEntry.Told items (payload ⟨name, context⟩) := by
    intro items valid
    rw [payload, List.forall₂_map_right_iff]
    refine valid.imp fun item entry read => ?_
    obtain ⟨fields, rfl, read⟩ := record_eq_valid_iff.mp read
    exact ContextEntry.told_of_read read
  rcases optional_eq_valid_iff.mp entries with ⟨absent, rfl⟩ | ⟨_, given, checked⟩
  · exact .intro found (by simp [absent]) (told [] .nil)
  · obtain ⟨items, rfl, valid⟩ := listOf_eq_valid_iff.mp checked
    exact .intro found (by simp [given]) (told items valid)

end LiveSurface
