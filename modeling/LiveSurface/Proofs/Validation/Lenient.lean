import LiveSurface.Validation.Basic
import Mathlib.Data.List.Basic

/-!
# Lenient reading, field by field

A record is read in two goes where it has complaints: all fields together, and once more without
those that have complaints. For a record whose complaints lie in its fields this is the same as
reading every field by itself (`ByField.leniently_eq`): a required field must be there and pass its
check, and any other field stands for its default where it does not.
-/
namespace LiveSurface.Validation

variable {α β : Type}

namespace Checked

@[simp] theorem map_eq (f : α → β) (a : Checked α) : f <$> a = a.map f := rfl

@[simp] theorem seq_eq (f : Checked (α → β)) (a : Checked α) : f <*> a = f.apply a := rfl

theorem map_eq_valid_iff {f : α → β} {a : Checked α} {b : β} :
    a.map f = .valid b ↔ ∃ x, a = .valid x ∧ f x = b := by
  cases a <;> simp [map]

theorem apply_eq_valid_iff {f : Checked (α → β)} {a : Checked α} {b : β} :
    f.apply a = .valid b ↔ ∃ g x, f = .valid g ∧ a = .valid x ∧ g x = b := by
  cases f <;> cases a <;> simp [apply]

@[simp] theorem complaints_map (f : α → β) (a : Checked α) :
    (a.map f).complaints = a.complaints := by
  cases a <;> rfl

/-- The complaints of both parts are kept, in order. -/
@[simp] theorem complaints_apply (f : Checked (α → β)) (a : Checked α) :
    (f.apply a).complaints = f.complaints ++ a.complaints := by
  cases f <;> cases a <;> simp [apply, complaints]

@[simp] theorem toOption_valid (a : α) : (valid a).toOption = some a := rfl

@[simp] theorem toOption_refuse (reason : Reason) : (refuse reason : Checked α).toOption = none :=
  rfl

@[simp] theorem toOption_map (f : α → β) (a : Checked α) :
    (a.map f).toOption = a.toOption.map f := by
  cases a <;> rfl

@[simp] theorem toOption_apply (f : Checked (α → β)) (a : Checked α) :
    (f.apply a).toOption = f.toOption.bind fun g => a.toOption.map g := by
  cases f <;> cases a <;> rfl

@[simp] theorem toOption_under (step : Step) (a : Checked α) :
    (a.under step).toOption = a.toOption := by
  cases a <;> rfl

/-- Some complaint lies in a field. -/
def Blames (a : Checked α) (name : String) : Prop :=
  ∃ c ∈ a.complaints, c.topField? = some name

theorem blames_map {f : α → β} {a : Checked α} {name : String} :
    (a.map f).Blames name ↔ a.Blames name := by
  rw [Blames, complaints_map, Blames]

theorem blames_apply {f : Checked (α → β)} {a : Checked α} {name : String} :
    (f.apply a).Blames name ↔ f.Blames name ∨ a.Blames name := by
  simp only [Blames, complaints_apply, List.mem_append, or_and_right, exists_or]

theorem topField?_of_mem_under {name : String} {a : Checked α} {c : Complaint}
    (member : c ∈ (a.under (.field name)).complaints) : c.topField? = some name := by
  cases a with
  | valid x => cases member
  | invalid first rest =>
    simp only [under, complaints, List.mem_cons, List.mem_map] at member
    rcases member with rfl | ⟨other, -, rfl⟩ <;> rfl

end Checked

/-- The value of a field that is there and passes its check. -/
def given? (name : String) (check : Check α) (body : Fields) : Option α :=
  (Entries.get? body name).bind fun v => (check v).toOption

/-- The value of a field that is there and passes its check, and a default otherwise. -/
def givenOr (name : String) (check : Check α) (default : α) (body : Fields) : α :=
  (given? name check body).getD default

theorem given?_nonEmpty_eq_some_iff {name s : String} {body : Fields} :
    given? name nonEmpty body = some s ↔ Entries.get? body name = some (.str s) ∧ s ≠ "" := by
  unfold given?
  cases Entries.get? body name with
  | none => simp
  | some v =>
    cases v with
    | str t =>
      by_cases empty : t = ""
      · simp [nonEmpty, empty, eq_comm]
      · have kept : ∀ s, t = s → s ≠ "" := fun s same => same ▸ empty
        simpa [nonEmpty, empty] using kept s
    | _ => simp [nonEmpty]

theorem given?_object_eq_some_iff {name : String} {body fields : Fields} :
    given? name object body = some fields ↔ Entries.get? body name = some (.obj fields) := by
  unfold given?
  cases Entries.get? body name with
  | none => simp
  | some v => cases v <;> simp [object]

/-- A reading of a record whose fields are read one by one. What is wrong with the record is wrong
with one of the named fields, a valid record is what its fields are by themselves, and so is what
is left of any record without the fields that have complaints. -/
structure ByField (names : List String) (read : Fields → Checked α)
    (alone : Fields → Option α) : Prop where
  located : ∀ body, ∀ c ∈ (read body).complaints, ∃ name ∈ names, c.topField? = some name
  valid : ∀ body a, read body = .valid a → alone body = some a
  spared : ∀ body (bad : List String),
    (∀ name ∈ names, name ∈ bad ↔ (read body).Blames name) →
    (read (body.filter fun field => field.1 ∉ bad)).toOption = alone body

namespace ByField

variable {names others : List String}

theorem mem_of_blames {read : Fields → Checked α} {alone : Fields → Option α}
    (byField : ByField names read alone) {body : Fields} {name : String}
    (blamed : (read body).Blames name) : name ∈ names := by
  obtain ⟨c, member, top⟩ := blamed
  obtain ⟨other, inside, top'⟩ := byField.located body c member
  cases top.symm.trans top'
  exact inside

/-- A single field that is checked where it is there, and told by its absence otherwise. -/
theorem field (name : String) (check : Check α) (absent : Checked α)
    (own : ∀ c ∈ absent.complaints, c.topField? = some name) :
    ByField [name]
      (fun body =>
        match Entries.get? body name with
        | none => absent
        | some v => (check v).under (.field name))
      fun body => (given? name check body).or absent.toOption where
  located body c member := by
    refine ⟨name, List.mem_singleton_self name, ?_⟩
    split at member
    · exact own c member
    · exact Checked.topField?_of_mem_under member
  valid body a read := by
    unfold given?
    split at read
    · next missing => simp [missing, read, Checked.toOption]
    · next v found =>
      rw [found, Option.bind_some, ← Checked.toOption_under (.field name), read]
      rfl
  spared body bad told := by
    have here := told name (List.mem_singleton_self name)
    have left : Entries.get? (body.filter fun field => field.1 ∉ bad) name =
        if name ∈ bad then none else Entries.get? body name := by
      simpa using Entries.get?_filter body (fun key => key ∉ bad) name
    unfold given?
    rw [left]
    cases found : Entries.get? body name with
    | none => simp
    | some v =>
      simp only [found] at here
      cases passed : check v with
      | valid a =>
        have spared : name ∉ bad := fun member => by
          obtain ⟨c, inside, -⟩ := here.mp member
          rw [passed] at inside
          cases inside
        simp [spared, passed, Checked.toOption, Checked.under]
      | invalid first rest =>
        have dropped : name ∈ bad := by
          rw [passed] at here
          exact here.mpr ⟨_, List.mem_cons_self, rfl⟩
        simp [dropped, passed, Checked.toOption]

theorem required (name : String) (check : Check α) :
    ByField [name] (required name check) (given? name check) := by
  have own := field name check (.invalid ⟨[.field name], .missing⟩ []) fun c member => by
    obtain rfl := List.mem_singleton.mp member
    rfl
  have nothing : (fun body => (given? name check body).or none) = given? name check :=
    funext fun body => Option.or_none
  exact nothing ▸ own

theorem optional (name : String) (check : Check α) (default : α) :
    ByField [name] (optional name check default)
      fun body => some (givenOr name check default body) := by
  have own := field name check (.valid default) fun c member => by cases member
  have filled : (fun body => (given? name check body).or (some default)) =
      fun body => some (givenOr name check default body) := funext fun body => Option.or_some
  exact filled ▸ own

theorem maybe (name : String) (check : Check α) :
    ByField [name] (maybe name check)
      fun body => some (givenOr name (nullable check) none body) :=
  optional name (nullable check) none

theorem map {read : Fields → Checked α} {alone : Fields → Option α}
    (byField : ByField names read alone) (f : α → β) :
    ByField names (fun body => (read body).map f) fun body => (alone body).map f where
  located body c member := byField.located body c (by simpa using member)
  valid body b made := by
    obtain ⟨a, valid, rfl⟩ := Checked.map_eq_valid_iff.mp made
    rw [byField.valid body a valid, Option.map_some]
  spared body bad told := by
    have told' : ∀ name ∈ names, name ∈ bad ↔ (read body).Blames name := by
      simpa only [Checked.blames_map] using told
    rw [Checked.toOption_map, byField.spared body bad told']

/-- Two readings of different fields make one reading of all of them. -/
theorem apply {read : Fields → Checked (α → β)} {alone : Fields → Option (α → β)}
    {read' : Fields → Checked α} {alone' : Fields → Option α} (first : ByField names read alone)
    (second : ByField others read' alone') (apart : names.Disjoint others) :
    ByField (names ++ others) (fun body => (read body).apply (read' body))
      fun body => (alone body).bind fun f => (alone' body).map f where
  located body c member := by
    rw [Checked.complaints_apply, List.mem_append] at member
    rcases member with member | member
    · obtain ⟨name, inside, top⟩ := first.located body c member
      exact ⟨name, List.mem_append_left _ inside, top⟩
    · obtain ⟨name, inside, top⟩ := second.located body c member
      exact ⟨name, List.mem_append_right _ inside, top⟩
  valid body b made := by
    obtain ⟨f, a, valid, valid', rfl⟩ := Checked.apply_eq_valid_iff.mp made
    rw [first.valid body f valid, second.valid body a valid']
    rfl
  spared body bad told := by
    -- a field of one reading is blamed by this reading alone
    have left : ∀ name ∈ names, name ∈ bad ↔ (read body).Blames name := fun name member =>
      (told name (List.mem_append_left _ member)).trans <| Checked.blames_apply.trans <|
        or_iff_left fun blamed => apart member (second.mem_of_blames blamed)
    have right : ∀ name ∈ others, name ∈ bad ↔ (read' body).Blames name := fun name member =>
      (told name (List.mem_append_right _ member)).trans <| Checked.blames_apply.trans <|
        or_iff_right fun blamed => apart (first.mem_of_blames blamed) member
    rw [Checked.toOption_apply, first.spared body bad left, second.spared body bad right]

variable {read : Fields → Checked α} {alone : Fields → Option α}

/-- A further check of the whole record comes after its fields, and what it complains about lies
in none of them. -/
theorem leniently_andThen_eq (byField : ByField names read alone) (check : α → Checked β)
    (whole : ∀ a, ∀ c ∈ (check a).complaints, c.topField? = none) (body : Fields) :
    leniently (fun body => (read body).andThen check) body =
      (alone body).bind fun a => (check a).toOption := by
  cases all : read body with
  | valid a =>
    simp only [leniently, all, Checked.andThen, byField.valid body a all, Option.bind_some]
    cases checked : check a with
    | valid b => rfl
    | invalid first rest =>
      have nowhere : (first :: rest).filterMap Complaint.topField? = [] := by
        refine List.filterMap_eq_nil_iff.mpr fun c member => whole a c ?_
        rw [checked]
        exact member
      simp only [nowhere]
      rfl
  | invalid first rest =>
    have somewhere : (first :: rest).filterMap Complaint.topField? ≠ [] := by
      obtain ⟨name, -, top⟩ := byField.located body first (by rw [all]; exact List.mem_cons_self)
      simp [top]
    have left := byField.spared body ((first :: rest).filterMap Complaint.topField?)
      fun name _ => by rw [List.mem_filterMap, Checked.Blames, all]; rfl
    simp only [leniently, all, Checked.andThen]
    generalize (first :: rest).filterMap Complaint.topField? = bad at somewhere left ⊢
    cases bad with
    | nil => exact absurd rfl somewhere
    | cons name bad =>
      rw [← left]
      cases read (body.filter fun field => field.1 ∉ name :: bad) <;> rfl

/-- The lenient reading of a record is what its fields are by themselves. -/
theorem leniently_eq (byField : ByField names read alone) (body : Fields) :
    leniently read body = alone body := by
  have whole := byField.leniently_andThen_eq .valid (fun a c member => by cases member) body
  have same : (fun body => (read body).andThen .valid) = read := by
    funext body
    cases read body <;> rfl
  rw [same] at whole
  rw [whole]
  cases alone body <;> rfl

end ByField
end LiveSurface.Validation
