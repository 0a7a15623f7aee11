import LiveSurface.Proofs.Data.Placement
import LiveSurface.Proofs.Surface.Frame
import LiveSurface.Proofs.Validation.Decoding

/-!
# Updates without a payload

An update of data whose payload cannot be read counts as one with an empty payload. At the root
this does nothing. Anywhere else the empty object takes the place of whatever stands there, so that
the data survive exactly if an empty object stood there before (`receive_of_withheld`).
-/
namespace LiveSurface

open Validation

theorem Entries.set_eq_self_iff {α : Type} (entries : Entries α) (key : String) (v : α) :
    set entries key v = entries ↔ get? entries key = some v := by
  induction entries with
  | nil => simp [set, get?]
  | cons entry rest ih =>
    obtain ⟨k, old⟩ := entry
    by_cases same : k = key
    · simp [set, get?, same, eq_comm]
    · simp [set, get?, same, ih]

namespace Value

/-- A value carries another one at a place that is reached through the fields of objects alone. -/
inductive Carries : Value → List String → Value → Prop
  | here (v : Value) : Carries v [] v
  | inside {fields : Fields} {segment : String} {rest : List String} {inner carried : Value}
    (field : Entries.get? fields segment = some inner) (deeper : Carries inner rest carried) :
    Carries (.obj fields) (segment :: rest) carried

/-- Putting a value at a place changes nothing exactly if it stands there. -/
theorem put_eq_self_iff (v : Value) (segments : List String) (new : Value) :
    v.put segments new = v ↔ v.Carries segments new := by
  induction segments generalizing v with
  | nil =>
    constructor
    · intro same
      have same : new = v := same
      exact same ▸ .here v
    · rintro ⟨⟩
      rfl
  | cons segment rest ih =>
    constructor
    · intro same
      obtain ⟨fields, rfl⟩ : v.IsObject := same ▸ put_isObject v segment rest new
      have set := (Entries.set_eq_self_iff _ _ _).mp (Value.obj.inj same)
      -- what stands under the first segment is what the rest of the way is put into
      have inner : (Value.obj fields).field segment =
          ((Value.obj fields).field segment).put rest new := by
        conv_lhs => rw [field, set, Option.getD_some]
      exact .inside set (inner ▸ (ih _).mp inner.symm)
    · rintro (_ | ⟨found, deeper⟩)
      rename_i fields inner
      have own : (Value.obj fields).field segment = inner := by
        have read : Entries.get? (Value.obj fields).fieldsOrNone segment = some inner := found
        rw [field, read, Option.getD_some]
      rw [put, own, (ih inner).mpr deeper]
      exact congrArg Value.obj ((Entries.set_eq_self_iff _ _ _).mpr found)

end Value

theorem Fields.obj_write_cons (data : Fields) (segment : String) (rest : List String)
    (payload : Fields) :
    Value.obj (write data (segment :: rest) payload) =
      (Value.obj data).put (segment :: rest) (.obj payload) :=
  Fields.obj_write_eq_put (.obj data) segment rest payload

/-- An empty payload changes nothing at the root, and elsewhere nothing exactly if an empty object
is there. -/
theorem Fields.write_nil_eq_self_iff (data : Fields) (path : List String) :
    write data path [] = data ↔ path = [] ∨ (Value.obj data).Carries path (.obj []) := by
  cases path with
  | nil => simp [write, Entries.update]
  | cons segment rest =>
    rw [← Value.put_eq_self_iff, ← obj_write_cons]
    simp

theorem Updated.of_write (data : Fields) {payload : Fields} (distinct : payload.keys.Nodup)
    (path query : List String) :
    Updated (.obj data) (.obj (Fields.write data path payload)) payload path query := by
  cases path with
  | nil => exact Updated.of_root (.obj data) distinct query
  | cons segment rest =>
    rw [Fields.obj_write_cons]
    exact Updated.of_put (.obj data) payload segment rest query

namespace Message

/-- The body of a value that is read as an update of data. -/
def dataBody? : Value → Option Fields
  | .obj fields =>
    if Entries.has fields "beginRendering" || Entries.has fields "surfaceUpdate" then none
    else (Entries.get? fields "dataModelUpdate").bind Value.asFields?
  | _ => none

/-- A body whose payload is of the wrong type: at least one of the two forms of a payload is there
without being one, and neither brings anything. -/
structure Withheld (body : Fields) : Prop where
  malformed : (∃ v, Entries.get? body "contents" = some v ∧ v.asList? = none) ∨
    ∃ v, Entries.get? body "value" = some v ∧ v.asFields? = none
  contents : ∀ items, Entries.get? body "contents" = some (.list items) → items = []
  value : ∀ fields, Entries.get? body "value" = some (.obj fields) → fields = []

/-- The place that the path of a body names; a path that is no text names the root. -/
def place (body : Fields) : List String :=
  ((givenOr "path" (nullable text) none body).map Path.segments).getD []

theorem decode?_of_dataBody? {raw : Value} {body : Fields} {id : String}
    (read : dataBody? raw = some body) (target : Entries.get? body "surfaceId" = some (.str id))
    (named : id ≠ "") :
    decode? raw = some (dataModelUpdate id (givenOr "path" (nullable text) none body)
      (givenOr "contents" anyList [] body) (givenOr "value" (nullable object) none body)) := by
  cases raw with
  | obj fields =>
    simp only [dataBody?] at read
    split at read
    · cases read
    · next earlier =>
      rw [Bool.or_eq_true, not_or, Bool.not_eq_true, Bool.not_eq_true] at earlier
      obtain ⟨v, found, isBody⟩ := Option.bind_eq_some_iff.mp read
      obtain rfl : v = .obj body := by
        cases v <;> simp_all [Value.asFields?]
      have present : Entries.has fields "dataModelUpdate" = true := by
        simp [Entries.has, found]
      refine decode?_eq_some_iff.mpr ⟨fields, forms[2], body, rfl, ?_, found, ?_⟩
      · simp [forms, earlier, present]
      · simp [forms, given?_nonEmpty_eq_some_iff.mpr ⟨target, named⟩]
  | _ => cases read

/-- A payload that is withheld is read as an empty one. -/
theorem decode?_of_withheld {raw : Value} {body : Fields} {id : String}
    (read : dataBody? raw = some body) (target : Entries.get? body "surfaceId" = some (.str id))
    (named : id ≠ "") (withheld : Withheld body) :
    ∃ value, decode? raw =
        some (dataModelUpdate id (givenOr "path" (nullable text) none body) [] value) ∧
      value.getD [] = [] := by
  have contents : givenOr "contents" anyList [] body = [] := by
    unfold givenOr given?
    cases found : Entries.get? body "contents" with
    | none => rfl
    | some v =>
      cases v with
      | list items => rw [withheld.contents items found]; rfl
      | _ => rfl
  have value : (givenOr "value" (nullable object) none body).getD [] = [] := by
    unfold givenOr given?
    cases found : Entries.get? body "value" with
    | none => rfl
    | some v =>
      cases v with
      | obj fields => rw [withheld.value fields found]; rfl
      | _ => rfl
  exact ⟨_, contents ▸ decode?_of_dataBody? read target named, value⟩

end Message

/-- An update of data without entries writes the fields of its value, if it has one. -/
theorem Surface.take_without_contents (surface : Surface) (id : String) (path : Option String)
    (value : Option Fields) :
    surface.take (.dataModelUpdate id path [] value) =
      { surface with
        data := Fields.write surface.data ((path.map Path.segments).getD []) (value.getD []) } :=
  rfl

namespace Processor

/-- An update of data whose payload is withheld writes the empty object at its path, unless that is
the root, and does nothing else: no other surface, no other part of the surface, and no place
besides is changed. So the data stay as they are exactly if the path is that of the root, or leads
through objects to an empty object. -/
theorem receive_of_withheld {p : Processor} {raw : Value} {body : Fields} {id : String}
    {surface : Surface} (found : p.get? id = some surface)
    (read : Message.dataBody? raw = some body)
    (target : Entries.get? body "surfaceId" = some (.str id)) (named : id ≠ "")
    (withheld : Message.Withheld body) :
    ∃ data, (p.receive raw).2 = .applied ∧
      ((p.receive raw).1.get? id) =
        some { surface with data, version := surface.version + 1, touched := p.mutations + 1 } ∧
      (∀ other, other ≠ id → (p.receive raw).1.get? other = p.get? other) ∧
      (∀ query, Updated (.obj surface.data) (.obj data) [] (Message.place body) query) ∧
      (data = surface.data ↔
        Message.place body = [] ∨
          (Value.obj surface.data).Carries (Message.place body) (.obj [])) := by
  obtain ⟨value, decoded, nothing⟩ := Message.decode?_of_withheld read target named withheld
  generalize brought : Message.dataModelUpdate id _ [] value = message at decoded
  have own : message.target? = some id := by
    rw [← brought]
    rfl
  have applies : message.fault? = none := by
    rw [← brought]
    rfl
  have taken : surface.take message =
      { surface with data := Fields.write surface.data (Message.place body) [] } := by
    rw [← brought, Surface.take_without_contents, nothing]
    rfl
  have received : p.receive raw = (p.change id (·.take message), .applied) := by
    rw [receive, decoded]
    exact (apply_of_target own p).trans (by rw [applies])
  have empty : (Entries.keys ([] : Fields)).Nodup := List.nodup_nil
  have keeps (other : Surface) : (other.take message).id = other.id := other.take_id message
  rw [received]
  refine ⟨Fields.write surface.data (Message.place body) [], rfl, ?_, ?_,
    fun query => Updated.of_write surface.data empty _ query,
    Fields.write_nil_eq_self_iff surface.data _⟩
  · rw [get?_change p id id _ keeps, if_pos rfl, found, Option.getD_some, taken]
  · intro other apart
    rw [get?_change p id other _ keeps, if_neg (Ne.symm apart)]

/-- A payload of the wrong type for a place where an empty object stands. -/
theorem receive_of_withheld_of_empty :
    let update (path : String) (payload : String × Value) : Value :=
      .obj [("dataModelUpdate",
        .obj [("surfaceId", .str "s"), ("path", .str path), payload])]
    let p : Processor := process { honorDelete := false }
      [update "/" ("value", .obj [("n", .int 1)]), update "/a/b" ("value", .obj [])]
    let raw := update "a/b" ("contents", .str "none")
    ∃ surface body, p.get? "s" = some surface ∧ Message.dataBody? raw = some body ∧
      Entries.get? body "surfaceId" = some (.str "s") ∧ Message.Withheld body ∧
      Message.place body = ["a", "b"] ∧
      surface.data = [("n", .int 1), ("a", .obj [("b", .obj [])])] ∧
      ((p.receive raw).1.get? "s").map (·.data) = some surface.data := by
  intro update p raw
  have withheld : Message.Withheld
      [("surfaceId", .str "s"), ("path", .str "a/b"), ("contents", .str "none")] :=
    ⟨.inl ⟨_, rfl, rfl⟩, nofun, nofun⟩
  have found : p.get? "s" =
      some { id := "s", data := [("n", .int 1), ("a", .obj [("b", .obj [])])], version := 3,
             touched := 2 } := by decide
  obtain ⟨data, -, received, -, -, same⟩ :=
    @receive_of_withheld p raw _ "s" _ found rfl rfl (by decide) withheld
  have kept := same.mpr (.inr (.inside rfl (.inside rfl (.here _))))
  refine ⟨_, _, found, rfl, rfl, withheld, by decide, rfl, ?_⟩
  rw [received, Option.map_some, kept]

/-- A payload of the wrong type erases what stands at its path. -/
theorem data_lost_of_withheld :
    let update (path : String) (payload : String × Value) : Value :=
      .obj [("dataModelUpdate",
        .obj [("surfaceId", .str "s"), ("path", .str path), payload])]
    let p : Processor := process { honorDelete := false }
      [update "/a" ("value", .obj [("n", .int 1)])]
    let raw := update "/a" ("contents", .str "none")
    p.Reachable ∧
      (∃ body, Message.dataBody? raw = some body ∧
        Entries.get? body "surfaceId" = some (.str "s") ∧ Message.Withheld body) ∧
      (p.get? "s").map (·.data) = some [("a", .obj [("n", .int 1)])] ∧
      ((p.receive raw).1.get? "s").map (·.data) = some [("a", .obj [])] := by
  intro update p raw
  exact ⟨(Reachable.fresh false).process _,
    ⟨_, rfl, rfl, ⟨.inl ⟨_, rfl, rfl⟩, nofun, nofun⟩⟩, by decide, by decide⟩

end Processor
end LiveSurface
