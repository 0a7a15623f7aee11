import LiveSurface.Proofs.Number.Nearest
import LiveSurface.Proofs.Surface.Making
import LiveSurface.Proofs.Validation.Actions

/-!
# Made messages arrive

What messages are made from is what a processor makes of them. The sequence that brings a surface to
life gives a fresh processor this surface and no other, with its root, look, components and data,
and data that is brought to a place is read back from there (`renderSequence_arrives`). Only weights
can change: a whole number that binary64 does not have arrives as another one or not at all
(`renderSequence_loses_weight`).
-/
namespace LiveSurface

theorem Value.toObject_obj {fields : Fields} (distinct : (Entries.keys fields).Nodup) :
    (obj fields).toObject = .ok (.obj fields) := by
  have texts : (fields.map fun field => (Value.str field.1, field.2)).map
      (fun pair => (pair.1.wording, pair.2)) = fields := by
    simp [List.map_map, Function.comp_def, Value.wording]
  have same : Entries.update [] fields = fields := Entries.update_of_nodup distinct
  simp only [Value.toObject, Value.pairs, bind, Except.bind, texts, same]
  rfl

namespace Outbound

open Validation

/-! ## Components -/

/-- The weight that a component is made with. -/
inductive Weight
  | absent
  | int (n : Int)
  | real (d : Double)

namespace Weight

/-- A weight as an argument. -/
def value : Weight → Value
  | absent => .null
  | int n => .int n
  | real d => .real d

/-- The weight that is read from an entry. -/
def read : Weight → Option Double
  | absent => none
  | int n => Double.ofInt? n
  | real d => some d

/-- What arrives of a weight. A whole number arrives as the binary64 number that is nearest to it,
which is the number itself if binary64 has it, and out of range it does not arrive. -/
inductive Arrives : Weight → Option Double → Prop
  | absent : Arrives .absent none
  | real (d : Double) : Arrives (.real d) (some d)
  | int {n m : Int} {d : Double} (whole : d.toInt? = some m) (same : m = n ↔ Double.Exact n)
    (near : 2 * (n - m).natAbs ≤ Nat.pow 2 (n.natAbs.log2 - 52)) : Arrives (.int n) (some d)
  | beyond {n : Int} (large : Double.overflow ≤ n.natAbs) : Arrives (.int n) none

theorem arrives_read (weight : Weight) : weight.Arrives weight.read := by
  cases weight with
  | absent => exact .absent
  | real d => exact .real d
  | int n =>
    cases made : Double.ofInt? n with
    | none =>
      have beyond := Double.ofInt?_isSome_iff n
      rw [made] at beyond
      rw [read, made]
      exact .beyond (by simpa using beyond)
    | some d =>
      obtain ⟨m, whole, same, near⟩ := Double.toInt?_of_ofInt? made
      rw [read, made]
      exact .int whole same near

end Weight

/-- What an entry of an update is made from. -/
structure Part where
  id : String
  kind : String
  weight : Weight
  props : Fields
  named : id ≠ ""
  known : kind ≠ ""

namespace Part

/-- Makes an entry. -/
def make (part : Part) : Except ValueFault Value :=
  componentEntry (.str part.id) (.str part.kind) part.weight.value part.props

/-- The entry that is made. -/
def entry (part : Part) : Value :=
  .obj ([("id", .str part.id), ("component", .obj [(part.kind, .obj part.props)])]
    ++ if part.weight.value = .null then [] else [("weight", part.weight.value)])

theorem make_eq (part : Part) : part.make = .ok part.entry := rfl

theorem mapM_make (parts : List Part) : parts.mapM make = .ok (parts.map entry) := by
  induction parts with
  | nil => rfl
  | cons part rest ih =>
    rw [List.mapM_cons, make_eq, ih]
    rfl

/-- The definition that is read from the entry. -/
def definition (part : Part) : Definition :=
  ⟨part.id, part.weight.read, part.kind, .obj part.props⟩

/-- A definition that tells what a part was made from. -/
structure Defines (part : Part) (definition : Definition) : Prop where
  id : definition.id = part.id
  kind : definition.kind = part.kind
  props : definition.props = .obj part.props
  weight : part.weight.Arrives definition.weight

theorem decode?_entry (part : Part) : Definition.decode? part.entry = some part.definition := by
  refine Definition.decode?_eq_some_iff.mpr ⟨_, rfl, ⟨?_, part.named⟩, ⟨?_, part.known⟩, ?_⟩
  · rfl
  · rfl
  · rw [definition]
    cases weight : part.weight with
    | absent => rfl
    | int n =>
      cases made : Double.ofInt? n <;>
        simp [Weight.value, Weight.read, givenOr, given?, Entries.get?, nullable, real, made]
    | real d => rfl

theorem defines_definition (part : Part) : part.Defines part.definition :=
  ⟨rfl, rfl, rfl, part.weight.arrives_read⟩

theorem toObject_entry (part : Part) : part.entry.toObject = .ok part.entry := by
  refine Value.toObject_obj ?_
  cases part.weight <;> simp [Weight.value, Entries.keys]

end Part

/-! ## Looks -/

/-- The text of a field, where it has one. -/
def text? (fields : Fields) (name : String) : Option String :=
  match Entries.get? fields name with
  | some (.str s) => some s
  | _ => none

/-- A look that can be asked for: its two fields are texts, null or absent. -/
structure Look (styles : Fields) : Prop where
  distinct : (Entries.keys styles).Nodup
  each : ∀ name ∈ ["primaryColor", "font"], ∀ v, Entries.get? styles name = some v →
    v = .null ∨ ∃ s, v = .str s

theorem Look.read {styles : Fields} (look : Look styles) :
    Styles.read styles = .valid ⟨text? styles "primaryColor", text? styles "font"⟩ := by
  have field : ∀ name ∈ ["primaryColor", "font"],
      maybe name text styles = .valid (text? styles name) := by
    intro name member
    have own := look.each name member
    rw [maybe_eq_valid_iff, Fields.filled?, text?]
    cases found : Entries.get? styles name with
    | none => rfl
    | some v =>
      rcases own v found with rfl | ⟨s, rfl⟩
      · rfl
      · rfl
  rw [Styles.read, field "primaryColor" (by simp), field "font" (by simp)]
  rfl

/-! ## The messages -/

namespace Sequence

/-- Names the root and the look. -/
def opening (id root : String) (styles : Fields) : Value :=
  tagged "beginRendering" ([("surfaceId", .str id), ("root", .str root)] ++
    if styles = [] then [] else [("styles", .obj styles)])

/-- Brings the components. -/
def components (id : String) (parts : List Part) : Value :=
  tagged "surfaceUpdate" [("surfaceId", .str id), ("components", .list (parts.map Part.entry))]

/-- Brings data to a place. -/
def data (id path : String) (data : Fields) : Value :=
  tagged "dataModelUpdate" [("surfaceId", .str id), ("path", .str path),
    ("contents", .list (Contents.encode data))]

/-- The messages that bring a surface to life; empty data needs none. -/
def messages (id root : String) (parts : List Part) (fields styles : Fields) : List Value :=
  [opening id root styles, components id parts] ++
    if fields = [] then [] else [data id "/" fields]

end Sequence

/-- The look that arrives; none was asked for by an empty object. -/
def look? (styles : Fields) : Option Styles :=
  if styles = [] then none else some ⟨text? styles "primaryColor", text? styles "font"⟩

variable {id root : String} {styles : Fields} {data : Fields}

theorem beginRendering_eq (distinct : (Entries.keys styles).Nodup) :
    Outbound.beginRendering (.str id) (.str root) (.obj styles) =
      .ok (Sequence.opening id root styles) := by
  cases styles with
  | nil => rfl
  | cons field rest =>
    have look := Value.toObject_obj distinct
    simp only [Outbound.beginRendering, Value.truth, look]
    rfl

theorem mapM_toObject_entry (parts : List Part) :
    (parts.map Part.entry).mapM Value.toObject = .ok (parts.map Part.entry) := by
  induction parts with
  | nil => rfl
  | cons part rest ih =>
    rw [List.map_cons, List.mapM_cons, part.toObject_entry, ih]
    rfl

theorem surfaceUpdate_eq (parts : List Part) :
    Outbound.surfaceUpdate (.str id) (.list (parts.map Part.entry)) =
      .ok (Sequence.components id parts) := by
  have entries := mapM_toObject_entry parts
  simp only [Outbound.surfaceUpdate, Value.elements, Value.parts?, bind, Except.bind, entries]
  rfl

theorem dataModelUpdate_eq {path : Value} {place : String}
    (leads : placeText path = .ok place) :
    Outbound.dataModelUpdate (.str id) (.obj data) path = .ok (Sequence.data id place data) := by
  simp only [Outbound.dataModelUpdate, Contents.encodeValue_obj, leads]
  rfl

theorem renderSequence_eq (distinct : (Entries.keys styles).Nodup) (parts : List Part) :
    renderSequence (.str id) (.str root) (.list (parts.map Part.entry)) (.obj data) (.obj styles) =
      .ok (Sequence.messages id root parts data styles) := by
  have start := @beginRendering_eq id root styles distinct
  have update := @surfaceUpdate_eq id parts
  have rest := @dataModelUpdate_eq id data .null "/" rfl
  unfold renderSequence
  cases data with
  | nil =>
    simp only [start, update, Value.truth]
    rfl
  | cons field others =>
    simp only [start, update, rest, Value.truth]
    rfl

/-! ## Reading the messages -/

/-- The messages of a sequence as they are read. -/
def Sequence.read (id root : String) (parts : List Part) (data styles : Fields) : List Message :=
  [.beginRendering id root (look? styles), .surfaceUpdate id (parts.map Part.entry)] ++
    if data = [] then [] else [.dataModelUpdate id (some "/") (Contents.encode data) none]

theorem decode?_opening (named : id ≠ "") (rooted : root ≠ "") (look : Look styles) :
    Message.decode? (Sequence.opening id root styles) =
      some (.beginRendering id root (look? styles)) := by
  rw [Sequence.opening, Message.decode?_beginRendering (by simp [Entries.get?]) named, look?]
  by_cases empty : styles = []
  · simp [empty, givenOr, given?, Entries.get?, nullable, nonEmpty, rooted]
  · simp [empty, givenOr, given?, Entries.get?, nullable, nonEmpty, rooted, record, look.read]

theorem decode?_data (named : id ≠ "") (path : String) :
    Message.decode? (Sequence.data id path data) =
      some (.dataModelUpdate id (some path) (Contents.encode data) none) := by
  rw [Sequence.data, Message.decode?_dataModelUpdate (by simp [Entries.get?]) named]
  simp [givenOr, given?, Entries.get?, nullable, Validation.text, anyList]

section
variable (transferable : (Value.obj data).Transferable)
include transferable

theorem decode_encode_eq :
    Contents.decode (Contents.encode data) = .ok (Value.settledFields data) := by
  obtain ⟨entries, written, read, -⟩ := Contents.decode_encode transferable
  rw [Contents.encodeValue_obj] at written
  cases written
  exact read

theorem fault?_data (path : String) :
    Message.fault? (.dataModelUpdate id (some path) (Contents.encode data) none) = none := by
  rw [Message.fault?, decode_encode_eq transferable]

theorem write?_data (path : String) :
    Message.write? (.dataModelUpdate id (some path) (Contents.encode data) none) =
      some (Path.segments path, Value.settledFields data) := by
  rw [Message.write?, decode_encode_eq transferable]
  cases data <;> rfl

theorem take_data (surface : Surface) (path : String) :
    surface.take (.dataModelUpdate id (some path) (Contents.encode data) none) =
      { surface with
        data := Fields.write surface.data (Path.segments path) (Value.settledFields data) } := by
  simp only [Surface.take, write?_data transferable]

/-- Data that is brought to a place below the root is read back from there. -/
theorem read_data (named : id ≠ "") {path : String} (below : Path.segments path ≠ [])
    (p : Processor) :
    ∃ surface, (p.process [Sequence.data id path data]).get? id = some surface ∧
      (Value.obj surface.data).read (Path.segments path) = .obj (Value.settledFields data) := by
  have among : Message.among [Sequence.data id path data] =
      [.dataModelUpdate id (some path) (Contents.encode data) none] := by
    rw [Message.among, List.filterMap_cons_some (decode?_data named path), List.filterMap_nil]
  have told := p.get?_process [Sequence.data id path data] id
  rw [among, List.foldl_cons, List.foldl_nil, Message.step, Message.target?, if_pos rfl,
    Surface.receive, Message.applies, fault?_data transferable, Option.isNone_none, if_pos rfl,
    take_data transferable] at told
  obtain ⟨surface, found, same⟩ := Option.map_eq_some_iff.mp told
  have brought := congrArg Surface.data same
  refine ⟨surface, found, ?_⟩
  cases segments : Path.segments path with
  | nil => exact absurd segments below
  | cons segment rest =>
    rw [segments] at brought
    simp only [Surface.untouched] at brought
    rw [brought, Fields.read_write]

end

/-- What a fresh processor makes of a sequence. -/
structure Arrived (id root : String) (parts : List Part) (data styles : Fields)
    (messages : List Value) (surface : Surface) : Prop where
  id : surface.id = id
  root : surface.root = some root
  styles : surface.styles = look? styles
  components : ∃ definitions, List.Forall₂ Part.Defines parts definitions ∧
    surface.components = definitions.foldl Registry.upsert []
  data : surface.data = Value.settledFields data
  version : surface.version = 1 + messages.length

theorem upsertAll_entries (parts : List Part) :
    ∃ definitions, List.Forall₂ Part.Defines parts definitions ∧
      Registry.upsertAll [] (parts.map Part.entry) = definitions.foldl Registry.upsert [] := by
  have read : Definition.decode? ∘ Part.entry = some ∘ Part.definition := funext Part.decode?_entry
  have each : (parts.map Part.entry).filterMap Definition.decode? = parts.map Part.definition := by
    rw [List.filterMap_map, read, List.filterMap_eq_map]
  refine ⟨parts.map Part.definition, ?_, by rw [Registry.upsertAll, each]⟩
  rw [List.forall₂_map_right_iff, List.forall₂_same]
  exact fun part _ => part.defines_definition

/-! ## The sequence -/

theorem among_messages (named : id ≠ "") (rooted : root ≠ "") (parts : List Part)
    (look : Look styles) :
    Message.among (Sequence.messages id root parts data styles) =
      Sequence.read id root parts data styles := by
  have opening := decode?_opening named rooted look
  have update : Message.decode? (Sequence.components id parts) =
      some (.surfaceUpdate id (parts.map Part.entry)) := Message.decode?_surfaceUpdate named _
  rw [Message.among, Sequence.messages, List.cons_append, List.filterMap_cons_some opening,
    List.cons_append, List.filterMap_cons_some update, List.nil_append]
  split
  · next empty => rw [List.filterMap_nil, Sequence.read, if_pos empty]; rfl
  · next filled =>
    rw [List.filterMap_cons_some (decode?_data named "/"), List.filterMap_nil, Sequence.read,
      if_neg filled]
    rfl

theorem length_read (parts : List Part) :
    (Sequence.read id root parts data styles).length =
      (Sequence.messages id root parts data styles).length := by
  simp only [Sequence.read, Sequence.messages, List.length_append]
  split <;> rfl

section
variable (parts : List Part) (transferable : (Value.obj data).Transferable)
include transferable

theorem applicable_read {message : Message}
    (member : message ∈ Sequence.read id root parts data styles) :
    message.target? = some id ∧ message.fault? = none := by
  rw [Sequence.read, List.mem_append, List.mem_pair] at member
  rcases member with (rfl | rfl) | rest
  · exact ⟨rfl, rfl⟩
  · exact ⟨rfl, rfl⟩
  · split at rest
    · exact absurd rest List.not_mem_nil
    · rw [List.mem_singleton.mp rest]
      exact ⟨rfl, fault?_data transferable "/"⟩

theorem foldl_take_read :
    (Sequence.read id root parts data styles).foldl Surface.take { id } =
      { id, root := some root, styles := look? styles
        components := Registry.upsertAll [] (parts.map Part.entry)
        data := Value.settledFields data } := by
  have slash : Path.segments "/" = [] := by decide
  have distinct : (Entries.keys (Value.settledFields data)).Nodup := by
    rw [Value.keys_settledFields]
    cases transferable with | obj distinct => exact distinct
  rw [Sequence.read, List.foldl_append]
  split
  · next empty => subst empty; simp [Surface.take, Value.settledFields]
  · rw [List.foldl_cons, List.foldl_nil, take_data transferable, slash, Fields.write]
    simp [Surface.take, Entries.update_of_nodup, distinct]

theorem process_messages (honored : Bool) (named : id ≠ "") (rooted : root ≠ "")
    (look : Look styles) :
    ∃ surface, (Processor.process { honorDelete := honored }
        (Sequence.messages id root parts data styles)).surfaces = [surface] ∧
      Arrived id root parts data styles (Sequence.messages id root parts data styles) surface := by
  have fresh := @Processor.process_fresh honored id (Sequence.messages id root parts data styles)
  rw [among_messages named rooted parts look] at fresh
  have made := fresh (by simp [Sequence.read])
    fun message member => applicable_read parts transferable member
  rw [foldl_take_read parts transferable, length_read parts] at made
  obtain ⟨definitions, defined, upserted⟩ := upsertAll_entries parts
  refine ⟨_, by rw [made]; rfl, ?_⟩
  exact ⟨rfl, rfl, rfl, ⟨definitions, defined, upserted⟩, rfl, Nat.add_comm _ 1⟩

end

/-- A fresh processor that is given the sequence has the surface that it was made for and no other,
and it reads data back from the place below the root to which it was brought. -/
theorem renderSequence_arrives (honored : Bool) (named : id ≠ "") (rooted : root ≠ "")
    (parts : List Part) (look : Look styles) (transferable : (Value.obj data).Transferable) :
    (∃ entries messages surface, parts.mapM Part.make = .ok entries ∧
      renderSequence (.str id) (.str root) (.list entries) (.obj data) (.obj styles) =
        .ok messages ∧
      (Processor.process { honorDelete := honored } messages).surfaces = [surface] ∧
      Arrived id root parts data styles messages surface) ∧
    ∀ (p : Processor) (path : String), Path.segments path ≠ [] → ∃ message surface,
      dataModelUpdate (.str id) (.obj data) (.str path) = .ok message ∧
      (p.process [message]).get? id = some surface ∧
      (Value.obj surface.data).read (Path.segments path) = .obj (Value.settledFields data) := by
  constructor
  · obtain ⟨surface, only, arrived⟩ :=
      process_messages parts transferable honored named rooted look
    exact ⟨_, _, surface, Part.mapM_make parts, renderSequence_eq look.distinct parts, only,
      arrived⟩
  · intro p path below
    have given : path ≠ "" := by
      rintro rfl
      exact below (by decide)
    obtain ⟨surface, found, read⟩ := read_data transferable named below p
    exact ⟨_, surface, dataModelUpdate_eq (by simp [placeText, Value.truth, given]), found, read⟩

/-- The second component under an identifier takes the place of the first one. -/
theorem renderSequence_arrives_of_replaced :
    let fresh : Processor := { honorDelete := true }
    let two : Double := .finite false 1 1 (by decide)
    let parts : List Part :=
      [⟨"a", "Icon", .absent, [], by decide, by decide⟩,
        ⟨"b", "Card", .real two, [("child", .str "a")], by decide, by decide⟩,
        ⟨"a", "Text", .int 3, [], by decide, by decide⟩]
    let data : Fields := [("n", .real two), ("m", .obj [("k", .null)])]
    let styles : Fields := [("font", .str "Serif"), ("primaryColor", .null)]
    Look styles ∧ (Value.obj data).Transferable ∧ ∃ entries messages surface three,
      parts.mapM Part.make = .ok entries ∧
      renderSequence (.str "s") (.str "b") (.list entries) (.obj data) (.obj styles) =
        .ok messages ∧
      (fresh.process messages).surfaces = [surface] ∧
      surface.styles = some ⟨none, some "Serif"⟩ ∧ three.toInt? = some 3 ∧
      surface.components = [⟨"a", some three, "Text", .obj []⟩,
        ⟨"b", some two, "Card", .obj [("child", .str "a")]⟩] ∧
      surface.data = [("n", .int 2), ("m", .obj [("k", .null)])] ∧
      ∃ message after, dataModelUpdate (.str "s") (.obj data) (.str "/m/k") = .ok message ∧
        ((fresh.process messages).process [message]).get? "s" = some after ∧
        (Value.obj after.data).read ["m", "k"] = .obj surface.data := by
  intro fresh two parts data styles
  have look : Look styles := by
    refine ⟨by decide, ?_⟩
    intro name member v found
    rcases List.mem_pair.mp member with rfl | rfl
    · exact .inl (Option.some.inj found).symm
    · exact .inr ⟨"Serif", (Option.some.inj found).symm⟩
  have inner : (Value.obj [("k", .null)]).Transferable :=
    .obj (by decide) (by decide) (by simpa using .null)
  have transferable : (Value.obj data).Transferable :=
    .obj (by decide) (by decide) (by simpa [data] using ⟨.real two, inner⟩)
  obtain ⟨⟨entries, messages, surface, parts_made, made, only, arrived⟩, back⟩ :=
    @renderSequence_arrives "s" "b" styles data true (by decide) (by decide) parts look
      transferable
  obtain ⟨message, after, brought, found, read⟩ :=
    back (fresh.process messages) "/m/k" (by decide)
  obtain ⟨definitions, defined, upserted⟩ := arrived.components
  simp only [parts, List.forall₂_cons_left_iff, List.forall₂_nil_left_iff] at defined
  obtain ⟨⟨_, _, _, _⟩, _, ⟨rfl, rfl, rfl, icon⟩, ⟨⟨_, _, _, _⟩, _, ⟨rfl, rfl, rfl, card⟩,
    ⟨⟨_, _, _, _⟩, _, ⟨rfl, rfl, rfl, shown⟩, rfl, rfl⟩, rfl⟩, rfl⟩ := defined
  cases icon
  cases card
  cases shown with
  | beyond large => exact absurd large (by decide +kernel)
  | @int _ m three whole same near =>
    obtain rfl : m = 3 := same.mpr ⟨.finite false 3 0 (by decide), by decide⟩
    have settled : surface.data = [("n", .int 2), ("m", .obj [("k", .null)])] := arrived.data
    have replaced : surface.components = [⟨"a", some three, "Text", .obj []⟩,
        ⟨"b", some two, "Card", .obj [("child", .str "a")]⟩] := upserted
    exact ⟨look, transferable, entries, messages, surface, three, parts_made, made, only,
      arrived.styles, whole, replaced, settled, message, after, brought, found,
      by rw [settled]; exact read⟩

/-- A weight that is out of range is lost, although it is a finite number. -/
theorem renderSequence_loses_weight :
    let fresh : Processor := { honorDelete := true }
    let part : Part := ⟨"a", "Text", .int (Int.pow 10 309), [], by decide, by decide⟩
    ∃ entry messages surface, part.make = .ok entry ∧
      renderSequence (.str "s") (.str "a") (.list [entry]) (.obj []) (.obj []) = .ok messages ∧
      (fresh.process messages).surfaces = [surface] ∧
      surface.components = [⟨"a", none, "Text", .obj []⟩] := by
  intro fresh part
  exact ⟨_, _, ⟨"s", some "a", [⟨"a", none, "Text", .obj []⟩], [], none, 3, 2⟩, part.make_eq,
    rfl, by decide +kernel, rfl⟩

end Outbound
end LiveSurface
