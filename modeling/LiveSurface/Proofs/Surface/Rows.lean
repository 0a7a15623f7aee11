import LiveSurface.Proofs.Data.Replay
import LiveSurface.Proofs.Surface.Frame
import Mathlib.Data.List.DropRight

/-!
# Surfaces by their messages

The messages for one surface fall into three rows: those that begin its rendering, those that bring
components and those that bring data. Each row makes a part of the surface of its own, and nothing
else does: not the messages for other surfaces, not the other rows, and not the way in which all of
them are mixed (`process_by_rows`). Where removal is honoured, a surface starts anew after the last
message that removes it.
-/
namespace LiveSurface

namespace Message

/-- The messages with a tag for a surface, in order. -/
def row (tag id : String) (messages : List Message) : List Message :=
  messages.filter fun message => message.tag = tag ∧ message.surfaceId? = some id

/-- The messages after the last one that removes a surface, all of them where removal is not
honoured. -/
def sinceRemoval (honored : Bool) (id : String) (messages : List Message) : List Message :=
  messages.rtakeWhile fun message => ¬ (honored ∧ message.removed? = some id)

/-- The root that a message names. -/
def root? : Message → Option String
  | beginRendering _ root _ => root
  | _ => none

/-- The look that a message brings. -/
def styles? : Message → Option Styles
  | beginRendering _ _ styles => styles
  | _ => none

/-- The raw components that a message brings. -/
def entries : Message → List Value
  | surfaceUpdate _ entries => entries
  | _ => []

/-- The messages that make up a surface, those of each kind in order. -/
structure Rows where
  begins : List Message
  updates : List Message
  writes : List Message

/-- The rows of a surface. -/
def Rows.of (id : String) (messages : List Message) : Rows :=
  ⟨row "beginRendering" id messages, row "surfaceUpdate" id messages,
    row "dataModelUpdate" id messages⟩

/-- All messages of the rows. -/
def Rows.all (rows : Rows) : List Message := rows.begins ++ rows.updates ++ rows.writes

end Message

/-- What rows of messages make of a surface: the last root and the last look that are named, the
components and the data one after another, and a version that counts the messages that could be
applied. -/
def Surface.extended (surface : Surface) (rows : Message.Rows) : Surface :=
  { surface with
    root := (rows.begins.filterMap Message.root?).getLast?.or surface.root
    styles := (rows.begins.filterMap Message.styles?).getLast?.or surface.styles
    components := surface.components.upsertAll (rows.updates.flatMap Message.entries)
    data := Fields.writeAll surface.data (rows.writes.filterMap Message.write?)
    version := surface.version + rows.all.countP Message.applies }

namespace Message

theorem row_concat (tag id : String) (messages : List Message) (message : Message) :
    row tag id (messages ++ [message]) =
      row tag id messages ++
        if message.tag = tag ∧ message.surfaceId? = some id then [message] else [] := by
  simp [row, List.filter_append, List.filter_cons]

theorem mem_row {tag id : String} {messages : List Message} {message : Message} :
    message ∈ row tag id messages ↔
      message ∈ messages ∧ message.tag = tag ∧ message.surfaceId? = some id := by
  simp [row]

/-- Rows with one more message at the end of the row that it belongs to. -/
def Rows.add (rows : Rows) (message : Message) : Rows :=
  match message with
  | beginRendering .. => { rows with begins := rows.begins ++ [message] }
  | surfaceUpdate .. => { rows with updates := rows.updates ++ [message] }
  | dataModelUpdate .. => { rows with writes := rows.writes ++ [message] }
  | _ => rows

/-- A message for a surface prolongs one of its rows. -/
theorem rows_concat {id : String} {message : Message} (target : message.target? = some id)
    (messages : List Message) :
    Rows.of id (messages ++ [message]) = (Rows.of id messages).add message := by
  cases message with
  | beginRendering | surfaceUpdate | dataModelUpdate =>
    cases target
    simp [Rows.of, Rows.add, row_concat, tag, surfaceId?]
  | userAction | deleteSurface => cases target

theorem rows_concat_of_other {id : String} {message : Message}
    (other : message.target? ≠ some id) (messages : List Message) :
    Rows.of id (messages ++ [message]) = Rows.of id messages := by
  cases message <;> simp_all [Rows.of, row_concat, tag, surfaceId?, target?]

theorem all_add_perm {id : String} {message : Message} (target : message.target? = some id)
    (rows : Rows) : (rows.add message).all.Perm (message :: rows.all) := by
  obtain ⟨begins, updates, writes⟩ := rows
  cases message with
  | beginRendering =>
    simp only [Rows.add, Rows.all, List.append_assoc]
    exact List.perm_middle
  | surfaceUpdate =>
    simp only [Rows.add, Rows.all, ← List.append_assoc]
    rw [List.append_assoc (begins ++ updates)]
    exact List.perm_middle
  | dataModelUpdate =>
    simp only [Rows.add, Rows.all, ← List.append_assoc]
    exact List.perm_append_singleton _ _
  | userAction | deleteSurface => cases target

theorem all_add_ne_nil {id : String} {message : Message} (target : message.target? = some id)
    (rows : Rows) : (rows.add message).all ≠ [] := by
  intro empty
  have once := all_add_perm target rows
  rw [empty] at once
  exact List.cons_ne_nil _ _ once.nil_eq.symm

theorem countP_all_add {id : String} {message : Message} (target : message.target? = some id)
    (rows : Rows) :
    (rows.add message).all.countP Message.applies =
      rows.all.countP Message.applies + if message.applies then 1 else 0 :=
  ((all_add_perm target rows).countP_eq _).trans List.countP_cons

end Message

theorem getLast?_filterMap_concat {α β : Type} (f : α → Option β) (items : List α) (item : α)
    (start : Option β) :
    ((items ++ [item]).filterMap f).getLast?.or start =
      (f item).or ((items.filterMap f).getLast?.or start) := by
  rw [List.filterMap_append, List.getLast?_append, Option.or_assoc]
  cases made : f item <;> simp [made]

theorem Registry.upsertAll_append (registry : Registry) (entries more : List Value) :
    registry.upsertAll (entries ++ more) = (registry.upsertAll entries).upsertAll more := by
  simp [Registry.upsertAll]

theorem Fields.writeAll_append (data : Fields) (writes more : List (List String × Fields)) :
    writeAll data (writes ++ more) = writeAll (writeAll data writes) more := List.foldl_append

namespace Surface

theorem extended_of_all_eq_nil {rows : Message.Rows} (empty : rows.all = []) (surface : Surface) :
    surface.extended rows = surface := by
  obtain ⟨begins, updates, writes⟩ := rows
  simp only [Message.Rows.all, List.append_eq_nil_iff] at empty
  obtain ⟨⟨rfl, rfl⟩, rfl⟩ := empty
  rfl

/-- One more message in the rows extends the surface by what it brings. -/
theorem extended_add {id : String} {message : Message} (target : message.target? = some id)
    (surface : Surface) (rows : Message.Rows) :
    surface.extended (rows.add message) = (surface.extended rows).receive message := by
  simp only [extended, Message.countP_all_add target]
  cases message with
  | beginRendering =>
    simp only [Message.Rows.add, getLast?_filterMap_concat]
    rfl
  | surfaceUpdate =>
    simp only [Message.Rows.add, List.flatMap_append, Registry.upsertAll_append,
      List.flatMap_singleton]
    rfl
  | dataModelUpdate other path contents value =>
    simp only [Message.Rows.add, List.filterMap_append, Fields.writeAll_append]
    cases read : Contents.decode contents with
    | error fault =>
      simp [receive, Message.applies, Message.fault?, Message.write?, read, Fields.writeAll]
    | ok decoded =>
      simp [receive, take, Message.applies, Message.fault?, Message.write?, read, Fields.writeAll,
        Nat.add_assoc]
  | userAction | deleteSurface => cases target

end Surface

namespace Message

/-- Messages that remove nothing extend the surface that is there, or a new one, by their rows. -/
theorem foldl_step_of_kept {honored : Bool} {id : String} {messages : List Message}
    (kept : ∀ message ∈ messages, ¬ (honored ∧ message.removed? = some id))
    (surface : Option Surface) :
    messages.foldl (step honored id) surface =
      if (Rows.of id messages).all = [] then surface
      else some ((surface.getD { id }).extended (Rows.of id messages)) := by
  induction messages using List.reverseRecOn with
  | nil => rfl
  | append_singleton messages message ih =>
    have before := ih fun other member => kept other (by simp [member])
    rw [List.foldl_append, List.foldl_cons, List.foldl_nil, before]
    by_cases target : message.target? = some id
    · have start : (if (Rows.of id messages).all = [] then surface
          else some ((surface.getD { id }).extended (Rows.of id messages))).getD { id } =
          (surface.getD { id }).extended (Rows.of id messages) := by
        split
        · next empty => exact (Surface.extended_of_all_eq_nil empty _).symm
        · rfl
      rw [step, if_pos target, start, rows_concat target, Surface.extended_add target,
        if_neg (all_add_ne_nil target _)]
    · rw [step, if_neg target, if_neg (kept message (by simp)), rows_concat_of_other target]

/-- What came before the last removal of a surface is forgotten. -/
theorem foldl_step_sinceRemoval (honored : Bool) (id : String) (messages : List Message) :
    messages.foldl (step honored id) none =
      (sinceRemoval honored id messages).foldl (step honored id) none := by
  induction messages using List.reverseRecOn with
  | nil => rfl
  | append_singleton messages message ih =>
    by_cases removes : honored ∧ message.removed? = some id
    · have inert : message.target? ≠ some id := by
        intro target
        have removes := removes.2
        rw [removed?_of_target target] at removes
        cases removes
      have forgotten : sinceRemoval honored id (messages ++ [message]) = [] :=
        List.rtakeWhile_concat_neg _ _ _ fun kept => of_decide_eq_true kept removes
      rw [forgotten, List.foldl_append, List.foldl_cons, List.foldl_nil, step, if_neg inert,
        if_pos removes]
      rfl
    · have remembered : sinceRemoval honored id (messages ++ [message]) =
          sinceRemoval honored id messages ++ [message] :=
        List.rtakeWhile_concat_pos _ _ _ (decide_eq_true removes)
      rw [remembered, List.foldl_append, List.foldl_append, ih]

theorem not_removed_of_mem_sinceRemoval {honored : Bool} {id : String} {messages : List Message}
    {message : Message} (member : message ∈ sinceRemoval honored id messages) :
    ¬ (honored ∧ message.removed? = some id) := by
  have kept := List.mem_rtakeWhile_imp member
  exact of_decide_eq_true kept

theorem sinceRemoval_eq_self {honored : Bool} {messages : List Message}
    (kept : honored → ∀ message ∈ messages, message.removed? = none) (id : String) :
    sinceRemoval honored id messages = messages := by
  refine List.rtakeWhile_eq_self_iff.mpr fun message member => decide_eq_true ?_
  rintro ⟨honors, removes⟩
  rw [kept honors message member] at removes
  cases removes

/-- Batches with the same rows remove the same surfaces. -/
theorem removed?_of_rows {messages others : List Message}
    (same : ∀ tag id, row tag id messages = row tag id others)
    (kept : ∀ message ∈ messages, message.removed? = none) :
    ∀ message ∈ others, message.removed? = none := by
  intro message member
  cases message with
  | deleteSurface id =>
    have inside : deleteSurface id ∈ row "deleteSurface" id others :=
      mem_row.mpr ⟨member, rfl, rfl⟩
    rw [← same] at inside
    exact kept _ (mem_row.mp inside).1
  | _ => rfl

end Message

namespace Processor

/-- After a batch on a fresh processor a surface is what its rows of messages make of a new one: it
is there when there is any message in them, and each row alone makes its own part. So batches that
remove no surfaces and have the same rows, however they are mixed, leave the same surface under
every identifier. -/
theorem process_by_rows (honored : Bool) :
    (∀ batch id,
      let rows := Message.Rows.of id (Message.sinceRemoval honored id (Message.among batch))
      ((Processor.process { honorDelete := honored } batch).get? id).map Surface.untouched =
        if rows.all = [] then none else some (({ id } : Surface).extended rows)) ∧
    ∀ batch other,
      (honored → ∀ message ∈ Message.among batch, message.removed? = none) →
      (∀ tag id, Message.row tag id (Message.among batch) =
        Message.row tag id (Message.among other)) →
      ∀ id, ((Processor.process { honorDelete := honored } batch).get? id).map Surface.untouched =
        ((Processor.process { honorDelete := honored } other).get? id).map Surface.untouched := by
  have told : ∀ batch id,
      ((Processor.process { honorDelete := honored } batch).get? id).map Surface.untouched =
        let rows := Message.Rows.of id (Message.sinceRemoval honored id (Message.among batch))
        if rows.all = [] then none else some (({ id } : Surface).extended rows) := by
    intro batch id
    rw [get?_process]
    refine (Message.foldl_step_sinceRemoval honored id _).trans ?_
    exact Message.foldl_step_of_kept (fun _ => Message.not_removed_of_mem_sinceRemoval) none
  refine ⟨told, ?_⟩
  intro batch other kept same id
  have keptOther := fun honors => Message.removed?_of_rows same (kept honors)
  have rows : Message.Rows.of id (Message.among batch) =
      Message.Rows.of id (Message.among other) := by
    simp only [Message.Rows.of, same]
  rw [told, told, Message.sinceRemoval_eq_self kept, Message.sinceRemoval_eq_self keptOther, rows]

/-- A surface may get its root before or after its components, and before or after another
surface. -/
theorem process_by_rows_of_mixed :
    let shown (id : String) : Value :=
      .obj [("beginRendering", .obj [("surfaceId", .str id), ("root", .str "top")])]
    let component : Value :=
      .obj [("id", .str "top"), ("component", .obj [("Divider", .obj [])])]
    let filled : Value :=
      .obj [("surfaceUpdate", .obj [("surfaceId", .str "a"), ("components", .list [component])])]
    let batch := [shown "a", filled, shown "b"]
    let other := [shown "b", filled, shown "a"]
    (∀ message ∈ Message.among batch, message.removed? = none) ∧
    (∀ tag id, Message.row tag id (Message.among batch) =
      Message.row tag id (Message.among other)) ∧
    ∀ id, ((Processor.process { honorDelete := true } batch).get? id).map Surface.untouched =
      ((Processor.process { honorDelete := true } other).get? id).map Surface.untouched := by
  intro shown component filled batch other
  have kept : ∀ message ∈ Message.among batch, message.removed? = none := by decide
  have first : Message.among batch = [.beginRendering "a" (some "top") none,
      .surfaceUpdate "a" [component], .beginRendering "b" (some "top") none] := by decide
  have second : Message.among other = [.beginRendering "b" (some "top") none,
      .surfaceUpdate "a" [component], .beginRendering "a" (some "top") none] := by decide
  have same : ∀ tag id, Message.row tag id (Message.among batch) =
      Message.row tag id (Message.among other) := by
    intro tag id
    rw [first, second]
    simp only [Message.row, List.filter_cons, List.filter_nil, Message.tag, Message.surfaceId?]
    by_cases begins : "beginRendering" = tag
    · subst begins
      by_cases a : "a" = id
      · subst a
        simp
      · simp [a]
    · simp [begins]
  exact ⟨kept, same, (process_by_rows true).2 batch other (fun _ => kept) same⟩

end Processor
end LiveSurface
