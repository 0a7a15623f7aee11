import LiveSurface.Proofs.Render.Printable

/-!
# The content of printed trees

Whatever is put before, behind and between lines when a tree is laid out, the lines of its texts
stay whole and in order. Each of them stands in one line of the block that it belongs to
(`Layout.Carries`), every arrangement of blocks carries what the blocks carry (`carries_arranged`),
and so the printed text holds the lines of all texts, one after another (`print_holds_texts`).
-/
namespace LiveSurface

namespace Text

/-- Parts stand in a text one after another, without overlap. -/
inductive Spliced : List String → String → Prop
  | nil (s : String) : Spliced [] s
  | cons (before part : String) {parts : List String} {after : String}
    (rest : Spliced parts after) : Spliced (part :: parts) (before ++ part ++ after)

namespace Spliced

variable {parts more : List String} {s t : String}

theorem after (before : String) (spliced : Spliced parts s) : Spliced parts (before ++ s) := by
  cases spliced with
  | nil => exact .nil _
  | cons between part rest =>
    simpa only [String.append_assoc] using Spliced.cons (before ++ between) part rest

theorem append (first : Spliced parts s) (second : Spliced more t) :
    Spliced (parts ++ more) (s ++ t) := by
  induction first with
  | nil s => exact second.after s
  | cons before part rest ih =>
    rw [String.append_assoc, List.cons_append]
    exact .cons before part ih

theorem before (spliced : Spliced parts s) (after : String) : Spliced parts (s ++ after) := by
  simpa using spliced.append (.nil after)

theorem self (part : String) : Spliced [part] part := by
  simpa using Spliced.cons "" part (.nil "")

/-- Parts that stand in a text leave gaps: one before the first part, and one behind each. -/
theorem exists_gaps (spliced : Spliced parts s) :
    ∃ first gaps, gaps.length = parts.length ∧
      s = first ++ String.join (List.zipWith (· ++ ·) parts gaps) := by
  induction spliced with
  | nil s => exact ⟨s, [], rfl, by simp⟩
  | cons before part rest ih =>
    obtain ⟨first, gaps, same, rfl⟩ := ih
    refine ⟨before, first :: gaps, congrArg (· + 1) same, ?_⟩
    simp only [List.zipWith_cons_cons, String.join_cons, String.append_assoc]

end Spliced
end Text

namespace Layout

open Text (Spliced)

/-- Lines carry parts in order, each part whole in one line. -/
inductive Carries : List String → List String → Prop
  | nil : Carries [] []
  | cons {parts more : List String} {line : String} {ls : List String} (first : Spliced parts line)
    (rest : Carries more ls) : Carries (parts ++ more) (line :: ls)

namespace Carries

variable {parts more ls ms : List String}

theorem silent (ls : List String) : Carries [] ls := by
  induction ls with
  | nil => exact .nil
  | cons line ls ih => exact .cons (.nil line) ih

theorem self (ls : List String) : Carries ls ls := by
  induction ls with
  | nil => exact .nil
  | cons line ls ih => exact .cons (.self line) ih

theorem single {line : String} (spliced : Spliced parts line) : Carries parts [line] := by
  simpa using Carries.cons spliced .nil

theorem append (upper : Carries parts ls) (lower : Carries more ms) :
    Carries (parts ++ more) (ls ++ ms) := by
  induction upper with
  | nil => exact lower
  | cons first rest ih =>
    rw [List.append_assoc]
    exact .cons first ih

theorem prepend (above : List String) (carries : Carries parts ls) : Carries parts (above ++ ls) :=
  (silent above).append carries

theorem extend (carries : Carries parts ls) (below : List String) :
    Carries parts (ls ++ below) := by
  simpa using carries.append (silent below)

theorem map {f : String → String}
    (glued : ∀ line, ∃ before after, f line = before ++ line ++ after)
    (carries : Carries parts ls) : Carries parts (ls.map f) := by
  induction carries with
  | nil => exact .nil
  | @cons parts more line ls first rest ih =>
    obtain ⟨before, after, made⟩ := glued line
    refine .cons ?_ ih
    rw [made]
    exact (first.after before).before after

/-- Blocks that carry something each, put below one another after a change that loses nothing. -/
theorem flatMap {f : List String → List String}
    (keeps : ∀ parts block, Carries parts block → Carries parts (f block))
    {pss bs : List (List String)} (each : List.Forall₂ Carries pss bs) :
    Carries pss.flatten (bs.flatMap f) := by
  induction each with
  | nil => exact .nil
  | cons first _ ih => exact (keeps _ _ first).append ih

theorem flatten {pss bs : List (List String)} (each : List.Forall₂ Carries pss bs) :
    Carries pss.flatten bs.flatten := by
  simpa using flatMap (f := id) (fun _ _ carries => carries) each

/-- Joined to one text, lines hold all that they carry. -/
theorem spliced (carries : Carries parts ls) (glue : String) :
    Spliced parts (glue.intercalate ls) := by
  induction carries with
  | nil => exact .nil _
  | @cons parts more line ls first rest ih =>
    cases ls with
    | nil =>
      cases rest
      rw [String.intercalate_singleton, List.append_nil]
      exact first
    | cons next ls =>
      rw [String.intercalate_cons_cons, String.append_assoc]
      exact first.append (ih.after glue)

end Carries

variable {parts : List String}

theorem carries_item {block : List String} (carries : Carries parts block) :
    Carries parts (item block) := by
  cases carries with
  | nil => exact .nil
  | cons first rest =>
    exact .cons (first.after "- ")
      (rest.map fun line => ⟨"  ", "", by rw [String.append_empty]⟩)

theorem carries_box {ls : List String} (carries : Carries parts ls) : Carries parts (box ls) := by
  have framed := carries.map (f := fun line => "| " ++ padded (span ls) line ++ " |") fun line =>
    ⟨"| ", String.ofList (List.replicate (span ls - line.length) ' ') ++ " |", by
      simp only [padded, String.append_assoc]⟩
  exact (framed.prepend [border (span ls)]).extend [border (span ls)]

theorem carries_row {pss bs : List (List String)} (each : List.Forall₂ Carries pss bs) :
    Carries pss.flatten (row bs) := by
  rw [row]
  split
  · split
    · next none_there =>
      rw [List.isEmpty_iff] at none_there
      subst none_there
      cases each
      exact .nil
    · exact .single ((Carries.flatten each).spliced "  ")
  · exact .flatten each

theorem carries_separated {pss bs : List (List String)} (each : List.Forall₂ Carries pss bs) :
    Carries pss.flatten (separated bs) := by
  cases each with
  | nil => exact .nil
  | cons first rest => exact first.append (.flatMap (fun _ _ carries => carries.prepend [""]) rest)

/-- Whatever blocks carry, what is put together of them carries in the same order. -/
theorem carries_arranged {kind : NodeKind} (shows : showsChildren kind = true) (id : Option String)
    {pss bs : List (List String)} (each : List.Forall₂ Carries pss bs) :
    Carries pss.flatten (arranged kind id bs) := by
  cases kind with
  | column => exact .flatten each
  | row => exact carries_row each
  | card => exact carries_box (.flatten each)
  | list => exact .flatMap (fun _ _ carries => carries_item carries) each
  | surface =>
    have indented := (Carries.flatten each).map (f := ("  " ++ ·)) fun line =>
      ⟨"  ", "", by rw [String.append_empty]⟩
    exact indented.prepend [s!"== surface {nameOf id} =="]
  | container => exact carries_separated each
  | _ => cases shows

theorem carries_text {body : String} {props : Fields} {ls : List String}
    (laid : text body props = .ok ls) : Carries (Text.lines body) ls := by
  have styles (variant : String) : ∀ line, ∃ before after,
      styled variant line = before ++ line ++ after := by
    intro line
    rw [styled]
    split
    · exact ⟨_, "", by rw [String.append_empty]⟩
    · split
      · exact ⟨"(", ")", rfl⟩
      · exact ⟨"", "", by rw [String.empty_append, String.append_empty]⟩
  have whole : Carries (Text.lines body) (textLines body) := by
    rw [textLines]
    split
    · next none_there => rw [none_there]; exact .silent [""]
    · exact .self _
  rw [text] at laid
  cases key : ((Entries.get? props "variant").getD (.str "body")).toKey? with
  | error fault => rw [key] at laid; cases laid
  | ok variant =>
    rw [key] at laid
    cases laid
    exact whole.map (styles _)

end Layout

namespace Node

/-- The lines of all texts in a tree, the texts depth first. -/
def content (tree : Node) : List String :=
  (tree.find "text").flatMap fun node => Text.lines (node.text.getD "")

variable {kind : NodeKind} {id body : Option String} {props : Fields} {action : Option Action}
  {children : List Node}

theorem content_mk : content (.mk kind id body props action children) =
    (if kind.name = "text" then Text.lines (body.getD "") else []) ++
      (children.map content).flatten := by
  have inside : (children.map content).flatten =
      ((children.flatMap flatten).filter fun n => n.kind.name = "text").flatMap
        fun node => Text.lines (node.text.getD "") := by
    rw [List.filter_flatMap, List.flatMap_assoc, ← List.flatMap_def]
    rfl
  rw [content, find, flatten, flattenAll_eq, inside]
  by_cases text : kind.name = "text"
  · simp only [List.filter_cons, Node.kind, text, decide_true, ↓reduceIte]
    rfl
  · simp only [List.filter_cons, Node.kind, text, decide_false, Bool.false_eq_true, ↓reduceIte]
    rfl

end Node

namespace Layout

theorem forall₂_of_blocks {nodes : List Node} {width : Nat} {bs : List (List String)}
    (laid : blocks nodes width = .ok bs) :
    List.Forall₂ (fun node block => lines node width = .ok block) nodes bs := by
  induction nodes generalizing bs with
  | nil => cases laid; exact .nil
  | cons node rest ih =>
    obtain ⟨block, others, here, later, rfl⟩ := blocks_cons laid
    exact .cons here (ih later)

theorem eq_text_of_name {kind : NodeKind} (known : kind ∈ NodeKind.named)
    (text : kind.name = "text") : kind = .text := by
  have unique : ∀ kind ∈ NodeKind.named, kind.name = "text" → kind = .text := by decide
  exact unique kind known text

/-- The lines of a tree carry the lines of the texts in it. -/
theorem carries_content {tree : Node} (bare : Bare tree)
    (known : ∀ part ∈ tree.flatten, part.kind ∈ NodeKind.named) {width : Nat} {ls : List String}
    (laid : lines tree width = .ok ls) : Carries tree.content ls := by
  -- Induction on the tree: the blocks of the children carry their texts, and are put together.
  induction tree using Node.of_children generalizing width ls with
  | mk kind id body props action children ih =>
    obtain ⟨own, each⟩ := Node.forall_mem_flatten.mp bare
    obtain ⟨named, below⟩ := Node.forall_mem_flatten.mp known
    rw [Node.content_mk]
    cases shows : showsChildren kind with
    | true =>
      obtain ⟨bs, made, rfl⟩ := lines_mk shows laid
      have silent : kind.name ≠ "text" := fun text => by
        cases eq_text_of_name named text
        cases shows
      have carried : List.Forall₂ Carries (children.map Node.content) bs := by
        rw [List.forall₂_map_left_iff]
        have drawn := (List.forall₂_and_left _ _).mpr
          ⟨fun _ inside => inside, forall₂_of_blocks made⟩
        exact drawn.imp fun child block ⟨inside, lined⟩ =>
          ih child inside (each child inside) (below child inside) lined
      rw [if_neg silent, List.nil_append]
      exact carries_arranged shows id carried
    | false =>
      have none_below : children = [] := own shows
      subst none_below
      rw [List.map_nil, List.flatten_nil, List.append_nil]
      split
      · next text =>
        cases eq_text_of_name named text
        exact carries_text laid
      · exact .silent ls

/-- A tree of known nodes, of which only containers have children, is printed in a width that can be
filled exactly if each of its nodes can be laid out. The printed text then holds the lines of all
texts of the tree, depth first, each one whole and behind the one before. -/
theorem print_holds_texts {tree : Node} (bare : Bare tree)
    (known : ∀ part ∈ tree.flatten, part.kind ∈ NodeKind.named) {width : Value} {whole : Int}
    (read : width.toWhole = .ok whole) :
    (whole < countLimit →
      ((∃ printed, print (some tree) width = .ok printed) ↔
        ∀ part ∈ tree.flatten, part.Printable)) ∧
    ∀ printed, print (some tree) width = .ok printed →
      ∃ first gaps, gaps.length = tree.content.length ∧
        printed = first ++ String.join (List.zipWith (· ++ ·) tree.content gaps) := by
  refine ⟨fun filled => ?_, fun printed done => ?_⟩
  · rw [print_ok_iff read filled]
    constructor
    · intro printable part member
      obtain ⟨above, room, stands⟩ := Stands.of_mem_flatten bare member _
      exact printable part above room stands
    · exact fun printable part above room stands => printable part stands.mem_flatten
  · obtain ⟨ls, laid, rfl⟩ := lines_of_print read done
    exact ((carries_content bare known laid).spliced "\n").exists_gaps

/-- A card around a row of two texts and a list with a heading of two lines and an empty caption. -/
theorem print_holds_texts_of_card :
    let text (body variant : String) : Node :=
      .mk .text none (some body) [("variant", .str variant)] none []
    let tree : Node :=
      .mk .card none none [] none
        [.mk .row none none [] none [text "one" "body", text "two" "caption"],
          .mk .list none none [] none [text "three\nfour" "h1", text "" "caption"]]
    Bare tree ∧ (∀ part ∈ tree.flatten, part.kind ∈ NodeKind.named) ∧
      (Value.int 5).toWhole = .ok 5 ∧ tree.content = ["one", "two", "three", "four"] ∧
      ∃ printed first gaps, print (some tree) (.int 5) = .ok printed ∧
        gaps.length = tree.content.length ∧
        printed = first ++ String.join (List.zipWith (· ++ ·) tree.content gaps) := by
  intro text tree
  have bare : Bare tree := by
    intro part member hides
    simp only [tree, text, Node.flatten, Node.flattenAll, List.cons_append, List.nil_append,
      List.append_nil, List.mem_cons, List.not_mem_nil, or_false] at member
    rcases member with rfl | rfl | rfl | rfl | rfl | rfl | rfl <;> first | rfl | cases hides
  have known : ∀ part ∈ tree.flatten, part.kind ∈ NodeKind.named := by decide
  have content : tree.content = ["one", "two", "three", "four"] := by decide +kernel
  obtain ⟨-, holds⟩ := @print_holds_texts tree bare known (.int 5) 5 rfl
  obtain ⟨first, gaps, same, whole⟩ := holds _ rfl
  exact ⟨bare, known, rfl, content, _, first, gaps, rfl, same, whole⟩

end Layout
end LiveSurface
