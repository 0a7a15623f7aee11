import LiveSurface.Proofs.Text.Lines
import LiveSurface.Render.Layout

/-!
# Blocks of lines

Among the lines of a tree the lines of every node stand as one block (`standsIn_of_mem_flatten`),
and the block of a card is a box (`isBox_of_card`). The lines of a tree hold no end of a line
exactly if no node has one in the text that it puts into a line as it is (`intact_iff`).
-/
namespace LiveSurface

namespace Node

mutual

/-- What a node has as soon as its children have it, all nodes have. -/
@[elab_as_elim]
theorem of_children {motive : Node → Prop}
    (mk : ∀ kind id text props action children,
      (∀ child ∈ children, motive child) → motive (.mk kind id text props action children))
    (node : Node) : motive node := by
  cases node with
  | mk kind id text props action children => exact mk _ _ _ _ _ _ (all_of_children mk children)

theorem all_of_children {motive : Node → Prop}
    (mk : ∀ kind id text props action children,
      (∀ child ∈ children, motive child) → motive (.mk kind id text props action children))
    (nodes : List Node) : ∀ node ∈ nodes, motive node := by
  cases nodes with
  | nil => exact nofun
  | cons node rest => exact List.forall_mem_cons.mpr ⟨of_children mk node, all_of_children mk rest⟩

end

theorem forall_mem_flatten {p : Node → Prop} {node : Node} :
    (∀ part ∈ node.flatten, p part) ↔
      p node ∧ ∀ child ∈ node.children, ∀ part ∈ child.flatten, p part := by
  cases node with
  | mk kind id text props action children =>
    rw [flatten, flattenAll_eq, List.forall_mem_cons, List.forall_mem_flatMap]
    rfl

end Node

namespace Layout

open Text (OneLine)

/-! ## Blocks among lines -/

/-- A block stands among lines: its lines are parts of lines that follow one another, and they all
begin at the same place. -/
def StandsIn (block ls : List String) : Prop :=
  ∃ top left : Nat, ∀ i line, block[i]? = some line →
    ∃ before after : String, ls[top + i]? = some (before ++ line ++ after) ∧ before.length = left

namespace StandsIn

variable {block mid ls : List String}

theorem refl (block : List String) : StandsIn block block := by
  refine ⟨0, 0, fun i line here => ⟨"", "", ?_, rfl⟩⟩
  rw [Nat.zero_add, here, String.empty_append, String.append_empty]

theorem trans (inner : StandsIn block mid) (outer : StandsIn mid ls) : StandsIn block ls := by
  obtain ⟨top, left, inner⟩ := inner
  obtain ⟨above, indent, outer⟩ := outer
  refine ⟨above + top, indent + left, fun i line here => ?_⟩
  obtain ⟨before, after, found, start⟩ := inner i line here
  obtain ⟨first, last, found', start'⟩ := outer _ _ found
  refine ⟨first ++ before, after ++ last, ?_, ?_⟩
  · rw [Nat.add_assoc, found']
    simp only [String.append_assoc]
  · rw [String.length_append, start, start']

theorem of_append (above block below : List String) :
    StandsIn block (above ++ (block ++ below)) := by
  refine ⟨above.length, 0, fun i line here => ⟨"", "", ?_, rfl⟩⟩
  have inside : i < block.length := (List.getElem?_eq_some_iff.mp here).1
  rw [List.getElem?_append_right (Nat.le_add_right _ _), Nat.add_sub_cancel_left,
    List.getElem?_append_left inside, here, String.empty_append, String.append_empty]

theorem of_append_right (above block : List String) : StandsIn block (above ++ block) := by
  have stands := of_append above block []
  rwa [List.append_nil] at stands

theorem of_mem_flatten {bs : List (List String)} (member : block ∈ bs) :
    StandsIn block bs.flatten := by
  obtain ⟨above, below, rfl⟩ := List.append_of_mem member
  rw [List.flatten_append, List.flatten_cons]
  exact of_append _ _ _

theorem of_mem_flatMap {bs : List (List String)} {f : List String → List String}
    (stands : ∀ block, StandsIn block (f block)) (member : block ∈ bs) :
    StandsIn block (bs.flatMap f) := by
  rw [List.flatMap_def]
  exact (stands block).trans (of_mem_flatten (List.mem_map_of_mem member))

theorem of_map {f : String → String} (left : Nat)
    (glued : ∀ line, ∃ before after, f line = before ++ line ++ after ∧ before.length = left) :
    StandsIn block (block.map f) := by
  refine ⟨0, left, fun i line here => ?_⟩
  obtain ⟨before, after, made, start⟩ := glued line
  refine ⟨before, after, ?_, start⟩
  rw [Nat.zero_add, List.getElem?_map, here, Option.map_some, made]

/-- A block among lines without ends of lines has none itself. -/
theorem intact (stands : StandsIn block ls) (whole : ∀ line ∈ ls, OneLine line) :
    ∀ line ∈ block, OneLine line := by
  intro line member
  obtain ⟨top, left, stands⟩ := stands
  obtain ⟨i, here⟩ := List.mem_iff_getElem?.mp member
  obtain ⟨before, after, found, -⟩ := stands i line here
  have around := whole _ (List.mem_of_getElem? found)
  rw [Text.oneLine_append, Text.oneLine_append] at around
  exact around.1.2

end StandsIn

theorem standsIn_item (block : List String) : StandsIn block (item block) := by
  cases block with
  | nil => exact .refl []
  | cons first rest =>
    refine ⟨0, 2, fun i line here => ?_⟩
    rw [Nat.zero_add]
    cases i with
    | zero =>
      cases here
      exact ⟨"- ", "", by rw [String.append_empty]; rfl, rfl⟩
    | succ i =>
      refine ⟨"  ", "", ?_, rfl⟩
      rw [List.getElem?_cons_succ] at here
      rw [item, List.getElem?_cons_succ, List.getElem?_map, here, String.append_empty]
      rfl

theorem standsIn_box (ls : List String) : StandsIn ls (box ls) := by
  have framed : StandsIn ls (ls.map fun line => "| " ++ padded (span ls) line ++ " |") := by
    refine .of_map 2 fun line => ?_
    refine ⟨"| ", String.ofList (List.replicate (span ls - line.length) ' ') ++ " |", ?_, rfl⟩
    simp only [padded, String.append_assoc]
  rw [box, List.append_assoc]
  exact framed.trans (.of_append _ _ _)

theorem standsIn_separated {block : List String} {bs : List (List String)} (member : block ∈ bs) :
    StandsIn block (separated bs) := by
  cases bs with
  | nil => cases member
  | cons first rest =>
    rw [separated]
    rcases List.mem_cons.mp member with rfl | later
    · exact .of_append [] _ _
    · have parted : StandsIn block (rest.flatMap ("" :: ·)) :=
        .of_mem_flatMap (.of_append_right [""]) later
      exact parted.trans (.of_append_right first _)

theorem exists_of_mem_intercalate (glue : String) {line : String} {ls : List String}
    (member : line ∈ ls) : ∃ before after, glue.intercalate ls = before ++ line ++ after := by
  obtain ⟨above, below, rfl⟩ := List.append_of_mem member
  have behind : ∃ after, glue.intercalate (line :: below) = line ++ after := by
    cases below with
    | nil => exact ⟨"", by rw [String.intercalate_singleton, String.append_empty]⟩
    | cons next below =>
      exact ⟨_, by rw [String.intercalate_cons_cons, String.append_assoc]⟩
  obtain ⟨after, behind⟩ := behind
  cases above with
  | nil => exact ⟨"", after, by rw [List.nil_append, behind, String.empty_append]⟩
  | cons first above =>
    refine ⟨glue.intercalate (first :: above) ++ glue, after, ?_⟩
    rw [String.intercalate_append_of_ne_nil (List.cons_ne_nil _ _) (List.cons_ne_nil _ _), behind]
    simp only [String.append_assoc]

theorem standsIn_row {block : List String} {bs : List (List String)} (member : block ∈ bs) :
    StandsIn block (row bs) := by
  rw [row]
  split
  · next single =>
    have one : block.length = 1 := by simpa using List.all_eq_true.mp single block member
    obtain ⟨line, rfl⟩ := List.length_eq_one_iff.mp one
    have inside : line ∈ bs.flatten :=
      List.mem_flatten.mpr ⟨[line], member, List.mem_singleton_self _⟩
    obtain ⟨before, after, joined⟩ := exists_of_mem_intercalate "  " inside
    rw [if_neg (by simpa using List.ne_nil_of_mem member), joined]
    refine ⟨0, before.length, fun i other here => ⟨before, after, ?_, rfl⟩⟩
    cases i with
    | zero => cases here; rfl
    | succ i => cases here
  · exact .of_mem_flatten member

/-- What is put together of blocks holds each of them. -/
theorem standsIn_arranged {kind : NodeKind} (shows : showsChildren kind = true) (id : Option String)
    {block : List String} {bs : List (List String)} (member : block ∈ bs) :
    StandsIn block (arranged kind id bs) := by
  cases kind with
  | column => exact .of_mem_flatten member
  | row => exact standsIn_row member
  | card => exact (StandsIn.of_mem_flatten member).trans (standsIn_box _)
  | list => exact .of_mem_flatMap standsIn_item member
  | surface =>
    have indented : StandsIn bs.flatten (bs.flatten.map ("  " ++ ·)) :=
      .of_map 2 fun line => ⟨"  ", "", by rw [String.append_empty], rfl⟩
    have titled := indented.trans (.of_append_right [s!"== surface {nameOf id} =="] _)
    exact (StandsIn.of_mem_flatten member).trans titled
  | container => exact standsIn_separated member
  | _ => cases shows

/-! ## Boxes -/

/-- A box: between two equal borders, lines of their length between upright strokes. -/
def IsBox (block : List String) : Prop :=
  ∃ (edge : String) (rows : List String), block = edge :: (rows ++ [edge]) ∧
    (∃ span, edge = border span) ∧
    ∀ line ∈ rows, (∃ inside, line = "| " ++ inside ++ " |") ∧ line.length = edge.length

theorem le_foldl_max {n : Nat} {ns : List Nat} (least : Nat) (member : n ∈ ns) :
    n ≤ ns.foldl max least := by
  have grows : ∀ (ms : List Nat) (m : Nat), m ≤ ms.foldl max m := fun ms => by
    induction ms with
    | nil => exact Nat.le_refl
    | cons k ms ih => exact fun m => Nat.le_trans (Nat.le_max_left m k) (ih (max m k))
  obtain ⟨above, below, rfl⟩ := List.append_of_mem member
  rw [List.foldl_append, List.foldl_cons]
  exact Nat.le_trans (Nat.le_max_right _ n) (grows below _)

theorem length_padded {width : Nat} {line : String} (fits : line.length ≤ width) :
    (padded width line).length = width := by
  rw [padded, String.length_append, String.length_ofList, List.length_replicate]
  omega

theorem length_border (width : Nat) : (border width).length = width + 4 := by
  simp only [border, String.length_append, String.length_ofList, List.length_replicate]
  show 1 + (width + 2) + 1 = width + 4
  omega

theorem length_framed {width : Nat} {line : String} (fits : line.length ≤ width) :
    ("| " ++ padded width line ++ " |").length = width + 4 := by
  rw [String.length_append, String.length_append, length_padded fits]
  show 2 + width + 2 = width + 4
  omega

theorem length_le_span {ls : List String} {line : String} (member : line ∈ ls) :
    line.length ≤ span ls :=
  le_foldl_max _ (List.mem_map_of_mem member)

theorem isBox_box (ls : List String) : IsBox (box ls) := by
  refine ⟨border (span ls), ls.map fun line => "| " ++ padded (span ls) line ++ " |", rfl,
    ⟨_, rfl⟩, fun made member => ?_⟩
  obtain ⟨line, inside, rfl⟩ := List.mem_map.mp member
  exact ⟨⟨_, rfl⟩, (length_framed (length_le_span inside)).trans (length_border _).symm⟩

/-! ## Lines without ends of lines -/

theorem oneLine_replicate {c : Char} (plain : Text.isLineEnd c = false) (n : Nat) :
    OneLine (String.ofList (List.replicate n c)) := by
  intro d member
  rw [String.toList_ofList] at member
  rw [(List.mem_replicate.mp member).2]
  exact plain

theorem oneLine_border (width : Nat) : OneLine (border width) := by
  rw [border, Text.oneLine_append, Text.oneLine_append]
  exact ⟨⟨by decide, oneLine_replicate (by decide) _⟩, by decide⟩

theorem oneLine_padded {line : String} (plain : OneLine line) (width : Nat) :
    OneLine (padded width line) := by
  rw [padded, Text.oneLine_append]
  exact ⟨plain, oneLine_replicate (by decide) _⟩

theorem oneLine_intercalate {glue : String} {ls : List String} (plain : OneLine glue)
    (whole : ∀ line ∈ ls, OneLine line) : OneLine (glue.intercalate ls) := by
  induction ls with
  | nil =>
    rw [String.intercalate_nil]
    exact nofun
  | cons line ls ih =>
    obtain ⟨first, whole⟩ := List.forall_mem_cons.mp whole
    cases ls with
    | nil => rwa [String.intercalate_singleton]
    | cons next ls =>
      rw [String.intercalate_cons_cons, Text.oneLine_append, Text.oneLine_append]
      exact ⟨⟨first, plain⟩, ih whole⟩

theorem oneLine_styled {line : String} (plain : OneLine line) (variant : String) :
    OneLine (styled variant line) := by
  rw [styled, headingMark?]
  cases Catalog.headingLevel? variant with
  | some level =>
    show OneLine (String.ofList (List.replicate level '#') ++ " " ++ line)
    rw [Text.oneLine_append, Text.oneLine_append]
    exact ⟨⟨oneLine_replicate (by decide) _, by decide⟩, plain⟩
  | none =>
    show OneLine (if variant = "caption" ∧ line ≠ "" then "(" ++ line ++ ")" else line)
    split
    · rw [Text.oneLine_append, Text.oneLine_append]
      exact ⟨⟨by decide, plain⟩, by decide⟩
    · exact plain

/-- A text is cut into its lines before it is laid out. -/
theorem intact_text {body : String} {props : Fields} {ls : List String}
    (laid : text body props = .ok ls) : ∀ line ∈ ls, OneLine line := by
  have whole : ∀ line ∈ textLines body, OneLine line := by
    rw [textLines]
    split
    · exact List.forall_mem_singleton.mpr (by decide)
    · exact fun line member => Text.oneLine_of_mem_lines member
  rw [text] at laid
  cases key : ((Entries.get? props "variant").getD (.str "body")).toKey? with
  | error fault => rw [key] at laid; cases laid
  | ok variant =>
    rw [key] at laid
    cases laid
    rw [List.forall_mem_map]
    exact fun line member => oneLine_styled (whole line member) _

/-- Blocks without ends of lines are put together to lines without them. -/
theorem intact_arranged {kind : NodeKind} {id : Option String} {bs : List (List String)}
    (named : kind = .surface → OneLine (nameOf id))
    (whole : ∀ block ∈ bs, ∀ line ∈ block, OneLine line) :
    ∀ line ∈ arranged kind id bs, OneLine line := by
  have flat : ∀ line ∈ bs.flatten, OneLine line := List.forall_mem_flatten.mpr whole
  have indented : ∀ block : List String, (∀ line ∈ block, OneLine line) →
      ∀ line ∈ block.map ("  " ++ ·), OneLine line := by
    intro block plain
    rw [List.forall_mem_map]
    exact fun line member => Text.oneLine_append.mpr ⟨by decide, plain line member⟩
  cases kind with
  | column => exact flat
  | row =>
    show ∀ line ∈ row bs, OneLine line
    rw [row]
    split
    · split
      · exact nofun
      · exact List.forall_mem_singleton.mpr (oneLine_intercalate (by decide) flat)
    · exact flat
  | card =>
    show ∀ line ∈ box bs.flatten, OneLine line
    rw [box, List.forall_mem_append, List.forall_mem_append, List.forall_mem_map]
    have edge := List.forall_mem_singleton.mpr (oneLine_border (span bs.flatten))
    refine ⟨⟨edge, fun line member => ?_⟩, edge⟩
    rw [Text.oneLine_append, Text.oneLine_append]
    exact ⟨⟨by decide, oneLine_padded (flat line member) _⟩, by decide⟩
  | list =>
    show ∀ line ∈ bs.flatMap item, OneLine line
    rw [List.forall_mem_flatMap]
    intro block member
    have plain := whole block member
    cases block with
    | nil => exact nofun
    | cons first rest =>
      obtain ⟨begins, plain⟩ := List.forall_mem_cons.mp plain
      exact List.forall_mem_cons.mpr
        ⟨Text.oneLine_append.mpr ⟨by decide, begins⟩, indented rest plain⟩
  | surface =>
    refine List.forall_mem_cons.mpr ⟨?_, indented _ flat⟩
    show OneLine ("== surface " ++ nameOf id ++ " ==")
    rw [Text.oneLine_append, Text.oneLine_append]
    exact ⟨⟨by decide, named rfl⟩, by decide⟩
  | container =>
    cases bs with
    | nil => exact nofun
    | cons first rest =>
      obtain ⟨begins, plain⟩ := List.forall_mem_cons.mp whole
      show ∀ line ∈ first ++ rest.flatMap ("" :: ·), OneLine line
      rw [List.forall_mem_append, List.forall_mem_flatMap]
      exact ⟨begins, fun block member =>
        List.forall_mem_cons.mpr ⟨by decide, plain block member⟩⟩
  | _ => exact nofun

/-! ## Trees -/

/-- The text that a node puts into its lines as it is. -/
def raw? (node : Node) : Option String :=
  match node.kind with
  | .surface => nameOf node.componentId
  | .button | .icon | .other _ => node.text.getD ""
  | .notFound | .cycle | .error | .missingRoot => nameOf node.text
  | _ => none

theorem lines_mk {kind : NodeKind} (shows : showsChildren kind = true) {id body : Option String}
    {props : Fields} {action : Option Action} {children : List Node} {width : Nat}
    {ls : List String} (laid : lines (.mk kind id body props action children) width = .ok ls) :
    ∃ bs, blocks children (childWidth kind width) = .ok bs ∧ ls = arranged kind id bs := by
  rw [lines, if_pos shows] at laid
  cases below : blocks children (childWidth kind width) with
  | error fault => rw [below] at laid; cases laid
  | ok bs => rw [below] at laid; cases laid; exact ⟨bs, rfl, rfl⟩

theorem blocks_cons {node : Node} {rest : List Node} {width : Nat} {bs : List (List String)}
    (laid : blocks (node :: rest) width = .ok bs) :
    ∃ block others, lines node width = .ok block ∧ blocks rest width = .ok others ∧
      bs = block :: others := by
  rw [blocks] at laid
  cases first : lines node width with
  | error fault => rw [first] at laid; cases laid
  | ok block =>
    cases later : blocks rest width with
    | error fault => rw [first, later] at laid; cases laid
    | ok others => rw [first, later] at laid; cases laid; exact ⟨block, others, rfl, rfl, rfl⟩

theorem mem_of_blocks {nodes : List Node} {width : Nat} {bs : List (List String)}
    (laid : blocks nodes width = .ok bs) {node : Node} (member : node ∈ nodes) :
    ∃ block ∈ bs, lines node width = .ok block := by
  induction nodes generalizing bs with
  | nil => cases member
  | cons first rest ih =>
    obtain ⟨block, others, here, later, rfl⟩ := blocks_cons laid
    rcases List.mem_cons.mp member with rfl | member
    · exact ⟨block, List.mem_cons_self, here⟩
    · obtain ⟨found, inside, made⟩ := ih later member
      exact ⟨found, List.mem_cons_of_mem _ inside, made⟩

theorem node_of_blocks {nodes : List Node} {width : Nat} {bs : List (List String)}
    (laid : blocks nodes width = .ok bs) {block : List String} (member : block ∈ bs) :
    ∃ node ∈ nodes, lines node width = .ok block := by
  induction nodes generalizing bs with
  | nil => cases laid; cases member
  | cons first rest ih =>
    obtain ⟨begun, others, here, later, rfl⟩ := blocks_cons laid
    rcases List.mem_cons.mp member with rfl | member
    · exact ⟨first, List.mem_cons_self, here⟩
    · obtain ⟨node, inside, made⟩ := ih later member
      exact ⟨node, List.mem_cons_of_mem _ inside, made⟩

/-- Nodes that hide their children have none. -/
def Bare (node : Node) : Prop :=
  ∀ part ∈ node.flatten, showsChildren part.kind = false → part.children = []

/-- A node stands in a tree that is laid out in a width: what the nodes around it indent it by, and
the width that is left for it. -/
inductive Stands : Node → Nat → Node → Nat → Nat → Prop
  | self (node : Node) (width : Nat) : Stands node width node 0 width
  | under {node child part : Node} {width above room : Nat}
    (shows : showsChildren node.kind = true) (member : child ∈ node.children)
    (inner : Stands child (childWidth node.kind width) part above room) :
    Stands node width part (indent node.kind + above) room

namespace Stands

variable {tree part : Node} {width above room : Nat}

theorem mem_flatten (stands : Stands tree width part above room) : part ∈ tree.flatten := by
  induction stands with
  | self node width => cases node; exact List.mem_cons_self
  | @under node child part width above room shows member inner ih =>
    obtain ⟨kind, id, body, props, action, children⟩ := node
    rw [Node.flatten, Node.flattenAll_eq]
    exact List.mem_cons_of_mem _ (List.mem_flatMap.mpr ⟨child, member, ih⟩)

/-- Where only nodes that show their children have any, every node stands in the tree. -/
theorem of_mem_flatten (bare : Bare tree) (member : part ∈ tree.flatten) (width : Nat) :
    ∃ above room, Stands tree width part above room := by
  induction tree using Node.of_children generalizing width with
  | mk kind id body props action children ih =>
    rw [Node.flatten, Node.flattenAll_eq] at member
    rcases List.mem_cons.mp member with rfl | below
    · exact ⟨0, width, .self _ width⟩
    · obtain ⟨child, inside, below⟩ := List.mem_flatMap.mp below
      obtain ⟨own, each⟩ := Node.forall_mem_flatten.mp bare
      cases shows : showsChildren kind with
      | false =>
        have none_below : children = [] := own shows
        rw [none_below] at inside
        cases inside
      | true =>
        obtain ⟨above, room, stands⟩ :=
          ih child inside (each child inside) below (childWidth kind width)
        exact ⟨indent kind + above, room, .under shows inside stands⟩

theorem standsIn (stands : Stands tree width part above room) {ls : List String}
    (laid : lines tree width = .ok ls) :
    ∃ block, lines part room = .ok block ∧ StandsIn block ls := by
  induction stands generalizing ls with
  | self node width => exact ⟨ls, laid, .refl ls⟩
  | @under node child part width above room shows member inner ih =>
    obtain ⟨kind, id, body, props, action, children⟩ := node
    obtain ⟨bs, made, rfl⟩ := lines_mk shows laid
    obtain ⟨block, found, lined⟩ := mem_of_blocks made member
    obtain ⟨drawn, own, inside⟩ := ih lined
    exact ⟨drawn, own, inside.trans (standsIn_arranged shows id found)⟩

end Stands

/-- The lines of each node stand as a block among the lines of the tree. -/
theorem standsIn_of_mem_flatten {tree part : Node} (bare : Bare tree) {width : Nat}
    {ls : List String} (laid : lines tree width = .ok ls) (member : part ∈ tree.flatten) :
    ∃ room block, lines part room = .ok block ∧ StandsIn block ls := by
  obtain ⟨above, room, stands⟩ := Stands.of_mem_flatten bare member width
  obtain ⟨block, drawn, inside⟩ := stands.standsIn laid
  exact ⟨room, block, drawn, inside⟩

theorem isBox_of_card {card : Node} (kind : card.kind = .card) {width : Nat} {block : List String}
    (laid : lines card width = .ok block) : IsBox block := by
  obtain ⟨_, id, body, props, action, children⟩ := card
  cases kind
  obtain ⟨bs, -, rfl⟩ := lines_mk rfl laid
  exact isBox_box _

theorem oneLine_button_iff {label : String} {props : Fields} :
    OneLine (button label props) ↔ OneLine label := by
  have open2 : OneLine "[[ " := by decide
  have close2 : OneLine " ]]" := by decide
  have open1 : OneLine "[ " := by decide
  have close1 : OneLine " ]" := by decide
  rw [button]
  split
  · show OneLine ("[[ " ++ label ++ " ]]") ↔ _
    simp only [Text.oneLine_append, open2, close2, true_and, and_true]
  · show OneLine ("[ " ++ label ++ " ]") ↔ _
    simp only [Text.oneLine_append, open1, close1, true_and, and_true]

theorem eq_replicate_of_repeated {α : Type} {n : Int} {a : α} {as : List α}
    (made : repeated n a = .ok as) : as = List.replicate n.toNat a := by
  rw [repeated] at made
  split at made
  · cases made; rfl
  · cases made

theorem intact_divider {props : Fields} {width : Nat} {ls : List String}
    (laid : divider width props = .ok ls) : ∀ line ∈ ls, OneLine line := by
  rw [divider] at laid
  split at laid
  · cases laid
    exact List.forall_mem_singleton.mpr (by decide)
  · cases dashed : repeated (width : Int) '-' with
    | error fault => rw [dashed] at laid; cases laid
    | ok dashes =>
      rw [dashed] at laid
      cases laid
      rw [eq_replicate_of_repeated dashed]
      exact List.forall_mem_singleton.mpr (oneLine_replicate (by decide) _)

theorem intact_spacer {props : Fields} {ls : List String}
    (laid : spacer props = .ok ls) : ∀ line ∈ ls, OneLine line := by
  rw [spacer] at laid
  cases read : ((Entries.get? props "units").getD (.int 1)).toWhole with
  | error fault => rw [read] at laid; cases laid
  | ok units =>
    rw [read] at laid
    intro line member
    rw [eq_replicate_of_repeated laid] at member
    rw [(List.mem_replicate.mp member).2]
    decide

/-- A node that hides its children lays out no end of a line but one of its raw text. -/
theorem intact_leaf_iff {node : Node} (hides : showsChildren node.kind = false) {width : Nat}
    {ls : List String} (laid : lines node width = .ok ls) :
    (∀ line ∈ ls, OneLine line) ↔ ∀ raw ∈ raw? node, OneLine raw := by
  obtain ⟨kind, id, body, props, action, children⟩ := node
  have hides : showsChildren kind = false := hides
  rw [lines, if_neg (by rw [hides]; exact Bool.false_ne_true)] at laid
  have single (before s after : String) (begins : OneLine before) (ends : OneLine after) :
      (∀ line ∈ [before ++ s ++ after], OneLine line) ↔ ∀ raw ∈ some s, OneLine raw := by
    simp [begins, ends]
  have marked (mark s : String) (plain : OneLine mark) :
      (∀ line ∈ [mark ++ s], OneLine line) ↔ ∀ raw ∈ some s, OneLine raw := by
    simp [plain]
  cases kind with
  | text => exact ⟨fun _ => nofun, fun _ => intact_text laid⟩
  | button => cases laid; simp [raw?, Node.kind, Node.text, oneLine_button_iff]
  | icon => cases laid; simp [raw?, Node.kind, Node.text]
  | divider => exact ⟨fun _ => nofun, fun _ => intact_divider laid⟩
  | spacer => exact ⟨fun _ => nofun, fun _ => intact_spacer laid⟩
  | notFound => cases laid; exact marked "[!] " _ (by decide)
  | cycle => cases laid; exact marked "[!] " _ (by decide)
  | error => cases laid; exact marked "[x] " _ (by decide)
  | missingRoot => cases laid; exact single "(" _ ")" (by decide) (by decide)
  | other name =>
    cases laid
    have plain : OneLine "" := by decide
    cases body with
    | none => simp [raw?, Node.kind, Node.text, plain]
    | some s =>
      by_cases empty : s = ""
      · simp [raw?, Node.kind, Node.text, empty, plain]
      · simp [raw?, Node.kind, Node.text, empty]
  | _ => cases hides

/-- No line of a tree holds the end of a line exactly if no raw text in the tree does. -/
theorem intact_iff {tree : Node} (bare : Bare tree) {width : Nat} {ls : List String}
    (laid : lines tree width = .ok ls) :
    (∀ line ∈ ls, OneLine line) ↔ ∀ part ∈ tree.flatten, ∀ raw ∈ raw? part, OneLine raw := by
  constructor
  · -- Whatever a node puts into its block stands in a line of the tree.
    intro whole part member
    obtain ⟨room, block, drawn, stands⟩ := standsIn_of_mem_flatten bare laid member
    have plain := stands.intact whole
    cases shows : showsChildren part.kind with
    | false => exact (intact_leaf_iff shows drawn).mp plain
    | true =>
      obtain ⟨kind, id, body, props, action, children⟩ := part
      obtain ⟨bs, -, rfl⟩ := lines_mk shows drawn
      cases kind with
      | surface =>
        have title : OneLine ("== surface " ++ nameOf id ++ " ==") := plain _ List.mem_cons_self
        rw [Text.oneLine_append, Text.oneLine_append] at title
        simpa [raw?, Node.kind, Node.componentId] using title.1.2
      | column | row | card | list | container => exact nofun
      | _ => cases shows
  · intro plain
    induction tree using Node.of_children generalizing width ls with
    | mk kind id body props action children ih =>
      obtain ⟨-, each⟩ := Node.forall_mem_flatten.mp bare
      obtain ⟨own, below⟩ := Node.forall_mem_flatten.mp plain
      cases shows : showsChildren kind with
      | false =>
        have hides : showsChildren (Node.mk kind id body props action children).kind = false :=
          shows
        exact (intact_leaf_iff hides laid).mpr own
      | true =>
        obtain ⟨bs, made, rfl⟩ := lines_mk shows laid
        refine intact_arranged ?_ fun block member => ?_
        · rintro rfl
          exact own _ rfl
        · obtain ⟨child, inside, drawn⟩ := node_of_blocks made member
          exact ih child inside (each child inside) drawn (below child inside)

theorem childWidth_lt {width : Nat} (room : (width : Int) < countLimit) (kind : NodeKind) :
    (childWidth kind width : Int) < countLimit := by
  have least : ((minWidth : Nat) : Int) < countLimit := by decide
  rw [childWidth, inside]
  split
  · exact room
  · omega

theorem blocks_ok {nodes : List Node} {width : Nat}
    (each : ∀ node ∈ nodes, ∃ ls, lines node width = .ok ls) :
    ∃ bs, blocks nodes width = .ok bs := by
  induction nodes with
  | nil => exact ⟨[], rfl⟩
  | cons first rest ih =>
    obtain ⟨⟨block, here⟩, each⟩ := List.forall_mem_cons.mp each
    obtain ⟨bs, later⟩ := ih each
    exact ⟨block :: bs, by rw [blocks, here, later]; rfl⟩

/-- A tree is laid out in any room that can be filled, if each of its nodes is by itself. -/
theorem lines_ok {tree : Node}
    (ready : ∀ part ∈ tree.flatten, ∀ width : Nat, (width : Int) < countLimit →
      ∃ ls, leaf part.kind part.text part.props width = .ok ls)
    {width : Nat} (room : (width : Int) < countLimit) : ∃ ls, lines tree width = .ok ls := by
  induction tree using Node.of_children generalizing width with
  | mk kind id body props action children ih =>
    obtain ⟨own, below⟩ := Node.forall_mem_flatten.mp ready
    rw [lines]
    split
    · have each : ∀ child ∈ children, ∃ ls, lines child (childWidth kind width) = .ok ls :=
        fun child member => ih child member (below child member) (childWidth_lt room kind)
      obtain ⟨bs, made⟩ := blocks_ok each
      exact ⟨arranged kind id bs, by rw [made]; rfl⟩
    · exact own width room

end Layout
end LiveSurface
