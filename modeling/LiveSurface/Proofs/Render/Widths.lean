import LiveSurface.Proofs.Render.Printable

/-!
# The width of printed trees

What a node takes from the width for its children is what it puts around their lines again. As long
as the indents leave the least width everywhere (`Layout.Fits`), every line of a tree without rows
fits in the width, and a horizontal divider is as wide as the indents above it leave room for
(`print_fits`).
-/
namespace LiveSurface

/-- A divider that is drawn over the whole width. -/
def Node.Horizontal (node : Node) : Prop :=
  node.kind = .divider ∧ Entries.get? node.props "orientation" ≠ some (.str "vertical")

namespace Layout

/-- A node that is no row fits where it stands: the indents above it and its own leave the least
width, and its lines, if it is a leaf other than a horizontal divider, and its title, if it is a
surface, are no longer than what the indents above it leave. -/
structure FitsAt (width : Nat) (part : Node) (above : Nat) : Prop where
  rowless : part.kind ≠ .row
  least : above + indent part.kind + minWidth ≤ width
  leaf : showsChildren part.kind = false → ¬ part.Horizontal →
    ∀ ls, lines part (width - above) = .ok ls → ∀ line ∈ ls, line.length ≤ width - above
  title : part.kind = .surface →
    s!"== surface {nameOf part.componentId} ==".length ≤ width - above

/-- Every node of a tree fits where it stands. -/
def Fits (tree : Node) (width : Nat) : Prop :=
  ∀ part above room, Stands tree width part above room → FitsAt width part above

theorem childWidth_eq_sub {kind : NodeKind} {width : Nat}
    (least : indent kind + minWidth ≤ width) : childWidth kind width = width - indent kind := by
  rw [childWidth, inside]
  split
  · omega
  · omega

/-- Less width is as good as more indents. -/
theorem fitsAt_sub_iff {width indented above : Nat} {part : Node} :
    FitsAt (width - indented) part above ↔ FitsAt width part (indented + above) := by
  have left : width - (indented + above) = width - indented - above := Nat.sub_add_eq ..
  have some_width : 0 < minWidth := by decide
  constructor
  · rintro ⟨rowless, least, leaf, title⟩
    exact ⟨rowless, by omega, by rwa [left], by rwa [left]⟩
  · rintro ⟨rowless, least, leaf, title⟩
    exact ⟨rowless, by omega, by rwa [← left], by rwa [← left]⟩

namespace Fits

variable {tree part : Node} {width above room : Nat}

theorem self (fits : Fits tree width) : FitsAt width tree 0 := fits _ _ _ (.self tree width)

theorem childWidth_eq (fits : Fits tree width) :
    childWidth tree.kind width = width - indent tree.kind := by
  have own := fits.self.least
  exact childWidth_eq_sub (by omega)

/-- A child of a tree that fits has less room, and just as much less above it. -/
theorem child (fits : Fits tree width) (shows : showsChildren tree.kind = true) {child : Node}
    (member : child ∈ tree.children) : Fits child (width - indent tree.kind) := by
  intro part above room inner
  rw [← fits.childWidth_eq] at inner
  exact fitsAt_sub_iff.mpr (fits _ _ _ (.under shows member inner))

theorem of_children (own : FitsAt width tree 0) (each : showsChildren tree.kind = true →
    ∀ child ∈ tree.children, Fits child (width - indent tree.kind)) : Fits tree width := by
  intro part above room stands
  cases stands with
  | self => exact own
  | under shows member inner =>
    have least := own.least
    rw [childWidth_eq_sub (by omega)] at inner
    exact fitsAt_sub_iff.mp (each shows _ member _ _ _ inner)

/-- Every node is laid out in what the indents above it leave of the width. -/
theorem room_eq (fits : Fits tree width) (stands : Stands tree width part above room) :
    room = width - above := by
  induction stands with
  | self node width => rfl
  | @under node child part width above room shows member inner ih =>
    rw [fits.childWidth_eq] at ih
    rw [ih (fits.child shows member), Nat.sub_add_eq]

end Fits

variable {most : Nat}

theorem span_le {ls : List String} (least : minWidth ≤ most)
    (short : ∀ line ∈ ls, line.length ≤ most) : span ls ≤ most := by
  rw [span]
  generalize minWidth = start at least
  induction ls generalizing start with
  | nil => exact least
  | cons line ls ih =>
    obtain ⟨first, short⟩ := List.forall_mem_cons.mp short
    exact ih short _ (Nat.max_le.mpr ⟨least, first⟩)

theorem length_marked_le {ls : List String} (mark : String)
    (short : ∀ line ∈ ls, line.length ≤ most) :
    ∀ line ∈ ls.map (mark ++ ·), line.length ≤ mark.length + most := by
  rw [List.forall_mem_map]
  intro line member
  rw [String.length_append]
  exact Nat.add_le_add_left (short line member) _

theorem length_item_le {block : List String} (short : ∀ line ∈ block, line.length ≤ most) :
    ∀ line ∈ item block, line.length ≤ 2 + most := by
  cases block with
  | nil => exact nofun
  | cons first rest =>
    obtain ⟨begins, short⟩ := List.forall_mem_cons.mp short
    refine List.forall_mem_cons.mpr ⟨?_, length_marked_le "  " short⟩
    rw [String.length_append]
    exact Nat.add_le_add_left begins _

theorem length_box_le {ls : List String} (least : minWidth ≤ most)
    (short : ∀ line ∈ ls, line.length ≤ most) : ∀ line ∈ box ls, line.length ≤ 4 + most := by
  have wide : span ls + 4 ≤ 4 + most := by
    rw [Nat.add_comm]
    exact Nat.add_le_add_left (span_le least short) 4
  have edge : (border (span ls)).length ≤ 4 + most := by rwa [length_border]
  rw [box, List.forall_mem_append, List.forall_mem_append, List.forall_mem_singleton,
    List.forall_mem_map]
  refine ⟨⟨edge, fun line member => ?_⟩, edge⟩
  rwa [length_framed (length_le_span member)]

/-- Blocks that are put together, but not side by side, get wider by the indent only. -/
theorem length_arranged_le {kind : NodeKind} (rowless : kind ≠ .row) {id : Option String}
    {bs : List (List String)} {width : Nat} (least : indent kind + minWidth ≤ width)
    (titled : kind = .surface → s!"== surface {nameOf id} ==".length ≤ width)
    (short : ∀ block ∈ bs, ∀ line ∈ block, line.length ≤ width - indent kind) :
    ∀ line ∈ arranged kind id bs, line.length ≤ width := by
  obtain ⟨most, rfl⟩ : ∃ most, width = indent kind + most := ⟨width - indent kind, by omega⟩
  rw [Nat.add_sub_cancel_left] at short
  replace least : minWidth ≤ most := Nat.le_of_add_le_add_left least
  have flat : ∀ line ∈ bs.flatten, line.length ≤ most := List.forall_mem_flatten.mpr short
  have plain : ∀ line ∈ bs.flatten, line.length ≤ 0 + most := by rwa [Nat.zero_add]
  cases kind with
  | column => exact plain
  | row => exact absurd rfl rowless
  | card => exact length_box_le least flat
  | list =>
    exact List.forall_mem_flatMap.mpr fun block member => length_item_le (short block member)
  | surface => exact List.forall_mem_cons.mpr ⟨titled rfl, length_marked_le "  " flat⟩
  | container =>
    cases bs with
    | nil => exact nofun
    | cons first rest =>
      show ∀ line ∈ first ++ rest.flatMap ("" :: ·), line.length ≤ 0 + most
      rw [List.flatten_cons, List.forall_mem_append] at plain
      rw [List.forall_mem_append, List.forall_mem_flatMap]
      refine ⟨plain.1, fun block member => ?_⟩
      refine List.forall_mem_cons.mpr ⟨Nat.zero_le _, fun line inside => ?_⟩
      exact plain.2 line (List.mem_flatten_of_mem member inside)
  | _ => exact nofun

/-- A horizontal divider is a single line as long as the width. -/
theorem lines_horizontal {node : Node} (horizontal : node.Horizontal) {width : Nat}
    {ls : List String} (laid : lines node width = .ok ls) :
    ls = [String.ofList (List.replicate width '-')] := by
  obtain ⟨kind, id, body, props, action, children⟩ := node
  obtain ⟨same, across⟩ := horizontal
  cases same
  rw [lines_of_hides rfl] at laid
  replace laid : divider width props = .ok ls := laid
  replace across : Entries.get? props "orientation" ≠ some (.str "vertical") := across
  rw [divider, if_neg across] at laid
  cases filled : repeated (width : Int) '-' with
  | error fault => rw [filled] at laid; cases laid
  | ok dashes =>
    rw [filled] at laid
    cases laid
    rw [eq_replicate_of_repeated filled, Int.toNat_natCast]

/-- The lines of a tree that fits are no longer than the width. -/
theorem Fits.length_le {tree : Node} {width : Nat} (fits : Fits tree width) {ls : List String}
    (laid : lines tree width = .ok ls) : ∀ line ∈ ls, line.length ≤ width := by
  -- Induction on the tree: what the children lose of the width is what is put around their lines.
  induction tree using Node.of_children generalizing width ls with
  | mk kind id body props action children ih =>
    obtain ⟨rowless, least, leaf, title⟩ := fits.self
    cases shows : showsChildren kind with
    | true =>
      obtain ⟨bs, made, rfl⟩ := lines_mk shows laid
      have narrow : childWidth kind width = width - indent kind := fits.childWidth_eq
      rw [narrow] at made
      have short : ∀ block ∈ bs, ∀ line ∈ block, line.length ≤ width - indent kind := by
        intro block member
        obtain ⟨child, inside, lined⟩ := node_of_blocks made member
        exact ih child inside (fits.child shows inside) lined
      rw [Nat.zero_add] at least
      exact length_arranged_le rowless least title short
    | false =>
      by_cases horizontal : Node.Horizontal (.mk kind id body props action children)
      · rw [lines_horizontal horizontal laid, List.forall_mem_singleton, String.length_ofList,
          List.length_replicate]
      · exact leaf shows horizontal ls laid

/-- A tree that fits is printed in a width that can be filled exactly if each node in it can be laid
out. No line of the printed text is longer than the width, and each horizontal divider stands in it
as a line of just what the indents above it leave of the width. -/
theorem print_fits {tree : Node} {width : Value} {whole : Int} (read : width.toWhole = .ok whole)
    (fits : Fits tree (max minWidth whole.toNat)) :
    (whole < countLimit →
      ((∃ printed, print (some tree) width = .ok printed) ↔
        ∀ part above room, Stands tree (max minWidth whole.toNat) part above room →
          part.Printable)) ∧
    ∀ printed, print (some tree) width = .ok printed →
      (∀ line ∈ Text.lines printed, line.length ≤ max minWidth whole.toNat) ∧
      ∃ ls, printed = "\n".intercalate ls ∧
        (∀ line ∈ ls, line.length ≤ max minWidth whole.toNat) ∧
        ∀ part above room, Stands tree (max minWidth whole.toNat) part above room →
          part.Horizontal → room = max minWidth whole.toNat - above ∧
            ∃ line, lines part room = .ok [line] ∧
              line = String.ofList (List.replicate (max minWidth whole.toNat - above) '-') ∧
              StandsIn [line] ls := by
  refine ⟨print_ok_iff read, fun printed done => ?_⟩
  obtain ⟨ls, laid, rfl⟩ := lines_of_print read done
  have short := fits.length_le laid
  refine ⟨fun line member => Text.length_le_of_mem_lines_intercalate short member,
    ls, rfl, short, fun part above room stands horizontal => ?_⟩
  have left := fits.room_eq stands
  obtain ⟨block, drawn, inside⟩ := stands.standsIn laid
  cases lines_horizontal horizontal drawn
  exact ⟨left, _, drawn, by rw [left], inside⟩

/-- A surface of a card with a list of a divider and a text, as narrow as its title allows. -/
theorem print_fits_of_surface :
    let rule : Node := .mk .divider none none [] none []
    let note : Node := .mk .text none (some "note") [] none []
    let points : Node := .mk .list none none [] none [rule, note]
    let card : Node := .mk .card none none [] none [points]
    let tree : Node := .mk .surface (some "main") none [] none [card]
    (Value.int 18).toWhole = .ok 18 ∧ Fits tree 18 ∧
      ∃ printed, print (some tree) (.int 18) = .ok printed ∧
        ∀ line ∈ Text.lines printed, line.length ≤ 18 := by
  intro rule note points card tree
  have alone (node : Node) (hides : showsChildren node.kind = false) (own : FitsAt 10 node 0) :
      Fits node 10 :=
    .of_children own fun shows => by rw [hides] at shows; cases shows
  have only {width : Nat} {node child : Node} (same : node.children = [child])
      (own : FitsAt width node 0) (inner : Fits child (width - indent node.kind)) :
      Fits node width := by
    refine .of_children own fun _ => ?_
    rw [same]
    exact List.forall_mem_singleton.mpr inner
  have fits : Fits tree 18 := by
    refine only rfl ⟨nofun, by decide, nofun, fun _ => by decide⟩ ?_
    refine only rfl ⟨nofun, by decide, nofun, nofun⟩ ?_
    refine .of_children ⟨nofun, by decide, nofun, nofun⟩ fun _ => ?_
    refine List.forall_mem_cons.mpr ⟨alone _ rfl ?_, List.forall_mem_singleton.mpr (alone _ rfl ?_)⟩
    · exact ⟨nofun, by decide, fun _ other => absurd ⟨rfl, nofun⟩ other, nofun⟩
    · refine ⟨nofun, by decide, fun _ _ ls laid => ?_, nofun⟩
      cases laid
      decide
  obtain ⟨-, narrow⟩ := @print_fits tree (.int 18) 18 rfl fits
  exact ⟨rfl, fits, _, rfl, (narrow _ rfl).1⟩

end Layout
end LiveSurface
