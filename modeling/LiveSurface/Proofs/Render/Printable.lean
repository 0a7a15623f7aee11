import LiveSurface.Proofs.Render.Printed

/-!
# Trees that can be printed

Nearly every node has lines in any width. A text has none if its variant is a list or an object, and
a spacer has none if its units are no whole number, or more than a list can hold. A tree is printed
in a width that can be filled exactly if it holds no such node (`Layout.print_ok_iff`).
-/
namespace LiveSurface

/-- A node whose own lines can be laid out. -/
structure Node.Printable (node : Node) : Prop where
  variant : node.kind = .text →
    ∃ key, ((Entries.get? node.props "variant").getD (.str "body")).toKey? = .ok key
  units : node.kind = .spacer →
    ∃ n, ((Entries.get? node.props "units").getD (.int 1)).toWhole = .ok n ∧
      -Layout.countLimit ≤ n ∧ n < Layout.countLimit

theorem Node.printable_of_shows {node : Node} (shows : Layout.showsChildren node.kind = true) :
    node.Printable where
  variant same := by rw [same] at shows; cases shows
  units same := by rw [same] at shows; cases shows

namespace Layout

theorem map_ok_iff {α β : Type} (made : Except ValueFault α) (f : α → β) :
    (∃ b, (made >>= fun a => pure (f a)) = .ok b) ↔ ∃ a, made = .ok a := by
  cases made with
  | ok a => exact iff_of_true ⟨f a, rfl⟩ ⟨a, rfl⟩
  | error fault =>
    constructor
    · rintro ⟨_, done⟩
      cases done
    · rintro ⟨_, done⟩
      cases done

theorem text_ok_iff {body : String} {props : Fields} :
    (∃ ls, text body props = .ok ls) ↔
      ∃ key, ((Entries.get? props "variant").getD (.str "body")).toKey? = .ok key :=
  map_ok_iff _ _

theorem spacer_ok_iff {props : Fields} :
    (∃ ls, spacer props = .ok ls) ↔
      ∃ n, ((Entries.get? props "units").getD (.int 1)).toWhole = .ok n ∧
        -countLimit ≤ n ∧ n < countLimit := by
  rw [spacer]
  cases ((Entries.get? props "units").getD (.int 1)).toWhole with
  | error fault =>
    constructor
    · rintro ⟨_, made⟩
      cases made
    · rintro ⟨_, made, -⟩
      cases made
  | ok n =>
    show (∃ ls, repeated n "" = .ok ls) ↔ _
    rw [repeated]
    split
    · next held => exact ⟨fun _ => ⟨n, rfl, held⟩, fun _ => ⟨_, rfl⟩⟩
    · next beyond =>
      constructor
      · rintro ⟨_, made⟩
        cases made
      · rintro ⟨m, same, held⟩
        cases same
        exact absurd held beyond

/-- What a node lays out by itself, in a width that can be filled. -/
theorem leaf_ok_iff (node : Node) {width : Nat} (filled : (width : Int) < countLimit) :
    (∃ ls, leaf node.kind node.text node.props width = .ok ls) ↔ node.Printable := by
  obtain ⟨kind, id, body, props, action, children⟩ := node
  have always {made : Except ValueFault (List String)} (laid : ∃ ls, made = .ok ls)
      (text : kind ≠ .text) (spacer : kind ≠ .spacer) :
      (∃ ls, made = .ok ls) ↔ Node.Printable (.mk kind id body props action children) :=
    iff_of_true laid ⟨fun same => absurd same text, fun same => absurd same spacer⟩
  cases kind with
  | text => exact text_ok_iff.trans ⟨fun key => ⟨fun _ => key, nofun⟩, fun own => own.variant rfl⟩
  | spacer => exact spacer_ok_iff.trans ⟨fun n => ⟨nofun, fun _ => n⟩, fun own => own.units rfl⟩
  | divider => exact always (divider_ok filled props) nofun nofun
  | _ => exact always ⟨_, rfl⟩ nofun nofun

theorem lines_of_hides {node : Node} (hides : showsChildren node.kind = false) (width : Nat) :
    lines node width = leaf node.kind node.text node.props width := by
  obtain ⟨kind, id, body, props, action, children⟩ := node
  rw [lines, if_neg (by rw [show showsChildren kind = false from hides]; exact Bool.false_ne_true)]
  rfl

theorem Stands.room_lt {tree part : Node} {width above room : Nat}
    (stands : Stands tree width part above room) (filled : (width : Int) < countLimit) :
    (room : Int) < countLimit := by
  induction stands with
  | self node width => exact filled
  | under shows member inner ih => exact ih (childWidth_lt filled _)

/-- A tree is laid out in a width that can be filled exactly if each node that stands in it is. -/
theorem lines_ok_iff {tree : Node} {width : Nat} (filled : (width : Int) < countLimit) :
    (∃ ls, lines tree width = .ok ls) ↔
      ∀ part above room, Stands tree width part above room → part.Printable := by
  constructor
  · rintro ⟨ls, laid⟩ part above room stands
    obtain ⟨block, drawn, -⟩ := stands.standsIn laid
    cases shows : showsChildren part.kind with
    | true => exact Node.printable_of_shows shows
    | false =>
      rw [lines_of_hides shows] at drawn
      exact (leaf_ok_iff part (stands.room_lt filled)).mp ⟨block, drawn⟩
  · intro printable
    induction tree using Node.of_children generalizing width with
    | mk kind id body props action children ih =>
      cases shows : showsChildren kind with
      | false =>
        have own := printable _ _ _ (.self _ width)
        obtain ⟨ls, laid⟩ := (leaf_ok_iff _ filled).mpr own
        exact ⟨ls, by rw [lines, if_neg (by rw [shows]; exact Bool.false_ne_true)]; exact laid⟩
      | true =>
        have each : ∀ child ∈ children, ∃ ls, lines child (childWidth kind width) = .ok ls :=
          fun child member => ih child member (childWidth_lt filled kind)
            fun part above room inner => printable part _ room (.under shows member inner)
        obtain ⟨bs, made⟩ := blocks_ok each
        exact ⟨arranged kind id bs, by rw [lines, if_pos shows, made]; rfl⟩

/-- A tree is printed exactly if it can be laid out. -/
theorem print_ok_iff {tree : Node} {width : Value} {whole : Int} (read : width.toWhole = .ok whole)
    (filled : whole < countLimit) :
    (∃ printed, print (some tree) width = .ok printed) ↔
      ∀ part above room, Stands tree (max minWidth whole.toNat) part above room →
        part.Printable := by
  have least : ((minWidth : Nat) : Int) < countLimit := by decide
  rw [← lines_ok_iff (show ((max minWidth whole.toNat : Nat) : Int) < countLimit by omega),
    print_of_whole read]
  exact map_ok_iff _ _

theorem lines_of_print {tree : Node} {width : Value} {whole : Int}
    (read : width.toWhole = .ok whole) {printed : String}
    (done : print (some tree) width = .ok printed) :
    ∃ ls, lines tree (max minWidth whole.toNat) = .ok ls ∧ printed = "\n".intercalate ls := by
  rw [print_of_whole read] at done
  cases laid : lines tree (max minWidth whole.toNat) with
  | error fault => rw [laid] at done; cases done
  | ok ls =>
    rw [laid] at done
    cases done
    exact ⟨ls, rfl, rfl⟩

end Layout
end LiveSurface
