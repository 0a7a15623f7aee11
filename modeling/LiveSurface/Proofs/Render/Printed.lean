import LiveSurface.Proofs.Render.Blocks
import LiveSurface.Proofs.Render.Origin

/-!
# Printed surfaces

What is printed of a surface whose identifiers and kinds hold no end of a line. The text of a
component is cut into its lines before it is laid out, and so are all texts but two: the label of a
button and the notice of a missing component. The printed text has the lines that were laid out
exactly if these two hold no end of a line, and then each card in it is a whole box
(`surface_printed`).
-/
namespace LiveSurface

open Text (OneLine)

namespace Layout

theorem repeated_ok {α : Type} {n : Nat} (room : (n : Int) < countLimit) (a : α) :
    repeated (n : Int) a = .ok (List.replicate n a) := by
  have negative : -countLimit ≤ 0 := by decide
  rw [repeated, if_pos ⟨by omega, room⟩, Int.toNat_natCast]

theorem text_ok (body variant : String) (props : Fields) :
    ∃ ls, text body (("variant", .str variant) :: props) = .ok ls := by
  have chosen : Entries.get? (("variant", Value.str variant) :: props) "variant" =
      some (.str variant) := by simp [Entries.get?]
  exact ⟨_, by rw [text, chosen]; rfl⟩

theorem divider_ok {width : Nat} (room : (width : Int) < countLimit) (props : Fields) :
    ∃ ls, divider width props = .ok ls := by
  rw [divider, repeated_ok room]
  split
  · exact ⟨_, rfl⟩
  · exact ⟨_, rfl⟩

theorem spacer_ok {units : Nat} (room : (units : Int) < countLimit) (size : String) :
    ∃ ls, spacer [("size", .str size), ("units", .int units)] = .ok ls := by
  have counted : ((Entries.get? [("size", Value.str size), ("units", .int units)] "units").getD
      (.int 1)).toWhole = .ok (units : Int) := by simp [Entries.get?, Value.toWhole]
  have bound (f : Int → Except ValueFault (List String)) :
      (Except.ok (units : Int) >>= f) = f units := rfl
  rw [spacer, counted, bound]
  exact ⟨_, repeated_ok room ""⟩

end Layout

namespace Node

/-- A node can be laid out by itself, hides no children, and its raw text holds no end of a line
unless it is the label of a button or the notice of a missing component. -/
structure Ready (node : Node) : Prop where
  laid : ∀ width : Nat, (width : Int) < Layout.countLimit →
    ∃ ls, Layout.leaf node.kind node.text node.props width = .ok ls
  bare : Layout.showsChildren node.kind = false → node.children = []
  raw : node.kind = .button ∨ node.kind = .notFound ∨ ∀ raw ∈ Layout.raw? node, OneLine raw

theorem ready_of_silent {node : Node}
    (laid : ∀ width : Nat, (width : Int) < Layout.countLimit →
      ∃ ls, Layout.leaf node.kind node.text node.props width = .ok ls)
    (bare : Layout.showsChildren node.kind = false → node.children = [])
    (silent : Layout.raw? node = none) : node.Ready := by
  refine ⟨laid, bare, .inr (.inr fun raw told => ?_)⟩
  rw [silent] at told
  cases told

/-- What shows its children and has no text of its own is ready. -/
theorem ready_of_shows {node : Node} (shows : Layout.showsChildren node.kind = true)
    (laid : ∀ width, ∃ ls, Layout.leaf node.kind node.text node.props width = .ok ls)
    (silent : Layout.raw? node = none) : node.Ready := by
  refine ready_of_silent (fun width _ => laid width) (fun hides => ?_) silent
  rw [shows] at hides
  cases hides

theorem ready_absent (id : String) : (absent id).Ready where
  laid _ _ := ⟨_, rfl⟩
  bare _ := rfl
  raw := .inr (.inl rfl)

theorem ready_failed {kind : String} (plain : OneLine kind) (id message : String) :
    (failed id kind message).Ready where
  laid _ _ := ⟨_, rfl⟩
  bare _ := rfl
  raw := by
    refine .inr (.inr fun raw told => ?_)
    cases told
    show OneLine ("Error rendering " ++ kind)
    exact Text.oneLine_append.mpr ⟨by decide, plain⟩

theorem ready_circular {id : String} (plain : OneLine id) (trail : List String) :
    (circular id trail).Ready where
  laid _ _ := ⟨_, rfl⟩
  bare _ := rfl
  raw := by
    refine .inr (.inr fun raw told => ?_)
    cases told
    show OneLine ("Circular reference to component: " ++ id)
    exact Text.oneLine_append.mpr ⟨by decide, plain⟩

end Node

theorem Catalog.oneLine_glyph (name : String) : OneLine (glyph name) := by
  have plain : ∀ entry ∈ glyphs, OneLine entry.2 := by decide
  rw [glyph]
  cases found : glyphs.lookup name with
  | none => decide
  | some glyph =>
    obtain ⟨before, after, listed, -⟩ := List.lookup_eq_some_iff.mp found
    exact plain (name, glyph) (by rw [listed]; exact List.mem_append_right _ List.mem_cons_self)

theorem Catalog.spacerUnits_lt (size : String) :
    (spacerUnits size : Int) < Layout.countLimit := by
  unfold spacerUnits
  split <;> decide

/-- No label of a button and no notice of a missing component holds the end of a line. -/
def Node.Plain (tree : Node) : Prop :=
  ∀ part ∈ tree.flatten, part.kind = .button ∨ part.kind = .notFound →
    OneLine (part.text.getD "")

/-- What becomes of the lines of a tree when they are printed. They stay what they are exactly if no
label and no notice breaks one of them, and those of each card are a box. -/
structure Layout.Printed (tree : Node) (ls : List String) : Prop where
  intact : (∀ line ∈ ls, OneLine line) ↔ tree.Plain
  read_back : Text.lines ("\n".intercalate ls) = ls ↔ tree.Plain
  boxed : ∀ card ∈ tree.flatten, card.kind = .card →
    ∃ room block, lines card room = .ok block ∧ IsBox block ∧ StandsIn block ls

theorem Layout.oneLine_nameOf_iff {name : Option String} :
    OneLine (nameOf name) ↔ OneLine (name.getD "") := by
  cases name with
  | none => exact iff_of_true (by decide) (by decide)
  | some s => rfl

/-- Of the raw texts in a tree that can be laid out, only labels and notices are in doubt. -/
theorem Node.plain_iff {tree : Node} (ready : ∀ part ∈ tree.flatten, part.Ready) :
    (∀ part ∈ tree.flatten, ∀ raw ∈ Layout.raw? part, OneLine raw) ↔ tree.Plain := by
  constructor
  · intro whole part member loose
    have own := whole part member
    rcases loose with button | missing
    · simpa [Layout.raw?, button] using own
    · simpa [Layout.raw?, missing, Layout.oneLine_nameOf_iff] using own
  · intro plain part member
    rcases (ready part member).raw with button | missing | whole
    · simpa [Layout.raw?, button] using plain part member (.inl button)
    · simpa [Layout.raw?, missing, Layout.oneLine_nameOf_iff] using plain part member (.inr missing)
    · exact whole

namespace Layout

theorem lines_ne_empty {tree : Node} (top : tree.kind = .surface ∨ tree.kind = .missingRoot)
    {width : Nat} {ls : List String} (laid : lines tree width = .ok ls) :
    ∀ line ∈ ls, line ≠ "" := by
  have marked (mark rest : String) (solid : mark ≠ "") : mark ++ rest ≠ "" := by
    simp [String.append_eq_empty_iff, solid]
  obtain ⟨kind, id, body, props, action, children⟩ := tree
  rcases top with rfl | rfl
  · obtain ⟨bs, -, rfl⟩ := lines_mk rfl laid
    refine List.forall_mem_cons.mpr ⟨?_, ?_⟩
    · show "== surface " ++ nameOf id ++ " ==" ≠ ""
      rw [String.append_assoc]
      exact marked _ _ (by decide)
    · rw [List.forall_mem_map]
      exact fun line _ => marked "  " line (by decide)
  · rw [lines] at laid
    cases laid
    refine List.forall_mem_singleton.mpr ?_
    rw [String.append_assoc]
    exact marked "(" _ (by decide)

theorem print_of_whole {width : Value} {whole : Int} (read : width.toWhole = .ok whole)
    (tree : Node) : print (some tree) width =
      (lines tree (max minWidth whole.toNat)).map ("\n".intercalate ·) := by
  rw [print, read]
  show (lines tree (max minWidth whole.toNat) >>= _) = _
  cases lines tree (max minWidth whole.toNat) <;> rfl

/-- Lines of a tree that can be laid out are printed as they are laid out. -/
theorem printed_of_ready {tree : Node} (top : tree.kind = .surface ∨ tree.kind = .missingRoot)
    (ready : ∀ part ∈ tree.flatten, part.Ready) {width : Nat} {ls : List String}
    (laid : lines tree width = .ok ls) : Printed tree ls := by
  have bare : Bare tree := fun part member => (ready part member).bare
  have intact := (intact_iff bare laid).trans (Node.plain_iff ready)
  refine ⟨intact, (Text.lines_intercalate_eq_iff (lines_ne_empty top laid)).trans intact, ?_⟩
  intro card member kind
  obtain ⟨room, block, drawn, stands⟩ := standsIn_of_mem_flatten bare laid member
  exact ⟨room, block, drawn, isBox_of_card kind drawn, stands⟩

end Layout

namespace Pass

variable {registry : Registry} {limits : Limits} {reports : Bool}

theorem ready_of_frame {component : Component} {scope : Scope} {frame : Frame}
    (framed : frame? registry reports scope component = .ok (some frame)) (id : String)
    {children : List Node} (below : frame.below = [] → children = []) :
    (frame.node id children).Ready := by
  cases component with
  | text descriptor hint =>
    obtain ⟨text, -, same⟩ := Result.map_eq_ok_iff.mp framed
    cases same
    exact Node.ready_of_silent (fun _ _ => Layout.text_ok _ _ _) (fun _ => below rfl) rfl
  | button target primary action =>
    obtain ⟨label, -, same⟩ := Result.map_eq_ok_iff.mp framed
    cases same
    exact ⟨fun _ _ => ⟨_, rfl⟩, fun _ => below rfl, .inl rfl⟩
  | list children =>
    simp only [frame?, Except.ok.injEq, Option.map_eq_some_iff] at framed
    obtain ⟨scopes, -, rfl⟩ := framed
    exact Node.ready_of_shows rfl (fun _ => ⟨_, rfl⟩) rfl
  | icon name size =>
    cases framed
    refine ⟨fun _ _ => ⟨_, rfl⟩, fun _ => below rfl, .inr (.inr fun raw told => ?_)⟩
    cases told
    exact Catalog.oneLine_glyph _
  | divider orientation =>
    cases framed
    exact Node.ready_of_silent (fun _ room => Layout.divider_ok room _) (fun _ => below rfl) rfl
  | spacer size =>
    cases framed
    exact Node.ready_of_silent (fun _ _ => Layout.spacer_ok (Catalog.spacerUnits_lt _) _)
      (fun _ => below rfl) rfl
  | unknown kind body => cases framed
  | column _ _ | row _ _ | card _ =>
    cases framed
    exact Node.ready_of_shows rfl (fun _ => ⟨_, rfl⟩) rfl

theorem Shows.nodes_eq_nil {spent after : Int} {nodes : List Node}
    (shown : Shows registry limits reports [] spent nodes after) : nodes = [] := by
  cases shown
  rfl

theorem Ends.ready {id : String} {scope : Scope} {spent after : Int} {node : Node}
    (named : ∀ definition ∈ registry, OneLine definition.id ∧ OneLine definition.kind)
    (ends : Ends registry limits reports id scope spent (some node) after) : node.Ready := by
  have registered {definition : Definition} (found : registry.get? id = some definition) :
      OneLine id ∧ OneLine definition.kind := by
    have same : definition.id = id := by simpa using List.find?_some found
    have own := named definition (List.mem_of_find?_eq_some found)
    rwa [same] at own
  cases ends with
  | absent missing => exact Node.ready_absent id
  | overLimit found beyond => exact Node.ready_failed (registered found).2 _ _
  | refused found within outlined =>
    rw [Failure.diagnostic]
    split
    · exact Node.ready_circular (registered found).1 _
    · exact Node.ready_failed (registered found).2 _ _

theorem Shows.ready
    (named : ∀ definition ∈ registry, OneLine definition.id ∧ OneLine definition.kind)
    {row : List (String × Scope)} {spent after : Int} {nodes : List Node}
    (shown : Shows registry limits reports row spent nodes after) :
    ∀ node ∈ Node.flattenAll nodes, node.Ready := by
  induction shown with
  | nil spent => exact nofun
  | @ends id scope row spent middle after node nodes first rest ih =>
    rw [flattenAll_append, List.forall_mem_append]
    refine ⟨?_, ih⟩
    cases node with
    | none => exact nofun
    | some node =>
      rw [Option.toList_some, flattenAll_leaf first.children]
      exact List.forall_mem_singleton.mpr (first.ready named)
  | framed found within outlined below rest ihBelow ih =>
    obtain ⟨-, -, component, parsed, framed⟩ := outline_ok outlined
    rw [flattenAll_framed, List.forall_mem_cons, List.forall_mem_append]
    refine ⟨ready_of_frame framed _ fun none_below => ?_, ihBelow, ih⟩
    rw [none_below] at below
    exact below.nodes_eq_nil

end Pass

namespace Renderer

/-- The tree of a surface without ends of lines in its identifiers and kinds can be laid out. -/
theorem surface_ready (limits : Limits) (reports : Bool) {surface : Surface}
    (titled : OneLine surface.id)
    (named : ∀ definition ∈ surface.components, OneLine definition.id ∧ OneLine definition.kind) :
    ∃ tree, Renderer.surface ⟨Node.primitives, limits, reports⟩ surface = .ok tree ∧
      (tree.kind = .surface ∨ tree.kind = .missingRoot) ∧ ∀ part ∈ tree.flatten, part.Ready := by
  cases chosen : root? surface with
  | none =>
    refine ⟨.mk .missingRoot surface.id (some s!"No root component found for surface: {surface.id}")
      [] none [], ?_, .inr rfl, ?_⟩
    · rw [Renderer.surface, surfaceOver, chosen]
      rfl
    · refine List.forall_mem_singleton.mpr ⟨fun _ _ => ⟨_, rfl⟩, fun _ => rfl, ?_⟩
      refine .inr (.inr fun raw told => ?_)
      cases told
      exact Text.oneLine_append.mpr ⟨by decide, titled⟩
  | some root =>
    obtain ⟨child, after, ⟨props, made⟩, shown⟩ := surface_shows limits reports chosen
    refine ⟨_, made, .inl rfl, List.forall_mem_cons.mpr ⟨?_, shown.ready named⟩⟩
    refine ⟨fun _ _ => ⟨_, rfl⟩, fun hides => ?_, .inr (.inr fun raw told => ?_)⟩
    · cases hides
    · cases told
      exact titled

/-- A surface whose identifiers and kinds hold no end of a line, over any data, is printed in any
width that can be filled. The lines of its tree are read back from the printed text exactly if no
label of a button and no notice of a missing component holds the end of a line, and they hold each
card as a box. -/
theorem surface_printed (limits : Limits) (reports : Bool) {surface : Surface}
    (titled : OneLine surface.id)
    (named : ∀ definition ∈ surface.components, OneLine definition.id ∧ OneLine definition.kind) :
    ∃ tree, Renderer.surface ⟨Node.primitives, limits, reports⟩ surface = .ok tree ∧
      ∀ (width : Value) (whole : Int), width.toWhole = .ok whole →
        (whole < Layout.countLimit → ∃ printed, Layout.print (some tree) width = .ok printed) ∧
        ∀ printed, Layout.print (some tree) width = .ok printed →
          ∃ ls, Layout.lines tree (max Layout.minWidth whole.toNat) = .ok ls ∧
            printed = "\n".intercalate ls ∧ Layout.Printed tree ls := by
  obtain ⟨tree, made, top, ready⟩ := surface_ready limits reports titled named
  refine ⟨tree, made, fun width whole read => ⟨fun room => ?_, fun printed done => ?_⟩⟩
  · have least : ((Layout.minWidth : Nat) : Int) < Layout.countLimit := by decide
    obtain ⟨ls, laid⟩ := Layout.lines_ok (fun part member => (ready part member).laid)
      (show ((max Layout.minWidth whole.toNat : Nat) : Int) < Layout.countLimit by omega)
    exact ⟨_, by rw [Layout.print_of_whole read, laid]; rfl⟩
  · rw [Layout.print_of_whole read] at done
    cases laid : Layout.lines tree (max Layout.minWidth whole.toNat) with
    | error fault => rw [laid] at done; cases done
    | ok ls =>
      rw [laid] at done
      cases done
      exact ⟨ls, rfl, rfl, Layout.printed_of_ready top ready laid⟩

/-- A card around a button and a missing component is printed as five lines. -/
theorem surface_printed_of_card :
    let surface : Surface :=
      { id := "s", root := some "root", data := [("label", .str "Go")],
        components :=
          [⟨"root", none, "Card", .obj [("child", .str "c")]⟩,
            ⟨"c", none, "Column",
              .obj [("children", .obj [("explicitList", .list [.str "b", .str "gone"])])]⟩,
            ⟨"b", none, "Button", .obj [("child", .str "t")]⟩,
            ⟨"t", none, "Text", .obj [("text", .obj [("path", .str "/label")])]⟩] }
    OneLine surface.id ∧
      (∀ definition ∈ surface.components, OneLine definition.id ∧ OneLine definition.kind) ∧
      ∃ tree ls, Renderer.surface ⟨Node.primitives, ⟨5, 9⟩, true⟩ surface = .ok tree ∧
        Layout.lines tree 20 = .ok ls ∧ Layout.Printed tree ls ∧
        Layout.print (some tree) (.str "20") = .ok ("\n".intercalate ls) ∧
        Text.lines ("\n".intercalate ls) =
          ["== surface s ==", "  +-------------------------------+",
            "  | [ Go ]                        |", "  | [!] Component not found: gone |",
            "  +-------------------------------+"] := by
  intro surface
  have titled : OneLine surface.id := by decide
  have named : ∀ definition ∈ surface.components,
      OneLine definition.id ∧ OneLine definition.kind := by decide
  obtain ⟨tree, made, prints⟩ := surface_printed ⟨5, 9⟩ true titled named
  obtain ⟨printable, printed⟩ := prints (.str "20") 20 (by decide)
  obtain ⟨text, done⟩ := printable (by decide)
  obtain ⟨ls, laid, rfl, whole⟩ := printed text done
  refine ⟨titled, named, tree, ls, made, laid, whole, done, ?_⟩
  cases made
  cases laid
  decide +kernel

/-- A label of two lines breaks the line of its button, and with it the box around the button. -/
theorem split_of_broken_label :
    let surface : Surface :=
      { id := "s", root := some "root",
        components :=
          [⟨"root", none, "Card", .obj [("child", .str "b")]⟩,
            ⟨"b", none, "Button", .obj [("child", .str "t")]⟩,
            ⟨"t", none, "Text", .obj [("text", .obj [("literalString", .str "one\ntwo")])]⟩] }
    (OneLine surface.id ∧
      ∀ definition ∈ surface.components, OneLine definition.id ∧ OneLine definition.kind) ∧
      ∃ tree ls, Renderer.surface ⟨Node.primitives, ⟨5, 9⟩, true⟩ surface = .ok tree ∧
        Layout.lines tree Layout.defaultWidth = .ok ls ∧
        (¬ ∀ line ∈ ls, OneLine line) ∧
        Text.lines ("\n".intercalate ls) = ["== surface s ==", "  +-------------+", "  | [ one",
          "two ] |", "  +-------------+"] := by
  intro surface
  refine ⟨⟨by decide, by decide⟩, _, _, rfl, rfl, ?_, ?_⟩
  · decide
  · decide

end Renderer
end LiveSurface
