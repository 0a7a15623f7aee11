/-!
# The catalog of components

The kinds of components that can be shown, the choices that their properties offer, and the
glyphs and sizes that the choices stand for. A choice outside the offer falls back to a default.
-/
namespace LiveSurface

/-- The kinds of components that can be shown. -/
inductive Kind
  | text
  | button
  | column
  | row
  | card
  | list
  | icon
  | divider
  | spacer
deriving DecidableEq, Repr

namespace Kind

/-- All kinds. -/
def all : List Kind := [text, button, column, row, card, list, icon, divider, spacer]

/-- The written name of a kind. -/
def name : Kind → String
  | text => "Text"
  | button => "Button"
  | column => "Column"
  | row => "Row"
  | card => "Card"
  | list => "List"
  | icon => "Icon"
  | divider => "Divider"
  | spacer => "Spacer"

/-- The kind with a written name. -/
def ofName? (s : String) : Option Kind := all.find? fun kind => kind.name = s

/-- The name of the record of a kind's properties. -/
def modelName (kind : Kind) : String := kind.name ++ "Component"

/-- The properties of a kind, next to its name. -/
def properties : Kind → List String
  | text => ["text", "usageHint"]
  | button => ["child", "primary", "action"]
  | column => ["children", "alignment"]
  | row => ["children", "distribution"]
  | card => ["child"]
  | list => ["children"]
  | icon => ["icon", "size"]
  | divider => ["orientation"]
  | spacer => ["size"]

theorem ofName?_name (kind : Kind) : ofName? kind.name = some kind := by
  cases kind <;> decide

theorem name_of_ofName? {s : String} {kind : Kind} (h : ofName? s = some kind) : kind.name = s := by
  simpa using List.find?_some h

end Kind

namespace Catalog

/-- The version of the catalog. -/
def version : String := "0.8"

/-- A choice that is offered, or the default. -/
def choose (offered : List String) (default : String) (choice : Option String) : String :=
  match choice with
  | some s => if s ∈ offered then s else default
  | none => default

/-- The variants of a text. -/
def textVariants : List String := ["h1", "h2", "h3", "h4", "caption", "body"]

/-- The level of a heading variant. -/
def headingLevel? : String → Option Nat
  | "h1" => some 1
  | "h2" => some 2
  | "h3" => some 3
  | "h4" => some 4
  | _ => none

/-- The alignments of a column. -/
def alignments : List String := ["start", "center", "end"]

/-- The distributions of a row. -/
def distributions : List String := ["start", "center", "end", "spaceBetween", "spaceAround"]

/-- The orientations of a divider. -/
def orientations : List String := ["horizontal", "vertical"]

/-- The sizes of icons and spacers. -/
def sizes : List String := ["small", "medium", "large"]

/-- The width of an icon of a size. -/
def iconPixels : String → Nat
  | "small" => 16
  | "large" => 32
  | _ => 24

/-- The lines that a spacer of a size takes. -/
def spacerUnits : String → Nat
  | "small" => 1
  | "large" => 4
  | _ => 2

/-- The icon that stands in for an icon without a name. -/
def defaultIcon : String := "circle"

/-- The names of icons with their glyphs. -/
def glyphs : List (String × String) :=
  [("check", "✓"), ("close", "✕"), ("info", "ℹ"), ("warning", "⚠"), ("error", "✕"),
    ("arrow_right", "→"), ("arrow_left", "←"), ("arrow_up", "↑"), ("arrow_down", "↓"),
    ("circle", "●"), ("star", "★"), ("heart", "♥"), ("menu", "☰"), ("settings", "⚙"),
    ("search", "🔍"), ("home", "🏠"), ("user", "👤")]

/-- The glyph of an icon; an unknown name has the glyph of the default icon. -/
def glyph (name : String) : String := (glyphs.lookup name).getD "●"

end Catalog
end LiveSurface
