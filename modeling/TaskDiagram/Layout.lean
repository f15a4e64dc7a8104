import TaskDiagram.Json.Fields

/-!
# Places on the canvas

Coordinates are for presentation only: no rule of a diagram looks at them. Chains that arrive
without coordinates are put below one another.
-/

namespace TaskDiagram

structure Position where
  x : Float
  y : Float
  deriving Repr, Inhabited

namespace Position

def toJson (p : Position) : Json := .obj [("x", .float p.x), ("y", .float p.y)]

def decode : Decoder Position :=
  Fields.read "Position" <| Position.mk <$> .need "x" Decode.float <*> .need "y" Decode.float

end Position

/-- Where the first chain goes and how far below it the next one. -/
structure Layout where
  x : Float
  y : Float
  rowGap : Float
  deriving Repr, Inhabited

namespace Layout

def standard : Layout := ⟨200.0, 100.0, 150.0⟩

/-- Place of the chain with an index. -/
def position (layout : Layout) (index : Nat) : Position :=
  ⟨layout.x, layout.y + layout.rowGap * Float.ofNat index⟩

def toJson (layout : Layout) : Json :=
  .obj [("row_gap", .float layout.rowGap), ("x", .float layout.x), ("y", .float layout.y)]

def fields : Fields Layout :=
  Layout.mk <$> .defaulted "x" standard.x Decode.float
    <*> .defaulted "y" standard.y Decode.float
    <*> .defaulted "row_gap" standard.rowGap Decode.float

def decode : Decoder Layout := fields.read "LayoutDefaults"

end Layout

end TaskDiagram
