import Ribbon.Json.Text
import Ribbon.Path

/-!
# Meshes and their documents

The mesh of a path, and its text.

## Main definitions

* `Ribbon.Mesh` — positions, colours and triangles.
* `Ribbon.Stroke.outline`, `Ribbon.Stroke.triangles` — what a stroke adds to the mesh.
* `Ribbon.Mesh.ofPath` — the mesh of a path.
* `Ribbon.Mesh.maxVertices` — how many vertices the indices can address.
* `Ribbon.Mesh.toJson` — the text of a mesh.
-/

set_option relaxedAutoImplicit false
set_option autoImplicit false

namespace Ribbon

/-! ## Meshes

A mesh shows a path as a ribbon. Every stroke has four vertices of one colour, its two ends on
either side, and two triangles that fill them. A joint is one more triangle, from the end of the
stroke before to the first vertex of the stroke. Triangles name their vertices by 16-bit indices.
-/

/-- Three vertices, by their indices. -/
structure Triangle where
  a : UInt16
  b : UInt16
  c : UInt16
  deriving DecidableEq

namespace Triangle

/-- The triangle of three vertices with the given numbers. -/
def ofNats (a b c : Nat) : Triangle := ⟨a.toUInt16, b.toUInt16, c.toUInt16⟩

/-- The indices in order. -/
def toList (t : Triangle) : List UInt16 := [t.a, t.b, t.c]

end Triangle

/-- A ribbon that is ready to be shown. -/
structure Mesh where
  /-- The vertices, in a square from `-1` to `1`. -/
  positions : List Vec3
  /-- The colour of every vertex. -/
  colors : List Vec4
  triangles : List Triangle
  /-- How many of the triangles are joints. -/
  jointCount : Nat

/-- Two meshes are the same if their numbers are: a NaN is unlike itself, and the two zeros are
alike. -/
instance : BEq Mesh where
  beq m n := m.positions == n.positions && m.colors == n.colors && m.triangles == n.triangles
    && m.jointCount == n.jointCount

/-- The number of vertices of a stroke. -/
def Stroke.vertexCount : Nat := 4

namespace Stroke

/-- A point of the unit square, in the square from `-1` to `1`. -/
def clip (v : Vec3) : Vec3 := ⟨v.x * 2 - 1, v.y * 2 - 1, 0⟩

/-- The coordinates in that square: the first two are doubled and lessened by one, and the third is
zero. -/
theorem toList_clip (v : Vec3) : (clip v).toList = [v.x * 2 - 1, v.y * 2 - 1, 0] := rfl

/-- The four vertices of a stroke: its beginning and its end, on the first side and the second. -/
def outline (s : Stroke) : List Vec3 :=
  [clip (s.start + s.side), clip (s.start - s.side), clip (s.finish + s.side),
    clip (s.finish - s.side)]

/-- The colours of the four vertices of a stroke. -/
def colors (p : Palette) (s : Stroke) : List Vec4 :=
  List.replicate vertexCount (p.colorAt s.colorIndex)

/-- The joint triangle of the stroke whose first vertex has the number `base`. -/
def joint (base : Nat) : Triangle :=
  .ofNats base (base - 1) (base - 2)

/-- The two triangles that fill the stroke whose first vertex has the number `base`. -/
def quad (base : Nat) : List Triangle :=
  [.ofNats base (base + 1) (base + 2), .ofNats (base + 1) (base + 2) (base + 3)]

/-- The triangles of the stroke number `k`, joints first. -/
def triangles (s : Stroke) (k : Nat) : List Triangle :=
  List.replicate s.joints (joint (vertexCount * k)) ++ quad (vertexCount * k)

end Stroke

namespace Mesh

/-- The number of vertices that 16-bit indices can address. -/
def maxVertices : Nat := 65536

/-- The mesh of a path, with the colours of a palette. -/
def ofPath (palette : Palette) (p : Path) : Mesh :=
  let strokes := p.strokes.toList
  { positions := strokes.flatMap Stroke.outline
    colors := strokes.flatMap (Stroke.colors palette)
    triangles := strokes.zipIdx.flatMap fun (s, k) => s.triangles k
    jointCount := strokes.foldr (fun s n => s.joints + n) 0 }

/-- The coordinates of the vertices, three for each. -/
def coordinates (m : Mesh) : List Float32 := m.positions.flatMap Vec3.toList

/-- The channels of the colours, four for each vertex. -/
def channels (m : Mesh) : List Float32 := m.colors.flatMap Vec4.toList

/-- The indices of the triangles, three for each. -/
def indices (m : Mesh) : List UInt16 := m.triangles.flatMap Triangle.toList

/-- The number of vertices. -/
def vertexCount (m : Mesh) : Nat := m.positions.length

/-- The number of triangles, joints included. -/
def triangleCount (m : Mesh) : Nat := m.triangles.length

/-- Whether nothing is shown. -/
def isEmpty (m : Mesh) : Bool := m.positions.isEmpty

end Mesh

end Ribbon

namespace Ribbon.Mesh

open Json

/-! ## Meshes in documents

A mesh is written as an object of its vertices, colours and indices; it is never read.
-/

/-- The text of a mesh. -/
def toJson (m : Mesh) : String :=
  String.ofList <| writeObject
    [("positions", writeList (m.positions.map fun v => writeSingles v.toList)),
      ("colors", writeList (m.colors.map fun v => writeSingles v.toList)),
      ("indices", writeList (m.indices.map fun i => writeCount i.toNat)),
      ("corner_count", writeCount m.jointCount)]

end Ribbon.Mesh
