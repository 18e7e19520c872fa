import Ribbon.Vector

/-!
# Palettes

A palette is a cycle of colours, the stops. A colour index addresses a point on the cycle: its
whole part names a stop and its fraction blends towards the next stop, the last one into the first.

## Main definitions

* `Ribbon.Palette` — a cycle with at least one stop.
* `Ribbon.Palette.wrap` — brings an index onto the cycle.
* `Ribbon.Palette.shift` — moves an index along the cycle.
* `Ribbon.Palette.colorAt` — the colour at an index.
-/

set_option relaxedAutoImplicit false
set_option autoImplicit false

namespace Ribbon

/-- A cycle of colours. -/
structure Palette where
  /-- The colours in their cyclic order. -/
  stops : Array Vec4
  /-- There is always a colour to show. -/
  size_pos : 0 < stops.size
  deriving DecidableEq

namespace Palette

/-- The palette with the given stops, if there are any. -/
def ofStops? (stops : Array Vec4) : Option Palette :=
  if h : 0 < stops.size then some ⟨stops, h⟩ else none

/-- Yellow, magenta, cyan. -/
def standard : Palette where
  stops := #[⟨1, 1, 0, 1⟩, ⟨1, 0, 1, 1⟩, ⟨0, 1, 1, 1⟩]
  size_pos := by decide

/-- The number of stops. -/
def size (p : Palette) : Nat := p.stops.size

/-- The number of stops, as the length of the cycle. -/
def period (p : Palette) : Float32 := p.size.toUInt64.toFloat32

/-- The index on the cycle that is whole periods away from `index`. -/
def wrap (p : Palette) (index : Float32) : Float32 :=
  Binary32.wrap index p.period

/-- The index `delta` further along the cycle. -/
def shift (p : Palette) (index delta : Float32) : Float32 :=
  p.wrap (index + delta)

/-- The stop with a number, counted around the cycle. -/
def stop (p : Palette) (n : Nat) : Vec4 :=
  have := Nat.mod_lt n p.size_pos
  p.stops[n % p.stops.size]

/-- The colour a fraction of the way from one colour to another. -/
def blend (lower upper : Vec4) (fraction : Float32) : Vec4 :=
  lower - (lower - upper).scale fraction

/-- The colour at an index. A wrapped index may be the period itself, where the cycle starts
again, so the stops are counted around the cycle once more. -/
def colorAt (p : Palette) (index : Float32) : Vec4 :=
  let wrapped := p.wrap index
  let whole := Binary32.floor wrapped
  let n := whole.toUInt64.toNat
  blend (p.stop n) (p.stop (n % p.size + 1)) (wrapped - whole)

end Palette

end Ribbon
