/-!
# Single-precision numbers and vectors

Whole parts and remainders of single-precision numbers, and tuples of such numbers.

## Main definitions

* `Ribbon.Binary32.floor` — the largest whole number that is not above.
* `Ribbon.Binary32.remainder` — the remainder with the sign of the dividend.
* `Ribbon.Binary32.wrap` — the remainder brought into the range of the divisor.
* `Ribbon.Binary32.ofInt`, `Ribbon.Binary32.ofDouble` — the nearest single-precision number.
* `Ribbon.Vec2`, `Ribbon.Vec3`, `Ribbon.Vec4` — the tuples.

Two vectors are compared with `=` bit by bit and with `==` number by number, so that a NaN is
unlike itself and the two zeros are alike under `==`.
-/

set_option relaxedAutoImplicit false
set_option autoImplicit false

namespace Ribbon.Binary32

open Float.Model (Format UnpackedFloat)
open Float.Model.UnpackedFloat (normalize round)

/-! ## Whole parts and remainders of single-precision numbers

The largest whole number below a number, and the exact remainder of a division, computed on the
decoded value `± m * 2 ^ e` and encoded again. Both results are representable, so nothing is
rounded.
-/

/-- The decoded value of a number. -/
def decode (x : Float32) : UnpackedFloat :=
  x.toModel.unpack

/-- The number that is nearest to a decoded value. -/
def encode (x : UnpackedFloat) : Float32 :=
  .ofModel (.pack x)

/-- The largest whole number below a decoded value. -/
def floorDecoded : UnpackedFloat → UnpackedFloat
  | .finite sign m e positive =>
    if 0 ≤ e then .finite sign m e positive
    else normalize .binary32 (sign.apply m >>> (-e).toNat) 0 sign
  | x => x

/-- The largest whole number that is not above `x`; zeros, infinities and NaN stay. -/
def floor (x : Float32) : Float32 :=
  encode (floorDecoded (decode x))

/-- The remainder of a division of decoded values. -/
def remainderDecoded : UnpackedFloat → UnpackedFloat → UnpackedFloat
  | .finite sign m e _, .finite _ n f _ =>
    let low := min e f
    let rest := (m <<< (e - low).toNat) % (n <<< (f - low).toNat)
    normalize .binary32 (sign.apply rest) low sign
  | .finite sign m e positive, .infinity _ => .finite sign m e positive
  | .zero sign, .finite _ _ _ _ => .zero sign
  | .zero sign, .infinity _ => .zero sign
  | _, _ => .notANumber

/-- The remainder of `x` after taking away as many whole `n` as fit, with the sign of `x`. -/
def remainder (x n : Float32) : Float32 :=
  encode (remainderDecoded (decode x) (decode n))

/-- The remainder of `x`, with `n` added once if it is negative. That sum is rounded, so a
remainder just below zero gives `n` itself. -/
def wrap (x n : Float32) : Float32 :=
  let rest := remainder x n
  if rest < 0 then rest + n.abs else rest

/-- The number nearest to an integer. -/
def ofInt (n : Int) : Float32 :=
  .ofModel (.ofInt n)

/-- A decoded double rounded to single precision. -/
def narrow : UnpackedFloat → UnpackedFloat
  | .finite sign m e _ => round .binary32 sign m e
  | x => x

/-- The single-precision number nearest to a double. -/
def ofDouble (x : Float) : Float32 :=
  encode (narrow x.toModel.unpack)

end Ribbon.Binary32

namespace Ribbon

/-! ## Vectors

Points, offsets and colours as tuples of single-precision numbers. Every operation works on the
components one by one.
-/

/-- A pair of coordinates. -/
structure Vec2 where
  x : Float32
  y : Float32
  deriving DecidableEq

/-- A point or an offset in space. -/
structure Vec3 where
  x : Float32
  y : Float32
  z : Float32
  deriving DecidableEq

/-- A colour: red, green, blue and opacity. -/
structure Vec4 where
  x : Float32
  y : Float32
  z : Float32
  w : Float32
  deriving DecidableEq

namespace Vec2

/-- The components in order. -/
def toList (v : Vec2) : List Float32 := [v.x, v.y]

/-- Whether no component is infinite or NaN. -/
def isFinite (v : Vec2) : Bool := v.x.isFinite && v.y.isFinite

end Vec2

namespace Vec3

/-- The components in order. -/
def toList (v : Vec3) : List Float32 := [v.x, v.y, v.z]

instance : Add Vec3 := ⟨fun v w => ⟨v.x + w.x, v.y + w.y, v.z + w.z⟩⟩

instance : Sub Vec3 := ⟨fun v w => ⟨v.x - w.x, v.y - w.y, v.z - w.z⟩⟩

/-- A vector with every component multiplied by `k`. -/
def scale (v : Vec3) (k : Float32) : Vec3 := ⟨v.x * k, v.y * k, v.z * k⟩

instance : BEq Vec3 := ⟨fun v w => v.x == w.x && v.y == w.y && v.z == w.z⟩

/-- The zero vector. -/
def zero : Vec3 := ⟨0, 0, 0⟩

end Vec3

namespace Vec4

/-- The components in order. -/
def toList (v : Vec4) : List Float32 := [v.x, v.y, v.z, v.w]

instance : Sub Vec4 := ⟨fun v w => ⟨v.x - w.x, v.y - w.y, v.z - w.z, v.w - w.w⟩⟩

/-- A colour with every component multiplied by `k`. -/
def scale (v : Vec4) (k : Float32) : Vec4 := ⟨v.x * k, v.y * k, v.z * k, v.w * k⟩

instance : BEq Vec4 := ⟨fun v w => v.x == w.x && v.y == w.y && v.z == w.z && v.w == w.w⟩

end Vec4

end Ribbon
