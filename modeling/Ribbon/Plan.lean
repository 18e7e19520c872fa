import Ribbon.Config
import Ribbon.Mesh.Document
import Ribbon.Sequence.Census

/-!
# Plans

A plan is a checked configuration with its seed read. It grows the seed and draws sequences, and
refuses those whose mesh could not be indexed. Whether the grown seed can be is known before it is
grown.

## Main definitions

* `Ribbon.Plan` — a checked configuration and its seed.
* `Ribbon.Plan.ofConfig` — checks a configuration and reads its seed.
* `Ribbon.Plan.vertexDemand`, `Ribbon.Plan.checkSize` — the size of the mesh to come.
* `Ribbon.Plan.draw` — the mesh of a sequence.
* `Ribbon.Plan.drawGrown` — the mesh of the grown seed.
-/

set_option relaxedAutoImplicit false
set_option autoImplicit false

namespace Ribbon

/-- A checked configuration and its seed. -/
structure Plan where
  config : Config
  seed : Sequence
  /-- The configuration has been checked. -/
  valid : config.check = .ok ()
  /-- The seed is what the configuration spells. -/
  spelled : config.seedSequence = .ok seed

namespace Plan

/-- Checks a configuration and then reads its seed. -/
def ofConfig (c : Config) : Except Error Plan :=
  match hv : c.check with
  | .error cause => .error (.invalidConfig cause)
  | .ok () =>
    match hs : c.seedSequence with
    | .error cause => .error (.malformedSymbol cause)
    | .ok seed => .ok ⟨c, seed, hv, hs⟩

/-- The grown seed. -/
def grown (p : Plan) : Sequence :=
  p.seed.grown p.config.generations.toNat

/-- The number of vertices that the grown seed will need. -/
def vertexDemand (p : Plan) : Nat :=
  Count.mul (p.seed.strokesAfter p.config.generations.toNat) Stroke.vertexCount

/-- Refuses more vertices than the indices can address. -/
def checkVertices (vertices : Nat) : Except Error Unit :=
  if Mesh.maxVertices < vertices then .error (.indexOverflow vertices Mesh.maxVertices)
  else .ok ()

/-- Refuses a plan whose grown seed needs more vertices than the indices can address. -/
def checkSize (p : Plan) : Except Error Unit :=
  checkVertices p.vertexDemand

/-- The path of a sequence. -/
def trace (p : Plan) (s : Sequence) : Path :=
  Path.trace p.config s

/-- The mesh of a sequence. -/
def draw (p : Plan) (s : Sequence) : Except Error Mesh := do
  checkVertices (s.strokes * Stroke.vertexCount)
  return Mesh.ofPath p.config.palette (p.trace s)

/-- The mesh of the grown seed. A seed that would grow too large is not grown. -/
def drawGrown (p : Plan) : Except Error Mesh := do
  p.checkSize
  p.draw p.grown

end Plan

end Ribbon
