import Ribbon.Proofs.Grid.Motion

/-!
# Walking backwards

A walker that turns round at the end of a walk and follows the reversed sequence passes the same points
and owns the same cells in reverse order, because a stroke walked backwards has its cell on the other
side. Either production is the reversal of the other. So growing a reversed sequence gives the reversal
of the grown sequence, and it is the same whether a curve is refined and then walked backwards, or
walked backwards and then refined.

## Main definitions

* `Ribbon.Grid.Walker.facingBack` — the walker that has turned round.

## Main results

* `Ribbon.Sequence.grow_reversal`, `Ribbon.Sequence.grown_reversal` — growth of a reversed sequence.
* `Ribbon.Grid.Walker.walk_reversal`, `Ribbon.Grid.points_reversal`, `Ribbon.Grid.cells_reversal` — the
  walk of a reversed sequence.
* `Ribbon.Grid.growth_reverses` — the two together.
-/

set_option relaxedAutoImplicit false
set_option autoImplicit false

namespace Ribbon

/-! ## Growing a reversed sequence -/

namespace Sequence

/-- What the mirrored symbol grows into is the reversal of what the symbol grows into. -/
lemma production_mirror (a : Symbol) : a.mirror.production = reversal a.production := by
  cases a <;> rfl

/-- The next generation of a reversed sequence is the reversal of the next generation.

**Proof sketch.** Induction on the sequence. The first symbol becomes the last one of the reversed
sequence, and its production the last part of the next generation. -/
theorem grow_reversal (s : Sequence) : grow (reversal s) = reversal (grow s) := by
  induction s with
  | nil => rfl
  | cons a s ih =>
    rw [reversal_cons, grow_append, ih, grow_cons, grow_nil, List.append_nil, production_mirror,
      grow_cons, reversal_append]

/-- Every generation of a reversed sequence is the reversal of that generation. -/
theorem grown_reversal (s : Sequence) (generations : Nat) :
    (reversal s).grown generations = reversal (s.grown generations) := by
  induction generations generalizing s with
  | zero => simp only [grown_zero]
  | succ g ih => rw [grown_succ, grow_reversal, ih, grown_succ]

end Sequence

namespace Grid

open Sequence (reversal)

/-! ## Walkers that turn round -/

namespace Walker

/-- The walker at the same point with the opposite heading. -/
def facingBack (w : Walker) : Walker :=
  { w with heading := w.heading.next.next }

variable (w : Walker) (a : Symbol) (s : Sequence)

/-- A moved walker turns round as the walker does. -/
lemma facingBack_translate (v : Point) :
    (w.translate v).facingBack = w.facingBack.translate v := rfl

/-- Turning round leaves the point as it is, and with it the place on a refined grid. -/
lemma facingBack_scale (k : Int) : (w.scale k).facingBack = w.facingBack.scale k := rfl

/-- The mirrored symbol undoes a symbol: the walker is back, facing the other way. -/
lemma follow_mirror : (w.follow a).facingBack.follow a.mirror = w.facingBack := by
  have horigin (h : Heading) :
      (follow ⟨0, h⟩ a).facingBack.follow a.mirror = facingBack ⟨0, h⟩ := by
    revert h
    cases a <;> decide
  rw [w.eq_translate_origin, follow_translate, facingBack_translate, follow_translate, horigin,
    facingBack_translate]

/-- A symbol owns the same cell when it is walked backwards. -/
lemma owned_mirror : (w.follow a).facingBack.owned a.mirror = w.owned a := by
  have horigin (h : Heading) :
      (follow ⟨0, h⟩ a).facingBack.owned a.mirror = owned ⟨0, h⟩ a := by
    revert h
    cases a <;> decide
  rw [w.eq_translate_origin, follow_translate, facingBack_translate, owned_translate, horigin,
    owned_translate]

/-- A stroke that is walked backwards leads to where it began. -/
lemma visited_mirror :
    (w.follow a).facingBack.visited a.mirror = if a.isForward then [w.point] else [] := by
  have hback : ((w.follow a).facingBack.follow a.mirror).point = w.point := by
    rw [follow_mirror, facingBack]
  cases a with
  | forwardA | forwardB => exact congrArg List.singleton hback
  | turnLeft | turnRight => rfl

/-- **The reversed sequence undoes a walk**: the walker is back, facing the other way. -/
theorem walk_reversal : (w.walk s).facingBack.walk (reversal s) = w.facingBack := by
  induction s generalizing w with
  | nil => rfl
  | cons a s ih =>
    calc (w.walk (a :: s)).facingBack.walk (reversal (a :: s))
        = (((w.follow a).walk s).facingBack.walk (reversal s)).walk [a.mirror] := by
          rw [walk_cons, Sequence.reversal_cons, walk_append]
      _ = (w.follow a).facingBack.walk [a.mirror] := by rw [ih]
      _ = w.facingBack := follow_mirror w a

end Walker

/-! ## Points and cells of a walk backwards -/

variable (w : Walker) (s : Sequence)

/-- **A walk backwards passes the points of the walk in reverse order.**

**Proof sketch.** Induction on the sequence. When the rest has been walked back, the walker stands
where the first symbol led (`Walker.walk_reversal`). If that symbol is a stroke, one point is left, the
start of the walk; if it is a turn, none is. -/
theorem points_reversal :
    points (w.walk s).facingBack (reversal s) = (points w s).reverse := by
  induction s generalizing w with
  | nil => rfl
  | cons a s ih =>
    calc points (w.walk (a :: s)).facingBack (reversal (a :: s))
        = points ((w.follow a).walk s).facingBack (reversal s) ++
            targets (((w.follow a).walk s).facingBack.walk (reversal s)) [a.mirror] := by
          rw [Walker.walk_cons, Sequence.reversal_cons, points_append]
      _ = (points (w.follow a) s).reverse ++ if a.isForward then [w.point] else [] := by
          rw [ih, Walker.walk_reversal, targets, targets, List.append_nil, Walker.visited_mirror]
      _ = (points w (a :: s)).reverse := by
          cases a with
          | forwardA | forwardB => rw [points_cons_forward w s rfl, List.reverse_cons]; rfl
          | turnLeft | turnRight => rw [points_cons_turn w s rfl]; exact List.append_nil _

/-- **A walk backwards owns the cells of the walk in reverse order.** -/
theorem cells_reversal : cells (w.walk s).facingBack (reversal s) = (cells w s).reverse := by
  induction s generalizing w with
  | nil => rfl
  | cons a s ih =>
    have hone : (w.owned a).reverse = w.owned a := by cases a <;> rfl
    calc cells (w.walk (a :: s)).facingBack (reversal (a :: s))
        = cells ((w.follow a).walk s).facingBack (reversal s) ++
            cells (((w.follow a).walk s).facingBack.walk (reversal s)) [a.mirror] := by
          rw [Walker.walk_cons, Sequence.reversal_cons, cells_append]
      _ = (cells (w.follow a) s).reverse ++ w.owned a := by
          rw [ih, Walker.walk_reversal, cells, cells, List.append_nil, Walker.owned_mirror]
      _ = (cells w (a :: s)).reverse := by
          rw [cells, List.reverse_append, hone]

/-- **Growth reverses with the curve.** Any generation of a reversed sequence is the reversal of that
generation. So it makes no difference whether a curve is walked backwards before it is refined or after:
a walker that turns round at the end of a walk, on a grid that is then refined for every generation,
passes the points of the refined walk in reverse order and owns its cells in reverse order.

**Proof sketch.** The refined walk ends at the refined end of the walk (`Walker.walk_grown`), so both
walks backwards begin there, and the sequences are the same (`Sequence.grown_reversal`). -/
theorem growth_reverses (s : Sequence) (generations : Nat) :
    (reversal s).grown generations = reversal (s.grown generations) ∧
      ∀ w : Walker,
        let refined := w.scale (5 ^ generations)
        let back := (w.walk s).facingBack.scale (5 ^ generations)
        points back ((reversal s).grown generations) =
            (points refined (s.grown generations)).reverse ∧
          cells back ((reversal s).grown generations) =
            (cells refined (s.grown generations)).reverse := by
  refine ⟨Sequence.grown_reversal s generations, ?_⟩
  intro w refined back
  have hback : back = (refined.walk (s.grown generations)).facingBack := by
    rw [Walker.walk_grown, Walker.facingBack_scale]
  rw [hback, Sequence.grown_reversal]
  exact ⟨points_reversal refined _, cells_reversal refined _⟩

end Grid

end Ribbon
