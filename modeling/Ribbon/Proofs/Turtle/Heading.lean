import Mathlib.Tactic.ByContra
import Ribbon.Turtle

/-!
# Proper headings

The tables of directions and sides have an entry for each of the four headings. A turtle that faces one
of them goes on to face one of them, whatever it is told to do. One that does not is put right by its
first turn, and can do nothing else before it.

## Main definitions

* `Ribbon.Turtle.run?` — any number of moves.

## Main results

* `Ribbon.Turtle.direction?_eq_none_iff`, `Ribbon.Turtle.perpendicular?_eq_none_iff`,
  `Ribbon.Turtle.advance?_eq_none_iff` — where the tables have no entry.
* `Ribbon.Turtle.exists_move?` — one move keeps a heading proper.
* `Ribbon.Turtle.run?_walk` — the walk of a sequence is a run of its moves.
* `Ribbon.Turtle.exists_run?`, `Ribbon.Turtle.forall_run?_iff` — and so does a run.
* `Ribbon.Turtle.run?_eq_none_iff` — which runs come to nothing.
-/

set_option relaxedAutoImplicit false
set_option autoImplicit false

namespace Ribbon.Turtle

/-- The turtle after any moves, each with the length of its step. -/
def run? (t : Turtle) : List (Move × Float32) → Option Turtle
  | [] => some t
  | (move, step) :: rest => (t.move? step move).bind fun next => next.run? rest

variable {t u : Turtle} {step : Float32} {move : Move} {moves : List (Move × Float32)}

/-! ## The tables -/

/-- There is no direction for a heading of four and more. -/
theorem direction?_eq_none_iff : t.direction? = none ↔ 4 ≤ t.heading := by
  simp [direction?, heading?]

/-- There is no side for a heading of four and more. -/
theorem perpendicular?_eq_none_iff : t.perpendicular? = none ↔ 4 ≤ t.heading := by
  simp [perpendicular?, heading?]

/-- There is no step ahead for a heading of four and more. -/
theorem advance?_eq_none_iff : t.advance? step = none ↔ 4 ≤ t.heading := by
  rw [advance?, Option.map_eq_none_iff, direction?_eq_none_iff]

/-! ## Moves -/

/-- After a turn the heading is proper, whatever it was before. -/
lemma exists_move?_turn (t : Turtle) (step : Float32) (h : move ≠ .forward) :
    ∃ u, t.move? step move = some u ∧ u.heading < 4 := by
  cases move with
  | forward => exact absurd rfl h
  | turnLeft => exact ⟨_, rfl, heading_turnLeft_lt t⟩
  | turnRight => exact ⟨_, rfl, heading_turnRight_lt t⟩

/-- **One move** of a turtle with a proper heading succeeds and leaves it with one. -/
theorem exists_move? (h : t.heading < 4) (step : Float32) (move : Move) :
    ∃ u, t.move? step move = some u ∧ u.heading < 4 := by
  by_cases hmove : move = .forward
  · subst hmove
    exact ⟨t.advance step, advance?_of_lt h step, h⟩
  · exact exists_move?_turn t step hmove

/-- **The walk of a sequence is a run** of its moves, all of one length: the run comes to nothing if the
walk is cut short, and otherwise ends with the same turtle. -/
theorem run?_walk (t : Turtle) (step : Float32) (s : Sequence) :
    t.run? (s.map fun a => (a.move, step)) =
      if (t.walk step s).complete then some (t.walk step s).turtle else none := by
  induction s generalizing t with
  | nil => rfl
  | cons a s ih =>
    rw [List.map_cons, run?, walk, follow?]
    cases hmove : t.move? step a.move with
    | none => rfl
    | some next => exact ih next

/-- **A run** of a turtle with a proper heading succeeds and leaves it with one. -/
theorem exists_run? (h : t.heading < 4) (moves : List (Move × Float32)) :
    ∃ u, t.run? moves = some u ∧ u.heading < 4 := by
  induction moves generalizing t with
  | nil => exact ⟨t, rfl, h⟩
  | cons first rest ih =>
    obtain ⟨move, step⟩ := first
    obtain ⟨next, hmove, hnext⟩ := exists_move? h step move
    obtain ⟨u, hrun, hu⟩ := ih hnext
    refine ⟨u, ?_, hu⟩
    rw [run?, hmove]
    exact hrun

/-- A turtle whose first move is a turn can go on, whatever its heading was before. -/
lemma exists_run?_turn (t : Turtle) (step : Float32) (h : move ≠ .forward)
    (moves : List (Move × Float32)) :
    ∃ u, t.run? ((move, step) :: moves) = some u ∧ u.heading < 4 := by
  obtain ⟨next, hmove, hnext⟩ := exists_move?_turn t step h
  obtain ⟨u, hrun, hu⟩ := exists_run? hnext moves
  refine ⟨u, ?_, hu⟩
  rw [run?, hmove]
  exact hrun

/-- **Which runs come to nothing**: those of a turtle without a proper heading that begin with a step
ahead.

**Proof sketch.** A proper heading stays proper whatever the move, and after the first turn any
heading is proper. So a run can only be stuck at its first move, by a step ahead. -/
theorem run?_eq_none_iff :
    t.run? moves = none ↔ 4 ≤ t.heading ∧ ∃ step rest, moves = (.forward, step) :: rest := by
  constructor
  · intro h
    have hheading : 4 ≤ t.heading := by
      by_contra hproper
      obtain ⟨u, hrun, -⟩ := exists_run? (Nat.not_le.1 hproper) moves
      rw [h] at hrun
      cases hrun
    refine ⟨hheading, ?_⟩
    cases moves with
    | nil => cases h
    | cons first rest =>
      obtain ⟨move, step⟩ := first
      by_cases hmove : move = .forward
      · subst hmove
        exact ⟨step, rest, rfl⟩
      · obtain ⟨u, hrun, -⟩ := exists_run?_turn t step hmove rest
        rw [h] at hrun
        cases hrun
  · rintro ⟨hheading, step, rest, rfl⟩
    rw [run?, move?, advance?_eq_none_iff.2 hheading, Option.bind_none]

/-- A run ends with a proper heading if it began with one or has made a move. -/
lemma heading_lt_iff_of_run? (h : t.run? moves = some u) :
    u.heading < 4 ↔ t.heading < 4 ∨ moves ≠ [] := by
  constructor
  · intro hu
    cases moves with
    | nil =>
      cases h
      exact .inl hu
    | cons first rest => exact .inr (List.cons_ne_nil _ _)
  · intro hor
    by_cases hheading : t.heading < 4
    · obtain ⟨v, hrun, hv⟩ := exists_run? hheading moves
      rw [h] at hrun
      cases hrun
      exact hv
    · cases moves with
      | nil => exact absurd rfl (hor.resolve_left hheading)
      | cons first rest =>
        obtain ⟨move, step⟩ := first
        have hmove : move ≠ .forward := by
          rintro rfl
          rw [run?_eq_none_iff.2 ⟨Nat.not_lt.1 hheading, step, rest, rfl⟩] at h
          cases h
        obtain ⟨v, hrun, hv⟩ := exists_run?_turn t step hmove rest
        rw [h] at hrun
        cases hrun
        exact hv

variable (t) in
/-- The runs of a turtle all succeed with a proper heading if it has one from the start. -/
theorem forall_run?_iff :
    (∀ moves, ∃ u, t.run? moves = some u ∧ u.heading < 4) ↔ t.heading < 4 := by
  constructor
  · intro h
    obtain ⟨u, hrun, hu⟩ := h []
    cases hrun
    exact hu
  · intro h
    exact exists_run? h

end Ribbon.Turtle
