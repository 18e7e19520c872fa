import Mathlib.Tactic.Lemma
import Ribbon.Json.Reader

/-!
# What is known of accepted values

A reader is a row of steps that may fail: it succeeds if all of them do, and otherwise fails with the
first that does. It refuses what lies outside of its type. Conversely, whatever it gives back has the
properties that the reader checks: a count is within its bound, and the state of a reader of members has
every property that each single member keeps.

## Main results

* `Ribbon.Json.bind_eq_ok`, `Ribbon.Json.bind_eq_error` — two steps in a row.
* `Ribbon.Json.countBelow_lt` — counts.
* `Ribbon.Json.members_induction` — objects, member by member.
-/

set_option relaxedAutoImplicit false
set_option autoImplicit false

namespace Ribbon.Json

/-! ## Steps that may fail -/

section

variable {ε ε' α β : Type} {x : Except ε α}

/-- Two steps in a row succeed if the first one does and the second one does with its result. -/
theorem bind_eq_ok {next : α → Except ε β} {y : β} :
    (x >>= next) = .ok y ↔ ∃ a, x = .ok a ∧ next a = .ok y := by
  cases x with
  | error e =>
    constructor
    · intro h
      cases h
    · rintro ⟨a, h, -⟩
      cases h
  | ok a => simp

/-- Two steps in a row fail if the first one does, or if the second one does with its result. -/
theorem bind_eq_error {next : α → Except ε β} {e : ε} :
    (x >>= next) = .error e ↔ x = .error e ∨ ∃ a, x = .ok a ∧ next a = .error e := by
  cases x with
  | error e' =>
    have hfirst : (Except.error e' >>= next) = .error e' := rfl
    simp [hfirst]
  | ok a => simp

/-- Naming the failures of a step differently leaves its successes as they are. -/
lemma mapError_eq_ok {name : ε → ε'} {a : α} : x.mapError name = .ok a ↔ x = .ok a := by
  cases x with
  | error cause =>
    constructor <;>
    · intro h
      cases h
  | ok b =>
    show Except.ok b = Except.ok a ↔ Except.ok b = Except.ok a
    simp

/-- A step that names its failures fails where it did before. -/
lemma mapError_eq_error {name : ε → ε'} {e : ε'} :
    x.mapError name = .error e ↔ ∃ cause, x = .error cause ∧ name cause = e := by
  cases x with
  | error cause =>
    show Except.error (name cause) = Except.error e ↔ _
    simp
  | ok b =>
    constructor
    · intro h
      cases h
    · rintro ⟨cause, h, -⟩
      cases h

end

/-! ## Counts and members -/

/-- A count that is accepted is within its bound. -/
theorem countBelow_lt {wanted : Wanted} {bound n : Nat} {cs rest : List Char}
    (h : countBelow wanted bound cs = .ok (n, rest)) : n < bound := by
  obtain ⟨⟨number, after⟩, -, hnumber⟩ := bind_eq_ok.1 h
  cases number with
  | real value => cases hnumber
  | integer value =>
    simp only at hnumber
    split at hnumber
    · next hrange =>
      cases hnumber
      omega
    · cases hnumber

section

variable {σ : Type} {member : String → σ → List Char → Except Fault (Parsed σ)} {P : σ → Prop}
  (step : ∀ {name : String} {state next : σ} {cs rest : List Char},
    P state → member name state cs = .ok (next, rest) → P next)

include step

/-- What every single member keeps, further members keep. -/
lemma membersFrom_induction {fuel : Nat} {first : Bool} {state last : σ} {cs rest : List Char}
    (hstart : P state) (h : membersFrom member fuel first state cs = .ok (last, rest)) : P last := by
  induction fuel generalizing first state cs with
  | zero => cases h
  | succ fuel ih =>
    obtain ⟨item, -, hitem⟩ := bind_eq_ok.1 h
    cases item with
    | none =>
      obtain ⟨after, -, hend⟩ := bind_eq_ok.1 hitem
      cases hend
      exact hstart
    | some named =>
      obtain ⟨⟨next, after⟩, hmember, hrest⟩ := bind_eq_ok.1 hitem
      exact ih (step hstart hmember) hrest

/-- **What every single member keeps, an object keeps.** -/
theorem members_induction {start last : σ} {cs rest : List Char} (hstart : P start)
    (h : members member start cs = .ok (last, rest)) : P last :=
  membersFrom_induction step hstart h

end

end Ribbon.Json
