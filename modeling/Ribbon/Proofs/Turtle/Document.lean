import Ribbon.Proofs.Config.RoundTrip
import Ribbon.Proofs.Json.Accepted
import Ribbon.Proofs.Turtle.Heading
import Ribbon.Turtle.Document

/-!
# Headings that come from documents

A turtle that is made has the first heading, and keeps a proper one. A turtle that is read from a
document has the heading that the document gives, and that is checked to be a 64-bit count but not to
be one of the four.

## Main definitions

* `Ribbon.Turtle.fields` — the members of the text of a turtle.

## Main results

* `Ribbon.Turtle.heading_lt_of_ofJson` — a heading that is read is a 64-bit count.
* `Ribbon.Turtle.ofJson_eq_ok` — a turtle survives its text, whichever count its heading is.
* `Ribbon.Turtle.proper_heading_unless_read` — which turtles have a proper heading.
-/

set_option relaxedAutoImplicit false
set_option autoImplicit false

namespace Ribbon

open Json

/-- A point with finite coordinates is read back. -/
lemma Vec3.restores {v : Vec3} (h : ∀ x ∈ v.toList, x.isFinite = true) :
    Restores Vec3.read (writeSingles v.toList) v := by
  have htuple := restores_singles h
  refine ⟨htuple.starts, fun hrest => ?_⟩
  rw [Vec3.read, show 3 = v.toList.length from rfl, htuple.read_append hrest]
  rfl

namespace Turtle

/-! ## What is read -/

/-- The heading in a draft, if it has been given, is a 64-bit count. -/
def Draft.IsBounded (d : Draft) : Prop := ∀ n ∈ d.heading, n < UInt64.size

/-- Every member keeps the heading of a draft within its bound. -/
lemma Draft.IsBounded.readMember {name : String} {d next : Draft} {cs rest : List Char}
    (hd : d.IsBounded) (h : readMember name d cs = .ok (next, rest)) : next.IsBounded := by
  rw [Turtle.readMember] at h
  split at h
  · obtain ⟨read, -, hread⟩ := bind_eq_ok.1 h
    cases hread
    exact hd
  · split at h
    · obtain ⟨⟨n, after⟩, honce, hread⟩ := bind_eq_ok.1 h
      cases hread
      intro m hm
      cases hm
      rw [once] at honce
      split at honce
      · cases honce
      · obtain ⟨value, -, hvalue⟩ := bind_eq_ok.1 honce
        exact countBelow_lt hvalue
    · split at h
      · obtain ⟨read, -, hread⟩ := bind_eq_ok.1 h
        cases hread
        exact hd
      · obtain ⟨read, -, hread⟩ := bind_eq_ok.1 h
        cases hread
        exact hd

/-- A turtle that is made from a draft has the heading of the draft. -/
lemma Draft.heading_of_finish {d : Draft} {t : Turtle} (h : d.finish = .ok t) :
    t.heading ∈ d.heading := by
  obtain ⟨position, heading, colorIndex⟩ := d
  cases position <;> cases heading <;> cases colorIndex <;> cases h
  rfl

/-- A turtle that is read, in either form, has a heading that is a 64-bit count.

**Proof sketch.** In a list the heading is the second item. In an object it is the heading of the
draft, which has been empty or bounded after every member (`Draft.IsBounded.readMember`). -/
lemma heading_lt_of_read {t : Turtle} {cs rest : List Char} (h : read cs = .ok (t, rest)) :
    t.heading < UInt64.size := by
  obtain ⟨⟨c, after⟩, -, hvalue⟩ := bind_eq_ok.1 h
  simp only at hvalue
  split at hvalue
  · -- a list: the heading is its second item
    obtain ⟨position, -, hvalue⟩ := bind_eq_ok.1 hvalue
    obtain ⟨⟨heading, after⟩, hheading, hvalue⟩ := bind_eq_ok.1 hvalue
    obtain ⟨colorIndex, -, hvalue⟩ := bind_eq_ok.1 hvalue
    obtain ⟨after, -, hvalue⟩ := bind_eq_ok.1 hvalue
    cases hvalue
    obtain ⟨item, -, hitem⟩ := bind_eq_ok.1 hheading
    cases item with
    | none => cases hitem
    | some text => exact countBelow_lt hitem
  · split at hvalue
    · -- an object: one of its members gives the heading
      obtain ⟨⟨d, after⟩, hmembers, hvalue⟩ := bind_eq_ok.1 hvalue
      obtain ⟨made, hfinish, hvalue⟩ := bind_eq_ok.1 hvalue
      cases hvalue
      have hstart : Draft.IsBounded ⟨none, none, none⟩ := by
        intro n hn
        cases hn
      have hbounded := members_induction Draft.IsBounded.readMember hstart hmembers
      exact hbounded _ (Draft.heading_of_finish hfinish)
    · obtain ⟨found, -, hfound⟩ := bind_eq_ok.1 hvalue
      cases hfound

/-- **A heading that is read is a 64-bit count.** -/
theorem heading_lt_of_ofJson {text : String} {t : Turtle} (h : ofJson text = .ok t) :
    t.heading < UInt64.size := by
  obtain ⟨⟨made, rest⟩, hread, hend⟩ := bind_eq_ok.1 h
  simp only at hend
  split at hend
  · cases hend
    exact heading_lt_of_read hread
  · cases hend

/-! ## What is written -/

/-- The members of the text of a turtle, with their written values. -/
def fields (t : Turtle) : List (String × List Char) :=
  [("position", writeSingles t.position.toList), ("heading", writeCount t.heading),
    ("color_index", writeSingle t.colorIndex)]

section

variable {t : Turtle} (hposition : ∀ x ∈ t.position.toList, x.isFinite = true)
  (hcolor : t.colorIndex.isFinite = true) (hheading : t.heading < UInt64.size)

include hposition hcolor hheading

/-- The fields give the turtle, one after the other. -/
lemma fills_fields :
    Fills readMember t.fields ⟨none, none, none⟩ ⟨t.position, t.heading, t.colorIndex⟩ := by
  have hcount : Restores readHeading (writeCount t.heading) t.heading :=
    restores_count .count64 hheading le_rfl
  have hfirst {rest : List Char} (hrest : EndsValue rest) :
      readMember "position" ⟨none, none, none⟩
          (':' :: (writeSingles t.position.toList ++ rest)) =
        .ok (⟨t.position, none, none⟩, rest) := by
    simp [readMember, (Vec3.restores hposition).once _ hrest]
  have hsecond {rest : List Char} (hrest : EndsValue rest) :
      readMember "heading" ⟨t.position, none, none⟩ (':' :: (writeCount t.heading ++ rest)) =
        .ok (⟨t.position, t.heading, none⟩, rest) := by
    simp [readMember, hcount.once _ hrest]
  have hthird {rest : List Char} (hrest : EndsValue rest) :
      readMember "color_index" ⟨t.position, t.heading, none⟩
          (':' :: (writeSingle t.colorIndex ++ rest)) =
        .ok (⟨t.position, t.heading, t.colorIndex⟩, rest) := by
    simp [readMember, (restores_single hcolor).once _ hrest]
  exact .cons hfirst (.cons hsecond (.cons hthird (.nil _)))

/-- **A turtle survives its text**, whichever count its heading is. -/
theorem ofJson_eq_ok : ofJson t.toJson = .ok t := by
  have hbracket : isBlank '\x7b' = false := by decide
  have hrestores : Restores Turtle.read (writeObject t.fields) t := by
    refine ⟨⟨_, _, rfl, by decide, by decide⟩, fun {rest} _ => ?_⟩
    have hmembers := (fills_fields hposition hcolor hheading).members_separated rest
    rw [writeMembers] at hmembers
    rw [writeObject, List.cons_append, List.cons_append, List.append_assoc, List.singleton_append,
      Turtle.read, token_cons hbracket]
    simp [hmembers]
    rfl
  exact hrestores.document

end

/-- The texts of turtles give exactly the headings that are 64-bit counts. -/
lemma exists_ofJson_heading_iff {n : Nat} :
    (∃ text t, ofJson text = .ok t ∧ t.heading = n) ↔ n < UInt64.size := by
  constructor
  · rintro ⟨text, t, h, rfl⟩
    exact heading_lt_of_ofJson h
  · intro hn
    have hfinite : ∀ x ∈ Vec3.zero.toList, x.isFinite = true := by decide +kernel
    have hcolor : Float32.isFinite 0 = true := by decide +kernel
    let t : Turtle := { home with heading := n }
    exact ⟨t.toJson, t, ofJson_eq_ok hfinite hcolor hn, rfl⟩

/-! ## Who has a proper heading -/

/-- **Turtles have a proper heading unless they are read.** Let there be a turtle and moves for it.

* A turtle that is made, at home or in a cell, has a proper heading.
* A turtle that is read from a document may have any 64-bit count as its heading, and no other number.
* The heading is proper if and only if all runs succeed and end with a proper heading.
* A heading that is not proper is in neither table. The moves fail if they begin with a step ahead, and
  only then; otherwise the first one puts the heading right for good. -/
theorem proper_heading_unless_read (t : Turtle) (moves : List (Move × Float32)) :
    ((t = home ∨ ∃ origin step, t = inCell origin step) → t.heading < 4) ∧
    (∀ n, (∃ text u, ofJson text = .ok u ∧ u.heading = n) ↔ n < 2 ^ 64) ∧
    (t.heading < 4 ↔ ∀ run, ∃ u, t.run? run = some u ∧ u.heading < 4) ∧
    (t.direction? = none ↔ 4 ≤ t.heading) ∧ (t.perpendicular? = none ↔ 4 ≤ t.heading) ∧
    (t.run? moves = none ↔ 4 ≤ t.heading ∧ ∃ step rest, moves = (.forward, step) :: rest) ∧
    ∀ u, t.run? moves = some u → (u.heading < 4 ↔ t.heading < 4 ∨ moves ≠ []) := by
  refine ⟨?_, fun n => exists_ofJson_heading_iff, (forall_run?_iff t).symm, direction?_eq_none_iff,
    perpendicular?_eq_none_iff, run?_eq_none_iff, fun u h => heading_lt_iff_of_run? h⟩
  rintro (rfl | ⟨origin, step, rfl⟩)
  · exact show 0 < 4 by decide
  · exact show 0 < 4 by decide

/-- A turtle with the heading 4. -/
def stray : Turtle := ⟨Vec3.zero, 4, 0⟩

/-- A document may give the heading 4. Then there is no direction and the turtle cannot go ahead, but
it can after a turn, which leads it from the heading 4 to the heading 1. -/
theorem proper_heading_unless_read_stray :
    ofJson "\x7b\"position\":[0,0,0],\"heading\":4,\"color_index\":0\x7d" = .ok stray ∧
      stray.direction? = none ∧ stray.run? [(.forward, 1)] = none ∧
      ∃ u, stray.run? [(.turnLeft, 1), (.forward, 1)] = some u ∧ u.heading = 1 ∧ u.heading < 4 := by
  have hrun : stray.run? [(.turnLeft, 1), (.forward, 1)] = some (stray.turnLeft.advance 1) := by
    simp [run?, move?, advance?_of_lt (heading_turnLeft_lt stray)]
  obtain ⟨-, -, -, hdirection, -, hahead, -⟩ := proper_heading_unless_read stray [(.forward, 1)]
  obtain ⟨-, -, -, -, -, -, hturn⟩ :=
    proper_heading_unless_read stray [(.turnLeft, 1), (.forward, 1)]
  refine ⟨rfl, hdirection.2 le_rfl, hahead.2 ⟨le_rfl, 1, [], rfl⟩, _, hrun, ?_, ?_⟩
  · simp [advance, stepAlong, turnLeft, stray]
  · exact (hturn _ hrun).2 (.inr (List.cons_ne_nil _ _))

end Turtle

end Ribbon
