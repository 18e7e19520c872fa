import Mathlib.Data.List.GetD
import Ribbon.Sequence.Census
import Ribbon.Turtle

/-!
# What stands before a stroke

A stroke of a sequence is drawn according to what stands before it, its lead: how many turns there
are in the lead, which heading they add up to, and how many of them come after the stroke before.
All of this is said of the sequence alone, without anyone who walks it.

## Main definitions

* `Ribbon.Sequence.turns`, `Ribbon.Sequence.rotation`, `Ribbon.Sequence.heading` — the turns of a
  sequence, their sum, and the heading to which they lead from the first one.
* `Ribbon.Sequence.leads` — the lead of every stroke.
* `Ribbon.Sequence.gaps` — the runs of turns around and between the strokes.
* `Ribbon.Sequence.joints` — the number of turns between a stroke and the one before.

## Main results

* `Ribbon.Sequence.leads_split`, `Ribbon.Sequence.gaps_split` — leads and gaps on either side of a
  stroke.
* `Ribbon.Sequence.exists_split_of_lt_strokes` — there is a stroke for every number below the
  number of strokes.
-/

set_option relaxedAutoImplicit false
set_option autoImplicit false

namespace Ribbon.Sequence

variable {s u v : Sequence} {a : Symbol} {k : Nat}

/-! ## Turns and headings -/

/-- The number of turns of a sequence. -/
def turns (s : Sequence) : Nat :=
  s.countP fun a => !a.isForward

/-- The number of turns to the next heading, less the number of turns to the previous one. -/
def rotation (s : Sequence) : Int :=
  (s.count .turnLeft : Int) - s.count .turnRight

/-- The heading after a sequence that begins with the first heading. -/
def heading (s : Sequence) : Heading :=
  Heading.ofNat (s.rotation % 4).toNat

/-- Turns are counted part by part. -/
@[simp]
lemma turns_append (s t : Sequence) : turns (s ++ t) = turns s + turns t :=
  List.countP_append

/-- Rotations of the parts are added. -/
@[simp]
lemma rotation_append (s t : Sequence) : rotation (s ++ t) = rotation s + rotation t := by
  simp only [rotation, List.count_append]
  omega

/-- Symbols that add up to whole turns leave the heading as it is. -/
lemma heading_append_of_rotation (s : Sequence) {t : Sequence} (h : rotation t % 4 = 0) :
    heading (s ++ t) = heading s := by
  have hmod : (rotation s + rotation t) % 4 = rotation s % 4 := by omega
  rw [heading, rotation_append, hmod, heading]

/-- A stroke is no rotation. -/
lemma rotation_forward (h : a.isForward = true) : rotation [a] = 0 := by
  cases a with
  | forwardA | forwardB => rfl
  | turnLeft | turnRight => cases h

/-- A stroke leaves the heading as it is. -/
lemma heading_append_forward (s : Sequence) (h : a.isForward = true) :
    heading (s ++ [a]) = heading s := by
  apply heading_append_of_rotation
  rw [rotation_forward h]
  rfl

/-- A turn to the left leads to the next heading. -/
lemma heading_append_turnLeft (s : Sequence) :
    heading (s ++ [.turnLeft]) = (heading s).next := by
  have ha : rotation [.turnLeft] = 1 := rfl
  apply Fin.ext
  simp only [heading, Heading.next, Heading.ofNat, rotation_append, ha]
  omega

/-- A turn to the right leads to the previous heading. -/
lemma heading_append_turnRight (s : Sequence) :
    heading (s ++ [.turnRight]) = (heading s).previous := by
  have ha : rotation [.turnRight] = -1 := rfl
  apply Fin.ext
  simp only [heading, Heading.previous, Heading.ofNat, rotation_append, ha]
  omega

/-! ## Leads -/

/-- What stands before each stroke of a sequence, from the first stroke to the last. -/
def leads : Sequence → List Sequence
  | [] => []
  | a :: s =>
    let later := (leads s).map (a :: ·)
    if a.isForward then [] :: later else later

/-- The strokes of the second part have the first part in their leads. -/
lemma leads_append (s t : Sequence) : leads (s ++ t) = leads s ++ (leads t).map (s ++ ·) := by
  induction s with
  | nil => simp [leads]
  | cons a s ih =>
    rw [List.cons_append, leads, leads, ih]
    cases a.isForward <;> simp [Function.comp_def]

/-- The lead of a stroke is all that stands before it. -/
theorem leads_split (u v : Sequence) (h : a.isForward = true) :
    leads (u ++ a :: v) = leads u ++ u :: (leads v).map (u ++ a :: ·) := by
  rw [leads_append, leads, if_pos h, List.map_cons, List.append_nil, List.map_map]
  rfl

/-- A stroke at the end has all the rest as its lead. -/
lemma leads_append_forward (s : Sequence) (h : a.isForward = true) :
    leads (s ++ [a]) = leads s ++ [s] :=
  leads_split s [] h

/-- Every stroke has a lead. -/
@[simp]
lemma length_leads (s : Sequence) : (leads s).length = s.strokes := by
  induction s with
  | nil => rfl
  | cons a s ih =>
    rw [leads, strokes_cons]
    split <;> simp [ih]

/-- Turns at the end have no lead. -/
lemma leads_append_turns (s : Sequence) {t : Sequence} (h : strokes t = 0) :
    leads (s ++ t) = leads s := by
  have ht : leads t = [] := List.eq_nil_of_length_eq_zero ((length_leads t).trans h)
  rw [leads_append, ht, List.map_nil, List.append_nil]

/-- A turn is no stroke. -/
lemma strokes_turn (h : a.isForward = false) : strokes [a] = 0 := by
  rw [strokes_cons, h]
  rfl

/-- A turn at the end has no lead. -/
lemma leads_append_turn (s : Sequence) (h : a.isForward = false) :
    leads (s ++ [a]) = leads s :=
  leads_append_turns s (strokes_turn h)

/-- The lead with a number has that many strokes. -/
lemma getElem?_leads_split (u v : Sequence) (h : a.isForward = true) :
    (leads (u ++ a :: v))[u.strokes]? = some u := by
  rw [leads_split u v h, ← length_leads, List.getElem?_append_right (Nat.le_refl _), Nat.sub_self,
    List.getElem?_cons_zero]

/-- There is a stroke for every number below the number of strokes. -/
theorem exists_split_of_lt_strokes (h : k < s.strokes) :
    ∃ u a v, s = u ++ a :: v ∧ a.isForward = true ∧ strokes u = k := by
  induction s generalizing k with
  | nil => cases h
  | cons a s ih =>
    rw [strokes_cons] at h
    by_cases ha : a.isForward = true
    · cases k with
      | zero => exact ⟨[], a, s, rfl, ha, rfl⟩
      | succ k =>
        rw [if_pos ha] at h
        obtain ⟨u, b, v, rfl, hb, hu⟩ := ih (Nat.lt_of_succ_lt_succ h)
        exact ⟨a :: u, b, v, rfl, hb, by rw [strokes_cons, if_pos ha, hu]⟩
    · rw [if_neg ha] at h
      obtain ⟨u, b, v, rfl, hb, hu⟩ := ih h
      exact ⟨a :: u, b, v, rfl, hb, by rw [strokes_cons, if_neg ha, hu, Nat.add_zero]⟩

/-! ## Gaps -/

/-- The symbols before the first stroke, between one stroke and the next, and after the last. -/
def gaps (s : Sequence) : List Sequence :=
  s.splitOnP Symbol.isForward

/-- A stroke separates the gaps before it from those behind it. -/
theorem gaps_split (u v : Sequence) (h : a.isForward = true) :
    gaps (u ++ a :: v) = gaps u ++ gaps v :=
  List.splitOnP_append_cons u v h

/-- A sequence without strokes is a single gap. -/
lemma gaps_of_strokes_eq_zero (h : s.strokes = 0) : gaps s = [s] := by
  apply List.splitOnP_eq_singleton
  intro a ha
  simpa using List.countP_eq_zero.1 h a ha

/-- There is one gap more than there are strokes. -/
lemma length_gaps (s : Sequence) : (gaps s).length = s.strokes + 1 := by
  induction s with
  | nil => rfl
  | cons a s ih =>
    rw [gaps, List.splitOnP_cons_eq_if_modifyHead, strokes_cons]
    split
    · rw [List.length_cons]
      exact congrArg Nat.succ ih
    · rw [List.length_modifyHead]
      exact ih

/-- Between a stroke and the next there is nothing but the gap between them. -/
lemma exists_split_of_succ_lt_strokes (h : k + 1 < s.strokes) :
    ∃ u a w b v, s = u ++ a :: (w ++ b :: v) ∧ a.isForward = true ∧ b.isForward = true ∧
      strokes u = k ∧ strokes w = 0 ∧ (gaps s).getD (k + 1) [] = w := by
  obtain ⟨u, a, rest, rfl, ha, rfl⟩ := exists_split_of_lt_strokes (Nat.lt_of_succ_lt h)
  have hrest : 0 < strokes rest := by
    rw [strokes_append, strokes_cons, if_pos ha] at h
    omega
  obtain ⟨w, b, v, rfl, hb, hw⟩ := exists_split_of_lt_strokes hrest
  refine ⟨u, a, w, b, v, rfl, ha, hb, rfl, hw, ?_⟩
  rw [gaps_split u _ ha, gaps_split w v hb, gaps_of_strokes_eq_zero hw,
    List.getD_append_right _ _ _ _ (Nat.le_of_eq (length_gaps u)), length_gaps, Nat.sub_self]
  rfl

/-- The number of turns between the stroke with a number and the stroke before it. Nothing is joined
to the first stroke. -/
def joints (s : Sequence) : Nat → Nat
  | 0 => 0
  | k + 1 => turns ((gaps s).getD (k + 1) [])

/-- The joints of a stroke and of those before it do not depend on what follows. -/
lemma joints_split (u v : Sequence) (h : a.isForward = true) (hk : k ≤ u.strokes) :
    joints (u ++ a :: v) k = joints u k := by
  cases k with
  | zero => rfl
  | succ k =>
    have hlt : k + 1 < (gaps u).length := by
      rw [length_gaps]
      omega
    rw [joints, joints, gaps_split u v h, List.getD_append _ _ _ _ hlt]

/-- The joints of a stroke can be told from its lead. -/
lemma joints_getElem_leads (s : Sequence) (h : k < (leads s).length) :
    joints (leads s)[k] (strokes (leads s)[k]) = joints s k := by
  obtain ⟨u, a, v, rfl, ha, rfl⟩ := exists_split_of_lt_strokes (length_leads s ▸ h)
  obtain ⟨_, hu⟩ := List.getElem?_eq_some_iff.1 (getElem?_leads_split u v ha)
  rw [hu, joints_split u v ha (Nat.le_refl _)]

/-- The joints of all strokes, told from their leads. -/
lemma map_joints_leads (s : Sequence) :
    (leads s).map (fun u => joints u (strokes u)) = (List.range s.strokes).map (joints s) := by
  apply List.ext_getElem
  · simp
  · intro k hk _
    rw [List.getElem_map, joints_getElem_leads, List.getElem_map, List.getElem_range]

/-- After a stroke there is nothing yet to be joined. -/
lemma joints_append_forward (s : Sequence) (h : a.isForward = true) :
    joints (s ++ [a]) (s ++ [a]).strokes = 0 := by
  have hk : (s ++ [a]).strokes = s.strokes + 1 := by
    rw [strokes_append, strokes_cons, if_pos h, strokes_nil]
  rw [hk, joints, gaps_split s [] h, List.getD_append_right _ _ _ _ (Nat.le_of_eq (length_gaps s)),
    length_gaps, Nat.sub_self]
  rfl

/-- A turn after a stroke is one more joint for the next stroke; a turn before the first stroke is
none.

**Proof sketch.** If there is a last stroke, what follows it is the last gap, and the turn is added
to its end. -/
lemma joints_append_turn (s : Sequence) (h : a.isForward = false) :
    joints (s ++ [a]) (s ++ [a]).strokes =
      if s.strokes = 0 then 0 else joints s s.strokes + 1 := by
  have ha : strokes [a] = 0 := strokes_turn h
  rw [strokes_append, ha, Nat.add_zero]
  split
  · next h0 => rw [h0, joints]
  · next h0 =>
    obtain ⟨u, b, v, rfl, hb, hu⟩ := exists_split_of_lt_strokes (Nat.sub_one_lt h0)
    -- nothing but turns stands behind the last stroke `b`
    have hk : (u ++ b :: v).strokes = u.strokes + 1 := by omega
    have hv : strokes v = 0 := by
      rw [strokes_append, strokes_cons, if_pos hb] at hk
      omega
    have hva : strokes (v ++ [a]) = 0 := by rw [strokes_append, hv, ha]
    have hle : (gaps u).length ≤ u.strokes + 1 := Nat.le_of_eq (length_gaps u)
    rw [hk, joints, joints, List.append_assoc, List.cons_append, gaps_split _ _ hb,
      gaps_split _ _ hb, gaps_of_strokes_eq_zero hv, gaps_of_strokes_eq_zero hva,
      List.getD_append_right _ _ _ _ hle, List.getD_append_right _ _ _ _ hle, length_gaps,
      Nat.sub_self, List.getD_cons_zero, List.getD_cons_zero, turns_append]
    simp [turns, h]

end Ribbon.Sequence
