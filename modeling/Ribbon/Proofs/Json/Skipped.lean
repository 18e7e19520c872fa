import Ribbon.Proofs.Json.Accepted
import Ribbon.Proofs.Json.Enclosed

/-!
# Unused values are skipped

Any value may be given to a name that is not known. It is skipped, however it is written and whatever it
holds: its numbers may be of any size, its strings may hold unpaired units, and its brackets may be
nested to any depth.

## Main definitions

* `Ribbon.Json.IsValue` — the texts of values.
* `Ribbon.Json.Skips` — a text is skipped in a few rounds.

## Main results

* `Ribbon.Json.IsValue.skips` — the text of any value is.
* `Ribbon.Json.IsValue.skipValue_append` — so it is skipped.
-/

set_option relaxedAutoImplicit false
set_option autoImplicit false

namespace Ribbon.Json

variable {text blanks rest : List Char}

/-! ## Values -/

/-- The ways to write a value in brackets. A name need not be a string of characters. -/
def Bracket.EntryText : Bracket → List Char → List Char → Prop
  | .list => ItemText
  | .object => MemberText PiecesText

/-- The texts of values. -/
inductive IsValue : List Char → Prop
  | null : IsValue ['n', 'u', 'l', 'l']
  | true : IsValue ['t', 'r', 'u', 'e']
  | false : IsValue ['f', 'a', 'l', 's', 'e']
  | number {n : Numeral} {text : List Char} (htext : NumeralText n text) : IsValue text
  | string {body : List Char} (hbody : PiecesText body) : IsValue ('\x22' :: (body ++ ['\x22']))
  | bracket (b : Bracket) {values : List (List Char)} {text : List Char}
      (hvalues : ∀ v ∈ values, IsValue v) (htext : Enclosed b b.EntryText values text) : IsValue text

/-- A bracket opens a value. -/
lemma Enclosed.startsValue {α : Type} {b : Bracket} {entry : α → List Char → Prop} {xs : List α}
    (h : Enclosed b entry xs text) : StartsValue text := by
  obtain ⟨inner, rfl, -⟩ := h.exists_inner
  exact ⟨_, _, rfl, by cases b <;> decide⟩

/-- Every text of a value begins as values begin. -/
lemma IsValue.startsValue (h : IsValue text) : StartsValue text := by
  cases h with
  | null | true | false | string => exact ⟨_, _, rfl, by decide, by decide⟩
  | number htext =>
    obtain ⟨c, cs, rfl, hc⟩ := htext.exists_cons
    exact ⟨c, cs, rfl, isBlank_of_isDigit hc⟩
  | bracket b _ htext => exact htext.startsValue

/-! ## Rounds -/

/-- A text is skipped in at most two rounds for each character, whatever brackets are open and whatever
rounds are left. -/
def Skips (text : List Char) : Prop :=
  ∃ rounds ≤ 2 * text.length, ∀ {blanks rest : List Char}, IsBlanks blanks → EndsValue rest →
    ∀ fuel brackets, skipFrom (fuel + rounds) .value brackets (blanks ++ (text ++ rest)) =
      skipFrom fuel .next brackets rest

/-- A value without brackets takes one round. -/
lemma skips_of_skipScalar {c : Char} {cs : List Char} (hc : isBlank c = false)
    (hbracket : c ≠ '[' ∧ c ≠ '\x7b')
    (hscalar : ∀ {rest : List Char}, EndsValue rest → skipScalar c (cs ++ rest) = .ok rest) :
    Skips (c :: cs) := by
  refine ⟨1, by rw [List.length_cons]; omega, fun hblanks hrest fuel brackets => ?_⟩
  rw [skipFrom, List.cons_append, hblanks.token_append_cons hc]
  simp only [ok_bind, if_neg hbracket.1, if_neg hbracket.2, hscalar hrest]

/-- A sign or a digit begins no word, no string and no bracket. -/
lemma notMem_of_isDigit {c : Char} (h : c = '-' ∨ c.isDigit = true) :
    c ∉ ['n', 't', 'f', '\x22', '[', '\x7b'] := by
  intro hc
  simp only [List.mem_cons, List.not_mem_nil, or_false] at hc
  rcases hc with rfl | rfl | rfl | rfl | rfl | rfl <;> exact absurd h (by decide)

/-- A number of any size is skipped. -/
lemma NumeralText.skips {n : Numeral} (h : NumeralText n text) : Skips text := by
  have hskip {rest : List Char} (hrest : EndsValue rest) : skipNumber (text ++ rest) = .ok rest := by
    rw [skipNumber, h.readNumeral_append .malformed hrest.endsNumber]
    rfl
  obtain ⟨c, cs, rfl, hc⟩ := h.exists_cons
  obtain ⟨hnull, htrue, hfalse, hmark, hlist, hobject⟩ :
      c ≠ 'n' ∧ c ≠ 't' ∧ c ≠ 'f' ∧ c ≠ '\x22' ∧ c ≠ '[' ∧ c ≠ '\x7b' := by
    simpa using notMem_of_isDigit hc
  refine skips_of_skipScalar (isBlank_of_isDigit hc).1 ⟨hlist, hobject⟩ fun hrest => ?_
  rw [skipScalar, if_neg hnull, if_neg htrue, if_neg hfalse, if_neg hmark, if_pos hc]
  exact hskip hrest

/-! ## Brackets -/

/-- What skipping goes on with before an entry: the first one, or a further one. -/
def SkipPhase.entry : Bool → SkipPhase
  | true => .first
  | false => .next

/-- An opening bracket takes one round. -/
lemma skipFrom_opening (b : Bracket) (hblanks : IsBlanks blanks) (rest : List Char) (fuel : ℕ)
    (brackets : List Bracket) :
    skipFrom (fuel + 1) .value brackets (blanks ++ b.opening :: rest) =
      skipFrom fuel .first (b :: brackets) rest := by
  have hopening : isBlank b.opening = false := by cases b <;> decide
  rw [skipFrom, hblanks.token_append_cons hopening]
  cases b <;> rfl

/-- A closing bracket takes one round. -/
lemma skipFrom_close (b : Bracket) (hblanks : IsBlanks blanks) (rest : List Char) (first : Bool)
    (fuel : ℕ) (brackets : List Bracket) :
    skipFrom (fuel + 1) (.entry first) (b :: brackets) (blanks ++ b.close :: rest) =
      skipFrom fuel .next brackets rest := by
  have hclose : isBlank b.close = false := by cases b <;> decide
  cases first <;>
  · rw [SkipPhase.entry, skipFrom, hblanks.token_append_cons hclose]
    simp only [ok_bind, if_true]

/-- A name and its colon are skipped. -/
lemma skipName_append {before body middle : List Char} (hbefore : IsBlanks before)
    (hbody : PiecesText body) (hmiddle : IsBlanks middle) (rest : List Char) :
    skipName (before ++ '\x22' :: (body ++ '\x22' :: (middle ++ ':' :: rest))) = .ok rest := by
  have hmark : isBlank '\x22' = false := by decide
  rw [skipName, hbefore.token_append_cons hmark]
  simp [skipString_piecesText _ hbody, hmiddle.readColon_append]

/-- What stands before the value of an item takes one round.

**Proof sketch.** Only the first item has no comma before it, and then its own first token shows that
the list goes on. -/
lemma skipFrom_item {value : List Char} (htext : ItemText value text) (hvalue : StartsValue value)
    {first : Bool} {lead : List Char} (hlead : Opens first lead) (rest : List Char) (fuel : ℕ)
    (brackets : List Bracket) :
    ∃ before after, IsBlanks before ∧ IsBlanks after ∧
      skipFrom (fuel + 1) (.entry first) (.list :: brackets) (lead ++ (text ++ rest)) =
        skipFrom fuel .value (.list :: brackets) (before ++ (value ++ (after ++ rest))) := by
  have hcomma : isBlank ',' = false := by decide
  obtain ⟨c, cs, rfl, hc, hend⟩ := hvalue
  have hclose : c ≠ Bracket.list.close := hend
  cases htext with
  | @spaced before after hbefore hafter =>
    cases hlead with
    | first hlead =>
      refine ⟨[], after, isBlanks_nil, hafter, ?_⟩
      rw [SkipPhase.entry, skipFrom, hlead.token_append, List.append_assoc, List.append_assoc,
        List.cons_append, hbefore.token_append_cons hc]
      simp only [ok_bind, if_neg hclose]
      rfl
    | next hlead =>
      refine ⟨before, after, hbefore, hafter, ?_⟩
      rw [SkipPhase.entry, skipFrom, List.append_assoc, List.singleton_append,
        hlead.token_append_cons hcomma, List.append_assoc, List.append_assoc]
      rfl

/-- What stands before the value of a member takes one round.

**Proof sketch.** As for items, except that the name and its colon are read in the same round. -/
lemma skipFrom_member {value : List Char} (htext : MemberText PiecesText value text) {first : Bool}
    {lead : List Char} (hlead : Opens first lead) (rest : List Char) (fuel : ℕ)
    (brackets : List Bracket) :
    ∃ before after, IsBlanks before ∧ IsBlanks after ∧
      skipFrom (fuel + 1) (.entry first) (.object :: brackets) (lead ++ (text ++ rest)) =
        skipFrom fuel .value (.object :: brackets) (before ++ (value ++ (after ++ rest))) := by
  have hcomma : isBlank ',' = false := by decide
  have hmark : isBlank '\x22' = false := by decide
  cases htext with
  | @named before body middle _ hbefore hbody hmiddle hitem =>
    cases hitem with
    | @spaced space after hspace hafter =>
      refine ⟨space, after, hspace, hafter, ?_⟩
      simp only [List.append_assoc, List.cons_append]
      cases hlead with
      | first hlead =>
        have hname := skipName_append isBlanks_nil hbody hmiddle (space ++ (value ++ (after ++ rest)))
        rw [SkipPhase.entry, skipFrom, hlead.token_append, hbefore.token_append_cons hmark]
        rw [List.nil_append] at hname
        simp [Bracket.close, Bracket.skipLead, hname]
      | next hlead =>
        have hname := skipName_append hbefore hbody hmiddle (space ++ (value ++ (after ++ rest)))
        rw [SkipPhase.entry, skipFrom, List.append_assoc, List.singleton_append,
          hlead.token_append_cons hcomma]
        simp [Bracket.close, Bracket.skipLead, hname]

section

variable {b : Bracket} {value : List Char}

/-- What stands before the value of an entry takes one round. -/
lemma skipFrom_entry (htext : b.EntryText value text) (hvalue : StartsValue value) {first : Bool}
    {lead : List Char} (hlead : Opens first lead) (rest : List Char) (fuel : ℕ)
    (brackets : List Bracket) :
    ∃ before after, IsBlanks before ∧ IsBlanks after ∧
      skipFrom (fuel + 1) (.entry first) (b :: brackets) (lead ++ (text ++ rest)) =
        skipFrom fuel .value (b :: brackets) (before ++ (value ++ (after ++ rest))) := by
  cases b with
  | list => exact skipFrom_item htext hvalue hlead rest fuel brackets
  | object => exact skipFrom_member htext hlead rest fuel brackets

/-- A value is a part of its entry. -/
lemma Bracket.EntryText.length_le (htext : b.EntryText value text) :
    value.length ≤ text.length := by
  cases b with
  | list =>
    cases htext with
    | spaced =>
      simp only [List.length_append]
      omega
  | object =>
    cases htext with
    | named _ _ _ hitem =>
      cases hitem with
      | spaced =>
        simp only [List.length_append, List.length_cons]
        omega

/-- A bracket may follow a value. -/
lemma endsValue_close (b : Bracket) (rest : List Char) : EndsValue (b.close :: rest) :=
  endsValue_cons (by cases b <;> decide)

/-- **Entries are skipped** up to the bracket if their values are.

**Proof sketch.** Induction on the entries. Each takes one round more than its value, and there is one
round for the bracket. What stands before an entry is bound inside, since it is a comma from the second
one on, and so is what follows the bracket. -/
lemma skipFrom_separated {values : List (List Char)} (htext : Separated b.EntryText values text)
    (hvalues : ∀ v ∈ values, StartsValue v ∧ Skips v) :
    ∃ rounds ≤ 2 * text.length + 2, ∀ {first : Bool} {lead : List Char}, Opens first lead →
      ∀ rest fuel brackets, skipFrom (fuel + rounds) (.entry first) (b :: brackets)
        (lead ++ (text ++ b.close :: rest)) = skipFrom fuel .next brackets rest := by
  induction htext with
  | @one value text head =>
    obtain ⟨hstarts, rounds, hrounds, hskip⟩ := hvalues value List.mem_cons_self
    have hlength := head.length_le
    refine ⟨rounds + 2, by omega, fun hlead rest fuel brackets => ?_⟩
    obtain ⟨before, after, hbefore, hafter, hentry⟩ :=
      skipFrom_entry head hstarts hlead (b.close :: rest) (fuel + 1 + rounds) brackets
    rw [show fuel + (rounds + 2) = fuel + 1 + rounds + 1 by omega, hentry,
      hskip hbefore ((endsValue_close b rest).append hafter)]
    exact skipFrom_close b hafter rest false fuel brackets
  | @more value values text texts head tail ih =>
    obtain ⟨⟨hstarts, rounds, hrounds, hskip⟩, hrest⟩ := List.forall_mem_cons.1 hvalues
    obtain ⟨further, hfurther, hrun⟩ := ih hrest
    have hlength := head.length_le
    refine ⟨further + rounds + 1, ?_, fun hlead rest fuel brackets => ?_⟩
    · simp only [List.length_append, List.length_cons]
      omega
    have hcomma : EndsValue (',' :: (texts ++ b.close :: rest)) := endsValue_cons (.inl rfl)
    obtain ⟨before, after, hbefore, hafter, hentry⟩ := skipFrom_entry head hstarts hlead
      (',' :: (texts ++ b.close :: rest)) (fuel + further + rounds) brackets
    rw [show fuel + (further + rounds + 1) = fuel + further + rounds + 1 by omega, List.append_assoc,
      List.cons_append, hentry, hskip hbefore (hcomma.append hafter), List.append_cons after]
    exact hrun (.next hafter) rest fuel brackets

/-- **A value in brackets is skipped** if the values in it are. -/
lemma Enclosed.skips {values : List (List Char)} (htext : Enclosed b b.EntryText values text)
    (hvalues : ∀ v ∈ values, StartsValue v ∧ Skips v) : Skips text := by
  obtain ⟨inner, rfl, hinner⟩ := htext.exists_inner
  have hinside : ∃ rounds ≤ 2 * inner.length + 2, ∀ rest fuel brackets,
      skipFrom (fuel + rounds) .first (b :: brackets) (inner ++ b.close :: rest) =
        skipFrom fuel .next brackets rest := by
    rcases hinner with ⟨hblanks, -⟩ | hentries
    · exact ⟨1, by omega, fun rest => skipFrom_close b hblanks rest true⟩
    · obtain ⟨rounds, hrounds, hrun⟩ := skipFrom_separated hentries hvalues
      exact ⟨rounds, hrounds, hrun (.first isBlanks_nil)⟩
  obtain ⟨rounds, hrounds, hrun⟩ := hinside
  refine ⟨rounds + 1, ?_, fun hblanks _ fuel brackets => ?_⟩
  · simp only [List.length_append, List.length_cons]
    omega
  rw [List.cons_append, List.append_assoc, List.singleton_append, ← Nat.add_assoc,
    skipFrom_opening b hblanks]
  exact hrun _ fuel brackets

end

/-! ## All values -/

/-- **Any value is skipped** in a few rounds.

**Proof sketch.** Induction on the value, one case for each kind. -/
theorem IsValue.skips (h : IsValue text) : Skips text := by
  induction h with
  | null => exact skips_of_skipScalar rfl (by decide) fun _ => readWord_append ['u', 'l', 'l'] _
  | true => exact skips_of_skipScalar rfl (by decide) fun _ => readWord_append ['r', 'u', 'e'] _
  | false => exact skips_of_skipScalar rfl (by decide) fun _ => readWord_append ['a', 'l', 's', 'e'] _
  | number htext => exact htext.skips
  | @string body hbody =>
    refine skips_of_skipScalar rfl (by decide) fun {rest} _ => ?_
    rw [List.append_assoc]
    exact skipString_piecesText rest hbody
  | bracket b hvalues htext ih => exact htext.skips fun v hv => ⟨(hvalues v hv).startsValue, ih v hv⟩

/-- **An unused value is skipped**, whatever follows, as long as it can follow a value. -/
theorem IsValue.skipValue_append (h : IsValue text) (hrest : EndsValue rest) :
    skipValue (text ++ rest) = .ok rest := by
  obtain ⟨rounds, hrounds, hskip⟩ := h.skips
  obtain ⟨fuel, hfuel⟩ : ∃ fuel, 2 * (text ++ rest).length + 1 = fuel + rounds := by
    simp only [List.length_append]
    exact ⟨2 * (text.length + rest.length) + 1 - rounds, by omega⟩
  rw [skipValue, hfuel, ← List.nil_append (text ++ rest), hskip isBlanks_nil hrest]
  cases fuel <;> rfl

/-! ## Blanks before a value -/

/-- What follows may succeed more often. -/
lemma bind_mono {ε α β : Type} {x : Except ε α} {next further : α → Except ε β} {y : β}
    (h : ∀ a, next a = .ok y → further a = .ok y) (hx : (x >>= next) = .ok y) :
    (x >>= further) = .ok y := by
  obtain ⟨a, ha, hy⟩ := bind_eq_ok.1 hx
  exact bind_eq_ok.2 ⟨a, ha, h a hy⟩

/-- A further round changes nothing once the value has been skipped.

**Proof sketch.** Induction on the rounds. A round with one more to come does what it did, and what
follows it succeeds by induction. -/
lemma skipFrom_succ {fuel : ℕ} {phase : SkipPhase} {brackets : List Bracket} {cs : List Char}
    (h : skipFrom fuel phase brackets cs = .ok rest) :
    skipFrom (fuel + 1) phase brackets cs = .ok rest := by
  induction fuel generalizing phase brackets cs with
  | zero => cases phase <;> cases brackets <;> first | exact h | cases h
  | succ fuel ih =>
    cases phase with
    | value =>
      refine bind_mono (fun p hp => ?_) h
      dsimp only at hp ⊢
      split_ifs at hp ⊢ with hlist hobject
      · exact ih hp
      · exact ih hp
      · exact bind_mono (fun _ => ih) hp
    | first =>
      cases brackets with
      | nil => exact h
      | cons b outer =>
        refine bind_mono (fun p hp => ?_) h
        dsimp only at hp ⊢
        split_ifs at hp ⊢ with hclose
        · exact ih hp
        · exact bind_mono (fun _ => ih) hp
    | next =>
      cases brackets with
      | nil => exact h
      | cons b outer =>
        refine bind_mono (fun p hp => ?_) h
        dsimp only at hp ⊢
        split_ifs at hp ⊢ with hclose hcomma
        · exact ih hp
        · exact bind_mono (fun _ => ih) hp

/-- Rounds that are not needed change nothing. -/
lemma skipFrom_add {fuel : ℕ} {phase : SkipPhase} {brackets : List Bracket} {cs : List Char}
    (h : skipFrom fuel phase brackets cs = .ok rest) (more : ℕ) :
    skipFrom (fuel + more) phase brackets cs = .ok rest := by
  induction more with
  | zero => exact h
  | succ more ih => exact skipFrom_succ ih

/-- Blanks before a value are skipped with it. -/
lemma skipValue_blanks {cs : List Char} (h : skipValue cs = .ok rest) (hblanks : IsBlanks blanks) :
    skipValue (blanks ++ cs) = .ok rest := by
  have hfuel : 2 * (blanks ++ cs).length + 1 = 2 * cs.length + 1 + 2 * blanks.length := by
    rw [List.length_append]
    omega
  have hround : skipFrom (2 * (blanks ++ cs).length + 1) .value [] (blanks ++ cs) =
      skipFrom (2 * (blanks ++ cs).length + 1) .value [] cs := by
    rw [skipFrom, hblanks.token_append, skipFrom]
  rw [skipValue, hround, hfuel]
  exact skipFrom_add h _

end Ribbon.Json
