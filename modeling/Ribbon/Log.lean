import Ribbon.Decimal

/-!
# The log

A run reports events of some importance, and a filter decides which of them are shown.

## Main definitions

* `Ribbon.Log.Level` — how important an event is.
* `Ribbon.Log.Threshold` — the least important level that is shown.
* `Ribbon.Log.Event` — what is reported.
* `Ribbon.Log.Event.line` — the line of an event.
* `Ribbon.Log.Rule` — a threshold for the targets that begin with a given text.
* `Ribbon.Log.Filter` — the rules.
* `Ribbon.Log.Filter.ofEnvironment` — the filter that a user asks for.
-/

set_option relaxedAutoImplicit false
set_option autoImplicit false

namespace Ribbon.Log

/-! ## Levels of the log

How important an event is, and down to which level events are shown.
-/

/-- How important an event is. -/
inductive Level where
  | error
  | warn
  | info
  | debug
  | trace
  deriving DecidableEq

namespace Level

/-- The levels from the most important on. -/
def all : List Level := [error, warn, info, debug, trace]

/-- The place of a level, the most important being the first. -/
def rank : Level → Nat
  | error => 1
  | warn => 2
  | info => 3
  | debug => 4
  | trace => 5

/-- The name of a level. -/
def name : Level → String
  | error => "ERROR"
  | warn => "WARN"
  | info => "INFO"
  | debug => "DEBUG"
  | trace => "TRACE"

end Level

/-- The least important level that is shown, or none if nothing is. -/
abbrev Threshold := Option Level

/-- Whether a level is shown. -/
def Threshold.shows (t : Threshold) (level : Level) : Bool :=
  match t with
  | some least => level.rank ≤ least.rank
  | none => false

/-- A threshold by its name in any case, or by its number. -/
def Threshold.ofText? (text : String) : Option Threshold :=
  if text.toUpper == "OFF" || text == "0" then some none
  else (Level.all.find? fun l => text.toUpper == l.name || text == Decimal.natText l.rank).map some

/-! ## Events of the log

What a run reports on the way, with a level and the part of the program that it comes from.
-/

/-- What a run reports. -/
inductive Event where
  /-- A generation has grown. -/
  | generation (number length : Nat)
  /-- All generations have grown. -/
  | grown (generations seedLength length : Nat)
  /-- Turns after the last stroke have made no joints. -/
  | unjoined (joints : Nat)
  /-- The mesh has been built. -/
  | drawn (symbols vertices triangles corners : Nat)
  /-- The mesh can be used. -/
  | ready (symbols vertices triangles corners : Nat)
  deriving DecidableEq

/-- The name of the program in its log. -/
def programTarget : String := "symbios_ribbon"

/-- The part of the program that grows sequences. -/
def growthTarget : String := programTarget ++ "::rewriter"

/-- The part of the program that builds meshes. -/
def meshTarget : String := programTarget ++ "::interpreter"

/-- A value with its name. -/
def entry (key : String) (n : Nat) : String :=
  " " ++ key ++ "=" ++ Decimal.natText n

/-- The values of a mesh. -/
def meshEntries (symbols vertices triangles corners : Nat) : String :=
  entry "symbols" symbols ++ entry "vertices" vertices ++ entry "triangles" triangles
    ++ entry "corners" corners

namespace Event

/-- How important an event is. -/
def level : Event → Level
  | generation _ _ => .trace
  | grown _ _ _ => .debug
  | unjoined _ => .trace
  | drawn _ _ _ _ => .debug
  | ready _ _ _ _ => .info

/-- The part of the program an event comes from. -/
def target : Event → String
  | generation _ _ => growthTarget
  | grown _ _ _ => growthTarget
  | unjoined _ => meshTarget
  | drawn _ _ _ _ => meshTarget
  | ready _ _ _ _ => programTarget

/-- The wording of an event. -/
def message : Event → String
  | generation number length =>
    "rewrote sequence" ++ entry "generation" number ++ entry "len" length
  | grown generations seedLength length =>
    "expanded L-System" ++ entry "generations" generations ++ entry "seed_len" seedLength
      ++ entry "len" length
  | unjoined joints =>
    "dropped corners with no following segment" ++ entry "pending_corners" joints
  | drawn symbols vertices triangles corners =>
    "built ribbon mesh" ++ meshEntries symbols vertices triangles corners
  | ready symbols vertices triangles corners =>
    "mesh ready for upload" ++ meshEntries symbols vertices triangles corners

/-- The line of an event. -/
def line (e : Event) : String :=
  e.level.name ++ " " ++ e.target ++ ": " ++ e.message

end Event

/-! ## Filters of the log

A filter is a list of rules, each a threshold for some targets. For each event its most specific
rule counts, and an event without a rule is not shown.
-/

/-- A threshold for the targets that begin with a given text. -/
structure Rule where
  target : String
  threshold : Threshold
  deriving DecidableEq

/-- Which events are shown. Of two rules for the same target the later one replaces the earlier. -/
abbrev Filter := List Rule

/-- The characters of which targets are made. -/
def isTargetChar (c : Char) : Bool :=
  c.isAlphanum || c = '_' || c = ':' || c = '-'

/-- A rule written as a threshold for every target, as a target that is shown in full, or as a
target and its threshold. -/
def Rule.ofText? (text : String) : Option Rule :=
  match Threshold.ofText? text with
  | some t => some ⟨"", t⟩
  | none =>
    let cs := text.toList
    let target := String.ofList (cs.takeWhile isTargetChar)
    if target.isEmpty then none
    else
      match cs.dropWhile isTargetChar with
      | [] => some ⟨target, some .trace⟩
      | '=' :: [] => some ⟨target, some .trace⟩
      | '=' :: rest => (Threshold.ofText? (String.ofList rest)).map fun t => ⟨target, t⟩
      | _ => none

namespace Filter

/-- The rule that counts for a target: the last of the longest. -/
def ruleFor? (f : Filter) (target : String) : Option Rule :=
  f.foldl choose none
where
  /-- The more specific of a rule so far and the next one. -/
  choose (best : Option Rule) (r : Rule) : Option Rule :=
    if r.target.toList.isPrefixOf target.toList then
      match best with
      | some b => if b.target.length ≤ r.target.length then some r else some b
      | none => some r
    else best

/-- Whether events of a target and a level are shown. -/
def shows (f : Filter) (target : String) (level : Level) : Bool :=
  match f.ruleFor? target with
  | some r => r.threshold.shows level
  | none => false

/-- Whether an event is shown. -/
def showsEvent (f : Filter) (e : Event) : Bool :=
  f.shows e.target e.level

/-- The filter used where none is asked for. -/
def standard : Filter := [⟨"", some .info⟩, ⟨programTarget, some .debug⟩]

/-- The filter of rules with commas between them. Without any rule only errors are shown, and with a
rule that cannot be read the whole text is disregarded. -/
def ofText (text : String) : Filter :=
  match ((text.splitOn ",").filter fun item => !item.isEmpty).mapM Rule.ofText? with
  | some [] => [⟨"", some .error⟩]
  | some rules => rules
  | none => standard

/-- The filter that a user asks for, if there is any. -/
def ofEnvironment : Option String → Filter
  | some text => ofText text
  | none => standard

end Filter

end Ribbon.Log
