import Ribbon.Config.Document
import Ribbon.Log
import Ribbon.Plan

/-!
# The program

The program reads its arguments, does what they ask for and reports what it did.

## Main definitions

* `Ribbon.Command.Options` — what a ribbon is drawn with.
* `Ribbon.Command.Word` — what one argument says.
* `Ribbon.Command.Request` — what all arguments ask for.
* `Ribbon.Command.Request.ofArguments` — reads the arguments.
* `Ribbon.Command.perform` — does what the options ask for.
* `Ribbon.Command.Report.events` — what a run reports, as far as a filter shows it.
* `Ribbon.Command.outcome` — how a run ends.
-/

set_option relaxedAutoImplicit false
set_option autoImplicit false

namespace Ribbon.Command

/-! ## Arguments of the command line

The program takes at most one configuration file and one number of generations, in any order, and
tells its version and its usage.
-/

/-- What the arguments ask for. -/
structure Options where
  /-- The path of the configuration file. -/
  config : Option String
  /-- The number of generations that replaces the configured one. -/
  generations : Option UInt32
  deriving DecidableEq

/-- What a user wants from the program. -/
inductive Request where
  /-- To draw a ribbon. -/
  | draw (options : Options)
  /-- To know the version. -/
  | version
  /-- To know how the program is used. -/
  | help
  /-- The arguments cannot be understood. -/
  | misuse
  deriving DecidableEq

/-- The options that take a value. -/
inductive Setting where
  | config
  | generations
  deriving DecidableEq

/-- A count: decimal digits. -/
def countOf? (cs : List Char) : Option Nat :=
  if cs ≠ [] ∧ cs.all Char.isDigit then some (Decimal.ofDigits cs) else none

/-- An integer: a count, after a sign or none. -/
def integerOf? (text : String) : Option Int :=
  match text.toList with
  | '-' :: cs => (countOf? cs).map fun n => -n
  | '+' :: cs => (countOf? cs).map fun n => n
  | cs => (countOf? cs).map fun n => n

/-- A number of generations: an integer that is not negative and has 32 bits. Zero may have any sign. -/
def generationsOf? (text : String) : Option UInt32 :=
  match integerOf? text with
  | some n => if 0 ≤ n ∧ n < UInt32.size then some n.toNat.toUInt32 else none
  | none => none

/-- The options with one more value, which may be given only once. -/
def Options.give? (o : Options) (setting : Setting) (value : String) : Option Options :=
  match setting with
  | .config =>
    if o.config.isSome || value.isEmpty then none else some { o with config := some value }
  | .generations =>
    if o.generations.isSome then none
    else (generationsOf? value).map fun n => { o with generations := some n }

/-- What one argument says. -/
inductive Word where
  /-- An option whose value is the next argument. -/
  | setting (s : Setting)
  /-- An option with its value. -/
  | given (s : Setting) (value : String)
  | version
  | help
  /-- The end of the options. -/
  | stop
  | unknown

/-- The value behind the letter of an option, which may follow an equals sign. -/
def attached (s : Setting) : List Char → Word
  | [] => .setting s
  | '=' :: value => .given s (String.ofList value)
  | value => .given s (String.ofList value)

/-- An option given by its full name. -/
def longWord (cs : List Char) : Word :=
  let name := String.ofList (cs.takeWhile (· ≠ '='))
  match cs.dropWhile (· ≠ '=') with
  | [] =>
    if name == "config" then .setting .config
    else if name == "generations" then .setting .generations
    else if name == "version" then .version
    else if name == "help" then .help
    else .unknown
  | _ :: value =>
    if name == "config" then .given .config (String.ofList value)
    else if name == "generations" then .given .generations (String.ofList value)
    else .unknown

/-- What an argument says. -/
def Word.ofText (text : String) : Word :=
  match text.toList with
  | ['-', '-'] => .stop
  | '-' :: '-' :: name => longWord name
  | '-' :: 'c' :: value => attached .config value
  | '-' :: 'g' :: value => attached .generations value
  | '-' :: 'V' :: _ => .version
  | '-' :: 'h' :: _ => .help
  | _ => .unknown

/-- Whether an argument can be the value of the option before it: it looks like no option. -/
def isValue (text : String) : Bool :=
  match text.toList with
  | '-' :: _ :: _ => false
  | _ => true

namespace Request

/-- Reads arguments behind the options that have been read. The first thing wrong decides, but the
version and the usage are told as soon as they are asked for. -/
def ofArgumentsFrom (o : Options) : List String → Request
  | [] => .draw o
  | arg :: rest =>
    match Word.ofText arg with
    | .setting s =>
      match rest with
      | [] => .misuse
      | value :: rest =>
        if isValue value then
          match o.give? s value with
          | some o => ofArgumentsFrom o rest
          | none => .misuse
        else .misuse
    | .given s value =>
      match o.give? s value with
      | some o => ofArgumentsFrom o rest
      | none => .misuse
    | .version => .version
    | .help => .help
    | .stop => if rest.isEmpty then .draw o else .misuse
    | .unknown => .misuse

/-- What the arguments of the program ask for. -/
def ofArguments (args : List String) : Request :=
  ofArgumentsFrom ⟨none, none⟩ args

end Request

/-! ## Runs of the program

A run loads a configuration, draws its ribbon and reports what it did. Nothing is reported by a run
that fails, since everything that can fail comes before the first report.
-/

/-- What a run has made. -/
structure Report where
  plan : Plan
  /-- The grown seed. -/
  sequence : Sequence
  mesh : Mesh

/-- The configuration that the options ask for, from the bytes of its file if it has one. -/
def configOf (o : Options) (file : Option ByteArray) : Except Error Config := do
  let c ← if o.config.isSome then Config.ofFile file else .ok Config.standard
  return { c with generations := o.generations.getD c.generations }

/-- Does what the options ask for. -/
def perform (o : Options) (file : Option ByteArray) : Except Error Report := do
  let plan ← Plan.ofConfig (← configOf o file)
  plan.checkSize
  let mesh ← plan.draw plan.grown
  return ⟨plan, plan.grown, mesh⟩

namespace Report

open Log

/-- An event of every generation. -/
def growth (r : Report) : List Event :=
  (r.plan.seed.generationsOf r.plan.config.generations.toNat).zipIdx.map fun (s, g) =>
    .generation (g + 1) s.length

/-- The event of a mesh, by what is said of it. -/
def ofMesh (r : Report) (say : Nat → Nat → Nat → Nat → Event) : Event :=
  say r.sequence.length r.mesh.vertexCount r.mesh.triangleCount r.mesh.jointCount

/-- What a run reports, as far as a filter shows it. The generations are gone through only if they
are shown. -/
def events (r : Report) (f : Filter) : List Event :=
  let growth := if f.shows growthTarget .trace then r.growth else []
  let pending := (r.plan.trace r.sequence).pending
  let others :=
    .grown r.plan.config.generations.toNat r.plan.seed.length r.sequence.length
      :: (if pending = 0 then [] else [.unjoined pending]) ++ [r.ofMesh .drawn, r.ofMesh .ready]
  growth ++ others.filter f.showsEvent

end Report

/-! ### Outcomes -/

/-- How a run of the program ends. -/
structure Outcome where
  exitCode : UInt8
  /-- The lines that are printed. -/
  lines : List String
  /-- What went wrong, if drawing failed. -/
  failure : Option Error

/-- The version of the program. -/
def versionLine : String := "symbios-ribbon 0.1.0"

/-- How the program is used. -/
def usageLine : String := "usage: symbios-ribbon [-c PATH] [-g GENERATIONS]"

/-- The outcome of a request, with the file it names and the log filter. -/
def outcome (request : Request) (file : Option ByteArray) (f : Log.Filter) : Outcome :=
  match request with
  | .version => ⟨0, [versionLine], none⟩
  | .help => ⟨0, [usageLine], none⟩
  | .misuse => ⟨2, [], none⟩
  | .draw o =>
    match perform o file with
    | .ok r => ⟨0, (r.events f).map Log.Event.line, none⟩
    | .error e => ⟨1, [], some e⟩

end Ribbon.Command
