import ModuleOutputs.Config.Expansion
import ModuleOutputs.Event

/-!
Which events are logged. The environment may say so by directives, each for the
parts of the program whose name begins in a certain way; of the directives that
apply, the one with the longest name counts.
-/

namespace ModuleOutputs.Logging

/-- How much is logged: nothing, or the levels up to one of a rank. Beyond the
levels of events are the two that are of use only for finding faults. -/
inductive Verbosity where
  | off
  | error
  | warn
  | info
  | debug
  | trace
deriving Repr, DecidableEq

namespace Verbosity

def rank : Verbosity → Nat
  | .off => 0
  | .error => 1
  | .warn => 2
  | .info => 3
  | .debug => 4
  | .trace => 5

/-- The verbosities with the words and the digits for them. -/
def words : List (String × Verbosity) := [
  ("off", .off), ("error", .error), ("warn", .warn), ("info", .info), ("debug", .debug),
  ("trace", .trace), ("0", .off), ("1", .error), ("2", .warn), ("3", .info), ("4", .debug),
  ("5", .trace)]

/-- The verbosity that a word names, in any mix of cases. -/
def ofWord? (word : List Char) : Option Verbosity :=
  words.lookup (String.ofList (word.map Char.toLower))

end Verbosity

/-- How much is logged by the parts whose name begins in a certain way. -/
structure Directive where
  part : String
  verbosity : Verbosity
deriving Repr, DecidableEq

def isPartChar (c : Char) : Bool :=
  c.isAlphanum || c == '_' || c == ':' || c == '-'

/-- Reads a directive: a verbosity, the name of a part, or both with an equals
sign between them. A name alone asks for everything. -/
def Directive.read (cs : List Char) : Option Directive :=
  match Verbosity.ofWord? cs with
  | some v => some ⟨"", v⟩
  | none =>
    let name := cs.takeWhile isPartChar
    let part := String.ofList name
    if name.isEmpty then none
    else
      match cs.drop name.length with
      | [] => some ⟨part, .trace⟩
      | ['='] => some ⟨part, .trace⟩
      | '=' :: word => (Verbosity.ofWord? word).map fun v => ⟨part, v⟩
      | _ => none

/-- Reads directives with commas between them. None at all ask for errors only. -/
def readDirectives (s : String) : Option (List Directive) :=
  let pieces := (s.toList.splitOn ',').filter fun piece => !piece.isEmpty
  if pieces.isEmpty then some [⟨"", .error⟩] else pieces.mapM Directive.read

/-- How much a part of the program logs. -/
def verbosityOf (directives : List Directive) (part : String) : Verbosity :=
  let apply := directives.filter fun d => part.startsWith d.part
  let longest := apply.foldl (fun n d => max n d.part.length) 0
  ((apply.filter fun d => d.part.length = longest).getLast?).elim .off (·.verbosity)

/-- The environment variable that holds directives. -/
def filterVariable : String :=
  "RUST_LOG"

/-- The part that reads configurations and infers documents. -/
def libraryPart : String :=
  "tfmodule_schema"

/-- The part that reads the command line. -/
def programPart : String :=
  "infer_tfmodule_schema"

def ofCount (verbose : Nat) : List Directive :=
  let v : Verbosity := if verbose = 0 then .info else if verbose = 1 then .debug else .trace
  [⟨"", .warn⟩, ⟨libraryPart, v⟩, ⟨programPart, v⟩]

/-- The directives that hold for a run. A quiet run logs errors only, and the
environment counts for more than `-v`, if what it says can be read. -/
def directivesFor (env : Environment) (verbose : Nat) (quiet : Bool) : List Directive :=
  if quiet then [⟨"", .error⟩]
  else ((env.get? filterVariable).bind readDirectives).getD (ofCount verbose)

def lines (directives : List Directive) (events : List Event) : List String :=
  let limit := (verbosityOf directives libraryPart).rank
  (events.filter fun e => e.level.rank ≤ limit).map Event.line

/-- Whether one of the two parts logs what is of use only for finding faults. -/
def isDetailed (directives : List Directive) : Bool :=
  [libraryPart, programPart].any fun part =>
    Verbosity.debug.rank ≤ (verbosityOf directives part).rank

end ModuleOutputs.Logging
