import ModuleOutputs.CommandLine.Basic
import ModuleOutputs.CommandLine.Help

/-!
Reading a command line. Options may stand anywhere among the positional
arguments until `--`. A setting waits for its value in the next argument, and is
done with only when something else that is understood comes along; so an argument
that is not understood is reported before a setting without a value.
-/

namespace ModuleOutputs.CommandLine

/-- An option without a value. -/
inductive Switch where
  | generateOverride
  | skipStrings
  | keepClone
  | printConfig
  | verbose
  | quiet
  | help
  | version
deriving Repr, DecidableEq

/-- An option with a value. -/
inductive Setting where
  | config
  | model
deriving Repr, DecidableEq

/-- What a name on a command line stands for. -/
abbrev Named := Switch ⊕ Setting

/-- How a switch is named in messages. -/
def Switch.shown : Switch → String
  | .generateOverride => "--generate-override"
  | .skipStrings => "--skip-strings"
  | .keepClone => "--keep-clone"
  | .printConfig => "--print-config"
  | .verbose => "--verbose..."
  | .quiet => "--quiet"
  | .help => "--help"
  | .version => "--version"

/-- How a setting is named in messages. -/
def Setting.shown : Setting → String
  | .config => "--config <CONFIG>"
  | .model => "--model <MODEL>"

def longNames : List (String × Named) := [
  ("generate-override", .inl .generateOverride),
  ("skip-strings", .inl .skipStrings),
  ("config", .inr .config),
  ("model", .inr .model),
  ("keep-clone", .inl .keepClone),
  ("print-config", .inl .printConfig),
  ("verbose", .inl .verbose),
  ("quiet", .inl .quiet),
  ("help", .inl .help),
  ("version", .inl .version)]

/-- The options by their letters. -/
def letters : List (Char × Named) := [
  ('c', .inr .config),
  ('v', .inl .verbose),
  ('q', .inl .quiet),
  ('h', .inl .help),
  ('V', .inl .version)]

def longName? (name : String) : Option Named :=
  (longNames.find? fun n => n.1 = name).map (·.2)

/-- What a letter stands for. -/
def letter? (c : Char) : Option Named :=
  (letters.find? fun l => l.1 = c).map (·.2)

/-- Why a command line is not understood, or what is said in place of a run. -/
inductive Refusal where
  | unknown (argument : String)
  | missingValue (s : Setting)
  | repeated (shown : String)
  | unwantedValue (value : String) (s : Switch)
  | help (text : String)
  | version
deriving Repr, DecidableEq

namespace Refusal

def message : Refusal → String
  | .unknown argument => "error: unexpected argument '" ++ argument ++ "' found"
  | .missingValue s => "error: a value is required for '" ++ s.shown ++ "' but none was supplied"
  | .repeated shown => "error: the argument '" ++ shown ++ "' cannot be used multiple times"
  | .unwantedValue value s =>
    "error: unexpected value '" ++ value ++ "' for '" ++ s.shown ++ "' found; no more were expected"
  | .help text => text
  | .version => versionText

/-- Whether what is said is what was asked for. -/
def isAnswer : Refusal → Bool
  | .help _ | .version => true
  | _ => false

def exitCode (r : Refusal) : Nat :=
  if r.isAnswer then 0 else 2

end Refusal

/-- How far a command line has been read: what it says so far, the setting that
was named last with the value it has got, and whether `--` has come. -/
structure Reading where
  line : CommandLine := {}
  waiting : Option (Setting × Option String) := none
  onlyPositionals : Bool := false
deriving Repr, DecidableEq

/-- The greatest count of `-v`. -/
def verboseLimit : Nat := 255

/-- Gives a setting its value. The path of a configuration file is not empty. -/
def assign (c : CommandLine) (s : Setting) (value : String) : Except Refusal CommandLine :=
  match s with
  | .config =>
    if c.config.isSome then .error (.repeated s.shown)
    else if value = "" then .error (.missingValue s)
    else .ok { c with config := some value }
  | .model =>
    if c.model.isSome then .error (.repeated s.shown) else .ok { c with model := some value }

/-- Is done with the setting that was named last. -/
def settle (r : Reading) : Except Refusal Reading :=
  match r.waiting with
  | none => .ok r
  | some (s, none) => .error (.missingValue s)
  | some (s, some value) => do
    let line ← assign r.line s value
    .ok { r with line, waiting := none }

/-- Turns a switch on, which most allow once. `configValue` is shown by the help. -/
def turnOn (configValue : Option String) (c : CommandLine) (s : Switch) :
    Except Refusal CommandLine :=
  match s with
  | .generateOverride => once c.generateOverride { c with generateOverride := true }
  | .skipStrings => once c.skipStrings { c with skipStrings := true }
  | .keepClone => once c.keepClone { c with keepClone := true }
  | .printConfig => once c.printConfig { c with printConfig := true }
  | .quiet => once c.quiet { c with quiet := true }
  | .verbose => .ok { c with verbose := min verboseLimit (c.verbose + 1) }
  | .help => .error (.help (longHelp configValue))
  | .version => .error .version
where
  once (already : Bool) (next : CommandLine) : Except Refusal CommandLine :=
    if already then .error (.repeated s.shown) else .ok next

def onSwitch (configValue : Option String) (r : Reading) (s : Switch) : Except Refusal Reading := do
  let r ← settle r
  let line ← turnOn configValue r.line s
  .ok { r with line }

/-- Reads a setting, with its value if that is attached. -/
def onSetting (r : Reading) (s : Setting) (value : Option String) : Except Refusal Reading := do
  let r ← settle r
  match value with
  | none => .ok { r with waiting := some (s, none) }
  | some v =>
    let line ← assign r.line s v
    .ok { r with line }

def onPositional (r : Reading) (word : String) : Except Refusal Reading := do
  let r ← settle r
  .ok { r with line := { r.line with args := r.line.args ++ [word] } }

/-- Reads an option by its long name, with what stands behind an equals sign. -/
def onLong (configValue : Option String) (r : Reading) (name : String) (value : Option String) :
    Except Refusal Reading :=
  match longName? name, value with
  | none, _ => .error (.unknown ("--" ++ name))
  | some (.inl s), none => onSwitch configValue r s
  | some (.inl s), some v => .error (.unwantedValue v s)
  | some (.inr s), value => onSetting r s value

/-- Reads a cluster of letters. The first setting in it takes the rest as its
value. -/
def onLetters (configValue : Option String) (r : Reading) : List Char → Except Refusal Reading
  | [] => .ok r
  | c :: rest =>
    match letter? c with
    | none => .error (.unknown (String.ofList ['-', c]))
    | some (.inl .help) => do
      let _ ← settle r
      .error (.help (shortHelp configValue))
    | some (.inl s) => do
      let r ← onSwitch configValue r s
      onLetters configValue r rest
    | some (.inr s) =>
      onSetting r s
        (match rest with
          | [] => none
          | '=' :: value => some (String.ofList value)
          | value => some (String.ofList value))

/-- Splits an option at its first equals sign. -/
def splitValue (cs : List Char) : String × Option String :=
  (String.ofList (cs.takeWhile (· ≠ '=')),
    match cs.dropWhile (· ≠ '=') with
    | [] => none
    | _ :: value => some (String.ofList value))

/-- Reads an argument that is no option: a value if a setting waits for one, else
a positional argument. -/
def onWord (r : Reading) (word : String) : Except Refusal Reading :=
  match r.waiting with
  | some (s, none) => .ok { r with waiting := some (s, some word) }
  | _ => onPositional r word

/-- Reads one argument. -/
def step (configValue : Option String) (r : Reading) (word : String) : Except Refusal Reading :=
  if r.onlyPositionals then onPositional r word
  else
    match word.toList with
    | ['-', '-'] => .ok { r with onlyPositionals := true }
    | '-' :: '-' :: cs => onLong configValue r (splitValue cs).1 (splitValue cs).2
    | '-' :: c :: cs => onLetters configValue r (c :: cs)
    | _ => onWord r word

/-- What the environment adds: the path of a configuration file, if the command
line names none. -/
def withEnvironment (configValue : Option String) (c : CommandLine) : Except Refusal CommandLine :=
  match c.config, configValue with
  | none, some value => assign c .config value
  | _, _ => .ok c

/-- Reads a command line. `configValue` is the value of the environment variable
that names a configuration file. -/
def parse (configValue : Option String) (args : List String) : Except Refusal CommandLine := do
  let r ← args.foldlM (step configValue) {}
  let r ← settle r
  withEnvironment configValue r.line

end ModuleOutputs.CommandLine
