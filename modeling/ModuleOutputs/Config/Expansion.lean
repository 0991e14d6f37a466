/-!
Environment variables in a text. A variable is written `$NAME` or, with any name in
it, in braces. A text is searched once for each of the two forms, and what stands
for a variable is replaced wherever it occurs by then, also inside a longer name.
-/

namespace ModuleOutputs

/-- The variables that are set, with their values. -/
abbrev Environment := List (String × String)

/-- The value of a variable. No variable has an equals sign or a NUL in its name. -/
def Environment.get? (env : Environment) (name : String) : Option String :=
  if name.toList.any fun c => c == '=' || c == '\x00' then none else env.lookup name

namespace Expansion

/-- A variable as it is written: all characters, and those of its name. -/
structure Mention where
  written : List Char
  name : List Char
deriving Repr, DecidableEq

/-- A character with which a name outside braces may begin. -/
def beginsName (c : Char) : Bool :=
  c.isAlpha || c == '_'

/-- A character with which such a name may go on. -/
def continuesName (c : Char) : Bool :=
  c.isAlphanum || c == '_'

/-- The variable in braces that a text begins with. -/
def braced? : List Char → Option Mention
  | '$' :: '\x7b' :: rest =>
    let name := rest.takeWhile (· != '\x7d')
    if name.isEmpty || (rest.drop name.length).isEmpty then none
    else some ⟨'$' :: '\x7b' :: name ++ ['\x7d'], name⟩
  | _ => none

/-- The variable without braces that a text begins with. -/
def bare? : List Char → Option Mention
  | '$' :: c :: rest =>
    if beginsName c then
      let name := c :: rest.takeWhile continuesName
      some ⟨'$' :: name, name⟩
    else none
  | _ => none

/-- The variables that are written in a text, found by looking at its beginning.
The first `skipped` characters belong to the one before. -/
def mentions (begins : List Char → Option Mention) : (skipped : Nat) → List Char → List Mention
  | _, [] => []
  | skipped + 1, _ :: rest => mentions begins skipped rest
  | 0, c :: rest =>
    match begins (c :: rest) with
    | some m => m :: mentions begins (m.written.length - 1) rest
    | none => mentions begins 0 rest

/-- Replaces the occurrences of a run of characters, of which `skipped` characters
of the last one are still to be passed over. -/
def replaceFrom (run replacement : List Char) : (skipped : Nat) → List Char → List Char
  | _, [] => []
  | skipped + 1, _ :: rest => replaceFrom run replacement skipped rest
  | 0, c :: rest =>
    if run.isPrefixOf (c :: rest) then
      replacement ++ replaceFrom run replacement (run.length - 1) rest
    else c :: replaceFrom run replacement 0 rest

/-- Replaces a variable as it is written by its value, if it is set. -/
def replaceMention (env : Environment) (text : List Char) (m : Mention) : List Char :=
  match env.get? (String.ofList m.name) with
  | some value => replaceFrom m.written value.toList 0 text
  | none => text

/-- Replaces the variables of a text. Those in braces come first; what their values
mention is not searched for, though it may be replaced along with the text's own
variables. -/
def expand (env : Environment) (text : String) : String :=
  let cs := text.toList
  let found := mentions braced? 0 cs ++ mentions bare? 0 cs
  String.ofList (found.foldl (replaceMention env) cs)

end Expansion

end ModuleOutputs
