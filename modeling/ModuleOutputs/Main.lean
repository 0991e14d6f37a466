import ModuleOutputs.Program

/-!
The executable. It takes what lies below the working directory and what its
arguments name into a world, runs the program there, prints what the program
prints and writes the document to disk. It has no connections: a request is
answered as by a server that has nothing to say, and no repository is reached.
-/

namespace ModuleOutputs.Main

/-- The variables in a block of them, in which each ends with a NUL. -/
def environmentOfBlock (block : List UInt8) : Environment :=
  (block.splitOn 0).filterMap fun entry =>
    (Text.strict entry).bind fun s =>
      let name := s.toList.takeWhile (· != '=')
      if name.isEmpty then none
      else some (String.ofList name, String.ofList (s.toList.drop (name.length + 1)))

/-- The variables that are set. -/
def readEnvironment : IO Environment := do
  let block ← IO.FS.readBinFile "/proc/self/environ"
  return environmentOfBlock block.toList

/-- The path as the system takes it. -/
def spelled (p : Path) : String :=
  Path.display p

/-- The path of an entry without links in it, if there is an entry. -/
def realPath? (p : Path) : IO (Option Path) := do
  try
    let real ← IO.FS.realPath (spelled p)
    return some (Path.ofText real.toString)
  catch _ => return none

/-- Takes an entry into a tree, and what lies below it. Entries that cannot be
looked at are left out. -/
partial def gather (t : FileTree) (p : Path) : IO FileTree := do
  match ← realPath? p with
  | none => return t
  | some real =>
    let location := (Path.names p).reverse
    if real != p then return t.plant location (.link real)
    else
      let here ← IO.FS.realPath (spelled real)
      let entries ← try some <$> here.readDir catch _ => pure none
      match entries with
      | some entries =>
        entries.foldlM (fun t e => gather t (Path.join p (Path.ofText e.fileName)))
          (t.plant location .directory)
      | none =>
        let content ← try some <$> IO.FS.readBinFile (spelled real) catch _ => pure none
        return t.plant location (content.elim .sealed fun bytes => .file bytes.toList)

/-- The world of a run in a directory, with what some words name. -/
def worldAt (directory : Path) (words : List String) : IO World := do
  let named ← words.filterMapM fun word => realPath? (Path.join directory (Path.ofText word))
  let tree ← (directory :: named).foldlM gather FileTree.bare
  return {
    tree
    workingDirectory := directory
    temporary := Path.ofText "/tmp"
    scratch := .ok ⟨"000000", by decide⟩
    git := .unreachable "there are no connections" }

/-- Runs the program in the world at hand, and carries out what it has come to. -/
def execute (args : List String) : IO UInt32 := do
  let env ← readEnvironment
  let directory ← IO.currentDir
  let world ← worldAt (Path.ofText directory.toString) args
  let (outcome, world) := Program.run env args world
  for line in outcome.log do
    IO.eprintln line
  IO.eprint outcome.stderr
  if let some p := outcome.written then
    if let .ok content := world.tree.read world.here p then
      IO.FS.writeBinFile (spelled p) ⟨content.toArray⟩
  IO.print outcome.stdout
  return outcome.exitCode.toUInt32

end ModuleOutputs.Main

/-- Runs the program on the arguments of the executable. -/
def main (args : List String) : IO UInt32 :=
  ModuleOutputs.Main.execute args
