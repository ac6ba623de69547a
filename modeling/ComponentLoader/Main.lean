import ComponentLoader.Command.Run
set_option autoImplicit false

/-!
# The program (SPEC §7.5)

Reads the files that a command can be about into a tree, runs the command line on the tree and
writes the outcome.  These files are all below the working directory, the configuration files above
it, and all below the directories of the absolute paths among the arguments.
-/

namespace ComponentLoader.Program

/-- The time that all files get: within one run no file changes. -/
def runTime : Int := 0

/-- The edits that make the entry at a path with all that is below it; what cannot be read is left
out. -/
partial def gather (entry : IO.FS.DirEntry) : IO (List FileEdit) := do
  let path : FilePath := ⟨entry.path.toString.toList⟩
  try
    if ← entry.path.isDir then
      let below ← (← entry.path.readDir).toList.mapM gather
      return .makeDirectory path :: below.flatten
    else
      return [.write path (← IO.FS.readBinFile entry.path).toList runTime]
  catch _ => return []

/-- The edits that make a directory with all that is below it; the root directory is left out. -/
def gatherDirectory (directory : FilePath) : IO (List FileEdit) :=
  match directory.fileName?, directory.parent? with
  | some name, some parent => gather ⟨String.ofList parent.text, String.ofList name⟩
  | _, _ => return []

/-- The edits that make the configuration file of a directory, if it has one. -/
def gatherConfig (directory : FilePath) : IO (List FileEdit) := do
  let path := directory.join ⟨configFileName⟩
  try
    return [.write path (← IO.FS.readBinFile (String.ofList path.text)).toList runTime]
  catch _ => return []

/-- The directories of the absolute paths among some arguments. -/
def namedDirectories (arguments : List Text) : List FilePath :=
  (arguments.map ModuleId.pathOf).filterMap fun path =>
    if path.isAbsolute then path.parent? else none

/-- The tree in which a command line is run. -/
def readTree (arguments : List Text) : IO FileTree := do
  let here : FilePath := ⟨(← IO.currentDir).toString.toList⟩
  let names := here.segments.filterMap fun segment =>
    match segment with
    | .name text => some text
    | _ => none
  let edits ← (here :: namedDirectories arguments).mapM gatherDirectory
  let configs ← here.ancestors.mapM gatherConfig
  return (configs ++ edits).flatten.foldl FileTree.edit (.empty names)

end ComponentLoader.Program

/-- Runs the command line and answers its exit code. -/
def main (arguments : List String) : IO UInt32 := do
  let texts := arguments.map String.toList
  let files ← ComponentLoader.Program.readTree texts
  let outcome := ComponentLoader.Command.run files texts
  IO.print (String.ofList outcome.transcript.output)
  IO.eprint (String.ofList outcome.transcript.errors)
  return outcome.exit.toUInt32
