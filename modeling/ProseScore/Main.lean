import ProseScore.Cli.Basic

/-!
# The program

Reads the files that the arguments name, runs the command on them and writes
what it answers.
-/

namespace ProseScore.Cli

/-- Why a path that is no directory's cannot be read. -/
def faultOf : IO.Error → FileFault
  | .noFileOrDirectory .. => .missing
  | .inappropriateType .. => .notDirectory
  | .invalidArgument .. => .nameTooLong
  | e => .other (toString e)

def readFile (path : Text) : IO (Except FileFault Text) := do
  try
    return textOfBytes (← IO.FS.readBinFile (String.ofList path))
  catch e =>
    let isDirectory ← (System.mkFilePath [String.ofList path]).isDir
    return .error (if isDirectory then .directory else faultOf e)

/-- The names of the files that the arguments ask for. -/
def paths (args : List Text) : List Text :=
  match Options.read args with
  | .error _ => []
  | .ok o => o.config.toList ++ [o.input]

end ProseScore.Cli

open ProseScore ProseScore.Cli in
def main (args : List String) : IO UInt32 := do
  let args := args.map String.toList
  let contents ← (paths args).mapM fun path => return (path, ← readFile path)
  let files : Files := fun path => (contents.lookup path).getD (.error .missing)
  let seed ← IO.rand 0 (Nat.pow 2 64 - 1)
  let answer := run files (.ofNat seed) args
  IO.eprint answer.stderr
  IO.print answer.stdout
  return answer.exit
