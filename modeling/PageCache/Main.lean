import PageCache.CommandLine.Program

/-!
# Command line

The outer layer of the program: it reads the arguments, prints what the run says, and puts the
page file where it belongs.
-/

namespace PageCache.CommandLine

def printLines (out : IO.FS.Stream) (lines : List String) : IO Unit :=
  lines.forM out.putStrLn

def printLogs (logs : List (Level × String)) : IO Unit := do
  let err ← IO.getStderr
  logs.forM fun (level, text) =>
    err.putStrLn ("[" ++ padded 5 level.label ++ " pagepool] " ++
      String.intercalate "\n" (recordLines text))

/-- Empty the file at `path`, or make it, and tell what was found there. -/
def claim (path : String) : IO Target := do
  try
    let _ ← IO.FS.Handle.mk path .write
    return .vacant
  catch e =>
    match e with
    | .noFileOrDirectory .. | .noSuchThing .. => return .nowhere
    | .inappropriateType .. => return .directory
    | .invalidArgument _ 36 _ => return .overlong
    | _ => throw e

def writeImage (path : String) (image : Image) : IO Unit := do
  let h ← IO.FS.Handle.mk path .write
  for k in List.range image.pages do
    h.write (image.block k).bytes

def run (o : Options) : IO UInt32 := do
  let target ← match o.dataFile with
    | some path => claim path
    | none => pure .vacant
  let started ← IO.monoNanosNow
  let seed := ⟨UInt64.ofNat (← IO.rand 0 (UInt32.size - 1))⟩
  let e := execute o target seed
  if let some path := o.dataFile then
    if let some (.file store) := e.medium then
      writeImage path store.image
  let elapsed := elapsedText ((← IO.monoNanosNow) - started)
  printLogs e.logs
  printLines (← IO.getStdout) (e.output (.ofTally elapsed))
  printLines (← IO.getStderr) e.complaints
  return e.ending.exitCode

end PageCache.CommandLine

open PageCache.CommandLine in
def main (arguments : List String) : IO UInt32 := do
  match Options.parse arguments with
  | .ok o => run o
  | .error stop =>
    match stop with
    | .help => printLines (← IO.getStdout) helpLines
    | .version => printLines (← IO.getStdout) versionLines
    | .usage e => printLines (← IO.getStderr) (usageLines e)
    return stop.exitCode
