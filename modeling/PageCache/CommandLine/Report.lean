import PageCache.CommandLine.Options
import PageCache.CommandLine.Plain
import PageCache.Workload.Worker

/-!
# What the program prints

The texts of a run, line by line. Times and counts are handed in as text, so that whoever prints a
report decides how they are shown.
-/

namespace PageCache.CommandLine

def versionLines : List String :=
  ["pagepool 0.1.0"]

/-- Pad with blanks to `width` characters. -/
def padded (width : Nat) (text : String) : String :=
  text ++ String.ofList (List.replicate (width - text.length) ' ')

def helpLines : List String :=
  ["pagepool - drive a sharded buffer pool with a random page workload", "",
    "Usage: pagepool [OPTIONS]", "", "Options:"]
    ++ Setting.all.map fun s =>
      padded 31 ("  -" ++ String.ofList [s.short] ++ ", " ++ s.display) ++ s.purpose

/-- What the line said is quoted as plain text. -/
def usageLines (e : UsageError) : List String :=
  ["error: " ++ (e.onText plain).message, "", "For more information, try '--help'."]

/-- The text of a log record, line by line; the lines after the first are set in. -/
def recordLines (text : String) : List String :=
  match text.splitOn "\n" with
  | [] => []
  | first :: rest => first :: rest.map ("    " ++ ·)

/-- An error with what caused it, outermost first. Several causes are numbered. -/
def errorLines : List String → List String
  | [] => []
  | [error] => ["Error: " ++ error]
  | [error, cause] => ["Error: " ++ error, "", "Caused by:", "    " ++ cause]
  | error :: causes =>
    ["Error: " ++ error, "", "Caused by:"]
      ++ causes.mapIdx fun i cause => "    " ++ toString i ++ ": " ++ cause

/-- What is announced before the workers start. -/
def settingLines (o : Options) (totalFrames : Nat) : List String :=
  ["Buffer pool configuration:",
    "   - Instances: " ++ toString o.instances,
    "   - Frames per instance: " ++ toString o.poolSize,
    "   - Total frames: " ++ toString totalFrames,
    "   - Threads: " ++ toString o.threads,
    "   - Operations per thread: " ++ toString o.ops]

/-- The numbers of a finished run, as text. -/
structure Summary where
  elapsed : String
  created : String
  visited : String
  poolFull : String
deriving DecidableEq

def Summary.lines (s : Summary) : List String :=
  ["",
    "Workload finished in " ++ s.elapsed,
    "   - Pages created: " ++ s.created,
    "   - Pages fetched: " ++ s.visited,
    "   - Pool full: " ++ s.poolFull]

def Summary.ofTally (elapsed : String) (t : Workload.Tally) : Summary :=
  ⟨elapsed, toString t.created, toString t.visited, toString t.poolFull⟩

/-! ## Times -/

/-- `n / unit` with two decimal places, a half rounded up. -/
def twoPlaces (n unit : Nat) : String :=
  let hundredths := (100 * n + unit / 2) / unit
  let places := toString (hundredths % 100)
  toString (hundredths / 100) ++ "." ++ (if places.length < 2 then "0" ++ places else places)

/-- A time in the largest unit that leaves something before the point. -/
def elapsedText (nanoseconds : Nat) : String :=
  if 1000000000 ≤ nanoseconds then twoPlaces nanoseconds 1000000000 ++ "s"
  else if 1000000 ≤ nanoseconds then twoPlaces nanoseconds 1000000 ++ "ms"
  else if 1000 ≤ nanoseconds then twoPlaces nanoseconds 1000 ++ "µs"
  else twoPlaces nanoseconds 1 ++ "ns"

end PageCache.CommandLine
