import PageCache.CommandLine.Report
import PageCache.Pool.Build
import PageCache.Store.Disk
import PageCache.Workload.Rounds

/-!
# The program

From the options and what lies at the path of the page file to everything a run does: what it
logs, what it prints, how it ends, and the disk it leaves. Which words chance brings is said by
the seed.
-/

namespace PageCache.CommandLine

inductive Ending
  /-- An error, and what caused it, outermost first. -/
  | failed (chain : List String)
  | finished (tally : Workload.Tally)
deriving DecidableEq

structure Execution where
  logs : List (Level × String)
  /-- What was printed before the workers started, if they did. -/
  announced : List String
  ending : Ending
  /-- The disk at the end, if one could be had. -/
  medium : Option Medium

/-- A failure and its causes, outermost first. -/
def failureChain : Failure → List String
  | .storage (.io cause) => [(StorageError.io cause).message, cause.message]
  | e => [e.message]

/-- The disk a run is on, and what is logged about it. -/
def openMedium (o : Options) (target : Target) : Except IoError Medium :=
  match o.dataFile with
  | none => .ok (.memory .empty)
  | some _ => (FileStore.create target).map .file

def mediumLog (o : Options) : Level × String :=
  match o.dataFile with
  | none => (.info, "using in-memory disk")
  | some path => (.info, "using page file " ++ path)

def troubleChain (worker : Nat) : Workload.Trouble → List String
  | .creating (.violation _) | .visiting (.violation _) => ["worker thread panicked"]
  | .creating cause => "new page failed" :: failureChain cause
  | .visiting cause => ("worker " ++ toString worker ++ " failed") :: failureChain cause
  | .foreignStamp p stampedFor =>
    ["page " ++ toString p ++ " holds bytes stamped for page " ++ toString stampedFor]

/-- The workers that came to the end of their jobs, by number. -/
def finishedLogs {l : Layout} {size : Nat} (workers : List (Workload.Worker l size)) :
    List (Level × String) :=
  (workers.zipIdx.filter fun (w, _) => w.trouble?.isNone).map fun (_, i) =>
    (.debug, "worker " ++ toString i ++ " finished")

/-- The trouble of the first worker that is in any. -/
def firstTrouble? {l : Layout} {size : Nat} (workers : List (Workload.Worker l size)) :
    Option (List String) :=
  workers.zipIdx.findSome? fun (w, i) => w.trouble?.map (troubleChain i)

/-- Run the workers on a pool, then write everything back. -/
def runWorkers (o : Options) (built : AnyPool) (medium : Medium) (seed : Workload.Seed) :
    List (Level × String) × Ending × Medium :=
  let start := Workload.State.start ⟨built.pool, Disk.onMedium medium⟩ o.threads o.ops
  let w := start.runJobs o.ops seed
  let logs := if o.debug then finishedLogs w.workers.toList else []
  match firstTrouble? w.workers.toList with
  | some chain => (logs, .failed chain, w.system.disk.medium)
  | none =>
    let flushed := w.system.flushAll .ascending
    match flushed.result with
    | .ok () => (logs, .finished w.tally, flushed.state.disk.medium)
    | .error e =>
      (logs, .failed ("Failed to flush buffer pool" :: failureChain e), flushed.state.disk.medium)

def execute (o : Options) (target : Target) (seed : Workload.Seed) : Execution :=
  match openMedium o target with
  | .error e =>
    ⟨[mediumLog o], [],
      .failed ("Failed to create page file" :: failureChain (.storage (.io e))), none⟩
  | .ok medium =>
    match AnyPool.ofConfig ⟨UInt64.ofNat o.poolSize, UInt32.ofNat o.instances⟩ with
    | .error e =>
      ⟨[mediumLog o], [],
        .failed ("Invalid buffer pool configuration" :: failureChain (.storage e)), some medium⟩
    | .ok built =>
      let (logs, ending, medium) := runWorkers o built medium seed
      ⟨mediumLog o :: logs, settingLines o built.pool.capacity, ending, some medium⟩

/-- What a run prints, if it ends in `ending` and finished runs are summed up by `summary`. -/
def Execution.output (e : Execution) (summary : Workload.Tally → Summary) : List String :=
  e.announced ++
    match e.ending with
    | .failed _ => []
    | .finished tally => (summary tally).lines

def Execution.complaints (e : Execution) : List String :=
  match e.ending with
  | .failed chain => errorLines chain
  | .finished _ => []

def Ending.exitCode : Ending → UInt32
  | failed _ => 1
  | finished _ => 0

def Stop.exitCode : Stop → UInt32
  | help | version => 0
  | usage _ => 2

end PageCache.CommandLine
