import PageCache.Pool.Basic
import PageCache.Workload.Stamp

/-!
# Workers

Workers share a pool and a list of the pages created so far. Each does a number of jobs: it
creates a page and stamps it, or visits a known page to stamp it or to check whose stamp it bears.
What is left to chance, and when a worker gets to take its next step, is said from outside; a
worker takes a job in single steps, one call of a shard or one access to the bytes each, and
anything may happen between two of them. So a new page is sought as the pool seeks it: the cursor
tells in which order the shards are to be tried, and between two tries others have their turn.
-/

namespace PageCache.Workload

/-- What chance decides about a job. -/
structure Dice where
  create : Bool
  pick : Nat
  write : Bool

inductive Job
  | create
  | visit (p : PageId) (access : Access)
deriving DecidableEq

def Job.access : Job → Access
  | create => .write
  | visit _ access => access

/-- Why a worker gives up. -/
inductive Trouble
  | creating (cause : Failure)
  | visiting (cause : Failure)
  | foreignStamp (p : PageId) (stampedFor : Nat)
deriving DecidableEq

/-- What it means to a worker that its job fails of `cause`. -/
def Job.trouble (job : Job) (cause : Failure) : Trouble :=
  match job with
  | create => .creating cause
  | visit _ _ => .visiting cause

/-- How far a worker has come with its job. -/
inductive Phase (l : Layout) (size : Nat)
  | ready
  | asking (job : Job)
  /-- A new page is sought; `shards` are still to be tried. -/
  | seeking (shards : List (Fin l.width))
  /-- The page is pinned; its latch is still to be had. -/
  | latching (job : Job) (h : Handle l size)
  | holding (job : Job) (h : Handle l size)
  /-- The latch is released, the pin is not. -/
  | unpinning (job : Job) (h : Handle l size) (trouble : Option Trouble)
  | telling (job : Job) (h : Handle l size)
  | stopped (trouble : Trouble)
deriving DecidableEq

structure Worker (l : Layout) (size : Nat) where
  /-- Jobs still to be finished. -/
  left : Nat
  phase : Phase l size
deriving DecidableEq

structure Tally where
  created : Nat
  visited : Nat
  poolFull : Nat
deriving DecidableEq

def Tally.total (t : Tally) : Nat :=
  t.created + t.visited + t.poolFull

structure State (l : Layout) (size : Nat) (δ : Type) where
  system : System l size δ
  /-- The pages created so far, in the order in which their creators said so. -/
  known : Array PageId
  tally : Tally
  workers : Array (Worker l size)

namespace Worker

variable {l : Layout} {size : Nat}

def finished (w : Worker l size) : Bool :=
  match w.phase with
  | .ready => w.left = 0
  | .stopped _ => true
  | _ => false

def trouble? (w : Worker l size) : Option Trouble :=
  match w.phase with
  | .stopped trouble => some trouble
  | _ => none

/-- Whether the worker has the latch of the frame of `h`, and keeps out those who want `access`:
readers share a latch, a writer shares with nobody. -/
def keepsOut (w : Worker l size) (h : Handle l size) (access : Access) : Bool :=
  match w.phase with
  | .holding job mine =>
    mine.shard = h.shard && mine.frame = h.frame && (access = .write || job.access = .write)
  | _ => false

/-- On to the next job. -/
def next (w : Worker l size) : Worker l size :=
  ⟨w.left - 1, .ready⟩

end Worker

namespace State

variable {l : Layout} {size : Nat} {δ : Type}

def start (system : System l size δ) (workers jobs : Nat) : State l size δ where
  system := system
  known := #[]
  tally := ⟨0, 0, 0⟩
  workers := .replicate workers ⟨jobs, .ready⟩

def finished (w : State l size δ) : Bool :=
  w.workers.all Worker.finished

/-- The job chance gives a worker: the first page has to be created before one can be visited. -/
def deal (w : State l size δ) (dice : Dice) : Job :=
  if h : 0 < w.known.size then
    if dice.create then .create
    else
      let p := getElem w.known (dice.pick % w.known.size) (Nat.mod_lt _ h)
      .visit p (if dice.write then .write else .read)
  else .create

def setPhase (w : State l size δ) (i : Nat) (worker : Worker l size) (phase : Phase l size) :
    State l size δ :=
  { w with workers := w.workers.setIfInBounds i { worker with phase } }

/-- Worker `i` is done with its job. -/
def finish (w : State l size δ) (i : Nat) (worker : Worker l size) : State l size δ :=
  { w with workers := w.workers.setIfInBounds i worker.next }

/-- Worker `i` goes on with the answer to its job. That the pool is full is counted, and no
trouble. -/
def proceed (w : State l size δ) (i : Nat) (worker : Worker l size) (job : Job) :
    Except Failure (Handle l size) → State l size δ
  | .ok h => w.setPhase i worker (.latching job h)
  | .error (.storage .poolFull) =>
    { w with tally := { w.tally with poolFull := w.tally.poolFull + 1 } }.finish i worker
  | .error e => w.setPhase i worker (.stopped (job.trouble e))

/-- Move the cursor on, and set out from where it stood. -/
def draw (w : State l size δ) (i : Nat) (worker : Worker l size) : State l size δ :=
  let pool := w.system.pool
  { w with system := { w.system with pool := { pool with cursor := l.next pool.cursor } } }.setPhase
    i worker (.seeking (l.tour pool.cursor))

variable [PageStore δ]

/-- Try the next shard for a new page. A shard that is full is passed over. -/
def seek (w : State l size δ) (i : Nat) (worker : Worker l size) :
    List (Fin l.width) → State l size δ
  | [] => w.proceed i worker .create (.error (.storage .poolFull))
  | shard :: rest =>
    let o := w.system.newPageIn shard
    let w := { w with system := o.state }
    match o.result with
    | .error (.storage .poolFull) => w.setPhase i worker (.seeking rest)
    | result => w.proceed i worker .create result

/-- Ask the pool for the page of a job. -/
def ask (w : State l size δ) (i : Nat) (worker : Worker l size) (job : Job) : State l size δ :=
  match job with
  | .create => w.draw i worker
  | .visit p _ =>
    let o := w.system.fetch p
    { w with system := o.state }.proceed i worker job o.result

/-- What a job does to the bytes of its page once it has the latch, and the trouble it finds. -/
def work (w : State l size δ) (i : Nat) (worker : Worker l size) (job : Job) (h : Handle l size) :
    State l size δ :=
  match job.access with
  | .write =>
    { w with system := w.system.modifyBytes h (Page.stamp h.page) }.setPhase i worker
      (.unpinning job h none)
  | .read =>
    let stampedFor := (w.system.bytes h).stampedFor
    w.setPhase i worker
      (.unpinning job h
        (if stampedFor = h.page.val then none else some (.foreignStamp h.page stampedFor)))

def unpin (w : State l size δ) (i : Nat) (worker : Worker l size) (job : Job) (h : Handle l size)
    (trouble : Option Trouble) : State l size δ :=
  let o := w.system.unpin h.page (job.access = .write)
  { w with system := o.state }.setPhase i worker
    (match trouble with
    | some trouble => .stopped trouble
    | none => .telling job h)

/-- Count a finished job, and let the others know of a new page. -/
def tell (w : State l size δ) (i : Nat) (worker : Worker l size) (job : Job) (h : Handle l size) :
    State l size δ :=
  match job with
  | .create =>
    { w with
      known := w.known.push h.page
      tally := { w.tally with created := w.tally.created + 1 } }.finish i worker
  | .visit _ _ =>
    { w with tally := { w.tally with visited := w.tally.visited + 1 } }.finish i worker

/-- One step of worker `i`. A worker that cannot have its latch yet stays where it is. -/
def step (w : State l size δ) (i : Nat) (dice : Dice) : State l size δ :=
  match w.workers[i]? with
  | none => w
  | some worker =>
    match worker.phase with
    | .ready => if worker.left = 0 then w else w.setPhase i worker (.asking (w.deal dice))
    | .asking job => w.ask i worker job
    | .seeking shards => w.seek i worker shards
    | .latching job h =>
      if w.workers.any (·.keepsOut h job.access) then w else w.setPhase i worker (.holding job h)
    | .holding job h => w.work i worker job h
    | .unpinning job h trouble => w.unpin i worker job h trouble
    | .telling job h => w.tell i worker job h
    | .stopped _ => w

/-- A run under a schedule: who takes a step, and how chance falls out. -/
def run (w : State l size δ) (schedule : List (Nat × Dice)) : State l size δ :=
  schedule.foldl (fun w turn => w.step turn.1 turn.2) w

end State

end PageCache.Workload
