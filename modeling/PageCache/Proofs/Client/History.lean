import Mathlib.Logic.Function.Basic
import PageCache.Client.Perform
import PageCache.Pool.Build

/-!
# Histories of a client

A history is what a client did to a pool and what it was told, step by step. `Client.History` lists
the histories that start in one state, each step being one that is `allowed` where it is taken; what
is always allowed and what is kept by allowed steps holds at the end of every history
(`Client.History.keeps`).

A `Ledger` is what somebody knows who only follows the answers: which pages were created, what was
written to them since, which were deleted, and which guards are held. It has never heard of frames,
of a disk, or of shards.

The conditions under which steps are allowed have their names here: `Client.FetchesCreated`,
`Client.GuardBased`, `Client.NoTakeover`.
-/

namespace PageCache

/-- A step that was taken, and what the answer was. -/
structure Entry where
  step : Step
  answer : Except Failure Reply

/-! ## What the answers tell -/

structure Ledger where
  created : List PageId
  deleted : List PageId
  /-- What a page has to show. -/
  bytes : PageId → Page
  /-- The page a name holds a guard of. -/
  held : String → Option (PageId × Access)

namespace Ledger

def empty : Ledger :=
  ⟨[], [], fun _ => .zero, fun _ => none⟩

/-- A new page, all zeros. -/
def create (L : Ledger) (p : PageId) : Ledger :=
  { L with created := p :: L.created, bytes := Function.update L.bytes p .zero }

def hold (L : Ledger) (name : String) (p : PageId) (access : Access) : Ledger :=
  { L with held := Function.update L.held name (some (p, access)) }

def drop (L : Ledger) (name : String) : Ledger :=
  { L with held := Function.update L.held name none }

def delete (L : Ledger) (p : PageId) : Ledger :=
  { L with deleted := p :: L.deleted }

/-- The page that `name` holds a guard of is written to. -/
def write (L : Ledger) (name : String) (edits : List Edit) : Ledger :=
  match L.held name with
  | some (p, _) => { L with bytes := Function.update L.bytes p (.edit edits (L.bytes p)) }
  | none => L

/-- What one answer adds. Whatever is not listed adds nothing: a page changes by being created and
by being written to. -/
def record (L : Ledger) (entry : Entry) : Ledger :=
  match entry.step.op, entry.answer with
  | .newPage _, .ok (.placed p _) => L.create p
  | .newGuard name, .ok (.newGuard p _) => (L.create p).hold name p .write
  | .fetchGuard access p name, .ok (.guarding _) => L.hold name p access
  | .writeGuard name edits, .ok .nothing => L.write name edits
  | .dropGuard name, .ok .nothing => L.drop name
  | .delete p, .ok (.truth true) => L.delete p
  | _, _ => L

/-- The page an answer tells was created. -/
def created? (entry : Entry) : Option PageId :=
  match entry.step.op, entry.answer with
  | .newPage _, .ok (.placed p _) | .newGuard _, .ok (.newGuard p _) => some p
  | _, _ => none

theorem created?_nothing (step : Step) : created? ⟨step, .ok .nothing⟩ = none := by
  obtain ⟨shard, op⟩ := step
  cases op <;> rfl

theorem created_write (L : Ledger) (name : String) (edits : List Edit) :
    (L.write name edits).created = L.created := by
  rw [write]
  split <;> rfl

theorem created_record (L : Ledger) (entry : Entry) :
    (L.record entry).created = (created? entry).toList ++ L.created := by
  obtain ⟨⟨shard, op⟩, answer⟩ := entry
  rcases answer with e | reply
  · cases op <;> rfl
  · -- an operation with an answer that is not its own tells nothing
    cases op with
    | newPage | newGuard | fetchGuard | dropGuard => cases reply <;> rfl
    | writeGuard name edits =>
      cases reply with
      | nothing => exact L.created_write name edits
      | _ => rfl
    | delete p =>
      cases reply with
      | truth b => cases b <;> rfl
      | _ => rfl
    | _ => rfl

/-- What the answers of `log`, earliest first, tell. -/
def ofLog (log : List Entry) : Ledger :=
  log.foldl record empty

@[simp]
theorem ofLog_concat (log : List Entry) (entry : Entry) :
    ofLog (log ++ [entry]) = (ofLog log).record entry := by
  rw [ofLog, List.foldl_append]
  rfl

end Ledger

/-! ## Histories -/

/-- The client of a pool that was just built. -/
def AnyPool.start (built : AnyPool) (disk : Disk) (durable : Option Lsn) :
    Client built.layout built.size :=
  .fresh ⟨built.pool, disk⟩ durable

namespace Client

variable {l : Layout} {size : Nat}

/-- `History allowed c₀ log c`: the steps of `log`, taken from `c₀` on and answered as it says, lead
to `c`, and each was allowed where it was taken. -/
inductive History (allowed : List Entry → Client l size → Step → Prop) (c₀ : Client l size) :
    List Entry → Client l size → Prop
  | start : History allowed c₀ [] c₀
  | step {log : List Entry} {c : Client l size} (h : History allowed c₀ log c) (step : Step)
      (hallowed : allowed log c step) :
      History allowed c₀ (log ++ [⟨step, (c.take step).result⟩]) (c.take step).state

namespace History

variable {allowed : List Entry → Client l size → Step → Prop} {c₀ c : Client l size}
variable {log : List Entry}

/-- What holds at the start and is kept by every allowed step holds at the end. -/
theorem keeps {P : List Entry → Client l size → Prop} (h : History allowed c₀ log c)
    (hstart : P [] c₀)
    (hstep : ∀ {log c} (step : Step), P log c → allowed log c step →
      P (log ++ [⟨step, (c.take step).result⟩]) (c.take step).state) : P log c := by
  induction h with
  | start => exact hstart
  | step _ step hallowed ih => exact hstep step ih hallowed

/-- Where one history ends another one starts. -/
theorem rest (_ : History allowed c₀ log c)
    (allowed' : List Entry → Client l size → Step → Prop) : History allowed' c [] c :=
  .start

/-- A history that is over before it started. -/
theorem eq_of_nil (h : History allowed c₀ [] c) : c = c₀ := by
  generalize hlog : ([] : List Entry) = log at h
  cases h with
  | start => rfl
  | step => exact absurd hlog.symm (by simp)

/-- The last step of a history, and what was before. -/
theorem of_concat {entry : Entry} (h : History allowed c₀ (log ++ [entry]) c) :
    ∃ c', History allowed c₀ log c' ∧ allowed log c' entry.step ∧
      (c'.take entry.step).result = entry.answer ∧ (c'.take entry.step).state = c := by
  -- the list has to be a variable for the cases
  generalize hlog : log ++ [entry] = log' at h
  cases h with
  | start => exact absurd hlog (by simp)
  | @step log' c' h step hallowed =>
    obtain ⟨rfl, hentry⟩ := List.append_inj' hlog rfl
    obtain rfl := List.singleton_inj.mp hentry
    exact ⟨c', h, hallowed, rfl, rfl⟩

/-- A log leads to one state. -/
theorem unique {allowed' : List Entry → Client l size → Step → Prop} {c' : Client l size}
    (h : History allowed c₀ log c) (h' : History allowed' c₀ log c') : c' = c := by
  induction h generalizing c' with
  | start => exact h'.eq_of_nil
  | step _ step _ ih =>
    obtain ⟨c₁, h₁, -, -, rfl⟩ := h'.of_concat
    rw [ih h₁]

/-- A history of two kinds is one whose steps are of both. -/
theorem both {allowed' : List Entry → Client l size → Step → Prop} (h : History allowed c₀ log c)
    (h' : History allowed' c₀ log c) :
    History (fun log c step => allowed log c step ∧ allowed' log c step) c₀ log c := by
  induction h with
  | start => exact .start
  | @step log c h step hallowed ih =>
    obtain ⟨c', hbefore, hallowed', -, -⟩ := h'.of_concat
    obtain rfl := h.unique hbefore
    exact (ih hbefore).step step ⟨hallowed, hallowed'⟩

/-- If every allowed step of a history is one of another kind, the history is of that kind. -/
theorem allowing {allowed' : List Entry → Client l size → Step → Prop}
    {P : List Entry → Client l size → Prop} (h : History allowed c₀ log c) (hstart : P [] c₀)
    (hstep : ∀ {log c} (step : Step), P log c → allowed log c step →
      allowed' log c step ∧ P (log ++ [⟨step, (c.take step).result⟩]) (c.take step).state) :
    History allowed' c₀ log c ∧ P log c := by
  induction h with
  | start => exact ⟨.start, hstart⟩
  | step _ step hallowed ih =>
    obtain ⟨hallowed', hkept⟩ := hstep step ih.2 hallowed
    exact ⟨.step ih.1 step hallowed', hkept⟩

end History

end Client

/-! ## Conditions on steps -/

/-- A page is fetched only if the answers have told that it was created. -/
def Op.FetchesCreated (L : Ledger) : Op → Prop
  | .fetch p _ | .fetchGuard _ p _ => p ∈ L.created
  | _ => True

/-- Pages are reached through guards, and the disk past the pool only to change its faults. -/
def Op.ThroughGuards : Op → Prop
  | .newGuard _ | .fetchGuard .. | .readGuard _ | .writeGuard .. | .dropGuard _ => True
  | .delete _ | .flush _ | .flushAll _ => True
  | .disk (.setFaults _) => True
  | .capacity | .shardCount | .shardFacts | .pins _ => True
  | _ => False

namespace Client

variable {l : Layout} {size : Nat}

def FetchesCreated (log : List Entry) (_ : Client l size) (step : Step) : Prop :=
  step.op.FetchesCreated (.ofLog log)

/-- The step goes to a shard that exists, works through guards, and fetches created pages only. -/
def GuardBased (log : List Entry) (_ : Client l size) (step : Step) : Prop :=
  (l.scope? step.shard).isSome ∧ step.op.ThroughGuards ∧ step.op.FetchesCreated (.ofLog log)

def Resident (c : Client l size) (p : PageId) : Prop :=
  ∃ (i : Fin l.width) (f : Fin size), (c.system.pool.shard i).table[p]? = some f

/-- How a step gets a new page, if it is one to ask for a new page. -/
def creation? (c : Client l size) (step : Step) :
    Option (Outcome (Client l size) (Handle l size)) :=
  match step.op, l.scope? step.shard with
  | .newPage _, some scope | .newGuard _, some scope => some (c.newHandle scope)
  | _, _ => none

/-- No page that is resident is created. -/
def NoTakeover (_ : List Entry) (c : Client l size) (step : Step) : Prop :=
  ∀ (o : Outcome (Client l size) (Handle l size)) (h : Handle l size),
    c.creation? step = some o → o.result = .ok h → ¬ c.Resident h.page

end Client

end PageCache
