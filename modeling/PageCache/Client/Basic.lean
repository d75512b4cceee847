import PageCache.Client.Op

/-!
# Clients

The state of a client is the pool it works on, with the disk, and what its names stand for. A guard
is dropped by letting go of the frame first and taking the pin off afterwards. A name that is taken
again lets its old guard drop only after the new one has been had.
-/

namespace PageCache

structure Guard (l : Layout) (size : Nat) where
  handle : Handle l size
  access : Access
  /-- The bytes were reached for writing. -/
  modified : Bool

structure Client (l : Layout) (size : Nat) where
  system : System l size Disk
  handles : Std.ExtTreeMap String (Handle l size)
  guards : Std.ExtTreeMap String (Guard l size)
  /-- How far the log beside the pool is durable, if there is one. -/
  durable : Option Lsn

/-- What an operation is addressed to. -/
inductive Scope (l : Layout)
  | whole
  | only (i : Fin l.width)

/-- The shards an operation is addressed to. -/
def Scope.shards {l : Layout} : Scope l → List (Fin l.width)
  | whole => List.finRange l.width
  | only i => [i]

/-- The shard of that number. A shard that stands alone answers to every number. -/
def Layout.scope? (l : Layout) : Option Nat → Option (Scope l)
  | none => some .whole
  | some i =>
    if l.deals then if h : i < l.width then some (.only ⟨i, h⟩) else none
    else some .whole

namespace Client

variable {l : Layout} {size : Nat}

def fresh (system : System l size Disk) (durable : Option Lsn) : Client l size :=
  ⟨system, ∅, ∅, durable⟩

/-! ## The pool, addressed -/

/-- Lift an outcome on the pool to the client. -/
def lift {α : Type} (c : Client l size) (o : Outcome (System l size Disk) α) :
    Outcome (Client l size) α :=
  o.inside fun system => { c with system }

def fetchHandle (c : Client l size) (scope : Scope l) (p : PageId) :
    Outcome (Client l size) (Handle l size) :=
  match scope with
  | .whole => c.lift (c.system.fetch p)
  | .only i => c.lift (c.system.fetchIn i p)

def newHandle (c : Client l size) (scope : Scope l) : Outcome (Client l size) (Handle l size) :=
  match scope with
  | .whole => c.lift c.system.newPage
  | .only i => c.lift (c.system.newPageIn i)

def unpin (c : Client l size) (scope : Scope l) (p : PageId) (dirty : Bool) :
    Outcome (Client l size) Bool :=
  match scope with
  | .whole => c.lift (c.system.unpin p dirty)
  | .only i => c.lift (c.system.onShard i fun s b => b.unpin s p dirty)

def delete (c : Client l size) (scope : Scope l) (p : PageId) : Outcome (Client l size) Bool :=
  match scope with
  | .whole => c.lift (c.system.delete p)
  | .only i => c.lift (c.system.onShard i fun s b => b.delete s p)

def flush (c : Client l size) (scope : Scope l) (p : PageId) : Outcome (Client l size) Bool :=
  match scope with
  | .whole => c.lift (c.system.flush p)
  | .only i => c.lift (c.system.onShard i fun s b => b.flush s p)

def flushAll (c : Client l size) (scope : Scope l) (visit : Visit) : Outcome (Client l size) Unit :=
  match scope with
  | .whole => c.lift (c.system.flushAll visit)
  | .only i => c.lift (c.system.onShard i fun _ b => b.flushAll visit)

/-! ## Guards -/

/-- Let go of a guard that no name stands for any more. -/
def release (c : Client l size) (g : Guard l size) : Outcome (Client l size) Unit :=
  (c.unpin .whole g.handle.page g.modified).andThen fun found c =>
    if found then .ok () c
    else .after [.guardUnpinned g.access g.handle.page] (.ok () c)

/-- Let `name` stand for guard `g`. -/
def hold (c : Client l size) (name : String) (g : Guard l size) : Outcome (Client l size) Unit :=
  let held := { c with guards := c.guards.insert name g }
  match c.guards[name]? with
  | none => .ok () held
  | some old => held.release old

def dropGuard (c : Client l size) (name : String) : Outcome (Client l size) Reply :=
  match c.guards[name]? with
  | none => .ok (.noSuchSlot name) c
  | some g => ({ c with guards := c.guards.erase name }.release g).map fun _ => .nothing

/-- Drop the guards of `names` in turn. -/
def dropGuards : List String → Client l size → Client l size × List Event
  | [], c => (c, [])
  | name :: rest, c =>
    let o := c.dropGuard name
    let (c, events) := dropGuards rest o.state
    (c, o.events ++ events)

/-- Drop every guard, in the order of the names. -/
def close (c : Client l size) : Client l size × List Event :=
  dropGuards c.guards.keys c

/-! ## Bytes -/

def editFrame (c : Client l size) (h : Handle l size) (edits : List Edit) : Client l size :=
  { c with system := c.system.modifyBytes h (Page.edit edits) }

end Client

end PageCache
