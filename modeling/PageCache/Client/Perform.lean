import PageCache.Client.Basic

/-!
# Performing operations

`perform` gives each operation its meaning, and `take` finds what a step is addressed to first.
-/

namespace PageCache.Client

variable {l : Layout} {size : Nat}

/-! ## Questions -/

def facts (c : Client l size) (scope : Scope l) : List ShardFacts :=
  scope.shards.map fun i => ⟨size, (l.stripe i).index, (l.stripe i).count, c.durable⟩

def pinStates (c : Client l size) (scope : Scope l) (p : PageId) :
    List (Option Nat × Option Bool) :=
  scope.shards.map fun i =>
    let sh := c.system.pool.shard i
    (sh.pinCount? p, sh.dirty? p)

/-! ## Operations -/

def perform (c : Client l size) (scope : Scope l) : Op → Outcome (Client l size) Reply
  | .disk op =>
    ((c.system.disk.perform op).map .disk).inside fun disk =>
      { c with system := { c.system with disk } }
  | .newPage name =>
    (c.newHandle scope).andThen fun h c =>
      .ok (.placed h.page h.frame) { c with handles := c.handles.insert name h }
  | .fetch p name =>
    (c.fetchHandle scope p).andThen fun h c =>
      .ok (.placed h.page h.frame) { c with handles := c.handles.insert name h }
  | .unpin p dirty => (c.unpin scope p dirty).map .truth
  | .delete p => (c.delete scope p).map .truth
  | .flush p => (c.flush scope p).map .truth
  | .flushAll visit => (c.flushAll scope visit).map fun _ => .done
  | .readHandle name =>
    match c.handles[name]? with
    | none => .ok (.noSuchSlot name) c
    | some h => .ok (.bytes (c.system.bytes h)) c
  | .writeHandle name edits =>
    match c.handles[name]? with
    | none => .ok (.noSuchSlot name) c
    | some h => .ok .nothing (c.editFrame h edits)
  | .tellHandle name =>
    match c.handles[name]? with
    | none => .ok (.noSuchSlot name) c
    | some h => .ok (.handle h.page h.frame) c
  | .newGuard name =>
    (c.newHandle scope).andThen fun h c =>
      (c.hold name ⟨h, .write, false⟩).map fun _ => .newGuard h.page h.page
  | .fetchGuard access p name =>
    (c.fetchHandle scope p).andThen fun h c =>
      (c.hold name ⟨h, access, false⟩).map fun _ => .guarding h.page
  | .readGuard name =>
    match c.guards[name]? with
    | none => .ok (.noSuchSlot name) c
    | some g => .ok (.bytes (c.system.bytes g.handle)) c
  | .writeGuard name edits =>
    match c.guards[name]? with
    | none => .ok (.noSuchSlot name) c
    | some g =>
      match g.access with
      | .read => .ok (.readOnly name) c
      | .write =>
        let c := c.editFrame g.handle edits
        .ok .nothing { c with guards := c.guards.insert name { g with modified := true } }
  | .dropGuard name => c.dropGuard name
  | .capacity => .ok (.number (scope.shards.length * size)) c
  | .shardCount =>
    .ok (match scope, l.deals with
      | .whole, true => .number l.width
      | _, _ => .nothing) c
  | .shardFacts => .ok (.shards (c.facts scope)) c
  | .pins p => .ok (.pins (c.pinStates scope p)) c

/-- Take a step. A shard that does not exist answers nothing. -/
def take (c : Client l size) (step : Step) : Outcome (Client l size) Reply :=
  match l.scope? step.shard with
  | none => .ok .nothing c
  | some scope => c.perform scope step.op

/-- Take steps in turn, whatever comes of each. -/
def takeAll : List Step → Client l size →
    List (Except Failure Reply) × Client l size × List Event
  | [], c => ([], c, [])
  | step :: rest, c =>
    let o := c.take step
    let (results, c, events) := takeAll rest o.state
    (o.result :: results, c, o.events ++ events)

end PageCache.Client
