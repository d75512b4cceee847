import PageCache.Proofs.Client.Moves
import PageCache.Proofs.Shard.Alike

/-!
# Clients that flush, and clients that do not

Two clients are alike if their pools are but for what a flush changes, and their names stand for the
same (`Client.Alike`). They stay alike when both take the same step, and are told the same but for
bytes and dirty flags (`Client.take_alike`); and they stay so when one of them flushes
(`Client.take_idle`).
-/

namespace PageCache

open Outcome (Mirrors)

variable {l : Layout} {size : Nat} {α : Type}

/-! ## What is asked, and what is told -/

/-- The pool is asked, not the disk past it. -/
def Op.OnPool : Op → Prop
  | .disk _ => False
  | _ => True

def Op.Flushes : Op → Prop
  | .flush _ | .flushAll _ => True
  | _ => False

/-- What a reply tells, but for bytes and dirty flags. -/
def Reply.outline : Reply → Reply
  | bytes _ => bytes .zero
  | pins states => pins (states.map fun (count, _) => (count, none))
  | reply => reply

/-! ## Pools -/

namespace System

variable {w w' : System l size Disk}

structure Alike (w w' : System l size Disk) : Prop where
  shard : ∀ i, (w.pool.shard i).Alike (w'.pool.shard i)
  cursor : w.pool.cursor = w'.pool.cursor
  disk : w.disk.Alike w'.disk

/-- Alikeness of pools does not say which of the two flushed. -/
theorem Alike.symm (h : w.Alike w') : w'.Alike w :=
  ⟨fun i => (h.shard i).symm, h.cursor.symm, h.disk.symm⟩

/-- Shards of alike pools are alike, each over its own disk. -/
theorem Alike.backed (h : w.Alike w') (i : Fin l.width) : (w.backed i).Alike (w'.backed i) :=
  ⟨h.shard i, h.disk⟩

variable {op op' : Stripe → Backed size Disk → Outcome (Backed size Disk) α}

/-- If the two calls keep a shard alike, the pools they were made on stay alike. -/
theorem onShard_alike (h : w.Alike w') (i : Fin l.width)
    (hop : Mirrors Backed.Alike (op (l.stripe i) (w.backed i)) (op' (l.stripe i) (w'.backed i))) :
    Mirrors Alike (w.onShard i op) (w'.onShard i op') := by
  refine ⟨hop.result, fun j => ?_, h.cursor, hop.state.disk⟩
  rw [shard_onShard, shard_onShard]
  -- only the shard that was asked has changed
  split
  · exact hop.state.shard
  · exact h.shard j

/-- What one shard might as well not have done, the pool might as well not have done. -/
theorem onShard_idle (h : w.Alike w') (i : Fin l.width)
    (hop : (op (l.stripe i) (w.backed i)).state.Alike (w'.backed i)) :
    (w.onShard i op).state.Alike w' := by
  refine ⟨fun j => ?_, h.cursor, hop.disk⟩
  rw [shard_onShard]
  split
  · next hij => exact hij ▸ hop.shard
  · exact h.shard j

/-- A page fetched from the same shard of both is put in the same frame of both. -/
theorem fetchIn_alike (h : w.Alike w') (i : Fin l.width) (p : PageId) :
    Mirrors Alike (w.fetchIn i p) (w'.fetchIn i p) :=
  (onShard_alike h i (Backed.fetch_alike (h.backed i) _ p)).map _

/-- The same shard of both creates the same page, or fails the same way. -/
theorem newPageIn_alike (h : w.Alike w') (i : Fin l.width) :
    Mirrors Alike (w.newPageIn i) (w'.newPageIn i) :=
  (onShard_alike h i (Backed.newPage_alike (h.backed i) _)).map _

/-- Both find the same shard to create the page, among those that are left to ask. -/
theorem newPageAmong_alike (shards : List (Fin l.width)) (h : w.Alike w') :
    Mirrors Alike (newPageAmong shards w) (newPageAmong shards w') := by
  -- one shard after another; a full one hands on to the rest, anything else ends it on both sides
  induction shards generalizing w w' with
  | nil => exact ⟨rfl, h⟩
  | cons i rest ih =>
    have hin := newPageIn_alike h i
    cases hresult : (w.newPageIn i).result with
    | ok k =>
      have hresult' := hin.result.symm.trans hresult
      rw [newPageAmong_of_ok hresult, newPageAmong_of_ok hresult']
      exact ⟨rfl, hin.state⟩
    | error e =>
      have hresult' := hin.result.symm.trans hresult
      by_cases he : e = .storage .poolFull
      · -- both go on to the next shard
        subst he
        have hrest := ih hin.state
        rw [newPageAmong_of_full hresult, newPageAmong_of_full hresult']
        exact ⟨hrest.result, hrest.state⟩
      · -- both stop here, with the same error
        rw [newPageAmong_of_error hresult he, newPageAmong_of_error hresult' he]
        exact ⟨rfl, hin.state⟩

/-- Both start at the same shard, since their cursors agree. -/
theorem newPage_alike (h : w.Alike w') : Mirrors Alike w.newPage w'.newPage := by
  unfold newPage
  -- the two cursors are the same, so the same shards are asked in the same order
  rw [← h.cursor]
  split
  · exact newPageAmong_alike _ ⟨h.shard, rfl, h.disk⟩
  · exact newPageIn_alike h l.first

/-- Flushing the same shards of both keeps them alike, also where an error ends it early. -/
theorem flushShards_alike (visit : Visit) (shards : List (Fin l.width)) (h : w.Alike w') :
    Mirrors Alike (flushShards visit shards w) (flushShards visit shards w') := by
  induction shards generalizing w w' with
  | nil => exact ⟨rfl, h⟩
  | cons i rest ih =>
    exact (onShard_alike h i (Backed.flushAll_alike (h.backed i) visit)).andThen
      fun _ _ _ h => ih h

/-- Flushing some shards of one of two alike pools leaves them alike, however it ends. -/
theorem flushShards_idle (visit : Visit) (shards : List (Fin l.width)) (h : w.Alike w') :
    (flushShards visit shards w).state.Alike w' := by
  induction shards generalizing w with
  | nil => exact h
  | cons i rest ih =>
    have hshard : (w.onShard i fun _ b => b.flushAll visit).state.Alike w' :=
      onShard_idle h i (Backed.flushAll_idle (h.backed i) visit).state
    exact Outcome.state_andThen (P := fun v : System l size Disk => v.Alike w') hshard
      fun _ _ => ih hshard

/-- Whoever has the latch of a frame writes into it. -/
theorem modifyBytes_alike (h : w.Alike w') (k : Handle l size) (g g' : Page → Page) :
    (w.modifyBytes k g).Alike (w'.modifyBytes k g') := by
  refine ⟨fun i => ?_, h.cursor, h.disk⟩
  unfold modifyBytes
  rw [Pool.shard_setShard, Pool.shard_setShard]
  split
  · exact (h.shard k.shard).setFrame k.frame ⟨((h.shard k.shard).frame k.frame).holds,
      ((h.shard k.shard).frame k.frame).pins⟩
  · exact h.shard i

end System

/-! ## Clients -/

namespace Client

variable {c c' : Client l size}

structure Alike (c c' : Client l size) : Prop where
  system : c.system.Alike c'.system
  handles : c.handles = c'.handles
  guards : c.guards = c'.guards
  durable : c.durable = c'.durable

/-- Alikeness of clients does not say which of the two flushed. -/
theorem Alike.symm (h : c.Alike c') : c'.Alike c :=
  ⟨h.system.symm, h.handles.symm, h.guards.symm, h.durable.symm⟩

/-- Another pool under the same names. -/
theorem Alike.withSystem (h : c.Alike c') {w w' : System l size Disk} (hw : w.Alike w') :
    ({ c with system := w } : Client l size).Alike { c' with system := w' } :=
  ⟨hw, h.handles, h.guards, h.durable⟩

/-- Both give their handles the same new names. -/
theorem Alike.withHandles (h : c.Alike c') (handles : Std.ExtTreeMap String (Handle l size)) :
    ({ c with handles } : Client l size).Alike { c' with handles } :=
  ⟨h.system, rfl, h.guards, h.durable⟩

/-- Both give their guards the same new names. -/
theorem Alike.withGuards (h : c.Alike c') (guards : Std.ExtTreeMap String (Guard l size)) :
    ({ c with guards } : Client l size).Alike { c' with guards } :=
  ⟨h.system, h.handles, rfl, h.durable⟩

/-- What the pools are asked keeps the clients alike if it keeps the pools alike. -/
theorem lift_alike (h : c.Alike c') {o o' : Outcome (System l size Disk) α}
    (ho : Mirrors System.Alike o o') : Mirrors Alike (c.lift o) (c'.lift o') :=
  ⟨ho.result, h.withSystem ho.state⟩

/-- Shard `i` is asked, and alike shards agree on it. -/
theorem lift_onShard_alike (h : c.Alike c')
    (op : Stripe → Backed size Disk → Outcome (Backed size Disk) α)
    (hop : ∀ {w w' : Backed size Disk} (s : Stripe), w.Alike w' →
      Mirrors Backed.Alike (op s w) (op s w')) (i : Fin l.width) :
    Mirrors Alike (c.lift (c.system.onShard i op)) (c'.lift (c'.system.onShard i op)) :=
  lift_alike h (System.onShard_alike h.system i (hop (l.stripe i) (h.system.backed i)))

/-! The pool, addressed -/

/-- The same page is fetched by both, routed or from one shard. -/
theorem fetchHandle_alike (h : c.Alike c') (scope : Scope l) (p : PageId) :
    Mirrors Alike (c.fetchHandle scope p) (c'.fetchHandle scope p) := by
  cases scope with
  | whole => exact lift_alike h (System.fetchIn_alike h.system (l.route p) p)
  | only i => exact lift_alike h (System.fetchIn_alike h.system i p)

/-- A page is created by both, routed or in one shard. -/
theorem newHandle_alike (h : c.Alike c') (scope : Scope l) :
    Mirrors Alike (c.newHandle scope) (c'.newHandle scope) := by
  cases scope with
  | whole => exact lift_alike h (System.newPage_alike h.system)
  | only i => exact lift_alike h (System.newPageIn_alike h.system i)

/-- Both unpin the page, or neither has it; dirty flags are not compared. -/
theorem unpin_alike (h : c.Alike c') (scope : Scope l) (p : PageId) (dirty : Bool) :
    Mirrors Alike (c.unpin scope p dirty) (c'.unpin scope p dirty) := by
  have hshard := lift_onShard_alike h (fun s b => b.unpin s p dirty)
    fun s h => Backed.unpin_alike h s p dirty
  cases scope with
  | whole => exact hshard (l.route p)
  | only i => exact hshard i

/-- Both delete the page, or neither can; that a page is dirty does not keep it. -/
theorem delete_alike (h : c.Alike c') (scope : Scope l) (p : PageId) :
    Mirrors Alike (c.delete scope p) (c'.delete scope p) := by
  have hshard := lift_onShard_alike h (fun s b => b.delete s p)
    fun s h => Backed.delete_alike h s p
  cases scope with
  | whole => exact hshard (l.route p)
  | only i => exact hshard i

/-- Both are told the same by a flush, whatever bytes each of them writes. -/
theorem flush_alike (h : c.Alike c') (scope : Scope l) (p : PageId) :
    Mirrors Alike (c.flush scope p) (c'.flush scope p) := by
  have hshard := lift_onShard_alike h (fun s b => b.flush s p)
    fun s h => Backed.flush_alike h s p
  cases scope with
  | whole => exact hshard (l.route p)
  | only i => exact hshard i

/-- Both are told the same by a flush of everything they hold. -/
theorem flushAll_alike (h : c.Alike c') (scope : Scope l) (visit : Visit) :
    Mirrors Alike (c.flushAll scope visit) (c'.flushAll scope visit) := by
  cases scope with
  | whole => exact lift_alike h (System.flushShards_alike visit _ h.system)
  | only i => exact lift_onShard_alike h _ (fun _ h => Backed.flushAll_alike h visit) i

/-- A client that flushes a page stays alike to one that does nothing. -/
theorem flush_idle (h : c.Alike c') (scope : Scope l) (p : PageId) :
    (c.flush scope p).state.Alike c' := by
  have hshard (i : Fin l.width) :
      (c.system.onShard i fun s b => b.flush s p).state.Alike c'.system :=
    System.onShard_idle h.system i (Backed.flush_idle (h.system.backed i) (l.stripe i) p).state
  cases scope with
  | whole => exact h.withSystem (hshard (l.route p))
  | only i => exact h.withSystem (hshard i)

/-- A client that flushes everything stays alike to one that does nothing. -/
theorem flushAll_idle (h : c.Alike c') (scope : Scope l) (visit : Visit) :
    (c.flushAll scope visit).state.Alike c' := by
  cases scope with
  | whole => exact h.withSystem (System.flushShards_idle visit _ h.system)
  | only i =>
    exact h.withSystem
      (System.onShard_idle h.system i (Backed.flushAll_idle (h.system.backed i) visit).state)

/-! Guards -/

/-- A guard that is let go of unpins the same page of both. -/
theorem release_alike (h : c.Alike c') (g : Guard l size) :
    Mirrors Alike (c.release g) (c'.release g) := by
  refine (unpin_alike h .whole g.handle.page g.modified).andThen fun found _ _ h => ?_
  -- a pin that was not found is reported by both
  cases found <;> exact ⟨rfl, h⟩

/-- Both let go of the guard that had the name before, if there was one. -/
theorem hold_alike (h : c.Alike c') (name : String) (g : Guard l size) :
    Mirrors Alike (c.hold name g) (c'.hold name g) := by
  unfold hold
  rw [← h.guards]
  have hheld := h.withGuards (c.guards.insert name g)
  split
  · exact ⟨rfl, hheld⟩
  · exact release_alike hheld _

/-- Both drop the guard of that name, or neither has one. -/
theorem dropGuard_alike (h : c.Alike c') (name : String) :
    Mirrors Alike (c.dropGuard name) (c'.dropGuard name) := by
  unfold dropGuard
  rw [← h.guards]
  split
  · exact ⟨rfl, h⟩
  · exact (release_alike (h.withGuards (c.guards.erase name)) _).map _

/-- The same frame of both is written into; what was there before need not agree. -/
theorem editFrame_alike (h : c.Alike c') (k : Handle l size) (edits : List Edit) :
    (c.editFrame k edits).Alike (c'.editFrame k edits) :=
  h.withSystem (System.modifyBytes_alike h.system k _ _)

/-! ## Steps -/

/-- Pin counts agree, once the dirty flags are left out. -/
theorem outline_pins (h : c.Alike c') (scope : Scope l) (p : PageId) :
    (Reply.pins (c.pinStates scope p)).outline = (Reply.pins (c'.pinStates scope p)).outline := by
  simp only [pinStates, Reply.outline, List.map_map]
  refine congrArg Reply.pins (List.map_congr_left fun i _ => ?_)
  exact congrArg (fun count => (count, none)) ((h.system.shard i).pinCount? p)

/-- The same call keeps the two alike, and they are told the same but for bytes and dirty flags. -/
theorem perform_alike (h : c.Alike c') (scope : Scope l) {op : Op} (hop : op.OnPool) :
    Mirrors Alike ((c.perform scope op).map Reply.outline)
      ((c'.perform scope op).map Reply.outline) := by
  have hput {v v' : Client l size} (h : v.Alike v') (name : String) (k : Handle l size) :
      Mirrors Alike
        (.ok (.placed k.page k.frame) { v with handles := v.handles.insert name k } :
          Outcome (Client l size) Reply)
        (.ok (.placed k.page k.frame) { v' with handles := v'.handles.insert name k }) := by
    -- both give the same handle the same name
    rw [h.handles]
    exact ⟨rfl, h.withHandles _⟩
  cases op with
  | disk => exact hop.elim
  | newPage name =>
    rw [perform, perform]
    exact ((newHandle_alike h scope).andThen fun k _ _ h => hput h name k).map _
  | newGuard name =>
    rw [perform, perform]
    refine ((newHandle_alike h scope).andThen fun k v v' h => ?_).map _
    exact (hold_alike h name ⟨k, .write, false⟩).map _
  | fetch p name =>
    rw [perform, perform]
    exact ((fetchHandle_alike h scope p).andThen fun k _ _ h => hput h name k).map _
  | fetchGuard access p name =>
    rw [perform, perform]
    refine ((fetchHandle_alike h scope p).andThen fun k v v' h => ?_).map _
    exact (hold_alike h name ⟨k, access, false⟩).map _
  | unpin p dirty => exact ((unpin_alike h scope p dirty).map _).map _
  | delete p => exact ((delete_alike h scope p).map _).map _
  | flush p => exact ((flush_alike h scope p).map _).map _
  | flushAll visit => exact ((flushAll_alike h scope visit).map _).map _
  | dropGuard name => exact (dropGuard_alike h name).map _
  | writeHandle name edits =>
    rw [perform, perform, ← h.handles]
    split
    · exact ⟨rfl, h⟩
    · exact ⟨rfl, editFrame_alike h _ edits⟩
  -- the guards are the same, so both may write through theirs or neither may
  | writeGuard name edits =>
    rw [perform, perform, ← h.guards]
    cases c.guards[name]? with
    | none => exact ⟨rfl, h⟩
    | some g =>
      dsimp only
      cases g.access with
      | read => exact ⟨rfl, h⟩
      | write =>
        have hedit := editFrame_alike h g.handle edits
        exact ⟨rfl, hedit.system, hedit.handles,
          congrArg (fun guards => guards.insert name ⟨g.handle, .write, true⟩) hedit.guards,
          hedit.durable⟩
  | readHandle name | tellHandle name =>
    rw [perform, perform, ← h.handles]
    split <;> exact ⟨rfl, h⟩
  | readGuard name =>
    rw [perform, perform, ← h.guards]
    split <;> exact ⟨rfl, h⟩
  | capacity | shardCount => exact ⟨rfl, h⟩
  -- nothing of what is counted here changes when pages are flushed
  | shardFacts =>
    rw [perform, perform, facts, facts, ← h.durable]
    exact ⟨rfl, h⟩
  | pins p => exact ⟨congrArg Except.ok (outline_pins h scope p), h⟩

/-- The same step keeps the two alike, and they are told the same but for bytes and dirty flags. -/
theorem take_alike (h : c.Alike c') {step : Step} (hop : step.op.OnPool) :
    Mirrors Alike ((c.take step).map Reply.outline) ((c'.take step).map Reply.outline) := by
  unfold take
  -- a shard that there is not answers nothing to either
  split
  · exact ⟨rfl, h⟩
  · exact perform_alike h _ hop

/-- A flush is one step that might as well not have been taken. -/
theorem take_idle (h : c.Alike c') {step : Step} (hflush : step.op.Flushes) :
    (c.take step).state.Alike c' := by
  obtain ⟨shard, op⟩ := step
  unfold take
  split
  · exact h
  · cases op with
    | flush p => exact flush_idle h _ p
    | flushAll visit => exact flushAll_idle h _ visit
    | _ => exact hflush.elim

end Client

end PageCache
