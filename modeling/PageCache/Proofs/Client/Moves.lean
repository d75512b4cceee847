import PageCache.Proofs.Client.History
import PageCache.Proofs.Pool.Moves

/-!
# The moves of a client

The operations of a pool once more, addressed to all of it or to one shard, as a client sees them:
the system makes the moves its operation makes, and the names stay what they stand for. Letting go
of a guard is one unpin (`Client.release_runs`). Whatever a client does past the records, through a
handle that may be out of date, edits one page at most (`Client.editFrame_runs`).
-/

namespace PageCache

open PageCache.System (Runs)

/-- A page that somebody has pinned loses the pin. -/
theorem Backed.result_unpin {size : Nat} {δ : Type} {w : Backed size δ} {s : Stripe} {p : PageId}
    {f : Fin size} (howns : s.Owns p) (hp : w.shard.table[p]? = some f)
    (hpins : (w.shard.frame f).pins ≠ 0) (dirty : Bool) :
    (w.unpin s p dirty).result = .ok true := by
  rw [Backed.unpin, if_pos howns]
  simp only [hp, if_neg hpins]
  split <;> rfl

/-- A shard answers whether its page had a pin, and breaks no rule. -/
theorem Backed.result_unpin_ok {size : Nat} {δ : Type} (w : Backed size δ) {s : Stripe} {p : PageId}
    (howns : s.Owns p) (dirty : Bool) : ∃ found, (w.unpin s p dirty).result = .ok found := by
  rw [Backed.unpin, if_pos howns]
  split
  · exact ⟨false, rfl⟩
  simp only
  split
  · exact ⟨false, rfl⟩
  · split <;> exact ⟨true, rfl⟩

namespace Client

variable {l : Layout} {size : Nat} {capacity : Nat} {c : Client l size}

/-! ## The pool, addressed -/

/-- A fetch makes the moves of one in the shard it reaches. -/
theorem fetchHandle_runs (h : c.system.Kept capacity) (scope : Scope l) (p : PageId) :
    ∃ ms, Runs capacity c.system ms (c.fetchHandle scope p).state.system ∧
      System.Fetched p ms (c.fetchHandle scope p).result := by
  cases scope with
  | whole => exact System.fetchIn_runs h (l.route p) p
  | only i => exact System.fetchIn_runs h i p

/-- A creation makes the moves of one, if the page it gives is not resident yet. -/
theorem newHandle_runs (h : c.system.Kept capacity) (scope : Scope l)
    (hspared : ∀ {k : Handle l size}, (c.newHandle scope).result = .ok k →
      c.system.view.slot k.page = none) :
    ∃ ms, Runs capacity c.system ms (c.newHandle scope).state.system ∧
      System.Created ms (c.newHandle scope).result := by
  cases scope with
  | whole => exact System.newPage_runs h hspared
  | only i => exact System.newPageIn_runs h i hspared

/-- The page that a creation gives was not in use. -/
theorem unused_of_newHandle (h : c.system.Kept capacity) {scope : Scope l} {k : Handle l size}
    (hresult : (c.newHandle scope).result = .ok k) : c.system.view.unused k.page := by
  cases scope with
  | whole => exact System.unused_of_newPage h hresult
  | only i => exact System.unused_of_newPageIn h hresult

/-- An unpin is one move, if the answer is that there was a pin. -/
theorem unpin_runs (h : c.system.Kept capacity) (scope : Scope l) (p : PageId) (dirty : Bool) :
    ∃ ms, Runs capacity c.system ms (c.unpin scope p dirty).state.system ∧
      Backed.Moved (.unpin p dirty) ms (c.unpin scope p dirty).result := by
  cases scope with
  | whole => exact System.unpinIn_runs h (l.route p) p dirty
  | only i => exact System.unpinIn_runs h i p dirty

/-- A deletion is one move, or none if the page stays. -/
theorem delete_runs (h : c.system.Kept capacity) (scope : Scope l) (p : PageId) :
    ∃ ms, Runs capacity c.system ms (c.delete scope p).state.system ∧
      (ms = [] ∨ ms = [.discard p] ∧ (c.delete scope p).result = .ok true) := by
  cases scope with
  | whole => exact System.deleteIn_runs h (l.route p) p
  | only i => exact System.deleteIn_runs h i p

/-- A flush of a page makes quiet moves only. -/
theorem flush_runs (h : c.system.Kept capacity) (scope : Scope l) (p : PageId) :
    ∃ ms, Runs capacity c.system ms (c.flush scope p).state.system ∧ Move.AllQuiet ms := by
  cases scope with
  | whole => exact System.flushIn_runs h (l.route p) p
  | only i => exact System.flushIn_runs h i p

/-- A flush of everything makes quiet moves only. -/
theorem flushAll_runs (h : c.system.Kept capacity) (scope : Scope l) (visit : Visit) :
    ∃ ms, Runs capacity c.system ms (c.flushAll scope visit).state.system ∧ Move.AllQuiet ms := by
  cases scope with
  | whole =>
    obtain ⟨ms, hruns, hquiet, -⟩ := System.flushAll_runs visit h
    exact ⟨ms, hruns, hquiet⟩
  | only i =>
    obtain ⟨ms, hruns, hquiet, -⟩ := System.flushAllIn_runs h visit i
    exact ⟨ms, hruns, hquiet⟩

/-- A fetch leaves all names what they stand for; and so do the other operations of the pool. -/
@[simp]
theorem guards_fetchHandle (c : Client l size) (scope : Scope l) (p : PageId) :
    (c.fetchHandle scope p).state.guards = c.guards := by
  cases scope <;> rfl

@[simp]
theorem guards_newHandle (c : Client l size) (scope : Scope l) :
    (c.newHandle scope).state.guards = c.guards := by
  cases scope <;> rfl

@[simp]
theorem guards_unpin (c : Client l size) (scope : Scope l) (p : PageId) (dirty : Bool) :
    (c.unpin scope p dirty).state.guards = c.guards := by
  cases scope <;> rfl

@[simp]
theorem guards_delete (c : Client l size) (scope : Scope l) (p : PageId) :
    (c.delete scope p).state.guards = c.guards := by
  cases scope <;> rfl

@[simp]
theorem guards_flush (c : Client l size) (scope : Scope l) (p : PageId) :
    (c.flush scope p).state.guards = c.guards := by
  cases scope <;> rfl

@[simp]
theorem guards_flushAll (c : Client l size) (scope : Scope l) (visit : Visit) :
    (c.flushAll scope visit).state.guards = c.guards := by
  cases scope <;> rfl

/-! ## Guards -/

/-- A guard is let go of by one unpin. -/
theorem state_release (c : Client l size) (g : Guard l size) :
    (c.release g).state = (c.unpin .whole g.handle.page g.modified).state := by
  rw [release]
  cases hresult : (c.unpin .whole g.handle.page g.modified).result with
  | error e => rw [Outcome.andThen_of_error hresult]
  | ok found =>
    rw [Outcome.andThen_of_ok hresult]
    -- a pin that was not found is reported, but changes nothing
    cases found <;> rfl

/-- Letting go of a guard always succeeds. -/
theorem result_release {g : Guard l size}
    (howns : (l.stripe (l.route g.handle.page)).Owns g.handle.page) :
    (c.release g).result = .ok () := by
  obtain ⟨found, hresult⟩ := Backed.result_unpin_ok (c.system.backed (l.route g.handle.page))
    howns g.modified
  have hunpin : (c.unpin .whole g.handle.page g.modified).result = .ok found := hresult
  rw [release, Outcome.andThen_of_ok hunpin]
  cases found <;> rfl

/-- Letting go of a guard leaves the names what they stand for. -/
@[simp]
theorem guards_release (c : Client l size) (g : Guard l size) :
    (c.release g).state.guards = c.guards := by
  rw [state_release, guards_unpin]

/-- A guard that is held has its name, whatever had it before. -/
@[simp]
theorem guards_hold (c : Client l size) (name : String) (g : Guard l size) :
    (c.hold name g).state.guards = c.guards.insert name g := by
  rw [hold]
  split
  · rfl
  · exact guards_release ..

/-- Letting go of a guard on a page that is pinned takes one pin away. -/
theorem release_runs (h : c.system.Kept capacity) {g : Guard l size}
    (howns : (l.stripe (l.route g.handle.page)).Owns g.handle.page) {f : Fin size} {frame : Frame}
    (hslot : c.system.view.slot g.handle.page = some (f, frame)) (hpins : frame.pins ≠ 0) :
    Runs capacity c.system [.unpin g.handle.page g.modified] (c.release g).state.system := by
  obtain ⟨ms, hruns, hmoved⟩ := c.unpin_runs h .whole g.handle.page g.modified
  rw [System.slot_view howns] at hslot
  obtain ⟨hp, rfl⟩ := Shard.slot_eq_some_iff.mp hslot
  -- the page is there and has a pin, so the answer is true
  have hfound : (c.unpin .whole g.handle.page g.modified).result = .ok true :=
    Backed.result_unpin howns hp hpins g.modified
  rw [hfound] at hmoved
  obtain rfl : ms = [.unpin g.handle.page g.modified] := hmoved
  rw [state_release]
  exact hruns

/-! ## Bytes -/

/-- Writing into a frame edits the page that lies there, if there is one. -/
theorem editFrame_runs (h : c.system.Kept capacity) (k : Handle l size) (edits : List Edit) :
    ∃ ms, Runs capacity c.system ms (c.editFrame k edits).system ∧
      (ms = [] ∨ ∃ p, ms = [.edit p (Page.edit edits)]) :=
  System.modifyBytes_runs h k (Page.edit edits)

end Client

end PageCache
