import PageCache.Proofs.Client.Transparent
import PageCache.Proofs.Store.Readable

/-!
# Clean pages are on the disk

What lets a pool take a clean page out of its frame without writing it: if a page is not dirty, and
nobody holds a write guard on it through which the bytes were reached, then a read of the page would
give what its frame has (`Client.clean_on_disk`).

The account of the page says so of all its guards (`Account.Sound.clean`). That it is enough to ask
for write guards is a matter of what a step does to the names of guards (`Client.renames_take`).
-/

namespace PageCache.Client

variable {l : Layout} {size : Nat} {c : Client l size}

/-! ## Names of guards -/

/-- What a step does to the names of guards: at most, one name gets a guard that was just opened or
just written through, or has none any more. -/
inductive Renames (guards : Std.ExtTreeMap String (Guard l size)) :
    Std.ExtTreeMap String (Guard l size) → Prop
  | same : Renames guards guards
  | opened (name : String) (k : Handle l size) (access : Access) :
      Renames guards (guards.insert name ⟨k, access, false⟩)
  | written (name : String) (k : Handle l size) :
      Renames guards (guards.insert name ⟨k, .write, true⟩)
  | dropped (name : String) : Renames guards (guards.erase name)

theorem renames_newGuard (scope : Scope l) (name : String) :
    Renames c.guards (c.perform scope (.newGuard name)).state.guards := by
  refine Outcome.state_andThen (P := fun c' : Client l size => Renames c.guards c'.guards) ?_
    fun k _ => ?_
  · exact (guards_newHandle c scope).symm ▸ .same
  · rw [Outcome.state_map, guards_hold, guards_newHandle]
    exact .opened name k .write

theorem renames_fetchGuard (scope : Scope l) (access : Access) (p : PageId) (name : String) :
    Renames c.guards (c.perform scope (.fetchGuard access p name)).state.guards := by
  refine Outcome.state_andThen (P := fun c' : Client l size => Renames c.guards c'.guards) ?_
    fun k _ => ?_
  · exact (guards_fetchHandle c scope p).symm ▸ .same
  · rw [Outcome.state_map, guards_hold, guards_fetchHandle]
    exact .opened name k access

theorem renames_writeGuard (scope : Scope l) (name : String) (edits : List Edit) :
    Renames c.guards (c.perform scope (.writeGuard name edits)).state.guards := by
  rw [perform]
  cases c.guards[name]? with
  | none => exact .same
  | some g =>
    cases haccess : g.access with
    | read =>
      simp only [haccess]
      exact .same
    | write =>
      simp only [haccess]
      exact .written name g.handle

theorem renames_dropGuard (name : String) :
    Renames c.guards (c.dropGuard name).state.guards := by
  rw [dropGuard]
  cases c.guards[name]? with
  | none => exact .same
  | some g =>
    show Renames c.guards (Client.release _ g).state.guards
    rw [guards_release]
    exact .dropped name

/-- Whatever is done, at most one name changes what it stands for. -/
theorem renames_perform (c : Client l size) (scope : Scope l) (op : Op) :
    Renames c.guards (c.perform scope op).state.guards := by
  cases op with
  | newGuard name => exact renames_newGuard scope name
  | fetchGuard access p name => exact renames_fetchGuard scope access p name
  | writeGuard name edits => exact renames_writeGuard scope name edits
  | dropGuard name => exact renames_dropGuard name
  | newPage name =>
    have hsame : (c.perform scope (.newPage name)).state.guards = c.guards :=
      Outcome.state_andThen (P := fun c' : Client l size => c'.guards = c.guards)
        (guards_newHandle ..) fun _ _ => guards_newHandle ..
    exact hsame ▸ .same
  | fetch p name =>
    have hsame : (c.perform scope (.fetch p name)).state.guards = c.guards :=
      Outcome.state_andThen (P := fun c' : Client l size => c'.guards = c.guards)
        (guards_fetchHandle ..) fun _ _ => guards_fetchHandle ..
    exact hsame ▸ .same
  | unpin p dirty => exact (guards_unpin c scope p dirty).symm ▸ .same
  | delete p => exact (guards_delete c scope p).symm ▸ .same
  | flush p => exact (guards_flush c scope p).symm ▸ .same
  | flushAll visit => exact (guards_flushAll c scope visit).symm ▸ .same
  | readHandle | writeHandle | tellHandle | readGuard =>
    rw [perform]
    split <;> exact .same
  | disk | capacity | shardCount | shardFacts | pins => exact .same

/-- A step does no more than what it performs. -/
theorem renames_take (c : Client l size) (step : Step) :
    Renames c.guards (c.take step).state.guards := by
  rw [take]
  split
  · exact .same
  · exact renames_perform c _ step.op

/-- The bytes of a page are only ever reached for writing through a write guard. -/
def Modest (guards : Std.ExtTreeMap String (Guard l size)) : Prop :=
  ∀ (name : String) (g : Guard l size), guards[name]? = some g → g.modified = true →
    g.access = .write

/-- No step makes a read guard a guard that was written through. -/
theorem Renames.modest {guards guards' : Std.ExtTreeMap String (Guard l size)}
    (h : Renames guards guards') (hmodest : Modest guards) : Modest guards' := by
  -- a name stands for the guard it got, or for the one it had
  have hinsert (name : String) {g : Guard l size} (hg : g.modified = true → g.access = .write) :
      Modest (guards.insert name g) := by
    intro name' g' hg'
    rw [Std.ExtTreeMap.getElem?_insert] at hg'
    split at hg'
    · exact Option.some.inj hg' ▸ hg
    · exact hmodest name' g' hg'
  cases h with
  | same => exact hmodest
  | opened name k access => exact hinsert name fun hmodified => absurd hmodified (by simp)
  | written name k => exact hinsert name fun _ => rfl
  | dropped name =>
    intro name' g' hg'
    rw [Std.ExtTreeMap.getElem?_erase] at hg'
    split at hg'
    · exact absurd hg' (by simp)
    · exact hmodest name' g' hg'

/-- No history makes a read guard a guard that was written through. -/
theorem modest_of_history {allowed : List Entry → Client l size → Step → Prop}
    {c₀ : Client l size} {log : List Entry} (h₀ : Modest c₀.guards)
    (h : History allowed c₀ log c) : Modest c.guards :=
  h.keeps (P := fun _ c => Modest c.guards) h₀ fun {_ c} step hmodest _ =>
    (c.renames_take step).modest hmodest

/-! ## Pages that are not dirty -/

/-- Somebody holds a write guard on page `p`, and has reached the bytes through it. -/
def WrittenThrough (c : Client l size) (p : PageId) : Prop :=
  ∃ (name : String) (g : Guard l size), c.guards[name]? = some g ∧ g.handle.page = p ∧
    g.access = .write ∧ g.modified = true

/-- If nobody has reached the bytes of page `p` for writing, no grip on it tells of a change. -/
theorem unmodified_of_not_writtenThrough {p : PageId} (hmodest : Modest c.guards)
    (h : ¬ c.WrittenThrough p) : ∀ grip ∈ grips (held c.guards) p, grip.modified = false := by
  intro grip hgrip
  obtain ⟨g, hg, hpage, rfl⟩ := exists_of_mem_grips hgrip
  obtain ⟨name, hname⟩ := exists_name_of_mem_held hg
  rw [← Bool.not_eq_true]
  exact fun hmodified => h ⟨name, g, hname, hpage, hmodest name g hname hmodified, hmodified⟩

/-- On any pool, over a disk all of whose pages read as zeros, and after every history of a client
that works through guards and fetches created pages only, whatever the faults of the disk: the frame
of a page that is not dirty, and was not written through a guard that is still held, has what the
disk gives for the page when no fault is in the way. -/
theorem clean_on_disk {b : Blueprint} {built : AnyPool} (hbuild : b.build = .ok built)
    (hunloaded : b.Unloaded) {disk : Disk} (hdisk : ∀ p, disk.Reads p .zero)
    (durable : Option Lsn) {log : List Entry} {c : Client built.layout built.size}
    (h : History GuardBased (built.start disk durable) log c) {i : Fin built.layout.width}
    {p : PageId} {f : Fin built.size} (hp : (c.system.pool.shard i).table[p]? = some f)
    (hdirty : ((c.system.pool.shard i).frame f).dirty = false)
    (hwritten : ¬ c.WrittenThrough p) :
    c.system.disk.Reads p ((c.system.pool.shard i).frame f).bytes := by
  have hcoherent := coherent_of_build hbuild hunloaded (fun p => (hdisk p).contents_eq) durable h
  have hplace : c.system.view.slot p = some (f, (c.system.pool.shard i).frame f) :=
    (System.slot_view ((hcoherent.kept.system i).owned hp)).trans (Shard.slot_of_table hp)
  -- nobody holds a guard at the start
  have hmodest : Modest c.guards := modest_of_history
    (fun _ _ hg => absurd hg (by simp [AnyPool.start, fresh])) h
  have hstored : ((c.system.pool.shard i).frame f).bytes = c.system.disk.contents p :=
    (hcoherent.accounts p).clean hplace hdirty (unmodified_of_not_writtenThrough hmodest hwritten)
  -- requests leave no page that cannot be read
  have hreadable : c.system.disk.medium.Readable :=
    medium_of_history Disk.readable_of_serves (kept_of_build hbuild hunloaded disk durable)
      (known_of_build hbuild hunloaded disk durable) (fun p buffer => (hdisk p).result_eq buffer) h
  rw [hstored]
  exact Disk.reads_contents hreadable p

/-- With one frame: a page is written to, and flushed, which fails at first. After that it is not
dirty any more, and the disk has its bytes. -/
theorem clean_on_disk_one_frame : ∃ log c,
    History GuardBased
        ((AnyPool.fresh (.alone .whole) 1).start (.onMedium (.memory .empty)) none) log c ∧
      log.map Entry.answer = [.ok (.newGuard ⟨0, by decide⟩ ⟨0, by decide⟩), .ok .nothing,
        .ok .nothing, .ok (.disk .nothing), .error (.storage (.io .writeFault)),
        .ok (.disk .nothing), .ok (.truth true)] ∧
      c.system.disk.Reads ⟨0, by decide⟩ (.edit [.put 7 [42]] .zero) := by
  have h : History GuardBased
      ((AnyPool.fresh (.alone .whole) 1).start (.onMedium (.memory .empty)) none) [] _ := .start
  have h := h.step ⟨none, .newGuard "a"⟩ ⟨rfl, trivial, trivial⟩
  have h := h.step ⟨none, .writeGuard "a" [.put 7 [42]]⟩ ⟨rfl, trivial, trivial⟩
  have h := h.step ⟨none, .dropGuard "a"⟩ ⟨rfl, trivial, trivial⟩
  have h := h.step ⟨none, .disk (.setFaults ⟨fun _ => false, fun _ => true⟩)⟩
    ⟨rfl, trivial, trivial⟩
  have h := h.step ⟨none, .flush ⟨0, by decide⟩⟩ ⟨rfl, trivial, trivial⟩
  have h := h.step ⟨none, .disk (.setFaults .none)⟩ ⟨rfl, trivial, trivial⟩
  have h := h.step ⟨none, .flush ⟨0, by decide⟩⟩ ⟨rfl, trivial, trivial⟩
  have hbuild : Blueprint.build (.alone 1 1 0 none) = .ok (.fresh (.alone .whole) 1) := rfl
  have hdisk : ∀ p, (Disk.onMedium (.memory .empty)).Reads p .zero := fun p _ =>
    ⟨rfl, MemoryStore.bytes_empty p⟩
  have hreads := clean_on_disk hbuild trivial hdisk none h (i := ⟨0, by decide⟩)
    (p := ⟨0, by decide⟩) (f := ⟨0, by decide⟩) rfl rfl ?_
  · exact ⟨_, _, h, rfl, hreads⟩
  · -- the guard is dropped, and no other was opened
    rintro ⟨name, g, hg, -⟩
    have hnone : (none : Option (Guard (.alone .whole) 1)) = some g := hg
    exact absurd hnone (by simp)

end PageCache.Client
