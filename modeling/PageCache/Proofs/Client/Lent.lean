import PageCache.Proofs.Client.Coherent
import PageCache.Proofs.Client.Kept
import PageCache.Proofs.Pool.Reports

/-!
# Pins that are lent to guards

A guard is lent a pin when it is had, and gives it back when it is let go of. As long as nobody
takes pins or gives them back but guards, each page has as many pins as there are guards of it
(`Lent`). It does not matter here which pages were created, what the bytes are, and what the disk
does.

* `View.Step.pins_add`: the pins that a move brings and takes.
* `Client.Lends`: each guard that a name stands for has its pin, and there are no others.
* `Client.Lends.take`: a step keeps it so, and finds no guard without its pin.
-/

namespace PageCache

open Outcome (FindsPinned)

variable {l : Layout} {size : Nat}

/-! ## Pins -/

namespace Move

/-- How many pins page `q` gains. -/
def gains (q : PageId) : Move size → Nat
  | load p _ | create p _ | pin p _ => if p = q then 1 else 0
  | _ => 0

/-- How many pins page `q` loses. -/
def loses (q : PageId) : Move size → Nat
  | unpin p _ => if p = q then 1 else 0
  | _ => 0

/-- Only the page that a move is about gains pins. -/
theorem gains_of_ne {m : Move size} {q : PageId} (hq : q ≠ m.page) : m.gains q = 0 := by
  cases m with
  | load | create | pin => exact if_neg (Ne.symm hq)
  | _ => rfl

/-- Only the page that a move is about loses pins. -/
theorem loses_of_ne {m : Move size} {q : PageId} (hq : q ≠ m.page) : m.loses q = 0 := by
  cases m with
  | unpin => exact if_neg (Ne.symm hq)
  | _ => rfl

/-- A move that leaves all pins as they are. -/
def Pinless (m : Move size) : Prop :=
  ∀ q, m.gains q = 0 ∧ m.loses q = 0

/-- Evicting a page and saving it leave all pins as they are. -/
theorem pinless_of_quiet {m : Move size} (h : m.Quiet) : m.Pinless := by
  cases m with
  | evict | save => exact fun _ => ⟨rfl, rfl⟩
  | _ => exact h.elim

end Move

namespace View

variable {v v' : View size}

/-- How many pins page `p` has; a page that is not resident has none. -/
def pins (v : View size) (p : PageId) : Nat :=
  (v.slot p).elim 0 fun place => place.2.pins

/-- A resident page has the pins that its frame counts. -/
theorem pins_of_slot {p : PageId} {f : Fin size} {frame : Frame}
    (h : v.slot p = some (f, frame)) : v.pins p = frame.pins := by
  rw [pins, h]
  rfl

/-- A page that lies in no frame has no pins. -/
theorem pins_of_slot_none {p : PageId} (h : v.slot p = none) : v.pins p = 0 := by
  rw [pins, h]
  rfl

/-- Putting a page somewhere changes the pins of that page alone. -/
@[simp]
theorem pins_put (v : View size) (p q : PageId) (place : Option (Fin size × Frame)) :
    (v.put p place).pins q =
      if q = p then place.elim 0 fun place => place.2.pins else v.pins q := by
  rw [pins, slot_put]
  split <;> rfl

@[simp]
theorem pins_store (v : View size) (p q : PageId) (page : Page) :
    (v.store p page).pins q = v.pins q :=
  rfl

@[simp]
theorem pins_use (v : View size) (p q : PageId) : (v.use p).pins q = v.pins q :=
  rfl

/-- A page gains and loses the pins that a move brings and takes. -/
theorem Step.pins_add {m : Move size} (h : Step v m v') (q : PageId) :
    v'.pins q + m.loses q = v.pins q + m.gains q := by
  by_cases hq : q = m.page
  swap
  · -- another page keeps its place, and with it its pins
    rw [Move.gains_of_ne hq, Move.loses_of_ne hq, pins, pins, (h.elsewhere hq).1]
  cases h with
  -- these pages had no pins, or the move would not be one
  | evict hslot hpins | discard hslot hpins =>
    simp [hq, Move.page, Move.gains, Move.loses, pins_of_slot hslot, hpins]
  | load f hslot | create f hslot =>
    simp [hq, Move.page, Move.gains, Move.loses, pins_of_slot_none hslot, Frame.holding]
  | save hslot | pin hslot | edit _ hslot =>
    simp [hq, Move.page, Move.gains, Move.loses, pins_of_slot hslot]
  | unpin _ hslot hpins =>
    simp [hq, Move.page, Move.gains, Move.loses, pins_of_slot hslot, Nat.sub_one_add_one hpins]

/-- Moves without pins leave the pins of each page as they were. -/
theorem Path.pins_of_pinless {ms : List (Move size)} (h : Path v ms v')
    (hms : ∀ m ∈ ms, m.Pinless) (q : PageId) : v'.pins q = v.pins q := by
  refine h.keeps hms (P := fun w => w.pins q = v.pins q) (fun hm hstep hw => ?_) rfl
  -- an induction over the moves, with the pins of `q` as what is kept
  have hadd := hstep.pins_add q
  rw [(hm q).1, (hm q).2] at hadd
  exact hadd.trans hw

end View

/-! ## Guards and their pins -/

/-- How many of the guards are of page `p`. -/
def guardsOf (held : List (Guard l size)) (p : PageId) : Nat :=
  held.countP fun g => g.handle.page = p

/-- One more guard is one more of its own page, and none of any other. -/
theorem guardsOf_cons (g : Guard l size) (held : List (Guard l size)) (p : PageId) :
    guardsOf (g :: held) p = guardsOf held p + if g.handle.page = p then 1 else 0 := by
  simp [guardsOf, List.countP_cons]

/-- Every pin is that of one of the guards, and every guard has one. -/
def Lent (v : View size) (held : List (Guard l size)) : Prop :=
  ∀ p, v.pins p = guardsOf held p

namespace Lent

variable {v v' : View size} {held held' : List (Guard l size)} {g : Guard l size}
variable {ms : List (Move size)}

/-- In what order the guards are listed does not matter. -/
theorem perm (h : Lent v held) (hperm : held.Perm held') : Lent v held' :=
  fun p => (h p).trans (hperm.countP_eq _)

/-- Moves without pins leave every guard its pin. -/
theorem pinless (h : Lent v held) (hpath : v.Path ms v') (hms : ∀ m ∈ ms, m.Pinless) :
    Lent v' held :=
  fun p => (hpath.pins_of_pinless hms p).trans (h p)

/-- What a shard does to make room leaves every guard its pin. -/
theorem quiet (h : Lent v held) (hpath : v.Path ms v') (hquiet : Move.AllQuiet ms) :
    Lent v' held :=
  h.pinless hpath fun m hm => Move.pinless_of_quiet (hquiet m hm)

/-- One more guard, and one pin more on its page. -/
theorem lend {m : Move size} (h : Lent v held) (hpath : v.Path ms v') (hends : m.Ends ms)
    (hgains : ∀ p, m.gains p = if g.handle.page = p then 1 else 0) (hloses : ∀ p, m.loses p = 0) :
    Lent v' (g :: held) := by
  obtain ⟨quiet, w, hquiet, hbefore, hstep⟩ := hpath.of_ends hends
  intro p
  -- the moves before the last are quiet, so only the last one counts
  have hadd := hstep.pins_add p
  rw [hloses, hgains, h.quiet hbefore hquiet p] at hadd
  rw [guardsOf_cons]
  exact hadd

/-- The page of a guard is unpinned once, and the guard is gone. -/
theorem giveBack {dirty : Bool} (h : Lent v (g :: held))
    (hstep : v.Step (.unpin g.handle.page dirty) v') : Lent v' held := by
  intro p
  have hadd := hstep.pins_add p
  rw [h p, guardsOf_cons] at hadd
  exact Nat.add_right_cancel hadd

/-- The page of a guard is resident, and pinned. -/
theorem slot_of_mem (h : Lent v held) (hg : g ∈ held) :
    ∃ f frame, v.slot g.handle.page = some (f, frame) ∧ frame.pins ≠ 0 := by
  have hpos : 0 < v.pins g.handle.page := by
    rw [h]
    exact List.countP_pos_iff.mpr ⟨g, hg, decide_eq_true rfl⟩
  cases hslot : v.slot g.handle.page with
  -- then its page would have no pin, but the guard itself is one
  | none =>
    rw [View.pins_of_slot_none hslot] at hpos
    exact absurd hpos (Nat.lt_irrefl 0)
  | some place =>
    rw [View.pins_of_slot hslot] at hpos
    exact ⟨place.1, place.2, rfl, Nat.ne_of_gt hpos⟩

end Lent

/-! ## Clients -/

/-- Nobody takes a pin or gives one back, but for a guard. -/
def Op.PinsByGuards : Op → Prop
  | .newPage _ | .fetch .. | .unpin .. => False
  | _ => True

namespace Client

variable {capacity : Nat} {c : Client l size} {scope : Scope l} {shard : Option Nat}

/-- Every pin is that of a guard that a name stands for, and every such guard has one. -/
def Lends (c : Client l size) : Prop :=
  Lent c.system.view (held c.guards)

/-- A pool that was just built has no pins, and no guards. -/
theorem lends_of_build {b : Blueprint} {built : AnyPool} (hbuild : b.build = .ok built)
    (h : b.Unloaded) (disk : Disk) (durable : Option Lsn) : (built.start disk durable).Lends := by
  have hnone (name : String) : (built.start disk durable).guards[name]? = none :=
    Std.ExtTreeMap.getElem?_empty
  intro p
  rw [held_eq_nil hnone]
  exact View.pins_of_slot_none (Blueprint.slot_of_build hbuild h disk p)

/-! ## Letting go -/

/-- A guard that no name stands for any more gives its pin back. -/
theorem release_lent {rest : List (Guard l size)} {g : Guard l size}
    (hkept : c.system.Kept capacity) (howns : (l.stripe g.handle.shard).Owns g.handle.page)
    (h : Lent c.system.view (g :: rest)) :
    Lent (c.release g).state.system.view rest ∧ (c.release g).FindsPinned := by
  rw [← Layout.route_eq_of_owns howns] at howns
  obtain ⟨f, frame, hslot, hpins⟩ := h.slot_of_mem List.mem_cons_self
  have hruns := c.release_runs hkept howns hslot hpins
  refine ⟨h.giveBack hruns.path.step_of_single, ?_⟩
  -- the answer is true, so there is nothing to report
  rw [System.slot_view howns] at hslot
  obtain ⟨hp, rfl⟩ := Shard.slot_eq_some_iff.mp hslot
  have hfound : (c.unpin .whole g.handle.page g.modified).result = .ok true :=
    Backed.result_unpin howns hp hpins g.modified
  rw [release, Outcome.andThen_of_ok hfound]
  exact FindsPinned.after (.silent rfl)
    ((c.system.backed _).findsPinned_unpin _ g.handle.page g.modified)

/-- A guard that was just had gets its name, and the one that had the name before is let go of. -/
theorem hold_lends (name : String) {g : Guard l size} (hkept : c.Kept capacity)
    (h : Lent c.system.view (g :: held c.guards)) :
    (c.hold name g).state.Lends ∧ (c.hold name g).FindsPinned := by
  have hinsert := held_insert_perm c.guards name g
  rw [Lends, guards_hold, hold]
  cases hname : c.guards[name]? with
  | none =>
    rw [erase_of_none hname] at hinsert
    exact ⟨h.perm hinsert.symm, .silent rfl⟩
  | some old =>
    -- the new guard takes the name, and the old one is the first to let go of
    have hboth : (g :: held c.guards).Perm (old :: held (c.guards.insert name g)) :=
      ((held_perm hname).cons g).trans ((List.Perm.swap old g _).trans (hinsert.symm.cons old))
    exact release_lent (c := { c with guards := c.guards.insert name g }) hkept.system
      (hkept.routed name old hname) (h.perm hboth)

/-- Dropping a name gives back the pin of its guard, if the name has one. -/
theorem dropGuard_lends (hkept : c.Kept capacity) (h : c.Lends) (name : String) :
    (c.dropGuard name).state.Lends ∧ (c.dropGuard name).FindsPinned := by
  rw [dropGuard]
  cases hname : c.guards[name]? with
  | none => exact ⟨h, .silent rfl⟩
  | some g =>
    obtain ⟨hlent, hfinds⟩ := release_lent (c := { c with guards := c.guards.erase name })
      hkept.system (hkept.routed name g hname) (h.perm (held_perm hname))
    refine ⟨?_, hfinds.map _⟩
    rw [Lends, Outcome.state_map, guards_release]
    exact hlent

/-! ## Getting hold -/

/-- Creating a page never reports a page that was not pinned. -/
theorem findsPinned_newHandle (c : Client l size) (scope : Scope l) :
    (c.newHandle scope).FindsPinned := by
  cases scope with
  | whole => exact c.system.findsPinned_newPage
  | only i => exact c.system.findsPinned_newPageIn i

/-- Fetching a page never reports a page that was not pinned. -/
theorem findsPinned_fetchHandle (c : Client l size) (scope : Scope l) (p : PageId) :
    (c.fetchHandle scope p).FindsPinned := by
  cases scope with
  | whole => exact (c.system.backed _).findsPinned_fetch _ p
  | only i => exact (c.system.backed i).findsPinned_fetch _ p

/-- A handle that was had is made a guard, if there is one. -/
theorem andThen_hold_lends {o : Outcome (Client l size) (Handle l size)} {name : String}
    {access : Access} {reply : Handle l size → Reply} (hkept : o.state.Kept capacity)
    (hfinds : o.FindsPinned) (hfails : ∀ e, o.result = .error e → o.state.Lends)
    (hlent : ∀ k, o.result = .ok k →
      Lent o.state.system.view (⟨k, access, false⟩ :: held o.state.guards)) :
    (o.andThen fun k c => (c.hold name ⟨k, access, false⟩).map fun _ => reply k).state.Lends ∧
      (o.andThen fun k c => (c.hold name ⟨k, access, false⟩).map fun _ => reply k).FindsPinned := by
  cases hresult : o.result with
  | error e =>
    rw [Outcome.andThen_of_error hresult]
    exact ⟨hfails e hresult, hfinds⟩
  | ok k =>
    obtain ⟨hlends, hheld⟩ := hold_lends name hkept (hlent k hresult)
    rw [Outcome.andThen_of_ok hresult]
    exact ⟨hlends, (hheld.map _).after hfinds⟩

/-- The guard of a created page is lent the pin that the creation took. -/
theorem newGuard_lends (hkept : c.Kept capacity) (h : c.Lends) (name : String)
    (hspared : ∀ {k : Handle l size}, (c.newHandle scope).result = .ok k → ¬ c.Resident k.page) :
    (c.perform scope (.newGuard name)).state.Lends ∧
      (c.perform scope (.newGuard name)).FindsPinned := by
  obtain ⟨ms, hruns, hcreated⟩ := c.newHandle_runs hkept.system scope fun hk =>
    slot_none_of_not_resident (hspared hk)
  have hnew := (c.newHandle_keeps hkept scope hspared).1
  refine andThen_hold_lends hnew (c.findsPinned_newHandle scope) (fun e hresult => ?_)
    fun k hresult => ?_
  · -- nothing was created: what was moved to make room is quiet
    rw [hresult] at hcreated
    rw [Lends, guards_newHandle]
    exact h.quiet hruns.path hcreated
  · rw [hresult] at hcreated
    rw [guards_newHandle]
    exact h.lend hruns.path hcreated.2 (fun _ => rfl) fun _ => rfl

/-- The guard of a fetched page is lent the pin that the fetch took, whether the page was there or
had to be loaded. -/
theorem fetchGuard_lends (hkept : c.Kept capacity) (h : c.Lends) (access : Access) (p : PageId)
    (name : String) :
    (c.perform scope (.fetchGuard access p name)).state.Lends ∧
      (c.perform scope (.fetchGuard access p name)).FindsPinned := by
  obtain ⟨ms, hruns, hfetched⟩ := c.fetchHandle_runs hkept.system scope p
  have hnew := (c.fetchHandle_keeps hkept scope p).1
  refine andThen_hold_lends hnew (c.findsPinned_fetchHandle scope p) (fun e hresult => ?_)
    fun k hresult => ?_
  · rw [hresult] at hfetched
    rw [Lends, guards_fetchHandle]
    exact h.quiet hruns.path hfetched
  · rw [hresult] at hfetched
    rw [guards_fetchHandle]
    obtain ⟨rfl, -, hends | hends⟩ := hfetched
    -- the page was loaded, or it was there and got one pin more
    all_goals exact h.lend hruns.path hends (fun _ => rfl) fun _ => rfl

/-! ## Everything else -/

/-- A page that can be deleted has no pin, so no guard loses its own. -/
theorem delete_lends (hkept : c.Kept capacity) (h : c.Lends) (p : PageId) :
    (c.delete scope p).state.Lends := by
  obtain ⟨ms, hruns, hms⟩ := c.delete_runs hkept.system scope p
  rw [Lends, guards_delete]
  refine h.pinless hruns.path ?_
  rcases hms with rfl | ⟨rfl, -⟩
  · exact List.forall_mem_nil _
  · exact List.forall_mem_singleton.mpr fun _ => ⟨rfl, rfl⟩

/-- A flush leaves every guard its pin. -/
theorem flush_lends (hkept : c.Kept capacity) (h : c.Lends) (p : PageId) :
    (c.flush scope p).state.Lends := by
  obtain ⟨ms, hruns, hquiet⟩ := c.flush_runs hkept.system scope p
  rw [Lends, guards_flush]
  exact h.quiet hruns.path hquiet

/-- A flush of everything leaves every guard its pin. -/
theorem flushAll_lends (hkept : c.Kept capacity) (h : c.Lends) (visit : Visit) :
    (c.flushAll scope visit).state.Lends := by
  obtain ⟨ms, hruns, hquiet⟩ := c.flushAll_runs hkept.system scope visit
  rw [Lends, guards_flushAll]
  exact h.quiet hruns.path hquiet

/-- Writing into a frame leaves every guard its pin. -/
theorem editFrame_lent {held : List (Guard l size)} (hkept : c.Kept capacity)
    (h : Lent c.system.view held) (k : Handle l size) (edits : List Edit) :
    Lent (c.editFrame k edits).system.view held := by
  obtain ⟨ms, hruns, hms⟩ := c.editFrame_runs hkept.system k edits
  refine h.pinless hruns.path ?_
  rcases hms with rfl | ⟨p, rfl⟩
  · exact List.forall_mem_nil _
  · exact List.forall_mem_singleton.mpr fun _ => ⟨rfl, rfl⟩

/-- A guard that was written through is still one of the same page. -/
theorem writeGuard_lends (hkept : c.Kept capacity) (h : c.Lends) (name : String)
    (edits : List Edit) :
    (c.perform scope (.writeGuard name edits)).state.Lends ∧
      (c.perform scope (.writeGuard name edits)).FindsPinned := by
  rw [perform]
  cases hname : c.guards[name]? with
  | none => exact ⟨h, .silent rfl⟩
  | some g =>
    cases haccess : g.access with
    | read =>
      simp only [haccess]
      exact ⟨h, .silent rfl⟩
    | write =>
      simp only [haccess]
      refine ⟨?_, .silent rfl⟩
      -- the name keeps its page, so each page has the guards it had
      have hinsert := held_insert_perm c.guards name ⟨g.handle, .write, true⟩
      have hedited := editFrame_lent hkept h g.handle edits
      intro p
      have hsame : guardsOf (held c.guards) p = _ := (held_perm hname).countP_eq _
      have hguards : guardsOf (held (c.guards.insert name ⟨g.handle, .write, true⟩)) p = _ :=
        hinsert.countP_eq _
      exact ((hedited p).trans hsame).trans hguards.symm

/-- A call that takes no pins but for guards leaves every guard its pin, and finds each pin that it
gives back. -/
theorem Lends.perform (hkept : c.Kept capacity) (h : c.Lends) (hscope : l.scope? shard = some scope)
    {op : Op} (hguards : op.PinsByGuards) {log : List Entry}
    (hspared : NoTakeover log c ⟨shard, op⟩) :
    (c.perform scope op).state.Lends ∧ (c.perform scope op).FindsPinned := by
  cases op with
  -- these take pins past the guards, so they are not asked
  | newPage | fetch | unpin => exact hguards.elim
  | newGuard name =>
    exact newGuard_lends hkept h name fun hok =>
      hspared _ _ (by simp only [creation?, hscope]) hok
  | fetchGuard access p name => exact fetchGuard_lends hkept h access p name
  | dropGuard name => exact dropGuard_lends hkept h name
  | writeGuard name edits => exact writeGuard_lends hkept h name edits
  | writeHandle name edits =>
    rw [Client.perform]
    split
    · exact ⟨h, .silent rfl⟩
    · exact ⟨editFrame_lent hkept h _ edits, .silent rfl⟩
  | delete p =>
    refine ⟨delete_lends hkept h p, ?_⟩
    cases scope <;> exact (c.system.backed _).findsPinned_delete _ p
  | flush p =>
    refine ⟨flush_lends hkept h p, ?_⟩
    cases scope <;> exact (c.system.backed _).findsPinned_flush _ p
  | flushAll visit =>
    refine ⟨flushAll_lends hkept h visit, ?_⟩
    cases scope with
    | whole => exact System.findsPinned_flushShards visit _
    | only i => exact Backed.findsPinned_sweep (w := c.system.backed i) Backed.noWriter _
  | readHandle | tellHandle | readGuard =>
    rw [Client.perform]
    split <;> exact ⟨h, .silent rfl⟩
  | capacity | shardCount | shardFacts | pins => exact ⟨h, .silent rfl⟩
  | disk op =>
    -- where the pages lie does not depend on the disk
    exact ⟨fun p => h p, c.system.disk.findsPinned_perform op⟩

/-- A step that takes no pins but for guards leaves every guard its pin, and finds each pin that it
gives back. -/
theorem Lends.take (hkept : c.Kept capacity) (h : c.Lends) {step : Step}
    (hguards : step.op.PinsByGuards) {log : List Entry} (hspared : NoTakeover log c step) :
    (c.take step).state.Lends ∧ (c.take step).FindsPinned := by
  rw [Client.take]
  cases hscope : l.scope? step.shard with
  | none => exact ⟨h, .silent rfl⟩
  | some scope => exact h.perform hkept hscope hguards hspared

end Client

end PageCache
