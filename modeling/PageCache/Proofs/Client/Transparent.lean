import PageCache.Proofs.Client.Coherent

/-!
# The pool is a transparent cache

A client that works through guards, and fetches only pages that were created, sees of every page
what it wrote, whatever the pool did in between to make room, and whatever went wrong on the disk
(`Client.transparent`). The reason is that every step keeps the accounts of all pages sound
(`Client.Coherent.take`).
-/

namespace PageCache.Client

open PageCache.System (Runs)

variable {l : Layout} {size : Nat} {capacity : Nat} {c c' : Client l size} {L : Ledger}

/-- The names stand for the guards that the answers have told of. -/
def Named (L : Ledger) (guards : Std.ExtTreeMap String (Guard l size)) : Prop :=
  ∀ name, L.held name = guards[name]?.map fun g : Guard l size => (g.handle.page, g.access)

/-- What is true of a client of which the answers have told `L`. -/
structure Coherent (capacity : Nat) (c : Client l size) (L : Ledger) : Prop where
  kept : c.Kept capacity
  accounts : PageCache.Coherent c.system.view (held c.guards) L
  named : Named L c.guards

namespace Coherent

/-- Quiet moves are not noticed. -/
theorem quiet {ms : List (Move size)} (h : c.Coherent capacity L)
    (hruns : Runs capacity c.system ms c'.system) (hquiet : Move.AllQuiet ms)
    (hguards : c'.guards = c.guards) : c'.Coherent capacity L where
  kept := ⟨hruns.kept, hguards ▸ h.kept.routed⟩
  accounts := hguards ▸ h.accounts.quiet hquiet hruns.path
  named := hguards ▸ h.named

/-! ## Guards -/

/-- A guard that no name stands for is let go of. -/
theorem release_accounts {rest : List (Guard l size)} {g : Guard l size} (hkept : c.Kept capacity)
    (howns : (l.stripe g.handle.shard).Owns g.handle.page)
    (h : PageCache.Coherent c.system.view (g :: rest) L) :
    PageCache.Coherent (c.release g).state.system.view rest L := by
  rw [← Layout.route_eq_of_owns howns] at howns
  -- the page is where the guard says, and has the pin that goes
  have hgrip := mem_grips (List.mem_cons_self : g ∈ g :: rest)
  obtain ⟨frame, hplace⟩ := (h g.handle.page).placed _ hgrip
  have hpins : frame.pins ≠ 0 := by
    rw [(h g.handle.page).pins hplace]
    exact Nat.ne_of_gt (List.length_pos_of_mem hgrip)
  have hruns := c.release_runs hkept.system howns hplace hpins
  exact h.unpin hruns.path.step_of_single

theorem named_hold {guards : Std.ExtTreeMap String (Guard l size)} (h : Named L guards)
    (name : String) (g : Guard l size) :
    Named (L.hold name g.handle.page g.access) (guards.insert name g) := by
  intro name'
  simp only [Ledger.hold, Function.update_apply, Std.ExtTreeMap.getElem?_insert,
    Std.LawfulEqCmp.compare_eq_iff_eq, eq_comm (a := name)]
  split
  · rfl
  · exact h name'

theorem named_drop {guards : Std.ExtTreeMap String (Guard l size)} (h : Named L guards)
    (name : String) : Named (L.drop name) (guards.erase name) := by
  intro name'
  simp only [Ledger.drop, Function.update_apply, Std.ExtTreeMap.getElem?_erase,
    Std.LawfulEqCmp.compare_eq_iff_eq, eq_comm (a := name)]
  split
  · rfl
  · exact h name'

/-- A guard that has been written through keeps its name. -/
theorem named_mark {guards : Std.ExtTreeMap String (Guard l size)} (h : Named L guards)
    {name : String} {g : Guard l size} (hname : guards[name]? = some g) {access : Access}
    (haccess : g.access = access) : Named L (guards.insert name ⟨g.handle, access, true⟩) := by
  intro name'
  rw [Std.ExtTreeMap.getElem?_insert]
  split
  · next hsame =>
    rw [← Std.LawfulEqCmp.compare_eq_iff_eq.mp hsame, h name, hname, ← haccess]
    rfl
  · exact h name'

/-- A guard that was just opened takes its name, and the guard that had the name is let go of. -/
theorem hold {guards : Std.ExtTreeMap String (Guard l size)} (hguards : c.guards = guards)
    (hsystem : c.system.Kept capacity) (hrouted : Routed guards) (hnamed : Named L guards)
    {g : Guard l size} (howns : (l.stripe g.handle.shard).Owns g.handle.page)
    (haccounts : PageCache.Coherent c.system.view (g :: held guards) L) (name : String) :
    (c.hold name g).result = .ok () ∧
      (c.hold name g).state.Coherent capacity (L.hold name g.handle.page g.access) := by
  subst hguards
  have hkept : c.Kept capacity := ⟨hsystem, hrouted⟩
  refine ⟨(hold_still hkept name howns).2, ?_⟩
  have hstill := (hold_still hkept name howns).1.kept
  have hinsert := held_insert_perm c.guards name g
  rw [Client.hold] at hstill ⊢
  cases hname : c.guards[name]? with
  | none =>
    rw [erase_of_none hname] at hinsert
    simp only [hname] at hstill ⊢
    exact ⟨hstill, haccounts.perm hinsert.symm, named_hold hnamed name g⟩
  | some old =>
    simp only [hname] at hstill ⊢
    -- the old guard comes first, the new one after it
    have hperm : (g :: held c.guards).Perm (old :: held (c.guards.insert name g)) :=
      ((held_perm hname).cons g).trans ((List.Perm.swap ..).trans (hinsert.symm.cons old))
    have hheld : ({ c with guards := c.guards.insert name g } : Client l size).Kept capacity :=
      ⟨hkept.system, hkept.routed.insert name howns⟩
    have hrelease := release_accounts (c := { c with guards := c.guards.insert name g }) hheld
      (hkept.routed name old hname) (haccounts.perm hperm)
    refine ⟨hstill, ?_, ?_⟩
    · rw [guards_release]
      exact hrelease
    · rw [guards_release]
      exact named_hold hnamed name g

/-! ## One operation after the other -/

variable {shard : Option Nat} {scope : Scope l}

/-- Dropping a guard. -/
theorem dropGuard (h : c.Coherent capacity L) (name : String) :
    (c.dropGuard name).state.Coherent capacity
      (L.record ⟨⟨shard, .dropGuard name⟩, (c.dropGuard name).result⟩) := by
  have hkept := (c.dropGuard_still h.kept name).kept
  rw [Client.dropGuard] at hkept ⊢
  cases hname : c.guards[name]? with
  | none => exact h
  | some g =>
    simp only [hname] at hkept ⊢
    have howns := h.kept.routed name g hname
    have herased : ({ c with guards := c.guards.erase name } : Client l size).Kept capacity :=
      ⟨h.kept.system, h.kept.routed.erase name⟩
    have hrelease := release_accounts (c := { c with guards := c.guards.erase name }) herased howns
      (h.accounts.perm (held_perm hname))
    rw [← Layout.route_eq_of_owns howns] at howns
    rw [Outcome.result_map, result_release howns, Outcome.state_map]
    refine ⟨hkept, ?_, ?_⟩
    · rw [guards_release]
      exact hrelease
    · rw [guards_release]
      exact named_drop h.named name

/-- A new page, with a guard of it. -/
theorem newGuard (h : c.Coherent capacity L) (hknown : c.system.view.Known L.created)
    (name : String) :
    (c.perform scope (.newGuard name)).state.Coherent capacity
      (L.record ⟨⟨shard, .newGuard name⟩, (c.perform scope (.newGuard name)).result⟩) := by
  have hspared {k : Handle l size} (hok : (c.newHandle scope).result = .ok k) :
      c.system.view.slot k.page = none :=
    hknown.slot_none (unused_of_newHandle h.kept.system hok)
  obtain ⟨ms, hruns, hcreated⟩ := c.newHandle_runs h.kept.system scope hspared
  rw [perform]
  cases hresult : (c.newHandle scope).result with
  | error e =>
    rw [hresult] at hcreated
    rw [Outcome.andThen_of_error hresult]
    exact h.quiet hruns hcreated (guards_newHandle ..)
  | ok k =>
    rw [hresult] at hcreated
    obtain ⟨howns, hends⟩ := hcreated
    obtain ⟨quiet, v, hquiet, hpath, hstep⟩ := hruns.path.of_ends hends
    let g : Guard l size := ⟨k, .write, false⟩
    -- the id is new to the ledger, so nothing was ever written under it
    have hnew := hknown.fresh (unused_of_newHandle h.kept.system hresult)
    have haccounts := (h.accounts.quiet hquiet hpath).create (g := g) hnew rfl hstep
    obtain ⟨hok, hheld⟩ := hold (guards_newHandle ..) hruns.kept h.kept.routed
      (L := L.create k.page) h.named howns haccounts name
    rw [Outcome.andThen_of_ok hresult]
    simp only [Outcome.result_after, Outcome.state_after, Outcome.result_map, Outcome.state_map]
    rw [hok]
    exact hheld

/-- A fetch, with a guard. -/
theorem fetchGuard (h : c.Coherent capacity L) (access : Access) {p : PageId} (name : String)
    (hp : p ∈ L.created) :
    (c.perform scope (.fetchGuard access p name)).state.Coherent capacity
      (L.record ⟨⟨shard, .fetchGuard access p name⟩,
        (c.perform scope (.fetchGuard access p name)).result⟩) := by
  obtain ⟨ms, hruns, hfetched⟩ := c.fetchHandle_runs h.kept.system scope p
  rw [perform]
  cases hresult : (c.fetchHandle scope p).result with
  | error e =>
    rw [hresult] at hfetched
    rw [Outcome.andThen_of_error hresult]
    exact h.quiet hruns hfetched (guards_fetchHandle ..)
  | ok k =>
    rw [hresult] at hfetched
    obtain ⟨rfl, howns, hends⟩ := hfetched
    let g : Guard l size := ⟨k, access, false⟩
    -- the page was resident, or comes back from the store
    have haccounts : PageCache.Coherent (c.fetchHandle scope k.page).state.system.view
        (g :: held c.guards) L := by
      rcases hends with hpin | hload
      · obtain ⟨quiet, v, hquiet, hpath, hstep⟩ := hruns.path.of_ends hpin
        exact (h.accounts.quiet hquiet hpath).pin (g := g) rfl hstep
      · obtain ⟨quiet, v, hquiet, hpath, hstep⟩ := hruns.path.of_ends hload
        exact (h.accounts.quiet hquiet hpath).load (g := g) hp rfl hstep
    obtain ⟨hok, hheld⟩ := hold (guards_fetchHandle ..) hruns.kept h.kept.routed h.named howns
      haccounts name
    rw [Outcome.andThen_of_ok hresult]
    simp only [Outcome.result_after, Outcome.state_after, Outcome.result_map, Outcome.state_map]
    rw [hok]
    exact hheld

/-- A delete, of a page that goes or of one that stays. -/
theorem delete (h : c.Coherent capacity L) (p : PageId) :
    (c.perform scope (.delete p)).state.Coherent capacity
      (L.record ⟨⟨shard, .delete p⟩, (c.perform scope (.delete p)).result⟩) := by
  obtain ⟨ms, hruns, hms⟩ := c.delete_runs h.kept.system scope p
  have hkept := (c.delete_still h.kept scope p).kept
  have hnamed : Named L (c.delete scope p).state.guards := (guards_delete ..).symm ▸ h.named
  rw [perform, Outcome.result_map, Outcome.state_map]
  rcases hms with rfl | ⟨rfl, hresult⟩
  · -- the page was not resident, or stays; the answer may be true all the same
    have hquiet := h.quiet hruns Move.allQuiet_nil (guards_delete ..)
    cases hresult : (c.delete scope p).result with
    | error e => exact hquiet
    | ok deleted =>
      cases deleted with
      | false => exact hquiet
      | true => exact ⟨hkept, hquiet.accounts.delete p, hnamed⟩
  · rw [hresult]
    refine ⟨hkept, ?_, hnamed⟩
    rw [guards_delete]
    exact h.accounts.discard hruns.path.step_of_single

/-- Writing through a guard. -/
theorem writeGuard (h : c.Coherent capacity L) (name : String) (edits : List Edit) :
    (c.perform scope (.writeGuard name edits)).state.Coherent capacity
      (L.record ⟨⟨shard, .writeGuard name edits⟩,
        (c.perform scope (.writeGuard name edits)).result⟩) := by
  rw [perform]
  cases hname : c.guards[name]? with
  | none => exact h
  | some g =>
    cases haccess : g.access with
    | read =>
      simp only [haccess]
      exact h
    | write =>
      simp only [haccess]
      have howns := h.kept.routed name g hname
      obtain ⟨frame, hplace⟩ := (h.accounts g.handle.page).placed _ (mem_grips (mem_held hname))
      have hruns := System.modifyBytes_runs_of_slot h.kept.system howns hplace (Page.edit edits)
      have hedited := (h.accounts.perm (held_perm hname)).edit (Page.edit edits)
        hruns.path.step_of_single
      -- the ledger finds the page under the name
      have hwrite : L.write name edits = { L with
          bytes := Function.update L.bytes g.handle.page
            (.edit edits (L.bytes g.handle.page)) } := by
        rw [Ledger.write, h.named name, hname]
        rfl
      have hinsert := held_insert_perm c.guards name ⟨g.handle, .write, true⟩
      refine ⟨⟨hruns.kept, h.kept.routed.insert name howns⟩, ?_, ?_⟩
      · show PageCache.Coherent _ _ (L.write name edits)
        rw [hwrite]
        exact (haccess ▸ hedited).perm hinsert.symm
      · show Named (L.write name edits) _
        rw [hwrite]
        exact named_mark h.named hname haccess

/-- Flushing changes nothing that the ledger has. -/
theorem flush (h : c.Coherent capacity L) (p : PageId) :
    (c.flush scope p).state.Coherent capacity L := by
  obtain ⟨ms, hruns, hquiet⟩ := c.flush_runs h.kept.system scope p
  exact h.quiet hruns hquiet (guards_flush ..)

/-- Flushing everything changes nothing that the ledger has. -/
theorem flushAll (h : c.Coherent capacity L) (visit : Visit) :
    (c.flushAll scope visit).state.Coherent capacity L := by
  obtain ⟨ms, hruns, hquiet⟩ := c.flushAll_runs h.kept.system scope visit
  exact h.quiet hruns hquiet (guards_flushAll ..)

/-- One operation, by a client that works through guards and fetches created pages only. -/
theorem perform (h : c.Coherent capacity L) (op : Op) (hguards : op.ThroughGuards)
    (hcreated : op.FetchesCreated L)
    (hknown : ∀ name, op = .newGuard name → c.system.view.Known L.created) :
    (c.perform scope op).state.Coherent capacity
      (L.record ⟨⟨shard, op⟩, (c.perform scope op).result⟩) := by
  cases op with
  | newGuard name => exact h.newGuard (hknown name rfl) name
  | fetchGuard access p name => exact h.fetchGuard access name hcreated
  | readGuard name =>
    rw [Client.perform]
    split <;> exact h
  | writeGuard name edits => exact h.writeGuard name edits
  | dropGuard name => exact h.dropGuard name
  | delete p => exact h.delete p
  | flush p => exact h.flush p
  | flushAll visit => exact h.flushAll visit
  | capacity | shardCount | shardFacts | pins => exact h
  | disk op =>
    cases op with
    | setFaults faults => exact ⟨⟨h.kept.system, h.kept.routed⟩, h.accounts, h.named⟩
    | _ => exact hguards.elim
  | _ => exact hguards.elim

/-- One step, and ledger and pool still agree. -/
theorem take (h : c.Coherent capacity L) (step : Step) (hscope : (l.scope? step.shard).isSome)
    (hguards : step.op.ThroughGuards) (hcreated : step.op.FetchesCreated L)
    (hknown : ∀ name, step.op = .newGuard name → c.system.view.Known L.created) :
    (c.take step).state.Coherent capacity (L.record ⟨step, (c.take step).result⟩) := by
  obtain ⟨scope, hscope⟩ := Option.isSome_iff_exists.mp hscope
  rw [Client.take, hscope]
  exact h.perform step.op hguards hcreated hknown

/-- A pool that was just built shows what the disk has. -/
theorem of_build {b : Blueprint} {built : AnyPool} (hbuild : b.build = .ok built)
    (hunloaded : b.Unloaded) {disk : Disk} (durable : Option Lsn) {L : Ledger}
    (hpristine : ∀ p, p ∉ L.created → disk.contents p = .zero)
    (hstored : ∀ p, p ∈ L.created → p ∉ L.deleted → disk.contents p = L.bytes p)
    (hnobody : ∀ name, L.held name = none) :
    (built.start disk durable).Coherent b.capacity L where
  kept := kept_of_build hbuild hunloaded disk durable
  accounts p := by
    have hplace := Blueprint.slot_of_build hbuild hunloaded disk p
    have hheld : held (built.start disk durable).guards = [] :=
      held_eq_nil fun _ => Std.ExtTreeMap.getElem?_empty
    rw [hheld]
    exact .of_place_none hplace rfl (hpristine p) (hstored p)
  named name := (hnobody name).trans (by simp [AnyPool.start, fresh])

/-- The name of a guard shows what its page has to show. -/
theorem take_readGuard (h : c.Coherent capacity L) {name : String} {p : PageId} {access : Access}
    (hheld : L.held name = some (p, access)) (hp : p ∉ L.deleted) :
    c.take ⟨none, .readGuard name⟩ = .ok (.bytes (L.bytes p)) c := by
  rw [h.named name, Option.map_eq_some_iff] at hheld
  obtain ⟨g, hname, hg⟩ := hheld
  obtain ⟨rfl, rfl⟩ := Prod.mk.inj hg
  -- the page is where the guard says
  obtain ⟨frame, hplace⟩ := (h.accounts g.handle.page).placed _ (mem_grips (mem_held hname))
  have hbytes := calc c.system.bytes g.handle
      _ = c.system.view.bytes g.handle.page :=
        System.bytes_eq_of_slot (h.kept.routed name g hname) hplace
      _ = L.bytes g.handle.page :=
        h.accounts.bytes_eq ((h.accounts g.handle.page).resident hplace) hp
  show c.perform .whole (.readGuard name) = _
  rw [Client.perform, hname, ← hbytes]

end Coherent

/-! ## Histories -/

/-- A client that works through guards and fetches created pages only. -/
theorem coherent_of_history {c₀ : Client l size} {log : List Entry}
    (h₀ : c₀.Coherent capacity .empty) (hknown₀ : c₀.system.view.Known [])
    (h : History GuardBased c₀ log c) : c.Coherent capacity (.ofLog log) := by
  -- that new pages have new ids is not part of the accounts, so it goes along beside them
  refine (h.keeps (P := fun log c => c.Coherent capacity (.ofLog log) ∧
    c.system.view.Known (Ledger.ofLog log).created) ⟨h₀, hknown₀⟩ ?_).1
  rintro log c step ⟨hcoherent, hknown⟩ ⟨hscope, hguards, hcreated⟩
  have hkeeps := keeps_take hcoherent.kept step (noTakeover_of_known hcoherent.kept hknown step)
  rw [Ledger.ofLog_concat]
  exact ⟨hcoherent.take step hscope hguards hcreated fun _ _ => hknown,
    hkeeps.known hknown hcreated⟩

/-- Ledger and pool agree throughout every history of guards, on a disk that began with zeros. -/
theorem coherent_of_build {b : Blueprint} {built : AnyPool} (hbuild : b.build = .ok built)
    (hunloaded : b.Unloaded) {disk : Disk} (hdisk : ∀ p, disk.contents p = .zero)
    (durable : Option Lsn) {log : List Entry} {c : Client built.layout built.size}
    (h : History GuardBased (built.start disk durable) log c) :
    c.Coherent b.capacity (.ofLog log) := by
  have hstart := Coherent.of_build (L := .empty) hbuild hunloaded durable (fun p _ => hdisk p)
    (fun p _ _ => hdisk p) fun _ => rfl
  exact coherent_of_history hstart (known_of_build hbuild hunloaded disk durable) h

/-! ## What guards show -/

/-- On any pool, over a disk to which no page was ever written, and after every history of a client
that works through guards and fetches created pages only: a guard on a page that was not deleted
shows what was last written to the page, or zeros. -/
theorem transparent {b : Blueprint} {built : AnyPool} (hbuild : b.build = .ok built)
    (hunloaded : b.Unloaded) {disk : Disk} (hdisk : ∀ p, disk.contents p = .zero)
    (durable : Option Lsn) {log : List Entry} {c : Client built.layout built.size}
    (h : History GuardBased (built.start disk durable) log c) {name : String} {p : PageId}
    {access : Access} (hheld : (Ledger.ofLog log).held name = some (p, access))
    (hp : p ∉ (Ledger.ofLog log).deleted) :
    c.take ⟨none, .readGuard name⟩ = .ok (.bytes ((Ledger.ofLog log).bytes p)) c :=
  (coherent_of_build hbuild hunloaded hdisk durable h).take_readGuard hheld hp

/-- With one frame: a page is written to, does not make room for another while the disk fails, makes
room for it when the disk is back, and shows its bytes when it is fetched again. -/
theorem transparent_one_frame : ∃ log c,
    History GuardBased
        ((AnyPool.fresh (.alone .whole) 1).start (.onMedium (.memory .empty)) none) log c ∧
      log.map Entry.answer = [.ok (.newGuard ⟨0, by decide⟩ ⟨0, by decide⟩), .ok .nothing,
        .ok .nothing, .ok (.disk .nothing), .error (.storage (.io .writeFault)),
        .ok (.disk .nothing), .ok (.newGuard ⟨1, by decide⟩ ⟨1, by decide⟩), .ok .nothing,
        .ok (.guarding ⟨0, by decide⟩)] ∧
      c.take ⟨none, .readGuard "a"⟩ = .ok (.bytes (.edit [.put 7 [42]] .zero)) c := by
  have h : History GuardBased
      ((AnyPool.fresh (.alone .whole) 1).start (.onMedium (.memory .empty)) none) [] _ := .start
  have h := h.step ⟨none, .newGuard "a"⟩ ⟨rfl, trivial, trivial⟩
  have h := h.step ⟨none, .writeGuard "a" [.put 7 [42]]⟩ ⟨rfl, trivial, trivial⟩
  have h := h.step ⟨none, .dropGuard "a"⟩ ⟨rfl, trivial, trivial⟩
  have h := h.step ⟨none, .disk (.setFaults ⟨fun _ => false, fun _ => true⟩)⟩
    ⟨rfl, trivial, trivial⟩
  have h := h.step ⟨none, .newGuard "b"⟩ ⟨rfl, trivial, trivial⟩
  have h := h.step ⟨none, .disk (.setFaults .none)⟩ ⟨rfl, trivial, trivial⟩
  have h := h.step ⟨none, .newGuard "b"⟩ ⟨rfl, trivial, trivial⟩
  have h := h.step ⟨none, .dropGuard "b"⟩ ⟨rfl, trivial, trivial⟩
  have h := h.step ⟨none, .fetchGuard .read ⟨0, by decide⟩ "a"⟩
    ⟨rfl, trivial, List.mem_cons_of_mem _ List.mem_cons_self⟩
  have hbuild : Blueprint.build (.alone 1 1 0 none) = .ok (.fresh (.alone .whole) 1) := rfl
  have hdisk : ∀ p, (Disk.onMedium (.memory .empty)).contents p = .zero := MemoryStore.bytes_empty
  have hshows := transparent hbuild trivial hdisk none h
    (show (Ledger.ofLog _).held "a" = some (⟨0, by decide⟩, .read) from rfl) List.not_mem_nil
  exact ⟨_, _, h, rfl, hshows⟩

end PageCache.Client
