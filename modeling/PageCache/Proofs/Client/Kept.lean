import PageCache.Proofs.Client.Moves
import PageCache.Proofs.Pool.Build

/-!
# What clients keep in agreement

However a client works on a pool, the records of its shards stay in agreement, as long as no page is
created that is resident (`Client.keeps_take`). And it need not come to that: where only pages that
were created are fetched, only such pages are resident, and the ids that new pages get are others
(`View.Known`, `Client.noTakeover_of_known`).
-/

namespace PageCache

open PageCache.System (Runs)

/-! ## Pages that are known -/

/-- A move that brings no page in. -/
def Move.Still {size : Nat} : Move size → Prop
  | load .. | create .. => False
  | _ => True

/-- What only moves pages about brings none in. -/
theorem Move.still_of_quiet {size : Nat} {m : Move size} (h : m.Quiet) : m.Still := by
  cases m <;> trivial

namespace View

/-- Every resident page is one of `created`, and no new page will be. -/
structure Known {size : Nat} (v : View size) (created : List PageId) : Prop where
  resident : ∀ {p : PageId} {place : Fin size × Frame}, v.slot p = some place → p ∈ created
  fresh : ∀ {p : PageId}, v.unused p → p ∉ created

namespace Known

variable {size : Nat} {v v' : View size} {created : List PageId} {p : PageId}

/-- A page that is created was not resident. -/
theorem slot_none (h : v.Known created) (hp : v.unused p) : v.slot p = none :=
  Option.eq_none_iff_forall_not_mem.mpr fun _ hslot => h.fresh hp (h.resident hslot)

/-- A page that is known may come to lie somewhere else, or nowhere. -/
theorem put (h : v.Known created) (hp : p ∈ created) (place : Option (Fin size × Frame)) :
    (v.put p place).Known created where
  resident {q place'} hq := by
    rw [slot_put] at hq
    split at hq
    · next hqp => exact hqp ▸ hp
    · exact h.resident hq
  fresh hq := h.fresh hq

/-- What the store has of a page tells nothing about where it lies. -/
theorem store (h : v.Known created) (p : PageId) (page : Page) : (v.store p page).Known created :=
  ⟨h.resident, h.fresh⟩

/-- A page that is created is known from then on, and its id is used up. -/
theorem create (h : v.Known created) (p : PageId) (place : Option (Fin size × Frame)) :
    ((v.put p place).use p).Known (p :: created) where
  resident {q place'} hq := by
    have hq : (v.put p place).slot q = some place' := hq
    rw [slot_put] at hq
    split at hq
    · next hqp => exact hqp ▸ List.mem_cons_self
    · exact List.mem_cons_of_mem p (h.resident hq)
  fresh {q} hq hmem := by
    obtain ⟨hq, hqp⟩ : v.unused q ∧ q ≠ p := hq
    exact h.fresh hq ((List.mem_cons.mp hmem).resolve_left hqp)

/-- A move that brings no page in adds none to those that have to be known. -/
theorem step {m : Move size} (h : v.Known created) (hm : m.Still) (hstep : Step v m v') :
    v'.Known created := by
  cases hstep with
  | evict hslot | pin hslot | unpin _ hslot | discard hslot | edit _ hslot =>
    -- the page was resident, so it is known
    exact h.put (h.resident hslot) _
  | save hslot => exact (h.put (h.resident hslot) _).store _ _
  | load | create => exact hm.elim

/-- A page that was created may be loaded. -/
theorem of_load {f : Fin size} (h : v.Known created) (hp : p ∈ created)
    (hstep : Step v (.load p f) v') : v'.Known created := by
  cases hstep with
  | load => exact h.put hp _

/-- A creation adds its page to those that are known. -/
theorem of_create {f : Fin size} (h : v.Known created) (hstep : Step v (.create p f) v') :
    v'.Known (p :: created) := by
  cases hstep with
  | create => exact h.create p _

/-- Moves that bring nothing in keep what is known, by induction on the path. -/
theorem path {ms : List (Move size)} (h : v.Known created) (hms : ∀ m ∈ ms, m.Still)
    (hpath : Path v ms v') : v'.Known created := by
  induction hpath with
  | nil => exact h
  | cons hstep _ ih =>
    -- the first move brings no page in, nor do the others
    obtain ⟨hm, hms⟩ := List.forall_mem_cons.mp hms
    exact ih (h.step hm hstep) hms

end Known

end View

namespace Client

variable {l : Layout} {size : Nat} {capacity : Nat} {c c' : Client l size}

/-! ## What is kept -/

/-- A page that no shard has in its table lies nowhere in the view. -/
theorem slot_none_of_not_resident {p : PageId} (h : ¬ c.Resident p) :
    c.system.view.slot p = none := by
  by_cases howns : (l.stripe (l.route p)).Owns p
  · rw [System.slot_view howns, Shard.slot_eq_none_iff, Option.eq_none_iff_forall_not_mem]
    exact fun f hf => h ⟨_, f, hf⟩
  · exact if_neg howns

/-- Every guard is of a page that its shard owns. -/
def Routed (guards : Std.ExtTreeMap String (Guard l size)) : Prop :=
  ∀ (name : String) (g : Guard l size), guards[name]? = some g →
    (l.stripe g.handle.shard).Owns g.handle.page

/-- The records of the pool agree, and the guards are of pages it can have. -/
structure Kept (c : Client l size) (capacity : Nat) : Prop where
  system : c.system.Kept capacity
  routed : Routed c.guards

/-- A guard of a page that its shard owns may be taken under any name. -/
theorem Routed.insert {guards : Std.ExtTreeMap String (Guard l size)} (h : Routed guards)
    (name : String) {g : Guard l size} (hg : (l.stripe g.handle.shard).Owns g.handle.page) :
    Routed (guards.insert name g) := by
  intro name' g' hg'
  simp only [Std.ExtTreeMap.getElem?_insert, Std.LawfulEqCmp.compare_eq_iff_eq] at hg'
  split at hg'
  · exact Option.some.inj hg' ▸ hg
  · exact h _ _ hg'

/-- Any guard may be dropped. -/
theorem Routed.erase {guards : Std.ExtTreeMap String (Guard l size)} (h : Routed guards)
    (name : String) : Routed (guards.erase name) := by
  intro name' g' hg'
  simp only [Std.ExtTreeMap.getElem?_erase, Std.LawfulEqCmp.compare_eq_iff_eq] at hg'
  split at hg'
  · exact absurd hg' (by simp)
  · exact h _ _ hg'

/-- The records still agree, the disk had requests, and no page came in. -/
structure Still (capacity : Nat) (c c' : Client l size) : Prop where
  kept : c'.Kept capacity
  serves : Serves c.system.disk c'.system.disk
  known : ∀ {created : List PageId}, c.system.view.Known created → c'.system.view.Known created

/-- Operations that come down to moves which bring no page in change no more than that. -/
theorem Still.of_runs {ms : List (Move size)} (hruns : Runs capacity c.system ms c'.system)
    (hms : ∀ m ∈ ms, m.Still) (hrouted : Routed c'.guards) : Still capacity c c' :=
  ⟨⟨hruns.kept, hrouted⟩, hruns.serves, fun hknown => hknown.path hms hruns.path⟩

/-- Flushes come down to quiet moves. -/
theorem Still.of_quiet {ms : List (Move size)} (hruns : Runs capacity c.system ms c'.system)
    (hquiet : Move.AllQuiet ms) (hrouted : Routed c'.guards) : Still capacity c c' :=
  .of_runs hruns (fun m hm => Move.still_of_quiet (hquiet m hm)) hrouted

/-- Nothing at all may happen. -/
theorem Still.refl (h : c.Kept capacity) : Still capacity c c :=
  ⟨h, .refl, id⟩

/-! ## One operation after the other -/

/-- An unpin is one move at most, which takes a pin off. -/
theorem unpin_still (h : c.Kept capacity) (scope : Scope l) (p : PageId) (dirty : Bool) :
    Still capacity c (c.unpin scope p dirty).state := by
  obtain ⟨ms, hruns, hmoved⟩ := c.unpin_runs h.system scope p dirty
  refine .of_runs hruns ?_ ((guards_unpin ..).symm ▸ h.routed)
  rcases hmoved.nil_or_single with rfl | rfl
  · exact List.forall_mem_nil _
  · exact List.forall_mem_singleton.mpr trivial

/-- To let go of a guard is to unpin its page. -/
theorem release_still (h : c.Kept capacity) (g : Guard l size) :
    Still capacity c (c.release g).state :=
  state_release c g ▸ c.unpin_still h .whole g.handle.page g.modified

/-- A delete is one move at most, which drops the page. -/
theorem delete_still (h : c.Kept capacity) (scope : Scope l) (p : PageId) :
    Still capacity c (c.delete scope p).state := by
  obtain ⟨ms, hruns, hms⟩ := c.delete_runs h.system scope p
  refine .of_runs hruns ?_ ((guards_delete ..).symm ▸ h.routed)
  rcases hms with rfl | ⟨rfl, -⟩
  · exact List.forall_mem_nil _
  · exact List.forall_mem_singleton.mpr trivial

/-- A flush saves a page, and moves none. -/
theorem flush_still (h : c.Kept capacity) (scope : Scope l) (p : PageId) :
    Still capacity c (c.flush scope p).state := by
  obtain ⟨ms, hruns, hquiet⟩ := c.flush_runs h.system scope p
  exact .of_quiet hruns hquiet ((guards_flush ..).symm ▸ h.routed)

/-- A flush of all pages saves some, and moves none. -/
theorem flushAll_still (h : c.Kept capacity) (scope : Scope l) (visit : Visit) :
    Still capacity c (c.flushAll scope visit).state := by
  obtain ⟨ms, hruns, hquiet⟩ := c.flushAll_runs h.system scope visit
  exact .of_quiet hruns hquiet ((guards_flushAll ..).symm ▸ h.routed)

/-- Bytes may be changed in a frame without any record being wrong. -/
theorem editFrame_still (h : c.Kept capacity) (k : Handle l size) (edits : List Edit) :
    Still capacity c (c.editFrame k edits) := by
  obtain ⟨ms, hruns, hms⟩ := c.editFrame_runs h.system k edits
  refine .of_runs hruns ?_ h.routed
  rcases hms with rfl | ⟨p, rfl⟩
  · exact List.forall_mem_nil _
  · exact List.forall_mem_singleton.mpr trivial

/-- A page is fetched, and is known if it was known before. -/
theorem fetchHandle_keeps (h : c.Kept capacity) (scope : Scope l) (p : PageId) :
    (c.fetchHandle scope p).state.Kept capacity ∧
      Serves c.system.disk (c.fetchHandle scope p).state.system.disk ∧
      (∀ {created : List PageId}, c.system.view.Known created → p ∈ created →
        (c.fetchHandle scope p).state.system.view.Known created) ∧
      ∀ {k : Handle l size}, (c.fetchHandle scope p).result = .ok k →
        k.page = p ∧ (l.stripe k.shard).Owns k.page := by
  obtain ⟨ms, hruns, hfetched⟩ := c.fetchHandle_runs h.system scope p
  refine ⟨⟨hruns.kept, (guards_fetchHandle ..).symm ▸ h.routed⟩, hruns.serves,
    fun hknown hp => ?_, fun hok => ?_⟩
  · cases hresult : (c.fetchHandle scope p).result with
    | error e =>
      rw [hresult] at hfetched
      -- a fetch that fails has moved pages about at most
      exact hknown.path (fun m hm => Move.still_of_quiet (hfetched m hm)) hruns.path
    | ok k =>
      rw [hresult] at hfetched
      obtain ⟨-, -, hpin | hload⟩ := hfetched
      · -- the page was there, and has one pin more
        refine hknown.path (fun m hm => ?_) hruns.path
        rcases hpin.quiet_or_eq hm with hm | rfl
        · exact Move.still_of_quiet hm
        · trivial
      · -- the quiet moves make room, the last one loads
        obtain ⟨quiet, v, hquiet, hpath, hstep⟩ := hruns.path.of_ends hload
        have hv := hknown.path (fun m hm => Move.still_of_quiet (hquiet m hm)) hpath
        exact hv.of_load hp hstep
  · rw [hok] at hfetched
    exact ⟨hfetched.1, hfetched.1 ▸ hfetched.2.1⟩

/-- A page is created, unless that fails, and is known from then on. -/
theorem newHandle_keeps (h : c.Kept capacity) (scope : Scope l)
    (hspared : ∀ {k : Handle l size}, (c.newHandle scope).result = .ok k → ¬ c.Resident k.page) :
    (c.newHandle scope).state.Kept capacity ∧
      Serves c.system.disk (c.newHandle scope).state.system.disk ∧
      (∀ {created : List PageId} {k : Handle l size}, c.system.view.Known created →
        (c.newHandle scope).result = .ok k →
          (c.newHandle scope).state.system.view.Known (k.page :: created)) ∧
      (∀ {created : List PageId} {e : Failure}, c.system.view.Known created →
        (c.newHandle scope).result = .error e →
          (c.newHandle scope).state.system.view.Known created) ∧
      ∀ {k : Handle l size}, (c.newHandle scope).result = .ok k →
        (l.stripe k.shard).Owns k.page := by
  obtain ⟨ms, hruns, hcreated⟩ := c.newHandle_runs h.system scope fun hk =>
    slot_none_of_not_resident (hspared hk)
  refine ⟨⟨hruns.kept, (guards_newHandle ..).symm ▸ h.routed⟩, hruns.serves,
    fun hknown hok => ?_, fun hknown herror => ?_, fun hok => ?_⟩
  · -- the quiet moves make room, the last one creates
    rw [hok] at hcreated
    obtain ⟨quiet, v, hquiet, hpath, hstep⟩ := hruns.path.of_ends hcreated.2
    have hv := hknown.path (fun m hm => Move.still_of_quiet (hquiet m hm)) hpath
    exact hv.of_create hstep
  · rw [herror] at hcreated
    exact hknown.path (fun m hm => Move.still_of_quiet (hcreated m hm)) hruns.path
  · rw [hok] at hcreated
    exact hcreated.1

/-- Taking a guard lets go of the one the name stood for before. -/
theorem hold_still (h : c.Kept capacity) (name : String) {g : Guard l size}
    (hg : (l.stripe g.handle.shard).Owns g.handle.page) :
    Still capacity c (c.hold name g).state ∧ (c.hold name g).result = .ok () := by
  -- the name is the new guard's before the old one is let go of
  let held := { c with guards := c.guards.insert name g }
  have hheld : held.Kept capacity := ⟨h.system, h.routed.insert name hg⟩
  rw [hold]
  cases hold : c.guards[name]? with
  | none => exact ⟨⟨hheld, .refl, id⟩, rfl⟩
  | some old =>
    have howns := h.routed name old hold
    rw [← Layout.route_eq_of_owns howns] at howns
    have hrelease := held.release_still hheld old
    exact ⟨⟨hrelease.kept, hrelease.serves, hrelease.known⟩, result_release howns⟩

/-- A guard that is dropped takes its pin with it. -/
theorem dropGuard_still (h : c.Kept capacity) (name : String) :
    Still capacity c (c.dropGuard name).state := by
  rw [dropGuard]
  cases hname : c.guards[name]? with
  | none => exact .refl h
  | some g =>
    have hrelease := release_still (c := { c with guards := c.guards.erase name })
      ⟨h.system, h.routed.erase name⟩ g
    exact ⟨hrelease.kept, hrelease.serves, hrelease.known⟩

/-! ## Steps -/

/-- What a step keeps that was answered as `entry` says. -/
structure Keeps (capacity : Nat) (c : Client l size) (entry : Entry) (c' : Client l size) :
    Prop where
  kept : c'.Kept capacity
  serves : (∀ op, entry.step.op ≠ .disk op) → Serves c.system.disk c'.system.disk
  known : ∀ {L : Ledger}, c.system.view.Known L.created → entry.step.op.FetchesCreated L →
    c'.system.view.Known (L.record entry).created

/-- An operation that brings no page in keeps what a step has to, if its answer tells of no new
page. -/
theorem Still.keeps {entry : Entry} (h : Still capacity c c')
    (hcreated : Ledger.created? entry = none) : Keeps capacity c entry c' where
  kept := h.kept
  serves _ := h.serves
  known hknown _ := by
    rw [Ledger.created_record, hcreated]
    exact h.known hknown

variable {shard : Option Nat} {scope : Scope l}

/-- A step that creates a page for a handle. -/
theorem newPage_keeps (h : c.Kept capacity) (name : String)
    (hspared : ∀ {k : Handle l size}, (c.newHandle scope).result = .ok k → ¬ c.Resident k.page) :
    Keeps capacity c ⟨⟨shard, .newPage name⟩, (c.perform scope (.newPage name)).result⟩
      (c.perform scope (.newPage name)).state := by
  obtain ⟨hkept, hserves, hcreates, hfails, -⟩ := c.newHandle_keeps h scope hspared
  rw [perform]
  cases hresult : (c.newHandle scope).result with
  | error e =>
    rw [Outcome.andThen_of_error hresult]
    exact ⟨hkept, fun _ => hserves, fun hknown _ => hfails hknown hresult⟩
  | ok k =>
    rw [Outcome.andThen_of_ok hresult]
    exact ⟨⟨hkept.system, hkept.routed⟩, fun _ => hserves, fun hknown _ => hcreates hknown hresult⟩

/-- A step that creates a page for a guard, and lets go of the guard that had the name. -/
theorem newGuard_keeps (h : c.Kept capacity) (name : String)
    (hspared : ∀ {k : Handle l size}, (c.newHandle scope).result = .ok k → ¬ c.Resident k.page) :
    Keeps capacity c ⟨⟨shard, .newGuard name⟩, (c.perform scope (.newGuard name)).result⟩
      (c.perform scope (.newGuard name)).state := by
  obtain ⟨hkept, hserves, hcreates, hfails, howns⟩ := c.newHandle_keeps h scope hspared
  rw [perform]
  cases hresult : (c.newHandle scope).result with
  | error e =>
    rw [Outcome.andThen_of_error hresult]
    exact ⟨hkept, fun _ => hserves, fun hknown _ => hfails hknown hresult⟩
  | ok k =>
    obtain ⟨hstill, hok⟩ := hold_still hkept name (g := ⟨k, .write, false⟩) (howns hresult)
    rw [Outcome.andThen_of_ok hresult]
    refine ⟨hstill.kept, fun _ => hserves.trans hstill.serves, fun hknown _ => ?_⟩
    simp only [Outcome.result_after, Outcome.result_map, hok]
    exact hstill.known (hcreates hknown hresult)

/-- A step that fetches a page for a handle. -/
theorem fetch_keeps (h : c.Kept capacity) (p : PageId) (name : String) :
    Keeps capacity c ⟨⟨shard, .fetch p name⟩, (c.perform scope (.fetch p name)).result⟩
      (c.perform scope (.fetch p name)).state := by
  obtain ⟨hkept, hserves, hknown', -⟩ := c.fetchHandle_keeps h scope p
  rw [perform]
  cases hresult : (c.fetchHandle scope p).result with
  | error e =>
    rw [Outcome.andThen_of_error hresult]
    exact ⟨hkept, fun _ => hserves, fun hknown hp => hknown' hknown hp⟩
  | ok k =>
    rw [Outcome.andThen_of_ok hresult]
    exact ⟨⟨hkept.system, hkept.routed⟩, fun _ => hserves, fun hknown hp => hknown' hknown hp⟩

/-- A step that fetches a page for a guard. The guard is of a page that its shard owns, for the
fetch succeeded. -/
theorem fetchGuard_keeps (h : c.Kept capacity) (access : Access) (p : PageId) (name : String) :
    Keeps capacity c
      ⟨⟨shard, .fetchGuard access p name⟩, (c.perform scope (.fetchGuard access p name)).result⟩
      (c.perform scope (.fetchGuard access p name)).state := by
  obtain ⟨hkept, hserves, hknown', howns⟩ := c.fetchHandle_keeps h scope p
  rw [perform]
  cases hresult : (c.fetchHandle scope p).result with
  | error e =>
    rw [Outcome.andThen_of_error hresult]
    exact ⟨hkept, fun _ => hserves, fun hknown hp => hknown' hknown hp⟩
  | ok k =>
    obtain ⟨hstill, hok⟩ := hold_still hkept name (g := ⟨k, access, false⟩) (howns hresult).2
    rw [Outcome.andThen_of_ok hresult]
    refine ⟨hstill.kept, fun _ => hserves.trans hstill.serves, fun hknown hp => ?_⟩
    simp only [Outcome.result_after, Outcome.result_map, hok]
    exact hstill.known (hknown' hknown hp)

/-- Writing through a guard touches no record, and the guard stays one of the same page. -/
theorem writeGuard_still (h : c.Kept capacity) (name : String) (edits : List Edit) :
    Still capacity c (c.perform scope (.writeGuard name edits)).state := by
  rw [perform]
  cases hname : c.guards[name]? with
  | none => exact .refl h
  | some g =>
    cases haccess : g.access with
    | read =>
      simp only [haccess]
      exact .refl h
    | write =>
      simp only [haccess]
      have hedit := c.editFrame_still h g.handle edits
      have hrouted := h.routed.insert name (g := ⟨g.handle, .write, true⟩) (h.routed name g hname)
      exact ⟨⟨hedit.kept.system, hrouted⟩, hedit.serves, hedit.known⟩

/-- A step keeps the records in agreement if it takes over no resident page. -/
theorem keeps_perform (h : c.Kept capacity) (hscope : l.scope? shard = some scope) (op : Op)
    {log : List Entry} (hspared : NoTakeover log c ⟨shard, op⟩) :
    Keeps capacity c ⟨⟨shard, op⟩, (c.perform scope op).result⟩ (c.perform scope op).state := by
  have hspared' (hop : c.creation? ⟨shard, op⟩ = some (c.newHandle scope)) {k : Handle l size}
      (hok : (c.newHandle scope).result = .ok k) : ¬ c.Resident k.page :=
    hspared _ k hop hok
  cases op with
  | newPage name => exact newPage_keeps h name (hspared' (by simp only [creation?, hscope]))
  | newGuard name => exact newGuard_keeps h name (hspared' (by simp only [creation?, hscope]))
  | fetch p name => exact fetch_keeps h p name
  | fetchGuard access p name => exact fetchGuard_keeps h access p name
  | unpin p dirty => exact (c.unpin_still h scope p dirty).keeps rfl
  | delete p => exact (c.delete_still h scope p).keeps rfl
  | flush p => exact (c.flush_still h scope p).keeps rfl
  | flushAll visit => exact (c.flushAll_still h scope visit).keeps rfl
  | writeHandle name edits =>
    rw [perform]
    split
    · exact (Still.refl h).keeps rfl
    · exact (c.editFrame_still h _ edits).keeps rfl
  | writeGuard name edits => exact (writeGuard_still h name edits).keeps rfl
  | dropGuard name => exact (c.dropGuard_still h name).keeps rfl
  | readHandle | tellHandle | readGuard =>
    rw [perform]
    split <;> exact (Still.refl h).keeps rfl
  | capacity | shardCount | shardFacts | pins => exact (Still.refl h).keeps rfl
  | disk op =>
    -- whatever the disk has now, the pages lie where they lay
    exact ⟨⟨h.system, h.routed⟩, fun hop => absurd rfl (hop op),
      fun hknown _ => ⟨hknown.resident, hknown.fresh⟩⟩

/-- The shard of a step has to be found first. If there is none, nothing happens. -/
theorem keeps_take (h : c.Kept capacity) (step : Step) {log : List Entry}
    (hspared : NoTakeover log c step) :
    Keeps capacity c ⟨step, (c.take step).result⟩ (c.take step).state := by
  rw [take]
  cases hscope : l.scope? step.shard with
  -- there is no such shard
  | none => exact (Still.refl h).keeps (Ledger.created?_nothing step)
  | some scope => exact keeps_perform h hscope step.op hspared

/-- A step is a creation only if it has a shard or the pool to ask. -/
theorem creation?_eq_some {step : Step} {o : Outcome (Client l size) (Handle l size)}
    (h : c.creation? step = some o) : ∃ scope, l.scope? step.shard = some scope ∧
      o = c.newHandle scope := by
  rw [creation?] at h
  split at h
  · next hscope => exact ⟨_, hscope, (Option.some.inj h).symm⟩
  · next hscope => exact ⟨_, hscope, (Option.some.inj h).symm⟩
  · exact absurd h (by simp)

/-- A step that creates no page takes none over. -/
theorem noTakeover_of_none {log : List Entry} {step : Step} (h : c.creation? step = none) :
    NoTakeover log c step :=
  fun _ _ ho => absurd (h.symm.trans ho) (by simp)

/-- Where resident pages are known, the ids that are still to be given out are of others. -/
theorem not_resident_of_unused (h : c.Kept capacity) {created : List PageId} {p : PageId}
    (hknown : c.system.view.Known created) (hp : c.system.view.unused p) : ¬ c.Resident p := by
  rintro ⟨i, f, hf⟩
  have hnone := hknown.slot_none hp
  rw [System.slot_view ((h.system i).owned hf), Shard.slot_eq_none_iff] at hnone
  exact absurd (hf.symm.trans hnone) (by simp)

/-- Where resident pages are known, none of them is taken over. -/
theorem noTakeover_of_known (h : c.Kept capacity) {log : List Entry}
    (hknown : c.system.view.Known (Ledger.ofLog log).created) (step : Step) :
    NoTakeover log c step := by
  intro o k ho hok
  obtain ⟨scope, -, rfl⟩ := creation?_eq_some ho
  -- the page that is created was still to be given out
  exact not_resident_of_unused h hknown (unused_of_newHandle h.system hok)

/-! ## Histories -/

/-- Every pool starts with its records in agreement and without guards. -/
theorem kept_of_build {b : Blueprint} {built : AnyPool} (hbuild : b.build = .ok built)
    (h : b.Unloaded) (disk : Disk) (durable : Option Lsn) :
    (built.start disk durable).Kept b.capacity :=
  ⟨Blueprint.kept_of_build hbuild h disk, fun _ _ hg => absurd hg (by simp [AnyPool.start, fresh])⟩

/-- At the start no page is resident, so all that are have been created. -/
theorem known_of_build {b : Blueprint} {built : AnyPool} (hbuild : b.build = .ok built)
    (h : b.Unloaded) (disk : Disk) (durable : Option Lsn) :
    (built.start disk durable).system.view.Known [] where
  resident {p place} hslot :=
    absurd ((Blueprint.slot_of_build hbuild h disk p).symm.trans hslot) (by simp)
  fresh _ := List.not_mem_nil

/-- The records agree after every history in which no resident page is taken over. -/
theorem kept_of_history {c₀ : Client l size} {log : List Entry} (h₀ : c₀.Kept capacity)
    (h : History NoTakeover c₀ log c) : c.Kept capacity :=
  h.keeps (P := fun _ c => c.Kept capacity) h₀ fun step hkept hspared =>
    (keeps_take hkept step hspared).kept

/-- What every request of a pool keeps of the medium, a step keeps that works through guards. -/
theorem medium_take {P : Medium → Prop}
    (hserves : ∀ {d e : Disk}, Serves d e → P d.medium → P e.medium) (h : c.Kept capacity)
    {log : List Entry} {step : Step} (hspared : NoTakeover log c step)
    (hguards : step.op.ThroughGuards) (hmedium : P c.system.disk.medium) :
    P (c.take step).state.system.disk.medium := by
  have hkeeps := keeps_take h step hspared
  obtain ⟨shard, op⟩ := step
  cases op with
  | disk op =>
    cases op with
    -- of what may be asked of the disk, a step through guards sets faults at most
    | setFaults faults =>
      rw [take]
      split <;> exact hmedium
    | _ => exact hguards.elim
  | _ => exact hserves (hkeeps.serves fun _ hop => absurd hop (by simp)) hmedium

/-- What the requests of a pool keep of the medium holds after every history that works through
guards. -/
theorem medium_of_history {P : Medium → Prop}
    (hserves : ∀ {d e : Disk}, Serves d e → P d.medium → P e.medium) {c₀ : Client l size}
    {log : List Entry} (h₀ : c₀.Kept capacity) (hknown₀ : c₀.system.view.Known [])
    (hmedium₀ : P c₀.system.disk.medium) (h : History GuardBased c₀ log c) :
    P c.system.disk.medium := by
  refine (h.keeps (P := fun log c => c.Kept capacity ∧
    c.system.view.Known (Ledger.ofLog log).created ∧ P c.system.disk.medium)
    ⟨h₀, hknown₀, hmedium₀⟩ ?_).2.2
  rintro log c step ⟨hkept, hknown, hmedium⟩ ⟨-, hguards, hcreated⟩
  have hspared := noTakeover_of_known hkept hknown step
  have hkeeps := keeps_take hkept step hspared
  rw [Ledger.ofLog_concat]
  exact ⟨hkeeps.kept, hkeeps.known hknown hcreated,
    medium_take hserves hkept hspared hguards hmedium⟩

/-- A history that fetches created pages only takes no page over. -/
theorem noTakeover_of_fetchesCreated {c₀ : Client l size} {log : List Entry}
    (h₀ : c₀.Kept capacity) (hknown₀ : c₀.system.view.Known [])
    (h : History FetchesCreated c₀ log c) :
    History NoTakeover c₀ log c ∧
      c.Kept capacity ∧ c.system.view.Known (Ledger.ofLog log).created := by
  -- neither is an invariant without the other: what is known spares pages, and only a step that
  -- spares pages keeps the records in agreement
  refine h.allowing (P := fun log c => c.Kept capacity ∧
    c.system.view.Known (Ledger.ofLog log).created) ⟨h₀, hknown₀⟩ ?_
  rintro log c step ⟨hkept, hknown⟩ hfetch
  have hspared := noTakeover_of_known hkept hknown step
  have hkeeps := keeps_take hkept step hspared
  refine ⟨hspared, hkeeps.kept, ?_⟩
  rw [Ledger.ofLog_concat]
  exact hkeeps.known hknown hfetch

end Client

end PageCache
