import Mathlib.Logic.Function.Basic
import PageCache.Shard.Basic

/-!
# What becomes of pages

Whatever a pool does, it does a few things to a few pages, one at a time: a page is written to the
store, leaves its frame, gets a frame, gains or loses a pin, has its bytes changed. A `View` is what
these moves are about, with the records of the shards left out, and a `Move` is one of them.
`View.Step` says when a move may be made and what it leads to.

An operation of a pool is specified by the moves it makes (`View.Path`). What every move keeps is
kept by every operation.

* `Move.Quiet`: the moves a pool makes unasked, to make room or to be on the safe side.
* `View.Path.append`, `View.Path.of_ends`: paths are put together, and taken apart again.
* `View.Path.slot_of_pinned`: quiet moves leave a pinned page where it is.
* `View.Path.pinned`: so do all moves that take no pin off and change no bytes.
-/

namespace PageCache

/-- What there is to see of the pages of a pool. -/
@[ext]
structure View (size : Nat) where
  /-- Where a resident page lies, with its frame. -/
  slot : PageId → Option (Fin size × Frame)
  /-- What the store has of a page. -/
  stored : PageId → Page
  /-- The ids that new pages are still to be given. -/
  unused : PageId → Prop

inductive Move (size : Nat)
  /-- Page `p` goes from its frame, of which the store has everything. -/
  | evict (p : PageId)
  /-- The bytes of page `p` go to the store. -/
  | save (p : PageId)
  | load (p : PageId) (f : Fin size)
  | create (p : PageId) (f : Fin size)
  | pin (p : PageId) (f : Fin size)
  | unpin (p : PageId) (dirty : Bool)
  /-- Page `p` goes from its frame, with what the store does not have of it. -/
  | discard (p : PageId)
  | edit (p : PageId) (g : Page → Page)

/-- The page that is moved. -/
def Move.page {size : Nat} : Move size → PageId
  | evict p | save p | load p _ | create p _ | pin p _ | unpin p _ | discard p | edit p _ => p

/-- A move that a pool makes unasked. -/
def Move.Quiet {size : Nat} : Move size → Prop
  | evict _ | save _ => True
  | _ => False

namespace Move

variable {size : Nat}

/-- Only quiet moves. -/
def AllQuiet (ms : List (Move size)) : Prop :=
  ∀ m ∈ ms, m.Quiet

/-- Quiet moves, and `m` at the end. -/
def Ends (m : Move size) (ms : List (Move size)) : Prop :=
  ∃ quiet, AllQuiet quiet ∧ ms = quiet ++ [m]

/-- No moves are quiet moves. -/
theorem allQuiet_nil : AllQuiet ([] : List (Move size)) :=
  List.forall_mem_nil _

/-- Quiet moves after quiet moves are quiet moves. -/
theorem AllQuiet.append {ms ms' : List (Move size)} (h : AllQuiet ms) (h' : AllQuiet ms') :
    AllQuiet (ms ++ ms') :=
  List.forall_mem_append.mpr ⟨h, h'⟩

/-- A move by itself ends with that move. -/
theorem ends_single (m : Move size) : m.Ends [m] :=
  ⟨[], allQuiet_nil, rfl⟩

/-- After quiet moves, any move is one that they end with. -/
theorem AllQuiet.ends {ms : List (Move size)} (h : AllQuiet ms) (m : Move size) :
    m.Ends (ms ++ [m]) :=
  ⟨ms, h, rfl⟩

/-- More quiet moves may come before. -/
theorem Ends.after {m : Move size} {ms quiet : List (Move size)} (h : m.Ends ms)
    (hquiet : AllQuiet quiet) : m.Ends (quiet ++ ms) := by
  obtain ⟨ms, hms, rfl⟩ := h
  exact ⟨quiet ++ ms, hquiet.append hms, (List.append_assoc ..).symm⟩

/-- Each of the moves is quiet, or it is the last one. -/
theorem Ends.quiet_or_eq {m m' : Move size} {ms : List (Move size)} (h : m.Ends ms)
    (hm' : m' ∈ ms) : m'.Quiet ∨ m' = m := by
  obtain ⟨quiet, hquiet, rfl⟩ := h
  exact (List.mem_append.mp hm').imp (hquiet m') List.mem_singleton.mp

/-- A move that takes no pin off and changes no bytes. -/
def Gentle : Move size → Prop
  | unpin .. | edit .. => False
  | _ => True

/-- Quiet moves take no pin off and change no bytes. -/
theorem gentle_of_quiet {m : Move size} (h : m.Quiet) : m.Gentle := by
  cases m <;> trivial

end Move

namespace View

variable {size : Nat}

/-- The view with page `p` somewhere else, or nowhere. -/
def put (v : View size) (p : PageId) (place : Option (Fin size × Frame)) : View size :=
  { v with slot := Function.update v.slot p place }

/-- The view with `page` in the store as page `p`. -/
def store (v : View size) (p : PageId) (page : Page) : View size :=
  { v with stored := Function.update v.stored p page }

/-- The view with id `p` given out. -/
def use (v : View size) (p : PageId) : View size :=
  { v with unused := fun q => v.unused q ∧ q ≠ p }

/-- What a reader of page `p` is to see: the bytes in its frame, or else those in the store. -/
def bytes (v : View size) (p : PageId) : Page :=
  match v.slot p with
  | some (_, frame) => frame.bytes
  | none => v.stored p

/-- Page `p` has nothing in its frame that the store has to be told of. -/
def Clean (v : View size) (p : PageId) : Prop :=
  ∀ (f : Fin size) (frame : Frame), v.slot p = some (f, frame) → frame.dirty = false

/-- `Step v m v'`: move `m` may be made in `v`, and leads to `v'`. -/
inductive Step (v : View size) : Move size → View size → Prop
  | evict {p : PageId} {f : Fin size} {frame : Frame} (hslot : v.slot p = some (f, frame))
      (hpins : frame.pins = 0) (hclean : frame.dirty = false) : Step v (.evict p) (v.put p none)
  | save {p : PageId} {f : Fin size} {frame : Frame} (hslot : v.slot p = some (f, frame))
      (hdirty : frame.dirty = true) :
      Step v (.save p) ((v.put p (some (f, { frame with dirty := false }))).store p frame.bytes)
  | load {p : PageId} (f : Fin size) (hslot : v.slot p = none) :
      Step v (.load p f) (v.put p (some (f, .holding p (v.stored p))))
  | create {p : PageId} (f : Fin size) (hslot : v.slot p = none) (hunused : v.unused p) :
      Step v (.create p f) ((v.put p (some (f, .holding p .zero))).use p)
  | pin {p : PageId} {f : Fin size} {frame : Frame} (hslot : v.slot p = some (f, frame)) :
      Step v (.pin p f) (v.put p (some (f, { frame with pins := frame.pins + 1 })))
  | unpin {p : PageId} {f : Fin size} {frame : Frame} (dirty : Bool)
      (hslot : v.slot p = some (f, frame)) (hpins : frame.pins ≠ 0) :
      Step v (.unpin p dirty) (v.put p
        (some (f, { frame with pins := frame.pins - 1, dirty := frame.dirty || dirty })))
  | discard {p : PageId} {f : Fin size} {frame : Frame} (hslot : v.slot p = some (f, frame))
      (hpins : frame.pins = 0) : Step v (.discard p) (v.put p none)
  | edit {p : PageId} {f : Fin size} {frame : Frame} (g : Page → Page)
      (hslot : v.slot p = some (f, frame)) :
      Step v (.edit p g) (v.put p (some (f, { frame with bytes := g frame.bytes })))

/-- `Path v ms v'`: the moves `ms`, made in turn, lead from `v` to `v'`. -/
inductive Path : View size → List (Move size) → View size → Prop
  | nil (v : View size) : Path v [] v
  | cons {v v' v'' : View size} {m : Move size} {ms : List (Move size)} (hstep : Step v m v')
      (hrest : Path v' ms v'') : Path v (m :: ms) v''

variable {v v' v'' : View size} {p q : PageId}

/-! ## Lookups after updates -/

theorem slot_put (v : View size) (p q : PageId) (place : Option (Fin size × Frame)) :
    (v.put p place).slot q = if q = p then place else v.slot q :=
  Function.update_apply ..

theorem slot_put_self (v : View size) (p : PageId) (place : Option (Fin size × Frame)) :
    (v.put p place).slot p = place :=
  Function.update_self ..

theorem slot_put_of_ne (v : View size) {p q : PageId} (h : q ≠ p)
    (place : Option (Fin size × Frame)) : (v.put p place).slot q = v.slot q :=
  Function.update_of_ne h ..

/-- What was put somewhere and then elsewhere is where it was put last. -/
theorem put_put_store (v : View size) (p : PageId) (place place' : Option (Fin size × Frame))
    (page : Page) :
    ((v.put p place).store p page).put p place' = (v.put p place').store p page := by
  simp only [put, store, Function.update_idem]

/-- A resident page shows the bytes in its frame. -/
theorem bytes_of_slot {f : Fin size} {frame : Frame} (h : v.slot p = some (f, frame)) :
    v.bytes p = frame.bytes := by
  rw [bytes, h]

/-- A move concerns one page. -/
theorem Step.elsewhere {m : Move size} (h : Step v m v') (hq : q ≠ m.page) :
    v'.slot q = v.slot q ∧ v'.stored q = v.stored q ∧ (v'.unused q ↔ v.unused q) := by
  cases h with
  | evict | load | pin | unpin | discard | edit =>
    exact ⟨v.slot_put_of_ne hq _, rfl, .rfl⟩
  -- the one move that the store takes part in
  | save => exact ⟨v.slot_put_of_ne hq _, Function.update_of_ne hq .., .rfl⟩
  | create => exact ⟨v.slot_put_of_ne hq _, rfl, and_iff_left hq⟩

/-! ## Paths -/

namespace Path

variable {ms ms' : List (Move size)} {m : Move size}

/-- One move is a path. -/
theorem single (h : Step v m v') : Path v [m] v' :=
  .cons h (.nil v')

/-- Where one path ends, another may go on. -/
theorem append (h : Path v ms v') (h' : Path v' ms' v'') : Path v (ms ++ ms') v'' := by
  induction h with
  | nil => exact h'
  | cons hstep _ ih => exact .cons hstep (ih h')

/-- A path of two parts comes to a view in between. -/
theorem of_append (h : Path v (ms ++ ms') v'') : ∃ v', Path v ms v' ∧ Path v' ms' v'' := by
  -- taken apart move by move, as the path was built
  induction ms generalizing v with
  | nil => exact ⟨v, .nil v, h⟩
  | cons m ms ih =>
    cases h with
    | cons hstep hrest =>
      obtain ⟨v', hms, hms'⟩ := ih hrest
      exact ⟨v', .cons hstep hms, hms'⟩

/-- A path of one move is that move. -/
theorem step_of_single (h : Path v [m] v') : Step v m v' := by
  cases h with
  | cons hstep hrest =>
    cases hrest
    exact hstep

/-- A path that ends with a move comes to where that move is made. -/
theorem of_ends (h : Path v ms v'') (hm : m.Ends ms) :
    ∃ quiet v', Move.AllQuiet quiet ∧ Path v quiet v' ∧ Step v' m v'' := by
  obtain ⟨quiet, hquiet, rfl⟩ := hm
  -- where the quiet moves come to, the last one is made
  obtain ⟨v', hpath, hlast⟩ := h.of_append
  exact ⟨quiet, v', hquiet, hpath, hlast.step_of_single⟩

/-- What every move of a kind keeps is kept by paths of such moves. -/
theorem keeps {Kind : Move size → Prop} {P : View size → Prop} (h : Path v ms v')
    (hms : ∀ m ∈ ms, Kind m)
    (hkeeps : ∀ {v v' : View size} {m : Move size}, Kind m → Step v m v' → P v → P v')
    (hv : P v) : P v' := by
  induction h with
  | nil => exact hv
  | cons hstep _ ih =>
    obtain ⟨hm, hms⟩ := List.forall_mem_cons.mp hms
    exact ih hms (hkeeps hm hstep hv)

end Path

/-! ## Quiet moves -/

/-- No page comes in by a quiet move. -/
theorem Step.slot_none_of_quiet {m : Move size} (hm : m.Quiet) (h : Step v m v')
    (hp : v.slot p = none) : v'.slot p = none := by
  cases h with
  | evict hslot => rw [slot_put]; split <;> trivial
  | save hslot =>
    refine (slot_put_of_ne _ ?_ _).trans hp
    -- only a resident page is saved
    rintro rfl
    exact absurd (hp.symm.trans hslot) (by simp)
  | _ => exact hm.elim

/-- No page comes in by quiet moves. -/
theorem Path.slot_none_of_quiet {ms : List (Move size)} (h : Path v ms v')
    (hquiet : Move.AllQuiet ms) (hp : v.slot p = none) : v'.slot p = none :=
  h.keeps hquiet (P := fun v => v.slot p = none) (fun hm hstep => hstep.slot_none_of_quiet hm) hp

/-- No id is given out by a quiet move. -/
theorem Step.unused_of_quiet {m : Move size} (hm : m.Quiet) (h : Step v m v') :
    v'.unused = v.unused := by
  cases h with
  | evict | save => rfl
  | _ => exact hm.elim

/-- No id is given out by quiet moves. -/
theorem Path.unused_of_quiet {ms : List (Move size)} (h : Path v ms v')
    (hquiet : Move.AllQuiet ms) : v'.unused = v.unused :=
  h.keeps hquiet (P := fun w => w.unused = v.unused)
    (fun hm hstep hw => (hstep.unused_of_quiet hm).trans hw) rfl

/-- A quiet move does not make a page dirty. -/
theorem Step.clean_of_quiet {m : Move size} (hm : m.Quiet) (h : Step v m v') (hp : v.Clean p) :
    v'.Clean p := by
  cases h with
  -- a page that is nowhere is clean
  | @evict q =>
    intro f frame hslot
    rw [slot_put] at hslot
    split at hslot
    · exact absurd hslot (by simp)
    · exact hp _ _ hslot
  | @save q =>
    intro f frame hslot
    have hslot : (v.put q _).slot p = some (f, frame) := hslot
    rw [slot_put] at hslot
    split at hslot
    · obtain ⟨-, rfl⟩ := Prod.mk.inj (Option.some.inj hslot)
      rfl
    · exact hp _ _ hslot
  | _ => exact hm.elim

/-- A page that was saved is clean. -/
theorem Step.clean_of_save (h : Step v (.save p) v') : v'.Clean p := by
  cases h with
  | @save _ f frame =>
    intro g frame' hslot
    have hslot : (v.put p (some (f, { frame with dirty := false }))).slot p = some (g, frame') :=
      hslot
    rw [slot_put_self] at hslot
    obtain ⟨-, rfl⟩ := Prod.mk.inj (Option.some.inj hslot)
    rfl

/-- Quiet moves do not make a page dirty. -/
theorem Path.clean_of_quiet {ms : List (Move size)} (h : Path v ms v')
    (hquiet : Move.AllQuiet ms) (hp : v.Clean p) : v'.Clean p :=
  h.keeps hquiet (P := fun v => v.Clean p) (fun hm hstep => hstep.clean_of_quiet hm) hp

/-- A quiet move leaves a pinned page where it is, with its pins and its bytes. -/
theorem Step.slot_of_pinned {m : Move size} {f : Fin size} {frame : Frame} (hm : m.Quiet)
    (h : Step v m v') (hp : v.slot p = some (f, frame)) (hpins : frame.pins ≠ 0) :
    ∃ frame', v'.slot p = some (f, frame') ∧ frame'.pins = frame.pins ∧
      frame'.bytes = frame.bytes := by
  cases h with
  | @evict q g frame' hslot hpins' =>
    -- a page that leaves its frame has no pin, so it is another one
    have hpq : p ≠ q := by
      rintro rfl
      obtain ⟨rfl, rfl⟩ : g = f ∧ frame' = frame := by simpa [hslot] using hp
      exact hpins hpins'
    exact ⟨frame, (slot_put_of_ne v hpq none).trans hp, rfl, rfl⟩
  | @save q g frame' hslot =>
    by_cases hpq : p = q
    · subst hpq
      obtain ⟨rfl, rfl⟩ : g = f ∧ frame' = frame := by simpa [hslot] using hp
      exact ⟨_, slot_put_self v p _, rfl, rfl⟩
    · exact ⟨frame, (slot_put_of_ne v hpq _).trans hp, rfl, rfl⟩
  | _ => exact hm.elim

/-- Quiet moves leave a pinned page where it is, with its pins and its bytes. -/
theorem Path.slot_of_pinned {ms : List (Move size)} {f : Fin size} {frame : Frame}
    (h : Path v ms v') (hquiet : Move.AllQuiet ms) (hp : v.slot p = some (f, frame))
    (hpins : frame.pins ≠ 0) :
    ∃ frame', v'.slot p = some (f, frame') ∧ frame'.pins = frame.pins ∧
      frame'.bytes = frame.bytes := by
  refine h.keeps hquiet (P := fun v => ∃ frame', v.slot p = some (f, frame') ∧
    frame'.pins = frame.pins ∧ frame'.bytes = frame.bytes) ?_ ⟨frame, hp, rfl, rfl⟩
  rintro v v' m hm hstep ⟨frame', hslot, hpins', hbytes⟩
  obtain ⟨frame'', hslot', hpins'', hbytes'⟩ := hstep.slot_of_pinned hm hslot (by omega)
  exact ⟨frame'', hslot', hpins''.trans hpins', hbytes'.trans hbytes⟩

/-! ## Pages that stay -/

/-- Page `p` lies in frame `f` and has the bytes `page`. -/
def Lies (v : View size) (p : PageId) (f : Fin size) (page : Page) : Prop :=
  ∃ frame, v.slot p = some (f, frame) ∧ frame.bytes = page

/-- Page `p` lies in frame `f`, pinned, and has the bytes `page`. -/
def Pinned (v : View size) (p : PageId) (f : Fin size) (page : Page) : Prop :=
  ∃ frame, v.slot p = some (f, frame) ∧ frame.pins ≠ 0 ∧ frame.bytes = page

variable {f : Fin size} {page : Page}

/-- A page that is pinned in a frame lies there. -/
theorem Pinned.lies (h : v.Pinned p f page) : v.Lies p f page := by
  obtain ⟨frame, hslot, -, hbytes⟩ := h
  exact ⟨frame, hslot, hbytes⟩

/-- Where page `p` lies, its frame is the one it is known to be pinned in. -/
theorem Pinned.frame_eq (h : v.Pinned p f page) {g : Fin size} {frame : Frame}
    (hslot : v.slot p = some (g, frame)) : g = f ∧ frame.pins ≠ 0 ∧ frame.bytes = page := by
  obtain ⟨frame', hslot', hpins, hbytes⟩ := h
  obtain ⟨rfl, rfl⟩ := Prod.mk.inj (Option.some.inj (hslot'.symm.trans hslot))
  exact ⟨rfl, hpins, hbytes⟩

/-- A page that is pinned stays where it is, pinned, by a move that takes no pin off. -/
theorem Step.pinned {m : Move size} (hm : m.Gentle) (h : Step v m v') (hp : v.Pinned p f page) :
    v'.Pinned p f page := by
  by_cases hpm : p ≠ m.page
  · obtain ⟨frame, hslot, hframe⟩ := hp
    exact ⟨frame, (h.elsewhere hpm).1.trans hslot, hframe⟩
  obtain rfl := not_not.mp hpm
  cases h with
  | evict hslot hpins | discard hslot hpins =>
    -- only a page without pins goes
    exact absurd hpins (hp.frame_eq hslot).2.1
  | load _ hslot | create _ hslot =>
    -- only a page that is not there comes
    obtain ⟨frame, hsome, -⟩ := hp
    exact absurd (hsome.symm.trans hslot) (by simp)
  | save hslot =>
    obtain ⟨rfl, hpins, hbytes⟩ := hp.frame_eq hslot
    exact ⟨_, slot_put_self .., hpins, hbytes⟩
  | pin hslot =>
    obtain ⟨rfl, -, hbytes⟩ := hp.frame_eq hslot
    exact ⟨_, slot_put_self .., Nat.succ_ne_zero _, hbytes⟩
  | unpin | edit => exact hm.elim

/-- A page that is pinned stays where it is, pinned, by moves that take no pin off and change no
bytes. -/
theorem Path.pinned {ms : List (Move size)} (h : Path v ms v') (hms : ∀ m ∈ ms, m.Gentle)
    (hp : v.Pinned p f page) : v'.Pinned p f page :=
  h.keeps hms (P := fun v => v.Pinned p f page) (fun hm hstep => hstep.pinned hm) hp

/-- In particular it stays by quiet moves. -/
theorem Path.pinned_of_quiet {ms : List (Move size)} (h : Path v ms v')
    (hquiet : Move.AllQuiet ms) (hp : v.Pinned p f page) : v'.Pinned p f page :=
  h.pinned (fun m hm => Move.gentle_of_quiet (hquiet m hm)) hp

/-- When the quiet moves are over, a pin goes to the frame the page was pinned in. -/
theorem Path.frame_eq_of_pin {ms : List (Move size)} {g : Fin size} (h : Path v ms v')
    (hends : (Move.pin p g).Ends ms) (hp : v.Pinned p f page) : g = f := by
  obtain ⟨quiet, w, hquiet, hpath, hstep⟩ := h.of_ends hends
  have hw := hpath.pinned_of_quiet hquiet hp
  cases hstep with
  | pin hslot => exact (hw.frame_eq hslot).1

/-- A page that is pinned is not loaded. -/
theorem Path.not_ends_load {ms : List (Move size)} {g : Fin size} (h : Path v ms v')
    (hp : v.Pinned p f page) : ¬ (Move.load p g).Ends ms := by
  intro hends
  obtain ⟨quiet, w, hquiet, hpath, hstep⟩ := h.of_ends hends
  obtain ⟨frame, hsome, -⟩ := hpath.pinned_of_quiet hquiet hp
  -- only a page that is not there is loaded
  cases hstep with
  | load _ hslot => exact absurd (hsome.symm.trans hslot) (by simp)

/-- The pin that goes takes nothing else with it. -/
theorem Step.lies_of_unpin {dirty : Bool} (h : Step v (.unpin q dirty) v')
    (hp : v.Lies p f page) : v'.Lies p f page := by
  obtain ⟨frame, hslot, hbytes⟩ := hp
  by_cases hpq : p ≠ q
  · exact ⟨frame, (h.elsewhere hpq).1.trans hslot, hbytes⟩
  obtain rfl := not_not.mp hpq
  -- the flag may be set and the pins are fewer, but the bytes are the same
  cases h with
  | unpin _ hslot' =>
    obtain ⟨rfl, rfl⟩ := Prod.mk.inj (Option.some.inj (hslot.symm.trans hslot'))
    exact ⟨_, slot_put_self .., hbytes⟩

/-- A pin that may or may not go takes nothing else with it. -/
theorem Path.lies_of_unpin {ms : List (Move size)} {dirty : Bool} (h : Path v ms v')
    (hms : ms = [] ∨ ms = [.unpin q dirty]) (hp : v.Lies p f page) : v'.Lies p f page := by
  rcases hms with rfl | rfl
  · cases h
    exact hp
  · exact h.step_of_single.lies_of_unpin hp

end View

end PageCache
