import PageCache.Proofs.Shard.Acquire
import PageCache.Proofs.View
import PageCache.Shard.Flush

/-!
# The moves of a shard

What each operation of a shard does, told as the moves it makes. `Backed.Runs` says of two states of
a shard that certain moves lead from one to the other, that the records agree in the second if they
did in the first, and that nothing happened to the disk but requests. The specification of an
operation is that it `Runs`, and which moves it makes for which answer.

A shard is seen among others here (`Backed.view`): it answers for the pages of its stripe, and what
there is of other pages is not its business.

* `Backed.fetch_runs`, `Backed.newPage_runs`: first quiet moves, then the one that was asked for.
* `Backed.unpin_runs`, `Backed.delete_runs`: one move or none.
* `Backed.flush_runs`, `Backed.flushAll_runs`: quiet moves; after the second every page is clean.
* `Backed.edit_runs`: what the holder of a frame does to its bytes, past the records.
-/

namespace PageCache

variable {size : Nat}

namespace Shard

/-- Where page `p` lies, with its frame. -/
def slot (sh : Shard size) (p : PageId) : Option (Fin size × Frame) :=
  sh.table[p]?.map fun f => (f, sh.frame f)

/-- The ids from the next one on. -/
def Unused (sh : Shard size) (p : PageId) : Prop :=
  ∃ n : PageId, sh.nextId = some n ∧ n.val ≤ p.val

variable {sh : Shard size} {s : Stripe} {capacity : Nat} {spare : List (Fin size)}
variable {p : PageId} {f : Fin size}

/-- A page lies where the table has it, in the frame as it is. -/
theorem slot_eq_some_iff {frame : Frame} :
    sh.slot p = some (f, frame) ↔ sh.table[p]? = some f ∧ sh.frame f = frame := by
  constructor
  · intro h
    obtain ⟨g, hg, hslot⟩ := Option.map_eq_some_iff.mp h
    obtain ⟨rfl, rfl⟩ := Prod.mk.inj hslot
    exact ⟨hg, rfl⟩
  · rintro ⟨h, rfl⟩
    rw [slot, h]
    rfl

/-- What the table has lies in its frame. -/
theorem slot_of_table (h : sh.table[p]? = some f) : sh.slot p = some (f, sh.frame f) :=
  slot_eq_some_iff.mpr ⟨h, rfl⟩

/-- What the table does not have lies nowhere. -/
theorem slot_eq_none_iff : sh.slot p = none ↔ sh.table[p]? = none :=
  Option.map_eq_none_iff

/-! ## Slots after updates

Frames are not shared, so an update of one concerns no page but the one that lies there. -/

namespace Kept

/-- A frame that is changed is changed for the page that lies there. -/
theorem slot_setFrame (h : sh.Kept s capacity spare) (hp : sh.table[p]? = some f) (frame : Frame)
    (q : PageId) :
    (sh.setFrame f frame).slot q = if q = p then some (f, frame) else sh.slot q := by
  by_cases hqp : q = p
  · subst hqp
    have hq : (sh.setFrame f frame).table[q]? = some f := hp
    rw [if_pos rfl, slot_of_table hq, frame_setFrame, if_pos rfl]
  · rw [if_neg hqp]
    cases hq : sh.table[q]? with
    | none =>
      rw [slot_eq_none_iff.mpr hq]
      exact slot_eq_none_iff.mpr hq
    | some g =>
      have hq' : (sh.setFrame f frame).table[q]? = some g := hq
      have hfg : f ≠ g := by rintro rfl; exact hqp (h.injective hq hp)
      rw [slot_of_table hq, slot_of_table hq', frame_setFrame, if_neg hfg]

/-- A frame that no page lies in may be changed unseen. -/
theorem slot_setFrame_of_spare (h : sh.Kept s capacity spare) (hf : f ∈ spare) (frame : Frame)
    (q : PageId) : (sh.setFrame f frame).slot q = sh.slot q := by
  cases hq : sh.table[q]? with
  | none =>
    rw [slot_eq_none_iff.mpr hq]
    exact slot_eq_none_iff.mpr hq
  | some g =>
    have hq' : (sh.setFrame f frame).table[q]? = some g := hq
    have hfg : f ≠ g := by rintro rfl; exact h.not_mem_spare hq hf
    rw [slot_of_table hq, slot_of_table hq', frame_setFrame, if_neg hfg]

/-- Page `p` goes from frame `f`, and whatever is put there, no other page is concerned. -/
theorem slot_erase (h : sh.Kept s capacity spare) (hp : sh.table[p]? = some f) (frame : Frame)
    (q : PageId) :
    ({ sh with table := sh.table.erase p }.setFrame f frame : Shard size).slot q =
      if q = p then none else sh.slot q := by
  have hlookup : ({ sh with table := sh.table.erase p }.setFrame f frame : Shard size).table[q]? =
      if p = q then none else sh.table[q]? := getElem?_erase ..
  by_cases hqp : q = p
  · subst hqp
    rw [if_pos rfl, slot_eq_none_iff, hlookup, if_pos rfl]
  · rw [if_neg (Ne.symm hqp)] at hlookup
    rw [if_neg hqp, ← (h.slot_setFrame hp frame q).trans (if_neg hqp), slot, hlookup]
    rfl

/-- Page `p` gets a frame that no page lies in. -/
theorem slot_install (h : sh.Kept s capacity spare) (hf : f ∈ spare) (bytes : Page) (q : PageId) :
    (sh.install p f bytes).slot q = if q = p then some (f, .holding p bytes) else sh.slot q := by
  have hlookup : (sh.install p f bytes).table[q]? = if p = q then some f else sh.table[q]? :=
    getElem?_insert ..
  by_cases hqp : q = p
  · subst hqp
    rw [if_pos rfl] at hlookup
    rw [if_pos rfl, slot_of_table hlookup, frame_install, if_pos rfl]
  · rw [if_neg (Ne.symm hqp)] at hlookup
    rw [if_neg hqp]
    cases hq : sh.table[q]? with
    | none => rw [slot_eq_none_iff.mpr hq, slot_eq_none_iff.mpr (hlookup.trans hq)]
    | some g =>
      have hfg : f ≠ g := by rintro rfl; exact h.not_mem_spare hq hf
      rw [slot_of_table hq, slot_of_table (hlookup.trans hq), frame_install, if_neg hfg]

end Kept

/-- The ids of a stripe from `p` on are `p` and those from the next id on. -/
theorem next?_le_iff {q : PageId} (hp : s.Owns p) (hq : s.Owns q) :
    (∃ n : PageId, s.next? p = some n ∧ n.val ≤ q.val) ↔ p.val ≤ q.val ∧ q ≠ p := by
  have hpos := s.count_pos
  constructor
  · rintro ⟨n, hn, hle⟩
    rw [Stripe.next?, PageId.plus?_eq_some_iff] at hn
    refine ⟨by omega, ?_⟩
    rintro rfl
    omega
  · rintro ⟨hle, hne⟩
    have hlt : p.val < q.val := Nat.lt_of_le_of_ne hle fun h => hne (PageId.ext h.symm)
    -- equal remainders lie a multiple of the divisor apart
    have hmod : p.val % s.count = q.val % s.count := hp.trans hq.symm
    have hdvd : s.count ∣ q.val - p.val :=
      Nat.dvd_of_mod_eq_zero (Nat.sub_mod_eq_zero_of_mod_eq hmod.symm)
    have hstep : s.count ≤ q.val - p.val := Nat.le_of_dvd (by omega) hdvd
    have hbound := q.isLt
    exact ⟨⟨p.val + s.count, by omega⟩, PageId.plus?_eq_some_iff.mpr rfl, by
      show p.val + s.count ≤ q.val
      omega⟩

end Shard

variable {δ : Type} [PageStore δ] [LawfulStore δ]

namespace Backed

/-- The view of a pool of which the pages of stripe `s` are in this shard, and the others as in
`rest`. -/
def view (s : Stripe) (rest : View size) (w : Backed size δ) : View size where
  slot p := if s.Owns p then w.shard.slot p else rest.slot p
  stored := LawfulStore.contents w.disk
  unused p := if s.Owns p then w.shard.Unused p else rest.unused p

variable {w w' w'' : Backed size δ} {s : Stripe} {capacity : Nat} {rest : View size}
variable {p : PageId} {f : Fin size} {spare : List (Fin size)}

/-- The pages of the stripe lie where the shard has them. -/
theorem slot_view (howns : s.Owns p) : (w.view s rest).slot p = w.shard.slot p :=
  if_pos howns

/-- A page in the table lies in its frame as that is. -/
theorem slot_of_table (howns : s.Owns p) (hp : w.shard.table[p]? = some f) :
    (w.view s rest).slot p = some (f, w.shard.frame f) :=
  (slot_view howns).trans (Shard.slot_of_table hp)

/-- A page that is not in the table lies nowhere. -/
theorem slot_of_table_none (howns : s.Owns p) (hp : w.shard.table[p]? = none) :
    (w.view s rest).slot p = none :=
  (slot_view howns).trans (Shard.slot_eq_none_iff.mpr hp)

/-- Nothing is seen of a change that leaves slots, contents and next id as they are. -/
theorem view_congr (hslot : ∀ q, w'.shard.slot q = w.shard.slot q)
    (hdisk : LawfulStore.contents w'.disk = LawfulStore.contents w.disk)
    (hnext : w'.shard.nextId = w.shard.nextId) : w'.view s rest = w.view s rest := by
  simp only [view, Shard.Unused, hslot, hdisk, hnext]

/-- One page lies elsewhere now, and the store has something else of it. -/
theorem view_put_store (howns : s.Owns p) {place : Option (Fin size × Frame)} {page : Page}
    (hslot : ∀ q, w'.shard.slot q = if q = p then place else w.shard.slot q)
    (hdisk : LawfulStore.contents w'.disk = Function.update (LawfulStore.contents w.disk) p page)
    (hnext : w'.shard.nextId = w.shard.nextId) :
    w'.view s rest = ((w.view s rest).put p place).store p page := by
  have hslots : (fun q => if s.Owns q then w'.shard.slot q else rest.slot q) =
      Function.update (fun q => if s.Owns q then w.shard.slot q else rest.slot q) p place := by
    funext q
    rw [Function.update_apply, hslot]
    by_cases hqp : q = p
    · rw [if_pos hqp, if_pos hqp, if_pos (hqp ▸ howns)]
    · rw [if_neg hqp, if_neg hqp]
  simp only [view, View.put, View.store, Shard.Unused, hslots, hdisk, hnext]

/-- One page lies elsewhere now. -/
theorem view_put (howns : s.Owns p) {place : Option (Fin size × Frame)}
    (hslot : ∀ q, w'.shard.slot q = if q = p then place else w.shard.slot q)
    (hdisk : LawfulStore.contents w'.disk = LawfulStore.contents w.disk)
    (hnext : w'.shard.nextId = w.shard.nextId) :
    w'.view s rest = (w.view s rest).put p place := by
  have hdisk' := hdisk.trans (Function.update_eq_self p (LawfulStore.contents w.disk)).symm
  rw [view_put_store howns hslot hdisk' hnext, View.store]
  simp only [View.put, view, Function.update_eq_self]

/-- The next id is still to be given. -/
theorem unused_of_nextId (howns : s.Owns p) (hnext : w.shard.nextId = some p) :
    (w.view s rest).unused p := by
  show if s.Owns p then w.shard.Unused p else rest.unused p
  -- the next id is the first of those that are left
  rw [if_pos howns]
  exact ⟨p, hnext, Nat.le_refl _⟩

/-- The next id is given out. -/
theorem view_use (howns : s.Owns p) (hnext : w.shard.nextId = some p) :
    view s rest ⟨{ w.shard with nextId := s.next? p }, w.disk⟩ = (w.view s rest).use p := by
  have hunused : ∀ q, (if s.Owns q then
        Shard.Unused ({ w.shard with nextId := s.next? p } : Shard size) q else rest.unused q) =
      ((if s.Owns q then w.shard.Unused q else rest.unused q) ∧ q ≠ p) := by
    intro q
    by_cases hq : s.Owns q
    · rw [if_pos hq, if_pos hq, Shard.Unused, Shard.next?_le_iff howns hq, Shard.Unused, hnext]
      simp
    · rw [if_neg hq, if_neg hq]
      have hqp : q ≠ p := by rintro rfl; exact hq howns
      simp [hqp]
  simp only [view, View.use, hunused]
  rfl

/-! ## Specifications -/

/-- The moves `ms` lead from `w` to `w'`, and on the way the records stay in agreement. -/
structure Runs (s : Stripe) (capacity : Nat) (w : Backed size δ) (ms : List (Move size))
    (w' : Backed size δ) : Prop where
  kept : w'.shard.Kept s capacity w'.shard.free
  path : ∀ rest, View.Path (w.view s rest) ms (w'.view s rest)
  serves : Serves w.disk w'.disk

namespace Runs

variable {ms ms' : List (Move size)}

/-- No moves lead to where they started. -/
theorem refl (h : w.shard.Kept s capacity w.shard.free) : Runs s capacity w [] w :=
  ⟨h, fun _ => .nil _, .refl⟩

/-- One move, if it keeps the records in agreement and the disk got requests only. -/
theorem single {m : Move size} (hkept : w'.shard.Kept s capacity w'.shard.free)
    (hstep : ∀ rest, View.Step (w.view s rest) m (w'.view s rest))
    (hserves : Serves w.disk w'.disk) : Runs s capacity w [m] w' :=
  ⟨hkept, fun rest => .single (hstep rest), hserves⟩

/-- The page in `f` stays there with a new record. -/
theorem reframe {m : Move size} {recency : Recency} {frame : Frame}
    (h : w.shard.Kept s capacity spare) (hp : w.shard.table[p]? = some f)
    (hkept : (({ w.shard with recency } : Shard size).setFrame f frame).Kept s capacity
      w.shard.free)
    (hstep : ∀ rest, View.Step (w.view s rest) m ((w.view s rest).put p (some (f, frame)))) :
    Runs s capacity w [m] ⟨{ w.shard with recency }.setFrame f frame, w.disk⟩ := by
  refine single hkept (fun rest => ?_) .refl
  have hview : view s rest ⟨{ w.shard with recency }.setFrame f frame, w.disk⟩ =
      (w.view s rest).put p (some (f, frame)) :=
    view_put (h.owned hp) (h.slot_setFrame hp frame) rfl rfl
  rw [hview]
  exact hstep rest

/-- The records may be out of agreement at the start. -/
theorem after (h : Runs s capacity w' ms' w'')
    (hpath : ∀ rest, View.Path (w.view s rest) ms (w'.view s rest))
    (hserves : Serves w.disk w'.disk) : Runs s capacity w (ms ++ ms') w'' :=
  ⟨h.kept, fun rest => (hpath rest).append (h.path rest), hserves.trans h.serves⟩

/-- Moves may go on where others ended. -/
theorem trans (h : Runs s capacity w ms w') (h' : Runs s capacity w' ms' w'') :
    Runs s capacity w (ms ++ ms') w'' :=
  h'.after h.path h.serves

end Runs

/-! ## Finding a frame -/

/-- A search for a frame makes quiet moves. -/
theorem path_of_acquisition {r : Except Failure (Fin size)}
    (h : w.shard.Kept s capacity w.shard.free)
    (ha : Acquisition w r w') :
    ∃ ms, Move.AllQuiet ms ∧ ∀ rest, View.Path (w.view s rest) ms (w'.view s rest) := by
  cases ha with
  | free | full => exact ⟨[], Move.allQuiet_nil, fun _ => .nil _⟩
  | @clean f recency p hfree hvictim hp hpins hclean =>
    refine ⟨[.evict p], List.forall_mem_singleton.mpr trivial, fun rest => .single ?_⟩
    have hview : view s rest { w with shard := { w.shard with recency }.unmap p f } =
        (w.view s rest).put p none :=
      view_put (h.owned hp) (h.slot_erase hp _) rfl rfl
    rw [hview]
    exact .evict (slot_of_table (h.owned hp) hp) hpins hclean
  | @written f recency p disk hfree hvictim hp hpins hdirty hwrite =>
    refine ⟨[.save p, .evict p], by simp [Move.AllQuiet, Move.Quiet], fun rest => ?_⟩
    -- the page is saved where it lies, and goes from there clean
    have hview : view s rest ⟨{ w.shard with recency }.unmap p f, disk⟩ =
        ((w.view s rest).put p none).store p (w.shard.frame f).bytes :=
      view_put_store (h.owned hp) (h.slot_erase hp _) (LawfulStore.contents_write hwrite) rfl
    refine .cons (.save (slot_of_table (h.owned hp) hp) hdirty) (.single ?_)
    rw [hview, ← View.put_put_store _ p (some (f, { w.shard.frame f with dirty := false })) none]
    have hpins' : ({ w.shard.frame f with dirty := false } : Frame).pins = 0 := hpins
    exact .evict (View.slot_put_self ..) hpins' rfl
  | @unwritten f recency p disk cause hfree hvictim hp hpins hdirty hwrite =>
    refine ⟨[], Move.allQuiet_nil, fun rest => ?_⟩
    -- the failed write has changed nothing, and no slot tells of the recency list
    have hview : view s rest
        ⟨(({ w.shard with recency } : Shard size).track f).1, disk⟩ = w.view s rest :=
      view_congr (fun _ => rfl) (LawfulStore.contents_failed_write hwrite) rfl
    rw [hview]
    exact .nil _

/-! ## Fetching -/

/-- A fetch makes quiet moves and then pins the page, in the frame where it is or in one it is
brought to; a fetch that fails makes quiet moves only. -/
def Fetched (p : PageId) (ms : List (Move size)) : Except Failure (Fin size) → Prop
  | .ok f => (Move.pin p f).Ends ms ∨ (Move.load p f).Ends ms
  | .error _ => Move.AllQuiet ms

/-- A resident page is pinned where it is, unless it has all the pins it can have. -/
theorem pinAgain_runs (h : w.shard.Kept s capacity w.shard.free)
    (hp : w.shard.table[p]? = some f) :
    ∃ ms, Runs s capacity w ms (w.pinAgain f).state ∧ Fetched p ms (w.pinAgain f).result := by
  rw [pinAgain]
  split
  swap
  · exact ⟨[], .refl h, Move.allQuiet_nil⟩
  let frame : Frame := { w.shard.frame f with pins := (w.shard.frame f).pins + 1 }
  have hholds : frame.holds = some p := h.holds hp
  have hpins : frame.pins ≠ 0 := Nat.succ_ne_zero _
  have hkept := h.repin hp hholds hpins
  refine ⟨[.pin p f], ?_, .inl (Move.ends_single _)⟩
  show Runs s capacity w _ ⟨((w.shard.setFrame f frame).untrack f).1, w.disk⟩
  rw [Shard.untrack_fst]
  exact Runs.reframe h hp hkept fun rest => .pin (slot_of_table (h.owned hp) hp)

/-- Loading page `p` into frame `f`, which was found for it. -/
theorem load_runs (h : w.shard.Kept s capacity (f :: w.shard.free)) (howns : s.Owns p)
    (hp : w.shard.table[p]? = none) :
    ∃ ms, Runs s capacity w ms (w.load p f).state ∧ Fetched p ms (w.load p f).result := by
  have hspare : f ∈ f :: w.shard.free := List.mem_cons_self
  let r := PageStore.read w.disk p (w.shard.frame f).bytes
  have hserves : Serves w.disk r.store := Serves.refl.read p (w.shard.frame f).bytes
  have hcontents := LawfulStore.contents_read w.disk p (w.shard.frame f).bytes
  rw [load]
  cases hresult : (PageStore.read w.disk p (w.shard.frame f).bytes).result with
  | ok =>
    refine ⟨[.load p f], ?_, .inr (Move.ends_single _)⟩
    show Runs s capacity w _ ⟨w.shard.install p f r.buffer, r.store⟩
    refine .single (h.install hp howns r.buffer) (fun rest => ?_) hserves
    -- what was read is what the store has, whatever lay in the frame before
    have hbuffer : r.buffer = (w.view s rest).stored p := LawfulStore.buffer_read hresult
    have hview : view s rest ⟨w.shard.install p f r.buffer, r.store⟩ =
        (w.view s rest).put p (some (f, .holding p r.buffer)) :=
      view_put howns (h.slot_install hspare r.buffer) hcontents rfl
    rw [hview, hbuffer]
    exact .load f (slot_of_table_none howns hp)
  | error cause =>
    -- the frame is wiped, and joins the free ones again
    let frame : Frame := { w.shard.frame f with bytes := .zero }
    have hidle : frame.Idle := (h.spare_idle hspare).withBytes .zero
    have hwiped : (w.shard.setFrame f frame).Kept s capacity (f :: w.shard.free) :=
      h.setFrame rfl rfl fun _ => hidle
    have hkept := hwiped.perm (List.perm_append_singleton f w.shard.free).symm
    refine ⟨[], ⟨hkept.withFree _, fun rest => ?_, hserves⟩, Move.allQuiet_nil⟩
    have hview : view s rest
        ⟨{ w.shard.setFrame f frame with free := w.shard.free ++ [f] }, r.store⟩ = w.view s rest :=
      view_congr (h.slot_setFrame_of_spare hspare frame) hcontents rfl
    exact hview ▸ .nil _

/-- A fetch of a resident page pins it; otherwise a frame is sought for it, and it is loaded there.
-/
theorem fetch_runs (h : w.shard.Kept s capacity w.shard.free) (p : PageId) :
    ∃ ms, Runs s capacity w ms (w.fetch s p).state ∧ Fetched p ms (w.fetch s p).result := by
  rw [fetch]
  split
  swap
  · exact ⟨[], .refl h, Move.allQuiet_nil⟩
  -- the page is one of the stripe
  next howns =>
  split
  · next f hp => exact pinAgain_runs h hp
  next hp =>
  have ha := h.acquisition
  obtain ⟨quiet, hquiet, hpath⟩ := path_of_acquisition h ha
  cases hresult : w.acquire.result with
  | error e =>
    rw [Outcome.andThen_of_error hresult]
    rw [hresult] at ha
    exact ⟨quiet, ⟨ha.kept_of_error h, hpath, ha.serves⟩, hquiet⟩
  | ok f =>
    rw [Outcome.andThen_of_ok hresult]
    rw [hresult] at ha
    obtain ⟨ms, hload, hfetched⟩ := load_runs (ha.kept_of_ok h) howns (w.search.table_none hp)
    refine ⟨quiet ++ ms, hload.after hpath ha.serves, ?_⟩
    show Fetched p (quiet ++ ms) (w.acquire.state.load p f).result
    cases hloaded : (w.acquire.state.load p f).result with
    | ok g =>
      rw [hloaded] at hfetched
      exact hfetched.imp (·.after hquiet) (·.after hquiet)
    | error e =>
      rw [hloaded] at hfetched
      exact hquiet.append hfetched

/-! ## Creating pages -/

/-- A new page comes after quiet moves, and is the one with the next id; without it there are quiet
moves only. -/
def Created (ms : List (Move size)) : Except Failure (PageId × Fin size) → Prop
  | .ok (p, f) => (Move.create p f).Ends ms
  | .error _ => Move.AllQuiet ms

/-- Putting the page with the next id into frame `f`, which was found for it. -/
theorem create_runs (h : w.shard.Kept s capacity (f :: w.shard.free))
    (hnext : w.shard.nextId = some p) (hp : w.shard.table[p]? = none) :
    Runs s capacity w [.create p f]
      ⟨{ w.shard.install p f .zero with nextId := s.next? p }, w.disk⟩ := by
  have howns := h.next_owned hnext
  have hkept := h.install hp howns .zero
  refine .single (hkept.withNext fun hn => Stripe.owns_of_next? howns hn) (fun rest => ?_) .refl
  have hinstall : view s rest ⟨w.shard.install p f .zero, w.disk⟩ =
      (w.view s rest).put p (some (f, .holding p .zero)) :=
    view_put howns (h.slot_install List.mem_cons_self .zero) rfl rfl
  have huse : view s rest ⟨{ w.shard.install p f .zero with nextId := s.next? p }, w.disk⟩ =
      (view s rest ⟨w.shard.install p f .zero, w.disk⟩).use p :=
    view_use (w := ⟨w.shard.install p f .zero, w.disk⟩) howns hnext
  rw [huse, hinstall]
  exact .create f (slot_of_table_none howns hp) (unused_of_nextId howns hnext)

/-- A new page is created in a frame that was sought for it, if it is not resident yet. -/
theorem newPage_runs (h : w.shard.Kept s capacity w.shard.free)
    (hspared : ∀ {p : PageId} {f : Fin size}, (w.newPage s).result = .ok (p, f) →
      w.shard.table[p]? = none) :
    ∃ ms, Runs s capacity w ms (w.newPage s).state ∧ Created ms (w.newPage s).result := by
  have ha := h.acquisition
  obtain ⟨quiet, hquiet, hpath⟩ := path_of_acquisition h ha
  have hcreation := w.creation s
  -- the cases are those of a creation: no id, no frame, a foreign id, or the page
  generalize (w.newPage s).result = r, (w.newPage s).state = w' at hspared hcreation ⊢
  cases hcreation with
  | exhausted => exact ⟨[], .refl h, Move.allQuiet_nil⟩
  | unplaced _ hresult =>
    rw [hresult] at ha
    exact ⟨quiet, ⟨ha.kept_of_error h, hpath, ha.serves⟩, hquiet⟩
  | foreign hnext _ howns => exact absurd (h.next_owned hnext) howns
  | @made p f hnext hresult =>
    rw [hresult] at ha
    have hp := w.search.table_none (hspared rfl)
    have hcreate := create_runs (ha.kept_of_ok h) (w.search.nextId_eq.trans hnext) hp
    exact ⟨_, hcreate.after hpath ha.serves, hquiet.ends (.create p f)⟩

/-! ## Unpinning and deleting -/

/-- The move that page `p` makes if the answer is true; no other is made. -/
def Moved (m : Move size) (ms : List (Move size)) : Except Failure Bool → Prop
  | .ok true => ms = [m]
  | _ => ms = []

/-- There is one move at most. -/
theorem Moved.nil_or_single {m : Move size} {ms : List (Move size)} {r : Except Failure Bool}
    (h : Moved m ms r) : ms = [] ∨ ms = [m] := by
  rcases r with e | _ | _
  · exact .inl h
  · exact .inl h
  · exact .inr h

/-- An unpin is one move if there was a pin to take; the last one puts the page on the recency list.
-/
theorem unpin_runs (h : w.shard.Kept s capacity w.shard.free) (p : PageId) (dirty : Bool) :
    ∃ ms, Runs s capacity w ms (w.unpin s p dirty).state ∧
      Moved (.unpin p dirty) ms (w.unpin s p dirty).result := by
  rw [unpin]
  split
  swap
  · exact ⟨[], .refl h, rfl⟩
  split
  · exact ⟨[], .refl h, rfl⟩
  next f hp =>
  simp only
  split
  · exact ⟨[], .refl h, rfl⟩
  next hpins =>
  let frame : Frame := { w.shard.frame f with
    pins := (w.shard.frame f).pins - 1, dirty := (w.shard.frame f).dirty || dirty }
  have hholds : frame.holds = some p := h.holds hp
  have hnot := h.not_tracked_of_pinned hp hpins
  have hstep (rest : View size) :
      View.Step (w.view s rest) (.unpin p dirty) ((w.view s rest).put p (some (f, frame))) :=
    .unpin dirty (slot_of_table (h.owned hp) hp) hpins
  split
  · next hone =>
    -- the last pin: nobody had the page on the recency list, and now it goes there
    have hfree : frame.pins = 0 := by
      show (w.shard.frame f).pins - 1 = 0
      omega
    have hkept := h.settle (h.chained.without_self hnot) hp hholds hfree
    exact ⟨[.unpin p dirty], .reframe h hp hkept hstep, rfl⟩
  · next hmore =>
    -- one pin of several: the recency list has nothing of the page, before or after
    have hpinned : frame.pins ≠ 0 := by
      show (w.shard.frame f).pins - 1 ≠ 0
      omega
    have hkept := h.reframe hp hholds h.chained h.capacity_eq
      (fun hf => absurd hf (by rw [hnot]; decide)) (fun _ _ hk => hk)
      (fun h0 => absurd h0 hpinned) (fun _ _ _ hk => hk)
    exact ⟨[.unpin p dirty], .reframe h hp hkept hstep, rfl⟩

/-- Dropping a page moves nothing but that page, and only if the answer is true. -/
theorem discard_runs (h : w.shard.Kept s capacity w.shard.free) (p : PageId) :
    ∃ ms, Runs s capacity w ms (w.discard p).state ∧
      (ms = [] ∨ ms = [.discard p] ∧ (w.discard p).result = .ok true) := by
  rw [discard]
  split
  · exact ⟨[], .refl h, .inl rfl⟩
  next f hp =>
  split
  · exact ⟨[], .refl h, .inl rfl⟩
  next hpins =>
  have hpins : (w.shard.frame f).pins = 0 := by omega
  -- the frame comes last in the free list, not first
  have hvacated := h.vacate (h.chained.without_unlink f) hp Frame.idle_blank
  have hkept := (hvacated.perm (List.perm_append_singleton f _).symm).withFree (w.shard.free ++ [f])
  refine ⟨[.discard p], ?_, .inr ⟨rfl, rfl⟩⟩
  simp only [Shard.untrack_fst]
  refine .single hkept (fun rest => ?_) .refl
  have hview : view s rest ⟨{ ({ w.shard with
      recency := w.shard.recency.unlink f
      table := w.shard.table.erase p } : Shard size).setFrame f .blank with
      free := w.shard.free ++ [f] }, w.disk⟩ = (w.view s rest).put p none :=
    view_put (h.owned hp) (h.slot_erase hp .blank) rfl rfl
  exact (congrArg _ hview).mpr (.discard (slot_of_table (h.owned hp) hp) hpins)

/-- A deletion tells the store first, and then discards the page if nobody has it. -/
theorem delete_runs (h : w.shard.Kept s capacity w.shard.free) (p : PageId) :
    ∃ ms, Runs s capacity w ms (w.delete s p).state ∧
      (ms = [] ∨ ms = [.discard p] ∧ (w.delete s p).result = .ok true) := by
  rw [delete]
  split
  swap
  · exact ⟨[], .refl h, .inl rfl⟩
  have hserves : Serves w.disk (PageStore.deallocate w.disk p).1 := Serves.refl.deallocate p
  obtain ⟨ms, hruns, hanswer⟩ :=
    discard_runs (w := { w with disk := (PageStore.deallocate w.disk p).1 }) h p
  -- the store is told before anybody knows whether the page can go; its contents do not change
  refine ⟨[] ++ ms, hruns.after (fun rest => ?_) hserves, hanswer⟩
  have hview : view s rest { w with disk := (PageStore.deallocate w.disk p).1 } = w.view s rest :=
    view_congr (fun _ => rfl) (LawfulStore.contents_deallocate w.disk p) rfl
  exact hview ▸ .nil _

/-! ## Flushing -/

/-- A dirty page that was written is saved. -/
theorem markClean_runs (h : w.shard.Kept s capacity w.shard.free) (hp : w.shard.table[p]? = some f)
    (hdirty : (w.shard.frame f).dirty = true) {disk : δ}
    (hwrite : PageStore.write w.disk p (w.shard.frame f).bytes = (.ok (), disk)) :
    Runs s capacity w [.save p] (markClean { w with disk } f) := by
  let frame : Frame := { w.shard.frame f with dirty := false }
  -- the frame has a page, so it is not idle
  have hidle (hf : (w.shard.frame f).Idle) : frame.Idle :=
    absurd (h.holds hp) (by rw [hf.holds]; simp)
  have hkept : (w.shard.setFrame f frame).Kept s capacity w.shard.free :=
    h.setFrame rfl rfl hidle
  refine .single hkept (fun rest => ?_) (.of_write hwrite)
  have hview : view s rest (markClean { w with disk } f) =
      ((w.view s rest).put p (some (f, frame))).store p (w.shard.frame f).bytes :=
    view_put_store (h.owned hp) (h.slot_setFrame hp frame) (LawfulStore.contents_write hwrite) rfl
  exact hview ▸ .save (slot_of_table (h.owned hp) hp) hdirty

/-- One look at a page makes quiet moves, and unless a writer has the page it is clean
afterwards. -/
theorem tryFlush_runs (h : w.shard.Kept s capacity w.shard.free) (latched : Fin size → Bool)
    (p : PageId) :
    ∃ ms, Runs s capacity w ms (w.tryFlush latched p).state ∧ Move.AllQuiet ms ∧
      ∀ {resident : Bool}, (w.tryFlush latched p).result = .ok (.settled resident) →
        s.Owns p → ∀ rest, ((w.tryFlush latched p).state.view s rest).Clean p := by
  rw [tryFlush]
  split
  · next hp =>
    refine ⟨[], .refl h, Move.allQuiet_nil, fun _ howns rest f frame hslot => ?_⟩
    have hnone : (w.view s rest).slot p = none := slot_of_table_none howns hp
    exact absurd (hslot.symm.trans hnone) (by simp)
  next f hp =>
  split
  swap
  · next hclean =>
    refine ⟨[], .refl h, Move.allQuiet_nil, fun _ howns rest g frame hslot => ?_⟩
    obtain ⟨-, rfl⟩ : f = g ∧ w.shard.frame f = frame := by
      simpa using (slot_of_table howns hp).symm.trans hslot
    exact Bool.eq_false_iff.mpr hclean
  next hdirty =>
  split
  · exact ⟨[], .refl h, Move.allQuiet_nil, fun hresult => by simp at hresult⟩
  rcases writeBack_cases w p f with ⟨disk, hwrite, heq⟩ | ⟨cause, disk, hwrite, heq⟩
  · rw [heq]
    have hruns := markClean_runs h hp hdirty hwrite
    exact ⟨[.save p], hruns, List.forall_mem_singleton.mpr trivial,
      fun _ _ rest => (hruns.path rest).step_of_single.clean_of_save⟩
  · rw [heq]
    -- a page that cannot be written stays dirty
    refine ⟨[], ⟨h, fun rest => ?_, .of_write hwrite⟩, Move.allQuiet_nil, fun hresult => ?_⟩
    · have hview : view s rest { w with disk } = w.view s rest :=
        view_congr (fun _ => rfl) (LawfulStore.contents_failed_write hwrite) rfl
      exact hview ▸ .nil _
    · exact absurd hresult (by simp [Outcome.andThen, Outcome.fail])

/-- A flush of one page makes quiet moves. -/
theorem flush_runs (h : w.shard.Kept s capacity w.shard.free) (p : PageId) :
    ∃ ms, Runs s capacity w ms (w.flush s p).state ∧ Move.AllQuiet ms := by
  rw [flush]
  split
  · obtain ⟨ms, hruns, hquiet, -⟩ := tryFlush_runs h noWriter p
    exact ⟨ms, hruns, hquiet⟩
  · exact ⟨[], .refl h, Move.allQuiet_nil⟩

omit [LawfulStore δ] in
/-- Nobody is waited for if no frame is in a writer's hands. -/
theorem result_tryFlush_noWriter (w : Backed size δ) (p : PageId) (f : Fin size) :
    (w.tryFlush noWriter p).result ≠ .ok (.busy f) := by
  rw [tryFlush]
  split
  · simp
  next g hp =>
  split
  swap
  · simp
  rw [if_neg (by simp [noWriter])]
  rcases writeBack_cases w p g with ⟨disk, -, heq⟩ | ⟨cause, disk, -, heq⟩
  · simp [heq, Outcome.andThen]
  · simp [heq, Outcome.andThen]

/-- A sweep makes quiet moves. When it has met no writer and no page that cannot be written, every
page it was to look at is clean. -/
theorem sweep_runs (pages : List PageId) (h : w.shard.Kept s capacity w.shard.free) :
    ∃ ms, Runs s capacity w ms (sweep noWriter pages w).state ∧ Move.AllQuiet ms ∧
      ((∃ held, (sweep noWriter pages w).result = .ok held) → ∀ p ∈ pages, s.Owns p → ∀ rest,
        ((sweep noWriter pages w).state.view s rest).Clean p) := by
  -- the pages that come later are looked at in the state the earlier ones left
  induction pages generalizing w with
  | nil => exact ⟨[], .refl h, Move.allQuiet_nil, fun _ p hp => absurd hp List.not_mem_nil⟩
  | cons p pages ih =>
    obtain ⟨ms, hruns, hquiet, hclean⟩ := tryFlush_runs h noWriter p
    rw [sweep]
    cases hresult : (w.tryFlush noWriter p).result with
    | error e =>
      rw [Outcome.andThen_of_error hresult]
      exact ⟨ms, hruns, hquiet, fun ⟨_, hok⟩ => absurd hok (by simp)⟩
    | ok look =>
      rw [Outcome.andThen_of_ok hresult]
      cases look with
      | busy f => exact absurd hresult (result_tryFlush_noWriter w p f)
      | settled resident =>
        obtain ⟨ms', hrest, hquiet', hpages⟩ := ih hruns.kept
        refine ⟨ms ++ ms', hruns.trans hrest, hquiet.append hquiet', fun hok q hq howns rest => ?_⟩
        rcases List.mem_cons.mp hq with rfl | hq
        · -- what is clean stays clean while the others are looked at
          exact (hrest.path rest).clean_of_quiet hquiet' (hclean hresult howns rest)
        · exact hpages hok q hq howns rest

/-- A flush of all pages makes quiet moves, and leaves every page clean unless it fails. -/
theorem flushAll_runs (visit : Visit) (h : w.shard.Kept s capacity w.shard.free) :
    ∃ ms, Runs s capacity w ms (w.flushAll visit).state ∧ Move.AllQuiet ms ∧
      ((w.flushAll visit).result = .ok () → ∀ p, s.Owns p → ∀ rest,
        ((w.flushAll visit).state.view s rest).Clean p) := by
  obtain ⟨ms, hruns, hquiet, hclean⟩ := sweep_runs (visit.arrange w.shard.residents) h
  refine ⟨ms, hruns, hquiet, fun hok p howns rest => ?_⟩
  have hheld : ∃ held, (w.sweepAll noWriter visit).result = .ok held := by
    rw [flushAll, Outcome.result_map] at hok
    cases hsweep : (w.sweepAll noWriter visit).result with
    | ok held => exact ⟨held, rfl⟩
    | error e => rw [hsweep] at hok; exact absurd hok (by simp [Except.map])
  by_cases hmem : p ∈ visit.arrange w.shard.residents
  · exact hclean hheld p hmem howns rest
  · -- a page that is not in the table is looked at by nobody, and does not come in
    have hnone : w.shard.table[p]? = none := by
      rw [(visit.perm _).mem_iff, Shard.residents, Std.ExtTreeMap.mem_keys] at hmem
      exact Std.ExtTreeMap.getElem?_eq_none hmem
    have hslot := (hruns.path rest).slot_none_of_quiet hquiet (slot_of_table_none howns hnone)
    intro f frame hp
    exact absurd (hslot.symm.trans hp) (by simp)

/-! ## Reaching into a frame -/

/-- Writing into the frame of a page edits the page. -/
theorem edit_runs (h : w.shard.Kept s capacity w.shard.free) (hp : w.shard.table[p]? = some f)
    (g : Page → Page) :
    Runs s capacity w [.edit p g] { w with
      shard := w.shard.setFrame f
        { w.shard.frame f with bytes := g (w.shard.frame f).bytes } } := by
  let frame : Frame := { w.shard.frame f with bytes := g (w.shard.frame f).bytes }
  have hidle (hf : (w.shard.frame f).Idle) : frame.Idle := hf.withBytes _
  have hkept : (w.shard.setFrame f frame).Kept s capacity w.shard.free :=
    h.setFrame rfl rfl hidle
  exact .reframe h hp hkept fun rest => .edit g (slot_of_table (h.owned hp) hp)

/-- The bytes of a frame may be changed by somebody who does not know what page is there, if any. -/
theorem reach_runs (h : w.shard.Kept s capacity w.shard.free) (f : Fin size) (g : Page → Page) :
    ∃ ms, Runs s capacity w ms { w with
      shard := w.shard.setFrame f
        { w.shard.frame f with bytes := g (w.shard.frame f).bytes } } ∧
      (ms = [] ∨ ∃ p, ms = [.edit p g]) := by
  -- a frame without a page has bytes too, and nobody sees them
  rcases h.covered f with hspare | ⟨p, hp⟩
  · let frame : Frame := { w.shard.frame f with bytes := g (w.shard.frame f).bytes }
    have hidle : frame.Idle := (h.spare_idle hspare).withBytes _
    have hkept : (w.shard.setFrame f frame).Kept s capacity w.shard.free :=
      h.setFrame rfl rfl fun _ => hidle
    refine ⟨[], ⟨hkept, fun rest => ?_, .refl⟩, .inl rfl⟩
    have hview : view s rest { w with shard := w.shard.setFrame f frame } = w.view s rest :=
      view_congr (h.slot_setFrame_of_spare hspare frame) rfl rfl
    exact hview ▸ .nil _
  · exact ⟨[.edit p g], edit_runs h hp g, .inr ⟨p, rfl⟩⟩

end Backed

end PageCache
