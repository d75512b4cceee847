import PageCache.Proofs.Shard.Cases
import PageCache.Proofs.Shard.Evictables
import PageCache.Proofs.Shard.Tracking
import PageCache.Proofs.Store.Tried

/-!
# How the order of eviction changes

The pages that may be evicted form a queue, and an operation does little to it: pages leave it, and
one may come to its end. `Shard.Reorders` says so, and which page that is is told operation by
operation: the page whose last pin an unpin took off, or the page that had to go and could not be
written. The search for a frame is where the queue is used (`Backed.Sought`).
-/

namespace PageCache

variable {size : Nat}

namespace Shard

variable {sh sh' : Shard size} {s : Stripe} {capacity : Nat} {spare : List (Fin size)}
variable {p : PageId} {f : Fin size} {frames : List Nat} {moved : List PageId}

/-- Of the pages that may be evicted some have gone, and those of `moved` are at the end. The others
are in the order in which they were. -/
def Reorders (sh : Shard size) (moved : List PageId) (sh' : Shard size) : Prop :=
  ∃ rest, rest.Sublist sh.evictables ∧ (∀ p ∈ moved, p ∉ rest) ∧ sh'.evictables = rest ++ moved

/-- A queue that is what it was had nothing moved. -/
theorem Reorders.of_eq (h : sh'.evictables = sh.evictables) : sh.Reorders [] sh' :=
  ⟨sh.evictables, .refl _, List.forall_mem_nil _, by rw [h, List.append_nil]⟩

/-- A queue that pages only left had nothing moved. -/
theorem Reorders.of_sublist (h : sh'.evictables.Sublist sh.evictables) : sh.Reorders [] sh' :=
  ⟨sh'.evictables, h, List.forall_mem_nil _, (List.append_nil _).symm⟩

/-- Page `q` was to make room. It has gone, or it is what could not be written, and is where it was;
so are the other pages. -/
structure Chooses (sh : Shard size) (q : PageId) (refused : List PageId) (sh' : Shard size) :
    Prop where
  others : ∀ {r : PageId} {f : Fin size}, r ≠ q → sh.table[r]? = some f → sh'.table[r]? = some f
  chosen : refused = [] ∧ sh'.table[q]? = none ∨
    refused = [q] ∧ sh'.table[q]? = sh.table[q]?

/-! ## Queues and frames -/

/-- Frames that are not in the queue may be what they are. -/
theorem evictables_of_queue (sh : Shard size) (hq : sh'.recency.Represents ⟨frames, capacity⟩)
    (hsame : ∀ g : Fin size, g.val ∈ frames → (sh'.frame g).holds = (sh.frame g).holds) :
    sh'.evictables = frames.filterMap sh.holder? := by
  rw [evictables_eq hq]
  -- each frame of the queue still has its page
  apply List.filterMap_congr
  intro k hk
  unfold holder?
  split
  · next hlt => exact hsame ⟨k, hlt⟩ hk
  · rfl

/-- The pins, flags and bytes of a frame make no difference to the queue. -/
theorem evictables_setFrame (sh : Shard size) {frame : Frame}
    (hholds : frame.holds = (sh.frame f).holds) :
    (sh.setFrame f frame).evictables = sh.evictables := by
  refine evictables_congr rfl fun g => ?_
  rw [frame_setFrame]
  split
  · next hfg => exact hfg ▸ hholds
  · rfl

/-- The page of a frame that is taken out of the queue leaves it, and nothing else happens to it. -/
theorem evictables_unlink (hq : sh.recency.Represents ⟨frames, capacity⟩)
    (hrecency : sh'.recency = sh.recency.unlink f.val)
    (hsame : ∀ g, f ≠ g → (sh'.frame g).holds = (sh.frame g).holds) :
    sh'.evictables.Sublist sh.evictables := by
  have hq' : sh'.recency.Represents ⟨frames.erase f.val, capacity⟩ := hrecency ▸ hq.unlink f.val
  have hne (g : Fin size) (hg : g.val ∈ frames.erase f.val) :
      (sh'.frame g).holds = (sh.frame g).holds := by
    apply hsame g
    rintro rfl
    exact List.Nodup.not_mem_erase hq.nodup hg
  rw [evictables_of_queue sh hq' hne, evictables_eq hq]
  exact List.erase_sublist.filterMap _

namespace Kept

/-- A frame without a page is not in the queue. -/
theorem not_mem_of_spare (h : sh.Kept s capacity spare)
    (hq : sh.recency.Represents ⟨frames, capacity⟩) (hf : f ∈ spare) : f.val ∉ frames := by
  intro hmem
  obtain ⟨p, g, hg, hp, -⟩ := h.tracked_of_mem hq hmem
  obtain rfl : g = f := Fin.ext hg
  exact h.not_mem_spare hp hf

/-- A frame that is pinned is not in the queue. -/
theorem not_mem_of_pinned (h : sh.Kept s capacity spare)
    (hq : sh.recency.Represents ⟨frames, capacity⟩) (hp : sh.table[p]? = some f)
    (hpins : (sh.frame f).pins ≠ 0) : f.val ∉ frames := by
  intro hmem
  have htracked := (hq.contains_iff f.val).mpr hmem
  rw [h.not_tracked_of_pinned hp hpins] at htracked
  exact absurd htracked (by simp)

/-- What a spare frame comes to hold makes no difference to the queue. -/
theorem evictables_install (h : sh.Kept s capacity (f :: spare)) (p : PageId) (bytes : Page)
    (hq : sh.recency.Represents ⟨frames, capacity⟩) :
    (sh.install p f bytes).evictables = sh.evictables := by
  have hf : f.val ∉ frames := h.not_mem_of_spare hq List.mem_cons_self
  rw [evictables_eq hq]
  refine evictables_of_queue sh hq fun g hg => ?_
  have hfg : f ≠ g := by
    rintro rfl
    exact hf hg
  rw [frame_install, if_neg hfg]

/-- A frame that joins the queue brings its page to the end. With room for every frame, no other
has to give way. -/
theorem evictables_track (h : sh.Kept s capacity spare) (hroomy : size ≤ capacity)
    (hq : sh.recency.Represents ⟨frames, capacity⟩) (hf : f.val ∉ frames)
    (hp : (sh.frame f).holds = some p) (hrecency : sh'.recency = (sh.recency.track f.val).1)
    (hsame : ∀ g, (sh'.frame g).holds = (sh.frame g).holds) :
    sh'.evictables = sh.evictables ++ [p] := by
  -- a frame that is not tracked leaves room for one, and there is room for all
  have hroom : frames.length < capacity := by
    have hlt : sh.recency.size < size := by
      refine h.chained.size_lt (fun k hk => h.lt_of_tracked hk) f.isLt ?_
      rw [← Bool.not_eq_true, hq.contains_iff]
      exact hf
    rw [hq.size_eq] at hlt
    exact Nat.lt_of_lt_of_le hlt hroomy
  have hq' := hq.track f.val
  rw [Recency.Queue.track, if_neg hf, if_neg (Nat.not_le.mpr hroom), ← hrecency] at hq'
  rw [evictables_of_queue sh hq' fun g _ => hsame g, evictables_eq hq, List.filterMap_append,
    List.filterMap_cons, holder?_val, hp]
  rfl

end Kept

end Shard

namespace Backed

variable {δ : Type} {w w' : Backed size δ} {s : Stripe} {capacity : Nat} {p q : PageId}
variable {f : Fin size}

/-! ## Pages that are unpinned -/

/-- The page, if its last pin was taken off. -/
def lastPinOff (s : Stripe) (w : Backed size δ) (p : PageId) (dirty : Bool) : List PageId :=
  if (w.unpin s p dirty).result = .ok true ∧
      (w.unpin s p dirty).state.shard.pinCount? p = some 0 then [p] else []

/-- The last pin that is taken off a page puts the page at the end; another changes nothing. -/
theorem reorders_unpin (h : w.shard.Kept s capacity w.shard.free) (hroomy : size ≤ capacity)
    (hrecency : (Recency.empty capacity).Becomes w.shard.recency) (s' : Stripe) (p : PageId)
    (dirty : Bool) :
    w.shard.Reorders (lastPinOff s' w p dirty) (w.unpin s' p dirty).state.shard := by
  have hcases := w.unpin_cases s' p dirty
  rw [lastPinOff]
  generalize (w.unpin s' p dirty).result = r, (w.unpin s' p dirty).state = w' at hcases ⊢
  cases hcases with
  | refused hresult =>
    rw [if_neg fun hlast => hresult hlast.1]
    exact .of_eq rfl
  -- the page keeps a pin, and is not in the queue before or after
  | @several f hp hpins =>
    have hcount : (w.shard.setFrame f (w.unpinned f dirty)).pinCount? p ≠ some 0 := by
      show w.shard.table[p]?.map _ ≠ some 0
      rw [hp, Option.map_some, Shard.frame_setFrame, if_pos rfl, ne_eq, Option.some.injEq]
      show (w.shard.frame f).pins - 1 ≠ 0
      omega
    rw [if_neg fun hlast => hcount hlast.2]
    exact .of_eq (Shard.evictables_setFrame _ rfl)
  -- the page joins the queue, and comes last
  | @last f hp hpins =>
    let after : Shard size := ((w.shard.setFrame f (w.unpinned f dirty)).track f).1
    have hframe (g : Fin size) :
        after.frame g = if f = g then w.unpinned f dirty else w.shard.frame g :=
      Shard.frame_setFrame ..
    have hcount : after.pinCount? p = some 0 := by
      show w.shard.table[p]?.map _ = some 0
      rw [hp, Option.map_some, hframe, if_pos rfl, Option.some.injEq]
      show (w.shard.frame f).pins - 1 = 0
      omega
    have hpinned : (w.shard.frame f).pins ≠ 0 := by omega
    have hf := h.not_mem_of_pinned hrecency.represents.1 hp hpinned
    have hsame (g : Fin size) : (after.frame g).holds = (w.shard.frame g).holds := by
      rw [hframe]
      split
      · next hfg => exact hfg ▸ rfl
      · rfl
    rw [if_pos ⟨rfl, hcount⟩]
    refine ⟨w.shard.evictables, .refl _, List.forall_mem_singleton.mpr fun hmem => ?_,
      h.evictables_track hroomy hrecency.represents.1 hf (h.holds hp) rfl hsame⟩
    have hzero := (h.mem_evictables_iff hrecency.represents.1 hroomy).mp hmem
    rw [Shard.pinCount?, hp] at hzero
    exact hpinned (Option.some.inj hzero)

/-! ## Victims -/

/-- The victim is the head of the queue. -/
theorem queue_of_victim (h : w.shard.Kept s capacity w.shard.free)
    (hrecency : (Recency.empty capacity).Becomes w.shard.recency) {recency : Recency}
    (hvictim : w.shard.recency.victim = some (f.val, recency)) (hp : w.shard.table[p]? = some f) :
    ∃ frames, w.shard.recency.Represents ⟨f.val :: frames, capacity⟩ ∧
      (f.val :: frames).length ≤ max capacity 1 ∧ recency = w.shard.recency.unlink f.val ∧
      w.shard.evictables = p :: frames.filterMap w.shard.holder? := by
  obtain ⟨hq, hlength⟩ := hrecency.represents
  rw [hq.victim_eq] at hvictim
  obtain ⟨k, hhead, hfound⟩ := Option.map_eq_some_iff.mp hvictim
  obtain ⟨rfl, rfl⟩ := Prod.mk.inj hfound
  obtain ⟨frames, horder⟩ := List.head?_eq_some_iff.mp hhead
  have horder : w.shard.recency.order = f.val :: frames := horder
  rw [horder] at hq hlength
  refine ⟨frames, hq, hlength, rfl, ?_⟩
  rw [Shard.evictables_eq hq, List.filterMap_cons, Shard.holder?_val, h.holds hp]

/-- When the victim has gone, the others are as they were. -/
theorem evictables_unmap {frames : List Nat}
    (hq : w.shard.recency.Represents ⟨f.val :: frames, capacity⟩) :
    (({ w.shard with recency := w.shard.recency.unlink f.val } : Shard size).unmap
      p f).evictables = frames.filterMap w.shard.holder? := by
  have hf : f.val ∉ frames := (List.nodup_cons.mp hq.nodup).1
  refine Shard.evictables_of_queue w.shard (hq.unlink_head rfl) fun g hg => ?_
  have hfg : f ≠ g := by
    rintro rfl
    exact hf hg
  rw [Shard.frame_unmap, if_neg hfg]
  rfl

variable [PageStore δ]

/-! ## The search for a frame -/

/-- How the search for a frame uses the queue. -/
inductive Sought (w : Backed size δ) : Except Failure (Fin size) → Backed size δ → Prop
  /-- No page has to go, or none may. -/
  | spared {r : Except Failure (Fin size)} {w' : Backed size δ}
      (hnone : w.shard.free = [] → w.shard.evictables = [])
      (htable : w'.shard.table = w.shard.table)
      (hsame : w'.shard.evictables = w.shard.evictables) (hdisk : w'.disk = w.disk) : Sought w r w'
  /-- The first of the queue goes. -/
  | evicted {q : PageId} {rest : List PageId} {f : Fin size} {w' : Backed size δ}
      (hqueue : w.shard.evictables = q :: rest) (htable : w'.shard.table = w.shard.table.erase q)
      (hrest : w'.shard.evictables = rest)
      (hdisk : w'.disk = w.disk ∨
        PageStore.write w.disk q (w.shard.frame f).bytes = (.ok (), w'.disk)) : Sought w (.ok f) w'
  /-- The first of the queue cannot be written, and is the last of it then. -/
  | refused {q : PageId} {rest : List PageId} {f : Fin size} {cause : IoError} {w' : Backed size δ}
      (hqueue : w.shard.evictables = q :: rest) (htable : w'.shard.table = w.shard.table)
      (hback : w'.shard.evictables = rest ++ [q])
      (hwrite : PageStore.write w.disk q (w.shard.frame f).bytes = (.error cause, w'.disk)) :
      Sought w (.error (.storage (.io cause))) w'

theorem sought_of_acquisition (h : w.shard.Kept s capacity w.shard.free)
    (hrecency : (Recency.empty capacity).Becomes w.shard.recency) {r : Except Failure (Fin size)}
    (ha : Acquisition w r w') : Sought w r w' := by
  cases ha with
  | free hfree => exact .spared (fun hnone => absurd (hfree.symm.trans hnone) (by simp)) rfl rfl rfl
  -- nobody to choose: the queue is empty
  | full hfree hvictim =>
    refine .spared (fun _ => ?_) rfl rfl rfl
    obtain ⟨hq, -⟩ := hrecency.represents
    rw [hq.victim_eq] at hvictim
    have horder : w.shard.recency.order = [] :=
      List.head?_eq_none_iff.mp (Option.map_eq_none_iff.mp hvictim)
    rw [Shard.evictables, horder]
    rfl
  | clean hfree hvictim hp hpins hclean =>
    obtain ⟨frames, hq, -, rfl, hqueue⟩ := queue_of_victim h hrecency hvictim hp
    exact .evicted hqueue rfl (evictables_unmap hq) (.inl rfl)
  | written hfree hvictim hp hpins hdirty hwrite =>
    obtain ⟨frames, hq, -, rfl, hqueue⟩ := queue_of_victim h hrecency hvictim hp
    exact .evicted hqueue rfl (evictables_unmap hq) (.inr hwrite)
  | @unwritten f _ p _ _ hfree hvictim hp hpins hdirty hwrite =>
    obtain ⟨frames, hq, hlength, rfl, hqueue⟩ := queue_of_victim h hrecency hvictim hp
    refine .refused hqueue rfl ?_ hwrite
    -- the victim is put back, now as the newest
    let back : Shard size :=
      (({ w.shard with recency := w.shard.recency.unlink f.val } : Shard size).track f).1
    have hqueue' : back.recency.Represents ⟨frames ++ [f.val], capacity⟩ := hq.requeue hlength
    show back.evictables = _
    rw [Shard.evictables_of_queue w.shard hqueue' fun _ _ => rfl, List.filterMap_append,
      List.filterMap_cons, Shard.holder?_val, h.holds hp]
    rfl

/-! ## Pages that are brought in

Which writes were refused on the way is read off the store. -/

section Tried

variable {w w' : Backed size (Tried δ)}

/-- The search for a frame moves the page to the end that could not be written, if there was one. -/
theorem Sought.reorders {r : Except Failure (Fin size)} (hs : Sought w r w')
    (hstart : w.disk.refused = []) (hnodup : w.shard.evictables.Nodup) :
    w.shard.Reorders w'.disk.refused w'.shard := by
  cases hs with
  | spared _ _ hsame hdisk =>
    rw [hdisk, hstart]
    exact .of_eq hsame
  | evicted hqueue _ hrest hdisk =>
    have hnone : w'.disk.refused = [] := by
      rcases hdisk with hdisk | hwrite
      · rw [hdisk, hstart]
      · rw [Tried.refused_of_ok hwrite, hstart]
    rw [hnone]
    apply Shard.Reorders.of_sublist
    rw [hqueue, hrest]
    exact List.sublist_cons_self ..
  | @refused q rest _ _ _ hqueue _ hback hwrite =>
    rw [Tried.refused_of_error hwrite, hstart, List.nil_append]
    refine ⟨rest, hqueue ▸ List.sublist_cons_self .., ?_, hback⟩
    rw [hqueue] at hnodup
    exact List.forall_mem_singleton.mpr (List.nodup_cons.mp hnodup).1

/-- Loading a page writes nothing, so nothing is refused. -/
theorem refused_load (w : Backed size (Tried δ)) (p : PageId) (f : Fin size) :
    (w.load p f).state.disk.refused = w.disk.refused := by
  rw [load]
  dsimp only
  split <;> rfl

end Tried

/-- A page that was loaded is in the table; one that could not be read is not. -/
theorem table_load (w : Backed size δ) (p : PageId) (f : Fin size) :
    (w.load p f).state.shard.table = w.shard.table.insert p f ∨
      (w.load p f).state.shard.table = w.shard.table := by
  rw [load]
  dsimp only
  split
  · exact .inl rfl
  · exact .inr rfl

/-- Reading a page into the frame that was found for it makes no difference to the queue. -/
theorem evictables_load (h : w.shard.Kept s capacity (f :: w.shard.free))
    (hrecency : (Recency.empty capacity).Becomes w.shard.recency) (p : PageId) :
    (w.load p f).state.shard.evictables = w.shard.evictables := by
  rw [load]
  dsimp only
  split
  · exact h.evictables_install p _ hrecency.represents.1
  · exact w.shard.evictables_setFrame rfl

section Tried

variable {w : Backed size (Tried δ)} (h : w.shard.Kept s capacity w.shard.free)
  (hrecency : (Recency.empty capacity).Becomes w.shard.recency) (hstart : w.disk.refused = [])

include h hrecency hstart

/-- The search for a frame moves no page but one that could not be written. -/
theorem reorders_acquire : w.shard.Reorders w.acquire.state.disk.refused w.acquire.state.shard :=
  (sought_of_acquisition h hrecency h.acquisition).reorders hstart
    (h.nodup_evictables hrecency.represents.1)

/-- A fetch moves no page but one that could not be written. -/
theorem reorders_fetch (s' : Stripe) (p : PageId) :
    w.shard.Reorders (w.fetch s' p).state.disk.refused (w.fetch s' p).state.shard := by
  have hstill : w.shard.Reorders w.disk.refused w.shard := hstart ▸ .of_eq rfl
  rw [fetch]
  split
  swap
  · exact hstill
  split
  · next f _ =>
    rw [pinAgain]
    dsimp only
    split
    swap
    · exact hstill
    rw [hstart]
    -- a resident page leaves the queue if it was in it
    apply Shard.Reorders.of_sublist
    simp only [Shard.untrack_fst]
    refine Shard.evictables_unlink hrecency.represents.1 rfl fun g hfg => ?_
    show ((w.shard.setFrame f _).frame g).holds = _
    rw [Shard.frame_setFrame, if_neg hfg]
  · have hreorders := reorders_acquire h hrecency hstart
    cases hresult : w.acquire.result with
    | error e =>
      rw [Outcome.andThen_of_error hresult]
      exact hreorders
    | ok f =>
      have ha := h.acquisition
      rw [hresult] at ha
      -- the page that comes in is pinned, so it does not join the queue
      have hsame := evictables_load (ha.kept_of_ok h) (hrecency.trans w.becomes_acquire) p
      rw [Outcome.andThen_of_ok hresult]
      obtain ⟨rest, hrest, hnot, hafter⟩ := hreorders
      show w.shard.Reorders (w.acquire.state.load p f).state.disk.refused
        (w.acquire.state.load p f).state.shard
      rw [refused_load]
      exact ⟨rest, hrest, hnot, hsame.trans hafter⟩

/-- A creation moves no page but one that could not be written. -/
theorem reorders_newPage (s' : Stripe) :
    w.shard.Reorders (w.newPage s').state.disk.refused (w.newPage s').state.shard := by
  have hreorders := reorders_acquire h hrecency hstart
  have ha := h.acquisition
  have hcreation := w.creation s'
  generalize (w.newPage s').result = r, (w.newPage s').state = w' at hcreation
  cases hcreation with
  | exhausted => exact hstart ▸ .of_eq rfl
  | unplaced | foreign => exact hreorders
  | @made p f _ hresult =>
    rw [hresult] at ha
    have hsame := (ha.kept_of_ok h).evictables_install p .zero
      (hrecency.trans w.becomes_acquire).represents.1
    obtain ⟨rest, hrest, hnot, hafter⟩ := hreorders
    exact ⟨rest, hrest, hnot, hsame.trans hafter⟩

end Tried

/-! ## Pages that are chosen -/

section Tried

variable {w : Backed size (Tried δ)} {rest : List PageId}
  (h : w.shard.Kept s capacity w.shard.free)
  (hrecency : (Recency.empty capacity).Becomes w.shard.recency) (hstart : w.disk.refused = [])
  (hfree : w.shard.free = []) (hqueue : w.shard.evictables = q :: rest)

include h hrecency hstart hfree hqueue

/-- Whatever is done with the frame that was found: the head of the queue was chosen. -/
theorem chooses_of_acquire {sh : Shard size} {refused : List PageId}
    (hfailed : ∀ {e}, w.acquire.result = .error e →
      sh.table = w.acquire.state.shard.table ∧ refused = w.acquire.state.disk.refused)
    (hfound : ∀ {f}, w.acquire.result = .ok f → refused = w.acquire.state.disk.refused ∧
      sh.table[q]? = w.acquire.state.shard.table[q]? ∧
      ∀ {r : PageId} {g : Fin size}, w.acquire.state.shard.table[r]? = some g →
        sh.table[r]? = some g) : w.shard.Chooses q refused sh := by
  have hsought := sought_of_acquisition h hrecency h.acquisition
  generalize w.acquire.result = r, w.acquire.state = w' at hsought hfailed hfound
  cases hsought with
  -- there was somebody to choose, and no frame was free
  | spared hnone => exact absurd (hqueue.symm.trans (hnone hfree)) (by simp)
  | @evicted q' rest' f _ hqueue' htable _ hdisk =>
    obtain ⟨rfl, rfl⟩ := List.cons.inj (hqueue.symm.trans hqueue')
    obtain ⟨hrefused, hgone, hothers⟩ := hfound rfl
    refine ⟨fun {r g} hr hg => hothers ?_, .inl ⟨?_, ?_⟩⟩
    · rw [htable, Shard.getElem?_erase, if_neg (Ne.symm hr)]
      exact hg
    · rw [hrefused]
      rcases hdisk with hdisk | hwrite
      · rw [hdisk, hstart]
      · rw [Tried.refused_of_ok hwrite, hstart]
    · rw [hgone, htable, Shard.getElem?_erase, if_pos rfl]
  | @refused q' rest' f cause _ hqueue' htable _ hwrite =>
    obtain ⟨rfl, rfl⟩ := List.cons.inj (hqueue.symm.trans hqueue')
    obtain ⟨hsame, hrefused⟩ := hfailed rfl
    refine ⟨fun {r g} _ hg => ?_, .inr ⟨?_, ?_⟩⟩
    · rw [hsame, htable]
      exact hg
    · rw [hrefused, Tried.refused_of_error hwrite, hstart, List.nil_append]
    · rw [hsame, htable]

/-- A fetch that needs a frame chooses the head of the queue. -/
theorem chooses_fetch {s' : Stripe} (howns : s'.Owns p) (hp : w.shard.table[p]? = none)
    (hq : w.shard.table[q]? ≠ none) :
    w.shard.Chooses q (w.fetch s' p).state.disk.refused (w.fetch s' p).state.shard := by
  have hpq : p ≠ q := by
    rintro rfl
    exact hq hp
  rw [fetch, if_pos howns, hp]
  apply chooses_of_acquire h hrecency hstart hfree hqueue
  · intro e hresult
    rw [Outcome.andThen_of_error hresult]
    exact ⟨rfl, rfl⟩
  · intro f hresult
    have hfound := w.search.table_none hp
    rw [Outcome.andThen_of_ok hresult]
    refine ⟨refused_load _ p f, ?_⟩
    show (w.acquire.state.load p f).state.shard.table[q]? = _ ∧ ∀ {r : PageId} {g : Fin size},
      _ → (w.acquire.state.load p f).state.shard.table[r]? = some g
    rcases table_load w.acquire.state p f with htable | htable
    · rw [htable]
      refine ⟨by rw [Shard.getElem?_insert, if_neg hpq], fun {r g} hg => ?_⟩
      have hpr : p ≠ r := by
        rintro rfl
        exact absurd (hfound.symm.trans hg) (by simp)
      rw [Shard.getElem?_insert, if_neg hpr]
      exact hg
    · rw [htable]
      exact ⟨rfl, id⟩

/-- A creation that needs a frame chooses the head of the queue. -/
theorem chooses_newPage {s' : Stripe} {id : PageId} (hnext : w.shard.nextId = some id)
    (hspared : ∀ {p : PageId} {f : Fin size}, (w.newPage s').result = .ok (p, f) →
      w.shard.table[p]? = none) (hq : w.shard.table[q]? ≠ none) :
    w.shard.Chooses q (w.newPage s').state.disk.refused (w.newPage s').state.shard := by
  apply chooses_of_acquire h hrecency hstart hfree hqueue
  · intro e hresult
    rw [newPage_of_error hnext hresult]
    exact ⟨rfl, rfl⟩
  intro f hresult
  by_cases howns : s'.Owns id
  swap
  · rw [(newPage_of_foreign hnext hresult howns).2]
    exact ⟨rfl, rfl, fun hg => hg⟩
  obtain ⟨hmade, hstate⟩ := newPage_of_ok hnext hresult howns
  have hid := hspared hmade
  -- the new page is not resident, and the head of the queue is
  have hidq : id ≠ q := by
    rintro rfl
    exact hq hid
  rw [hstate]
  refine ⟨rfl, ?_, fun {r g} hg => ?_⟩
  · show (w.acquire.state.shard.table.insert id f)[q]? = _
    rw [Shard.getElem?_insert, if_neg hidq]
  · have hidr : id ≠ r := by
      rintro rfl
      exact absurd ((w.search.table_none hid).symm.trans hg) (by simp)
    show (w.acquire.state.shard.table.insert id f)[r]? = _
    rw [Shard.getElem?_insert, if_neg hidr]
    exact hg

end Tried

/-! ## Operations that leave the order alone -/

section

variable {w : Backed size δ}

/-- A pin more on a page that is pinned. -/
theorem evictables_fetch_pinned (h : w.shard.Kept s capacity w.shard.free)
    (hrecency : (Recency.empty capacity).Becomes w.shard.recency) {n : Nat}
    (hcount : w.shard.pinCount? p = some (n + 1)) (s' : Stripe) :
    (w.fetch s' p).state.shard.evictables = w.shard.evictables := by
  obtain ⟨f, hp, hpins⟩ := Option.map_eq_some_iff.mp hcount
  have hq := hrecency.represents.1
  rw [fetch]
  split
  swap
  · rfl
  rw [hp]
  dsimp only
  rw [pinAgain]
  dsimp only
  split
  swap
  · rfl
  simp only [Shard.untrack_fst]
  -- the frame was not in the queue, so nothing can be taken out of it
  have hf : f.val ∉ w.shard.recency.order := h.not_mem_of_pinned hq hp (by omega)
  have hqueue := hq.unlink f.val
  rw [Recency.Queue.untrack, List.erase_of_not_mem hf] at hqueue
  refine (Shard.evictables_of_queue w.shard hqueue fun g hg => ?_).trans
    (Shard.evictables_eq hq).symm
  have hfg : f ≠ g := by
    rintro rfl
    exact hf hg
  show ((w.shard.setFrame f _).frame g).holds = _
  rw [Shard.frame_setFrame, if_neg hfg]

/-- A page that is brought in, or not, for want of a frame or of an id. -/
theorem shard_acquire_of_error (h : w.shard.Kept s capacity w.shard.free) {e : Failure}
    (hresult : w.acquire.result = .error e) (he : ∀ cause, e ≠ .storage (.io cause)) :
    w.acquire.state.shard = w.shard := by
  have ha := h.acquisition
  rw [hresult] at ha
  generalize w.acquire.state = w' at ha
  cases ha with
  | full => rfl
  | @unwritten _ _ _ _ cause => exact absurd rfl (he cause)

/-- A fetch that fails, but not at the disk, leaves the shard as it was. -/
theorem shard_fetch_of_error (h : w.shard.Kept s capacity w.shard.free) {s' : Stripe} {e : Failure}
    (hresult : (w.fetch s' p).result = .error e) (he : ∀ cause, e ≠ .storage (.io cause)) :
    (w.fetch s' p).state.shard = w.shard := by
  rw [fetch] at hresult ⊢
  split at hresult
  swap
  · next howns =>
    rw [if_neg howns]
    rfl
  next howns =>
  rw [if_pos howns]
  cases hp : w.shard.table[p]? with
  | some f =>
    rw [hp] at hresult
    dsimp only at hresult ⊢
    rw [pinAgain] at hresult ⊢
    dsimp only at hresult ⊢
    split at hresult
    · exact absurd hresult (by simp)
    · next hpins =>
      rw [if_neg hpins]
      rfl
  | none =>
    rw [hp] at hresult
    dsimp only at hresult ⊢
    cases ha : w.acquire.result with
    | error e' =>
      rw [Outcome.andThen_of_error ha] at hresult ⊢
      obtain rfl : e' = e := Except.error.inj hresult
      exact shard_acquire_of_error h ha he
    | ok f =>
      rw [Outcome.andThen_of_ok ha, load] at hresult
      dsimp only [Outcome.result_after] at hresult
      -- a frame was found, so only the disk can have refused
      split at hresult
      · exact absurd hresult (by simp)
      · exact absurd (Except.error.inj hresult).symm (he _)

/-- A creation that fails, but not at the disk, leaves the shard as it was. -/
theorem shard_newPage_of_error (h : w.shard.Kept s capacity w.shard.free) {e : Failure}
    (hresult : (w.newPage s).result = .error e) (he : ∀ cause, e ≠ .storage (.io cause)) :
    (w.newPage s).state.shard = w.shard := by
  have hcreation := w.creation s
  rw [hresult] at hcreation
  generalize (w.newPage s).state = w' at hcreation
  cases hcreation with
  | exhausted => rfl
  | unplaced _ hsearch => exact shard_acquire_of_error h hsearch he
  | foreign hnext _ howns => exact absurd (h.next_owned hnext) howns

/-- How a delete of page `p` ends, as far as the queue is concerned. -/
theorem evictables_delete (hrecency : (Recency.empty capacity).Becomes w.shard.recency)
    (s' : Stripe) (p : PageId) : (w.delete s' p).state.shard = w.shard ∨
      (w.delete s' p).result = .ok true ∧
        (w.delete s' p).state.shard.evictables.Sublist w.shard.evictables := by
  rw [delete]
  -- the stripe, the table and the pins decide whether the page goes
  split
  swap
  · exact .inl rfl
  simp only [Outcome.state_after, Outcome.result_after, discard]
  split
  · exact .inl rfl
  next f _ =>
  split
  · exact .inl rfl
  refine .inr ⟨rfl, ?_⟩
  simp only [Shard.untrack_fst]
  refine Shard.evictables_unlink hrecency.represents.1 rfl fun g hfg => ?_
  show (Shard.frame (Shard.setFrame _ f .blank) g).holds = _
  rw [Shard.frame_setFrame, if_neg hfg]
  rfl

end

end Backed

end PageCache
