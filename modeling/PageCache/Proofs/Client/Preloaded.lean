import PageCache.Proofs.Client.Journal
import PageCache.Proofs.Client.NewPages
import PageCache.Proofs.Client.Pinned
import PageCache.Proofs.Shard.Rotation
import PageCache.Proofs.Shard.Shielded

/-!
# Recency lists that are given to a shard

A shard may be given a recency list that tracks frames already, although all frames are free. A
frame that leaves the free list is not looked for on the recency list; so if it is there it stays
there while its page is pinned, and the page can be evicted.

Shards are used at will here, but nobody fetches a page that was not created (`Backed.Life`), and a
frame is protected (`Backed.Protects`) if no use that is made of the shard takes a page from it that
is pinned.

* `Backed.protects_of_untracked`: a frame that the list does not track is protected.
* `Backed.not_protects_of_tracked`: no other is. Pages are created in all frames, and all of them
  but one are fetched once more; then the next page takes the place of that one.
* `Backed.protects_iff`: so it takes an empty list to protect all frames.
-/

namespace PageCache

variable {size : Nat}

/-! ## The list at the start -/

namespace Recency

variable {capacity : Nat} {frames : List Nat} {k : Nat}

theorem ofTracked_concat (capacity : Nat) (frames : List Nat) (k : Nat) :
    ofTracked capacity (frames ++ [k]) = ((ofTracked capacity frames).track k).1 :=
  List.foldl_append

/-- However many frames were tracked, the links agree. -/
theorem chained_ofTracked (capacity : Nat) (frames : List Nat) :
    (ofTracked capacity frames).Chained := by
  -- over the frames, the last one split off
  induction frames using List.reverseRecOn with
  | nil => exact .empty capacity
  | append_singleton frames k ih =>
    rw [ofTracked_concat]
    exact ih.track k

/-- A list names no frame that was not tracked. -/
theorem mem_of_contains_ofTracked (h : (ofTracked capacity frames).contains k = true) :
    k ∈ frames := by
  induction frames using List.reverseRecOn with
  | nil => exact absurd h (by simp [ofTracked, contains, empty])
  | append_singleton frames j ih =>
    rw [ofTracked_concat] at h
    rcases (chained_ofTracked capacity frames).contains_of_track h with rfl | h
    · exact List.mem_append_right _ List.mem_cons_self
    · exact List.mem_append_left _ (ih h)

/-- However small the list, it tracks the last frame there was. -/
theorem exists_contains_ofTracked (capacity : Nat) (h : frames ≠ []) :
    ∃ k, (ofTracked capacity frames).contains k = true := by
  induction frames using List.reverseRecOn with
  | nil => exact absurd rfl h
  | append_singleton frames k =>
    rw [ofTracked_concat]
    exact ⟨k, (chained_ofTracked capacity frames).contains_track_self k⟩

end Recency

/-! ## What may happen to a shard -/

namespace ShardOp

/-- No page is fetched but those of `created`. -/
def FetchesAmong (created : List PageId) : ShardOp size → Prop
  | .fetch p => p ∈ created
  | _ => True

/-- What is done to the bytes of frame `f` by somebody who has its latch. -/
def edits (f : Fin size) : ShardOp size → Page → Page
  | .reach g edit => if g = f then edit else id
  | _ => id

end ShardOp

namespace Backed

variable {δ : Type} [PageStore δ]

/-- A fresh shard with a recency list that has tracked `frames`. -/
def preloaded (s : Stripe) (size capacity : Nat) (frames : List Nat) (disk : δ) : Backed size δ :=
  ⟨{ Shard.fresh s size with recency := .ofTracked capacity frames }, disk⟩

/-- The page that is created if the shard is asked this. -/
def creates (s : Stripe) (w : Backed size δ) : ShardOp size → List PageId
  | .newPage =>
    match (w.newPage s).result with
    | .ok (p, _) => [p]
    | .error _ => []
  | _ => []

/-- The shard was `w₀` and was asked this and that, but to fetch no page that it had not created,
and has created the pages of `created`. The disk may have changed at any time. -/
inductive Life (s : Stripe) (w₀ : Backed size δ) : List PageId → Backed size δ → Prop
  | start : Life s w₀ [] w₀
  | ask {created : List PageId} {w : Backed size δ} (h : Life s w₀ created w) (op : ShardOp size)
      (hop : op.FetchesAmong created) : Life s w₀ (w.creates s op ++ created) (w.ask s op)
  | beside {created : List PageId} {w : Backed size δ} (h : Life s w₀ created w) (disk : δ) :
      Life s w₀ created { w with disk }

/-- The page that is pinned in frame `f`, if any, stays there whatever comes of `op`, and its bytes
are changed only by who has the latch. -/
def KeepsPinned (s : Stripe) (f : Fin size) (w : Backed size δ) (op : ShardOp size) : Prop :=
  ∀ {p : PageId}, w.shard.table[p]? = some f → (w.shard.frame f).pins ≠ 0 →
    (w.ask s op).shard.Has p f (op.edits f (w.shard.frame f).bytes)

/-- No life of the shard takes a pinned page from frame `f`. -/
def Protects (s : Stripe) (w₀ : Backed size δ) (f : Fin size) : Prop :=
  ∀ {created : List PageId} {w : Backed size δ}, Life s w₀ created w →
    ∀ op, op.FetchesAmong created → w.KeepsPinned s f op

variable {w w₀ : Backed size δ} {s : Stripe} {op : ShardOp size} {created : List PageId}
variable {p q : PageId} {f : Fin size} {capacity : Nat} {frames : List Nat}

/-! ## Frames that were not tracked -/

/-- A page that was made is among those that were created. -/
theorem mem_creates (h : (w.newPage s).result = .ok (p, f)) : p ∈ w.creates s .newPage := by
  rw [creates, h]
  exact List.mem_cons_self

/-- A page that is neither fetched nor created stays away. -/
theorem table_ask_of_none (hmapped : w.shard.Mapped w.shard.free) (hspared : w.Spares s op)
    (hp : w.shard.table[p]? = none) (hfetch : op ≠ .fetch p) (hnew : p ∉ w.creates s op) :
    (w.ask s op).shard.table[p]? = none := by
  let e : Errand (.alone s) size δ := ⟨⟨0, Nat.one_pos⟩, w, op⟩
  have hstep := (e.accounted hmapped hspared).record p
  rw [show e.found.shard.record? p = none from Shard.record?_eq_none_iff.mpr hp] at hstep
  refine Shard.record?_eq_none_iff.mp (hstep.none_of_not_brings fun hbrings => ?_)
  rcases ShardOp.brings_cases hbrings with hop | ⟨rfl, f, hanswer⟩
  · exact hfetch hop
  · obtain ⟨⟨q, g⟩, hcreated, hreply⟩ := Outcome.result_map_eq_ok_iff.mp hanswer
    obtain ⟨rfl, -⟩ := ShardReply.handle.inj hreply
    exact hnew (mem_creates hcreated)

/-- Only pages of `created` are resident, and new pages will be others. -/
structure Knows (w : Backed size δ) (created : List PageId) : Prop where
  resident : ∀ {p : PageId} {g : Fin size}, w.shard.table[p]? = some g → p ∈ created
  beyond : ∀ p ∈ created, w.shard.Beyond p

omit [PageStore δ] in
/-- At the start no page is resident, whatever the list tracks. -/
theorem Knows.preloaded (s : Stripe) (size capacity : Nat) (frames : List Nat) (disk : δ) :
    (preloaded s size capacity frames disk).Knows [] where
  resident hp := absurd hp (by simp [Backed.preloaded, Shard.fresh])
  beyond _ hp := absurd hp List.not_mem_nil

/-- A new page is not resident if all that are resident were made before. -/
theorem Knows.spares (h : w.Knows created) (op : ShardOp size) : w.Spares s op := by
  cases op with
  | newPage =>
    intro p f hresult
    refine Option.eq_none_iff_forall_not_mem.mpr fun g hg => ?_
    exact absurd (h.beyond p (h.resident hg) (nextId_of_newPage hresult)) (Nat.lt_irrefl _)
  | _ => trivial

/-- One question more, and what is resident was created. -/
theorem Knows.ask (h : w.Knows created) (hmapped : w.shard.Mapped w.shard.free)
    (hop : op.FetchesAmong created) :
    (w.ask s op).Knows (w.creates s op ++ created) where
  resident {p g} hp := by
    -- what was not created was not resident, and only a fetch or a creation could have brought it
    -- in
    by_contra hnot
    obtain ⟨hnew, hold⟩ := not_or.mp (mt List.mem_append.mpr hnot)
    have hnone : w.shard.table[p]? = none :=
      Option.eq_none_iff_forall_not_mem.mpr fun g hg => hold (h.resident hg)
    have hfetch : op ≠ .fetch p := by
      rintro rfl
      exact hold hop
    have hstays := table_ask_of_none hmapped (h.spares op) hnone hfetch hnew
    exact absurd (hstays.symm.trans hp) (by simp)
  beyond p hp := by
    rcases List.mem_append.mp hp with hp | hp
    · cases op with
      | newPage =>
        rw [creates] at hp
        split at hp
        · next q g hresult =>
          obtain rfl := List.mem_singleton.mp hp
          exact beyond_newPage hresult
        · exact absurd hp List.not_mem_nil
      | _ => exact absurd hp List.not_mem_nil
    · exact beyond_ask (h.beyond p hp) op

/-- Whatever a shard is asked, a frame that is safe stays so, and so does the page pinned in it. -/
theorem shielded_ask (h : w.shard.Shielded w.shard.free f) (hspared : w.Spares s op) :
    (w.ask s op).shard.Shielded (w.ask s op).shard.free f ∧ w.KeepsPinned s f op := by
  have of_guards (hguards : Shard.Guards f w.shard (w.ask s op).shard (w.ask s op).shard.free)
      (hedits : op.edits f = id) :
      (w.ask s op).shard.Shielded (w.ask s op).shard.free f ∧ w.KeepsPinned s f op :=
    ⟨⟨mapped_ask h.mapped hspared, (w.becomes_ask s op).chained h.chained, hguards.idle⟩,
      fun hp hpins => hedits ▸ hguards.keeps hp hpins⟩
  -- all but an edit of the frame itself leave its bytes alone, and what guards the frame shields it
  cases op with
  | fetch q => exact of_guards (guards_fetch h s q) rfl
  | newPage => exact of_guards (guards_newPage h s (makesAbsent_of_spares hspared)) rfl
  | unpin q dirty => exact of_guards (guards_unpin h s q dirty) rfl
  | delete q => exact of_guards (guards_delete h s q) rfl
  | flush q =>
    have hsame := sameButFlags_flush s w q
    refine of_guards ?_ rfl
    show Shard.Guards f w.shard (w.flush s q).state.shard (w.flush s q).state.shard.free
    rw [hsame.free]
    exact hsame.guards h
  | flushAll visit =>
    have hsame := sameButFlags_flushAll visit w
    refine of_guards ?_ rfl
    show Shard.Guards f w.shard (w.flushAll visit).state.shard (w.flushAll visit).state.shard.free
    rw [hsame.free]
    exact hsame.guards h
  | reach g edit =>
    by_cases hgf : g = f
    · subst hgf
      have hframe : (w.ask s (.reach g edit)).shard.frame g =
          { w.shard.frame g with bytes := edit (w.shard.frame g).bytes } :=
        (Shard.frame_setFrame ..).trans (if_pos rfl)
      refine ⟨⟨mapped_ask h.mapped hspared, h.chained, fun hg => ?_⟩, fun hp _ => ⟨hp, ?_⟩⟩
      · rw [hframe]
        exact h.idle hg
      · rw [hframe, ShardOp.edits, if_pos rfl]
    · exact of_guards (h.guards_self.setFrame_of_ne hgf _) (if_neg hgf)

/-- A frame that is safe at the start is safe at any time of the shard's life. -/
theorem Life.shielded (h : Life s w₀ created w) (hknows : w₀.Knows [])
    (hsafe : w₀.shard.Shielded w₀.shard.free f) :
    w.Knows created ∧ w.shard.Shielded w.shard.free f := by
  induction h with
  | start => exact ⟨hknows, hsafe⟩
  | ask _ op hop ih =>
    exact ⟨ih.1.ask ih.2.mapped hop, (shielded_ask ih.2 (ih.1.spares op)).1⟩
  | beside _ disk ih => exact ⟨⟨ih.1.resident, ih.1.beyond⟩, ih.2⟩

/-- A frame that the list does not track at the start is protected. -/
theorem protects_of_untracked (disk : δ)
    (h : (Recency.ofTracked capacity frames).contains f = false) :
    (preloaded s size capacity frames disk).Protects s f := by
  have hsafe : (preloaded s size capacity frames disk).shard.Shielded
      (preloaded s size capacity frames disk).shard.free f :=
    ⟨.fresh s _, Recency.chained_ofTracked capacity frames,
      fun hf => absurd (h.symm.trans hf) (by simp)⟩
  intro created w hlife op hop
  obtain ⟨hknows, hshielded⟩ := hlife.shielded (.preloaded s size capacity frames disk) hsafe
  exact (shielded_ask hshielded (hknows.spares op)).2

/-! ## Frames that were tracked -/

/-- Pages were created in the first `j` frames, and all that are not in frame `f` were fetched once
more. So of these frames the recency list tracks `f` at most, and the others as at the start. -/
structure Filled (s : Stripe) (start : Recency) (f : Fin size) (j : Nat) (w : Backed size δ) :
    Prop where
  free : w.shard.free = (List.finRange size).drop j
  nextId : w.shard.nextId = s.nth? j
  chained : w.shard.recency.Chained
  contains_iff : ∀ k, w.shard.recency.contains k = true ↔
    start.contains k = true ∧ (j ≤ k ∨ k = f.val)
  /-- The page of frame `f` is pinned and clean. -/
  page : f.val < j → ∃ p, s.nth? f.val = some p ∧ w.shard.table[p]? = some f ∧
    w.shard.frame f = .holding p .zero

section

variable {start : Recency} {j : Nat}

omit [PageStore δ] in
/-- At the start no frame has been filled. -/
theorem Filled.preloaded (s : Stripe) (capacity : Nat) (frames : List Nat) (f : Fin size)
    (disk : δ) :
    (preloaded s size capacity frames disk).Filled s (.ofTracked capacity frames) f 0 where
  free := rfl
  nextId := s.nth?_zero.symm
  chained := Recency.chained_ofTracked capacity frames
  contains_iff k := ⟨fun hk => ⟨hk, .inl (Nat.zero_le k)⟩, And.left⟩
  page h := absurd h (Nat.not_lt_zero _)

/-- The next page is created in the next frame. -/
theorem Filled.newPage (h : w.Filled s start f j) (hj : j < size) (hid : s.nth? j = some p) :
    (w.newPage s).result = .ok (p, ⟨j, hj⟩) ∧
      (w.newPage s).state.shard = { w.shard.install p ⟨j, hj⟩ .zero with
        free := (List.finRange size).drop (j + 1), nextId := s.nth? (j + 1) } := by
  have hfree : w.shard.free = ⟨j, hj⟩ :: (List.finRange size).drop (j + 1) := by
    rw [h.free, List.drop_eq_getElem_cons (by simpa using hj), List.getElem_finRange]
    rfl
  have hacquire : w.acquire = .ok ⟨j, hj⟩ { w with
      shard := { w.shard with free := (List.finRange size).drop (j + 1) } } := by
    rw [acquire, hfree]
  obtain ⟨hresult, hstate⟩ := newPage_of_ok (s := s) (h.nextId.trans hid)
    (congrArg Outcome.result hacquire) (Stripe.owns_of_nth? hid)
  refine ⟨hresult, ?_⟩
  rw [hstate, hacquire, ← Stripe.next?_of_nth? hid]
  rfl

/-- In frame `f` it stays as it is. -/
theorem Filled.leave (h : w.Filled s start f f.val) (hid : s.nth? f.val = some p) :
    (w.ask s .newPage).Filled s start f (f.val + 1) := by
  have hshard : (w.ask s .newPage).shard = { w.shard.install p f .zero with
      free := (List.finRange size).drop (f.val + 1), nextId := s.nth? (f.val + 1) } :=
    (h.newPage f.isLt hid).2
  refine ⟨by rw [hshard], by rw [hshard], by rw [hshard]; exact h.chained, fun k => ?_,
    fun _ => ⟨p, hid, ?_, ?_⟩⟩
  · rw [hshard]
    refine (h.contains_iff k).trans (and_congr_right fun _ => ?_)
    omega
  · rw [hshard]
    exact (Shard.getElem?_insert ..).trans (if_pos rfl)
  · rw [hshard]
    exact (Shard.frame_install ..).trans (if_pos rfl)

/-- In another frame it is fetched once more, which takes the frame off the list. -/
theorem Filled.pinAgain (h : w.Filled s start f j) (hj : j < size) (hid : s.nth? j = some p)
    (hjf : j ≠ f.val) :
    ((w.ask s .newPage).ask s (.fetch p)).Filled s start f (j + 1) := by
  have hshard : (w.ask s .newPage).shard = { w.shard.install p ⟨j, hj⟩ .zero with
      free := (List.finRange size).drop (j + 1), nextId := s.nth? (j + 1) } :=
    (h.newPage hj hid).2
  -- what the shard is after the new page is all that is used of it
  generalize w.ask s .newPage = w' at hshard
  let g : Fin size := ⟨j, hj⟩
  have hgf : g ≠ f := fun hgf => hjf (congrArg Fin.val hgf)
  have htable : w'.shard.table[p]? = some g := by
    rw [hshard]
    exact (Shard.getElem?_insert ..).trans (if_pos rfl)
  have hframe : w'.shard.frame g = .holding p .zero := by
    rw [hshard]
    exact (Shard.frame_install ..).trans (if_pos rfl)
  have hfetched : (w'.ask s (.fetch p)).shard =
      { w'.shard.setFrame g { w'.shard.frame g with pins := (w'.shard.frame g).pins + 1 } with
        recency := w'.shard.recency.unlink j } := by
    show (w'.fetch s p).state.shard = _
    have hroom : (w'.shard.frame g).pins < Frame.maxPins := by
      rw [hframe]
      show 1 < Frame.maxPins
      decide
    rw [fetch, if_pos (Stripe.owns_of_nth? hid), htable]
    dsimp only [Backed.pinAgain]
    rw [if_pos hroom, Shard.untrack_fst]
    rfl
  have hsame : (w'.ask s (.fetch p)).shard.frame f = w.shard.frame f := by
    rw [hfetched]
    refine (Shard.frame_setFrame ..).trans ((if_neg hgf).trans ?_)
    rw [hshard]
    exact (Shard.frame_install ..).trans (if_neg hgf)
  refine ⟨?_, ?_, ?_, fun k => ?_, fun hf => ?_⟩
  · rw [hfetched, hshard]
    rfl
  · rw [hfetched, hshard]
    rfl
  · rw [hfetched, hshard]
    exact h.chained.unlink j
  · rw [hfetched, hshard]
    refine (h.chained.contains_unlink j k).trans ?_
    rw [h.contains_iff]
    constructor
    · -- the frame that was taken off the list is frame `j`, which is not `f`
      rintro ⟨hne, hk, hjk⟩
      exact ⟨hk, by omega⟩
    · rintro ⟨hk, hjk⟩
      exact ⟨by omega, hk, by omega⟩
  · obtain ⟨q, hq, hlies, hholds⟩ := h.page (by omega)
    have hpq : p ≠ q := by
      rintro rfl
      exact hjf (Stripe.eq_of_nth? hid hq)
    refine ⟨q, hq, ?_, hsame.trans hholds⟩
    rw [hfetched, hshard]
    exact (Shard.getElem?_insert ..).trans ((if_neg hpq).trans hlies)

/-- So all frames can be filled. -/
theorem exists_filled (capacity : Nat) (frames : List Nat) (f : Fin size) (disk : δ)
    (hids : s.nth? size = some q) {j : Nat} (hj : j ≤ size) :
    ∃ created w, Life s (preloaded s size capacity frames disk) created w ∧
      w.Filled s (.ofTracked capacity frames) f j := by
  induction j with
  | zero => exact ⟨[], _, .start, .preloaded s capacity frames f disk⟩
  | succ j ih =>
    obtain ⟨created, w, hlife, hfilled⟩ := ih (Nat.le_of_succ_le hj)
    obtain ⟨p, hid⟩ := Stripe.exists_nth?_of_le hids (Nat.le_of_succ_le hj)
    have hmade := hlife.ask .newPage trivial
    by_cases hjf : j = f.val
    · subst hjf
      exact ⟨_, _, hmade, hfilled.leave hid⟩
    · have hcreates : p ∈ w.creates s .newPage ++ created :=
        List.mem_append_left _ (mem_creates (hfilled.newPage hj hid).1)
      exact ⟨_, _, hmade.ask (.fetch p) hcreates, hfilled.pinAgain hj hid hjf⟩

/-- When all frames are full, the next page takes the place of the pinned page in frame `f`. -/
theorem Filled.evicts (h : w.Filled s start f size)
    (hbelow : ∀ k, start.contains k = true → k < size)
    (hf : start.contains f = true) (hids : s.nth? size = some q) :
    ¬ w.KeepsPinned s f .newPage := by
  obtain ⟨p, hp, hlies, hholds⟩ := h.page f.isLt
  have hpq : p ≠ q := by
    rintro rfl
    exact absurd (Stripe.eq_of_nth? hp hids) (Nat.ne_of_lt f.isLt)
  have hfree : w.shard.free = [] := by
    rw [h.free, List.drop_eq_nil_of_le (Nat.le_of_eq List.length_finRange)]
  -- the list tracks nothing but `f`
  obtain ⟨recency, hvictim⟩ : ∃ recency, w.shard.recency.victim = some (f.val, recency) := by
    have hin := (h.contains_iff f).mpr ⟨hf, .inr rfl⟩
    cases hvictim : w.shard.recency.victim with
    | none => exact absurd hin (by simp [h.chained.victim_eq_none hvictim])
    | some found =>
      obtain ⟨k, recency⟩ := found
      obtain ⟨hk, hsize⟩ := (h.contains_iff k).mp (h.chained.victim_eq_some hvictim).1
      obtain rfl : k = f.val := hsize.resolve_left (Nat.not_le.mpr (hbelow k hk))
      exact ⟨recency, rfl⟩
  have hacquire : w.acquire = .after [.victim f, .evictedClean p f] (.ok f { w with
      shard := ({ w.shard with recency } : Shard size).unmap p f }) := by
    have hframe : ({ w.shard with recency } : Shard size).frame f = .holding p .zero := hholds
    rw [acquire_of_victim hfree hvictim, evict]
    simp only [hframe, Frame.holding]
    rfl
  have hstate := (newPage_of_ok (s := s) (h.nextId.trans hids)
    (congrArg Outcome.result hacquire) (Stripe.owns_of_nth? hids)).2
  intro hkeeps
  have hstays : (w.newPage s).state.shard.table[p]? = some f :=
    (hkeeps hlies (by rw [hholds]; exact Nat.one_ne_zero)).1
  have hgone : (w.newPage s).state.shard.table[p]? = none := by
    rw [hstate, hacquire]
    refine (Shard.getElem?_insert ..).trans ((if_neg (Ne.symm hpq)).trans ?_)
    exact (Shard.getElem?_erase ..).trans (if_pos rfl)
  exact absurd (hgone.symm.trans hstays) (by simp)

end

/-- A frame that the list tracks at the start is not protected, if the ids last for one page more
than there are frames. -/
theorem not_protects_of_tracked (disk : δ) (hbelow : ∀ k ∈ frames, k < size)
    (hids : s.nth? size = some q)
    (h : (Recency.ofTracked capacity frames).contains f = true) :
    ¬ (preloaded s size capacity frames disk).Protects s f := by
  intro hprotects
  obtain ⟨created, w, hlife, hfilled⟩ :=
    exists_filled capacity frames f disk hids (Nat.le_refl size)
  exact hfilled.evicts (fun k hk => hbelow k (Recency.mem_of_contains_ofTracked hk)) h hids
    (hprotects hlife .newPage trivial)

/-- Over any disk, a frame is protected if and only if the recency list that the shard is given does
not track it; so all frames are if and only if the list has tracked none. -/
theorem protects_iff (disk : δ) (capacity : Nat) (hbelow : ∀ k ∈ frames, k < size)
    (hids : s.nth? size = some q) :
    (∀ f : Fin size, (preloaded s size capacity frames disk).Protects s f ↔
      (Recency.ofTracked capacity frames).contains f = false) ∧
    ((∀ f : Fin size, (preloaded s size capacity frames disk).Protects s f) ↔ frames = []) := by
  have hframe (f : Fin size) : (preloaded s size capacity frames disk).Protects s f ↔
      (Recency.ofTracked capacity frames).contains f = false := by
    refine ⟨fun hprotects => ?_, protects_of_untracked disk⟩
    rw [← Bool.not_eq_true]
    exact fun hf => not_protects_of_tracked disk hbelow hids hf hprotects
  refine ⟨hframe, fun hall => ?_, ?_⟩
  · by_contra hne
    obtain ⟨k, hk⟩ := Recency.exists_contains_ofTracked capacity hne
    have hlt := hbelow k (Recency.mem_of_contains_ofTracked hk)
    exact absurd hk (by simp [(hframe ⟨k, hlt⟩).mp (hall ⟨k, hlt⟩)])
  · rintro rfl f
    refine (hframe f).mpr (Bool.eq_false_iff.mpr fun hf => ?_)
    exact absurd (Recency.mem_of_contains_ofTracked hf) List.not_mem_nil

/-- One frame: it is protected unless the list has tracked it. -/
theorem protects_iff_one_frame :
    (∀ k ∈ [0], k < 1) ∧ Stripe.whole.nth? 1 = some ⟨1, by decide⟩ ∧
      ¬ (preloaded .whole 1 1 [0] (Disk.onMedium (.memory .empty))).Protects .whole 0 ∧
      ∀ f, (preloaded .whole 1 1 [] (Disk.onMedium (.memory .empty))).Protects .whole f := by
  have hids : Stripe.whole.nth? 1 = some ⟨1, by decide⟩ := rfl
  refine ⟨by decide, hids, fun hprotects => ?_, ?_⟩
  · have htracked := ((protects_iff _ 1 (by decide) hids).1 0).mp hprotects
    exact absurd htracked (by decide)
  · exact (protects_iff _ 1 (by decide) hids).2.mpr rfl

end Backed

/-! ## Pools that are built so -/

/-- The shard of a pool that is given a recency list is fresh but for this list. -/
theorem Blueprint.build_of_preload {count index : UInt32} {s : Stripe} (size : Nat)
    (hstripe : Stripe.make? count index = .ok s) (preload : Preload) :
    (Blueprint.alone size count index (some preload)).build =
      .ok ⟨.alone s, size, ⟨.ofFn fun i =>
        { Shard.fresh ((Layout.alone s).stripe i) size with
          recency := .ofTracked preload.capacity preload.tracked }, (Layout.alone s).first⟩⟩ := by
  rw [build, hstripe]
  simp only [AnyPool.fresh, Pool.fresh, Vector.map_ofFn]
  rfl

/-- A pool of one frame with a recency list that tracks it: two pages are created. The first one is
pinned when the second takes its place. -/
theorem Client.not_kept_of_pinned :
    ∃ (built : AnyPool) (log : List Entry) (c : Client built.layout built.size),
      Blueprint.build (.alone 1 1 0 (some ⟨1, [0]⟩)) = .ok built ∧
      History FetchesCreated (built.start (.onMedium (.memory .empty)) none) log c ∧
      log.map Entry.answer = [.ok (.placed ⟨0, by decide⟩ 0)] ∧
      c.Pinned ⟨0, by decide⟩ ∧
      (c.take ⟨none, .newPage "b"⟩).result = .ok (.placed ⟨1, by decide⟩ 0) ∧
      ¬ (c.take ⟨none, .newPage "b"⟩).state.Resident ⟨0, by decide⟩ := by
  have hstripe : Stripe.make? 1 0 = .ok .whole := rfl
  refine ⟨_, _, _, Blueprint.build_of_preload 1 hstripe ⟨1, [0]⟩,
    .step .start ⟨none, .newPage "a"⟩ trivial, rfl, ⟨⟨0, by decide⟩, 1, rfl, Nat.one_pos⟩, rfl, ?_⟩
  rintro ⟨i, f, hf⟩
  obtain rfl : i = ⟨0, by decide⟩ := Fin.fin_one_eq_zero i
  have hnone : (none : Option (Fin 1)) = some f := hf
  exact absurd hnone (by simp)

end PageCache
