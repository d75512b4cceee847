import PageCache.Proofs.Recency.Chain
import PageCache.Shard.Basic

/-!
# The records of a shard agree

A shard keeps four records: the page table, the free list, what each frame says of itself, and the
recency list. `Shard.Kept` says that they agree. Between finding a frame and putting a page into it
that frame is in none of them, so the frames without a page are a parameter, `spare`: all of the
free list when no operation is under way, and one frame more in the middle of one.

Each record update an operation is made of has a lemma here: `Kept.install`, `Kept.vacate`,
`Kept.repin`, `Kept.settle`, `Kept.setFrame`.
-/

namespace PageCache

/-- The frame has no page, and nothing else to tell either. -/
def Frame.Idle (frame : Frame) : Prop :=
  frame.released = frame

namespace Frame

theorem Idle.holds {frame : Frame} (h : frame.Idle) : frame.holds = none := by
  rw [← h]; rfl

theorem Idle.withBytes {frame : Frame} (h : frame.Idle) (bytes : Page) :
    ({ frame with bytes } : Frame).Idle := by
  rw [← h]; rfl

theorem idle_blank : blank.Idle :=
  rfl

theorem idle_released (frame : Frame) : frame.released.Idle :=
  rfl

end Frame

namespace Shard

variable {size : Nat}

/-! ## Lookups after updates -/

theorem getElem?_insert (table : Std.ExtTreeMap PageId (Fin size)) (p q : PageId) (f : Fin size) :
    (table.insert p f)[q]? = if p = q then some f else table[q]? := by
  simp only [Std.ExtTreeMap.getElem?_insert, Std.LawfulEqCmp.compare_eq_iff_eq]

theorem getElem?_erase (table : Std.ExtTreeMap PageId (Fin size)) (p q : PageId) :
    (table.erase p)[q]? = if p = q then none else table[q]? := by
  simp only [Std.ExtTreeMap.getElem?_erase, Std.LawfulEqCmp.compare_eq_iff_eq]

/-- Untracking asks first whether there is anything to do, and need not. -/
theorem untrack_fst (sh : Shard size) (f : Fin size) :
    (sh.untrack f).1 = { sh with recency := sh.recency.unlink f } := by
  rw [untrack]
  split
  · rfl
  · next h =>
    have hnone : sh.recency.links[f.val]? = none := by
      rw [Recency.contains, Std.ExtTreeMap.contains_eq_isSome_getElem?, Bool.not_eq_true,
        Option.isSome_eq_false_iff, Option.isNone_iff_eq_none] at h
      exact h
    rw [Recency.unlink, hnone]

/-! ## The invariant -/

/-- The records agree, the frames of `spare` being those without a page. -/
structure Kept (sh : Shard size) (s : Stripe) (capacity : Nat) (spare : List (Fin size)) :
    Prop where
  holds : ∀ {p : PageId} {f : Fin size}, sh.table[p]? = some f → (sh.frame f).holds = some p
  owned : ∀ {p : PageId} {f : Fin size}, sh.table[p]? = some f → s.Owns p
  next_owned : ∀ {p : PageId}, sh.nextId = some p → s.Owns p
  spare_nodup : spare.Nodup
  spare_idle : ∀ {f}, f ∈ spare → (sh.frame f).Idle
  covered : ∀ f : Fin size, f ∈ spare ∨ ∃ p : PageId, sh.table[p]? = some f
  chained : sh.recency.Chained
  capacity_eq : sh.recency.capacity = capacity
  /-- What may be evicted is a page that nobody has pinned. -/
  tracked : ∀ {k : Nat}, sh.recency.contains k = true →
    ∃ (p : PageId) (f : Fin size), f.val = k ∧ sh.table[p]? = some f ∧ (sh.frame f).pins = 0
  /-- A recency list with room for every frame forgets no page that could be evicted. -/
  evictable : size ≤ capacity → ∀ {p : PageId} {f : Fin size}, sh.table[p]? = some f →
    (sh.frame f).pins = 0 → sh.recency.contains f = true

namespace Kept

variable {sh : Shard size} {s : Stripe} {capacity : Nat} {spare : List (Fin size)}
variable {p q : PageId} {f g : Fin size} {frame : Frame}

/-- A shard that was just built, with all of its frames to spare. -/
theorem fresh (s : Stripe) (capacity : Nat) :
    ({ Shard.fresh s size with recency := .empty capacity } : Shard size).Kept s capacity
      (List.finRange size) where
  holds h := by simp [Shard.fresh] at h
  owned h := by simp [Shard.fresh] at h
  next_owned h := by
    obtain rfl : s.first = _ := Option.some.inj h
    exact s.owns_first
  spare_nodup := List.nodup_finRange size
  spare_idle {f} _ := by
    show ((Shard.fresh s size).frame f).Idle
    rw [frame_fresh]
    exact Frame.idle_blank
  covered f := .inl (List.mem_finRange f)
  chained := .empty capacity
  capacity_eq := rfl
  tracked h := by simp [Recency.contains, Recency.empty] at h
  evictable _ _ _ h := by simp [Shard.fresh] at h

/-- A frame holds one page at most. -/
theorem injective (h : sh.Kept s capacity spare) (hp : sh.table[p]? = some f)
    (hq : sh.table[q]? = some f) : p = q :=
  Option.some.inj ((h.holds hp).symm.trans (h.holds hq))

theorem not_mem_spare (h : sh.Kept s capacity spare) (hp : sh.table[p]? = some f) :
    f ∉ spare := by
  intro hf
  have hnone := (h.spare_idle hf).holds
  rw [h.holds hp] at hnone
  exact absurd hnone (by simp)

/-- A pinned page is not up for eviction. -/
theorem not_tracked_of_pinned (h : sh.Kept s capacity spare) (hp : sh.table[p]? = some f)
    (hpins : (sh.frame f).pins ≠ 0) : sh.recency.contains f = false := by
  rw [← Bool.not_eq_true]
  intro ht
  obtain ⟨q, g, hg, -, hq0⟩ := h.tracked ht
  obtain rfl : g = f := Fin.ext hg
  exact hpins hq0

theorem lt_of_tracked (h : sh.Kept s capacity spare) {k : Nat}
    (hk : sh.recency.contains k = true) : k < size := by
  obtain ⟨p, f, rfl, -⟩ := h.tracked hk
  exact f.isLt

/-! ## What the records do not depend on -/

theorem perm (h : sh.Kept s capacity spare) {spare' : List (Fin size)} (hp : spare.Perm spare') :
    sh.Kept s capacity spare' :=
  { h with
    spare_nodup := hp.nodup_iff.mp h.spare_nodup
    spare_idle := fun hf => h.spare_idle (hp.mem_iff.mpr hf)
    covered := fun f => (h.covered f).imp_left hp.mem_iff.mp }

theorem withFree (h : sh.Kept s capacity spare) (free : List (Fin size)) :
    ({ sh with free } : Shard size).Kept s capacity spare :=
  ⟨h.holds, h.owned, h.next_owned, h.spare_nodup, h.spare_idle, h.covered, h.chained, h.capacity_eq,
    h.tracked, h.evictable⟩

theorem withNext (h : sh.Kept s capacity spare) {nextId : Option PageId}
    (hnext : ∀ {p}, nextId = some p → s.Owns p) :
    ({ sh with nextId } : Shard size).Kept s capacity spare :=
  ⟨h.holds, h.owned, hnext, h.spare_nodup, h.spare_idle, h.covered, h.chained, h.capacity_eq,
    h.tracked, h.evictable⟩

/-! ## Updates -/

/-- Bytes and dirty flags are nobody's record. -/
theorem setFrame (h : sh.Kept s capacity spare) (hholds : frame.holds = (sh.frame f).holds)
    (hpins : frame.pins = (sh.frame f).pins) (hidle : (sh.frame f).Idle → frame.Idle) :
    (sh.setFrame f frame).Kept s capacity spare where
  holds {q g} hq := by
    rw [frame_setFrame]
    split
    · next hfg => rw [hholds, hfg]; exact h.holds hq
    · exact h.holds hq
  owned hq := h.owned hq
  next_owned hn := h.next_owned hn
  spare_nodup := h.spare_nodup
  spare_idle {g} hg := by
    rw [frame_setFrame]
    split
    · next hfg => exact hidle (hfg ▸ h.spare_idle hg)
    · exact h.spare_idle hg
  covered := h.covered
  chained := h.chained
  capacity_eq := h.capacity_eq
  tracked hk := by
    obtain ⟨q, g, hg, hq, hg0⟩ := h.tracked hk
    refine ⟨q, g, hg, hq, ?_⟩
    rw [frame_setFrame]
    split
    · next hfg => rw [hpins, hfg]; exact hg0
    · exact hg0
  evictable hroom {q g} hq hg0 := by
    rw [frame_setFrame] at hg0
    refine h.evictable hroom hq ?_
    split at hg0
    · next hfg => rw [← hfg, ← hpins]; exact hg0
    · exact hg0

/-- The page in `f` stays there with a new record, and the recency list changes at most about `f`:
it tracks `f` if and only if nobody has the page pinned. -/
theorem reframe (h : sh.Kept s capacity spare) (hp : sh.table[p]? = some f)
    (hholds : frame.holds = some p) {recency : Recency} (hchained : recency.Chained)
    (hcapacity : recency.capacity = capacity)
    (hself : recency.contains f = true → frame.pins = 0)
    (hother : ∀ k, k ≠ f.val → recency.contains k = true → sh.recency.contains k = true)
    (hgets : frame.pins = 0 → recency.contains f = true)
    (hstays : size ≤ capacity → ∀ k, k ≠ f.val → sh.recency.contains k = true →
      recency.contains k = true) :
    (({ sh with recency } : Shard size).setFrame f frame).Kept s capacity spare where
  holds {q g} hq := by
    have hq : sh.table[q]? = some g := hq
    rw [frame_setFrame]
    split
    · next hfg =>
      subst hfg
      rw [hholds, h.injective hp hq]
    · exact h.holds hq
  owned hq := h.owned hq
  next_owned hn := h.next_owned hn
  spare_nodup := h.spare_nodup
  spare_idle {g} hg := by
    have hfg : f ≠ g := by rintro rfl; exact h.not_mem_spare hp hg
    rw [frame_setFrame, if_neg hfg]
    exact h.spare_idle hg
  covered := h.covered
  chained := hchained
  capacity_eq := hcapacity
  tracked {k} hk := by
    -- what is tracked is `f`, or was tracked before
    by_cases hkf : k = f.val
    · subst hkf
      refine ⟨p, f, rfl, hp, ?_⟩
      rw [frame_setFrame, if_pos rfl]
      exact hself hk
    · obtain ⟨q, g, hg, hq, hg0⟩ := h.tracked (hother k hkf hk)
      have hfg : f ≠ g := by rintro rfl; exact hkf hg.symm
      refine ⟨q, g, hg, hq, ?_⟩
      rwa [frame_setFrame, if_neg hfg]
  evictable hroom {q g} hq hg0 := by
    rw [frame_setFrame] at hg0
    split at hg0
    · next hfg => exact hfg ▸ hgets hg0
    · next hfg =>
      exact hstays hroom g (fun hgf => hfg (Fin.ext hgf.symm)) (h.evictable hroom hq hg0)

/-- The page in `f` is pinned from now on, so it may not be evicted. -/
theorem repin (h : sh.Kept s capacity spare) (hp : sh.table[p]? = some f)
    (hholds : frame.holds = some p) (hpins : frame.pins ≠ 0) :
    (({ sh with recency := sh.recency.unlink f } : Shard size).setFrame f frame).Kept s capacity
      spare := by
  have hwithout := h.chained.without_unlink f
  exact h.reframe hp hholds hwithout.chained (hwithout.capacity_eq.trans h.capacity_eq)
    (fun hf => absurd rfl ((hwithout.contains_iff f).mp hf).1)
    (fun k _ hk => ((hwithout.contains_iff k).mp hk).2) (fun h0 => absurd h0 hpins)
    (fun _ k hkf hk => (hwithout.contains_iff k).mpr ⟨hkf, hk⟩)

/-- The page in `f` has no pin and may be evicted, last of all. Before, nothing but `f` may have
been taken off the recency list. -/
theorem settle (h : sh.Kept s capacity spare) {recency : Recency}
    (hwithout : sh.recency.Without f recency) (hp : sh.table[p]? = some f)
    (hholds : frame.holds = some p) (hpins : frame.pins = 0) :
    (({ sh with recency := (recency.track f).1 } : Shard size).setFrame f frame).Kept s capacity
      spare := by
  obtain ⟨hchained, hcapacity, hkeeps⟩ := hwithout
  rw [h.capacity_eq] at hcapacity
  -- `f` is not on the list, so there are fewer frames on it than there are
  have hroom : size ≤ capacity → recency.size < recency.capacity := by
    intro hle
    have hnot : recency.contains f = false := by
      rw [← Bool.not_eq_true]
      exact fun hf => ((hkeeps f).mp hf).1 rfl
    have := hchained.size_lt (fun k hk => h.lt_of_tracked ((hkeeps k).mp hk).2) f.isLt hnot
    omega
  refine h.reframe hp hholds (hchained.track f) ((Recency.capacity_track ..).trans hcapacity)
    (fun _ => hpins) ?_ (fun _ => hchained.contains_track_self f) ?_
  · intro k hkf hk
    exact ((hkeeps k).mp ((hchained.contains_of_track hk).resolve_left hkf)).2
  · intro hle k hkf hk
    exact hchained.contains_track_of_lt (hroom hle) ((hkeeps k).mpr ⟨hkf, hk⟩)

/-- The page in `f` was to go, and stays as it is. -/
theorem retrack (h : sh.Kept s capacity spare) {recency : Recency}
    (hwithout : sh.recency.Without f recency) (hp : sh.table[p]? = some f)
    (hpins : (sh.frame f).pins = 0) :
    ({ sh with recency := (recency.track f).1 } : Shard size).Kept s capacity spare := by
  have hsame : ({ sh with recency := (recency.track f).1 } : Shard size).setFrame f (sh.frame f) =
      { sh with recency := (recency.track f).1 } := by
    simp [Shard.setFrame, Shard.frame]
  exact hsame ▸ h.settle hwithout hp (h.holds hp) hpins

/-- The page in `f` gives up its frame, which is off the recency list. -/
theorem vacate (h : sh.Kept s capacity spare) {recency : Recency}
    (hwithout : sh.recency.Without f recency) (hp : sh.table[p]? = some f) (hidle : frame.Idle) :
    ({ sh with recency, table := sh.table.erase p }.setFrame f frame : Shard size).Kept s capacity
      (f :: spare) := by
  -- a page that is still there lies in another frame, which is as it was
  have hother {q : PageId} {g : Fin size} (hq : (sh.table.erase p)[q]? = some g) :
      f ≠ g ∧ sh.table[q]? = some g := by
    rw [getElem?_erase] at hq
    split at hq
    · exact absurd hq (by simp)
    · next hpq => exact ⟨by rintro rfl; exact hpq (h.injective hp hq), hq⟩
  have hstays {q : PageId} {g : Fin size} (hfg : f ≠ g) (hq : sh.table[q]? = some g) :
      (sh.table.erase p)[q]? = some g := by
    rw [getElem?_erase, if_neg]
    · exact hq
    · rintro rfl
      exact hfg (Option.some.inj (hp.symm.trans hq))
  have hframe {g : Fin size} (hfg : f ≠ g) :
      ({ sh with recency, table := sh.table.erase p }.setFrame f frame : Shard size).frame g =
        sh.frame g := by
    rw [frame_setFrame, if_neg hfg]
    rfl
  exact
    { holds := fun {q g} hq => by
        obtain ⟨hfg, hq⟩ := hother hq
        rw [hframe hfg]
        exact h.holds hq
      owned := fun hq => h.owned (hother hq).2
      next_owned := fun hn => h.next_owned hn
      spare_nodup := List.nodup_cons.mpr ⟨h.not_mem_spare hp, h.spare_nodup⟩
      spare_idle := fun {g} hg => by
        rcases eq_or_ne f g with rfl | hfg
        · rw [frame_setFrame, if_pos rfl]
          exact hidle
        · rw [hframe hfg]
          exact h.spare_idle ((List.mem_cons.mp hg).resolve_left hfg.symm)
      covered := fun g => by
        rcases eq_or_ne f g with rfl | hfg
        · exact .inl List.mem_cons_self
        · exact (h.covered g).imp (List.mem_cons_of_mem f) fun ⟨q, hq⟩ => ⟨q, hstays hfg hq⟩
      chained := hwithout.chained
      capacity_eq := hwithout.capacity_eq.trans h.capacity_eq
      tracked := fun {k} hk => by
        obtain ⟨hkf, hk⟩ := (hwithout.contains_iff k).mp hk
        obtain ⟨q, g, hg, hq, hg0⟩ := h.tracked hk
        have hfg : f ≠ g := by rintro rfl; exact hkf hg.symm
        exact ⟨q, g, hg, hstays hfg hq, by rwa [hframe hfg]⟩
      evictable := fun hroom {q g} hq hg0 => by
        obtain ⟨hfg, hq⟩ := hother hq
        rw [hframe hfg] at hg0
        exact (hwithout.contains_iff g).mpr
          ⟨fun hgf => hfg (Fin.ext hgf.symm), h.evictable hroom hq hg0⟩ }

/-- A page that is not resident moves into the first spare frame. -/
theorem install (h : sh.Kept s capacity (f :: spare)) (hp : sh.table[p]? = none) (howned : s.Owns p)
    (bytes : Page) : (sh.install p f bytes).Kept s capacity spare := by
  have hspare : f ∈ f :: spare := List.mem_cons_self
  have hnd := List.nodup_cons.mp h.spare_nodup
  have hlookup {q : PageId} {g : Fin size} (hq : (sh.table.insert p f)[q]? = some g) :
      p = q ∧ f = g ∨ f ≠ g ∧ sh.table[q]? = some g := by
    rw [getElem?_insert] at hq
    split at hq
    · next hpq => exact .inl ⟨hpq, Option.some.inj hq⟩
    · exact .inr ⟨by rintro rfl; exact h.not_mem_spare hq hspare, hq⟩
  -- what was resident is so still, since the page that comes was not
  have hstays {q : PageId} {g : Fin size} (hq : sh.table[q]? = some g) :
      (sh.table.insert p f)[q]? = some g := by
    rw [getElem?_insert, if_neg]
    · exact hq
    · rintro rfl
      exact absurd (hp.symm.trans hq) (by simp)
  exact
    { holds := fun {q g} hq => by
        rw [frame_install]
        rcases hlookup hq with ⟨rfl, rfl⟩ | ⟨hfg, hq⟩
        · rw [if_pos rfl]
          rfl
        · rw [if_neg hfg]
          exact h.holds hq
      owned := fun {q g} hq => by
        rcases hlookup hq with ⟨rfl, -⟩ | ⟨-, hq⟩
        · exact howned
        · exact h.owned hq
      next_owned := fun hn => h.next_owned hn
      spare_nodup := hnd.2
      spare_idle := fun {g} hg => by
        have hfg : f ≠ g := by rintro rfl; exact hnd.1 hg
        rw [frame_install, if_neg hfg]
        exact h.spare_idle (List.mem_cons_of_mem f hg)
      covered := fun g => by
        rcases eq_or_ne f g with rfl | hfg
        · refine .inr ⟨p, ?_⟩
          show (sh.table.insert p f)[p]? = some f
          rw [getElem?_insert, if_pos rfl]
        · rcases h.covered g with hg | ⟨q, hq⟩
          · exact .inl ((List.mem_cons.mp hg).resolve_left hfg.symm)
          · exact .inr ⟨q, hstays hq⟩
      chained := h.chained
      capacity_eq := h.capacity_eq
      tracked := fun {k} hk => by
        obtain ⟨q, g, hg, hq, hg0⟩ := h.tracked hk
        have hfg : f ≠ g := by rintro rfl; exact h.not_mem_spare hq hspare
        exact ⟨q, g, hg, hstays hq, by rwa [frame_install, if_neg hfg]⟩
      evictable := fun hroom {q g} hq hg0 => by
        rw [frame_install] at hg0
        rcases hlookup hq with ⟨-, rfl⟩ | ⟨hfg, hq⟩
        · rw [if_pos rfl] at hg0
          exact absurd hg0 (Nat.one_ne_zero)
        · rw [if_neg hfg] at hg0
          exact h.evictable hroom hq hg0 }

end Kept

end Shard

end PageCache
