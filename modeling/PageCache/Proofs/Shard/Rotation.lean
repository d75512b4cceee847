import Mathlib.Data.List.Rotate
import PageCache.Proofs.Shard.Evictables
import PageCache.Proofs.Shard.FlushAll

/-!
# Pages that cannot be written do not block a shard

A page that has to go and cannot be written stays, and is the last to go from then on. So while new
pages are asked for in vain, the pages that may be evicted go round: after `k` failures the first
`k` of them are at the end, and nothing else is different (`Backed.Rotated`). The first that is not
stuck makes room (`Backed.Replaced`); if all are, one round leads back to where it began.
`Backed.Unwedged` says all this of one state of a shard, and `Backed.unwedged` proves it.
-/

namespace PageCache

variable {size : Nat}

namespace Backed

variable {w w' : Backed size Disk} {s : Stripe} {capacity : Nat} {p q id : PageId} {f : Fin size}
variable {rest : List Nat}

/-- The first of a list for which something does not hold. -/
theorem exists_first {α : Type} {P : α → Prop} {xs : List α} (h : ∃ x ∈ xs, ¬ P x) :
    ∃ before x after, xs = before ++ x :: after ∧ (∀ y ∈ before, P y) ∧ ¬ P x := by
  induction xs with
  | nil =>
    obtain ⟨x, hx, -⟩ := h
    exact absurd hx List.not_mem_nil
  | cons x xs ih =>
    by_cases hx : P x
    · obtain ⟨y, hy, hne⟩ := h
      have hrest : ∃ y ∈ xs, ¬ P y := by
        rcases List.mem_cons.mp hy with rfl | hy
        · exact absurd hx hne
        · exact ⟨y, hy, hne⟩
      obtain ⟨before, z, after, hsplit, hbefore, hz⟩ := ih hrest
      exact ⟨x :: before, z, after, congrArg (x :: ·) hsplit,
        List.forall_mem_cons.mpr ⟨hx, hbefore⟩, hz⟩
    · exact ⟨[], x, xs, rfl, List.forall_mem_nil _, hx⟩

/-! ## The oldest page -/

theorem acquire_of_victim {δ : Type} [PageStore δ] {w : Backed size δ} {recency : Recency}
    (hfree : w.shard.free = []) (hvictim : w.shard.recency.victim = some (f.val, recency)) :
    w.acquire = (evict { w with shard := { w.shard with recency } } f).after [.victim f] := by
  rw [acquire, hfree, hvictim]
  dsimp only
  rw [dif_pos f.isLt]

theorem acquire_of_oldest {δ : Type} [PageStore δ] {w : Backed size δ} (hfree : w.shard.free = [])
    (hq : w.shard.recency.Represents ⟨f.val :: rest, capacity⟩) :
    w.acquire = (evict { w with
      shard := { w.shard with recency := w.shard.recency.unlink f.val } } f).after [.victim f] :=
  acquire_of_victim hfree hq.victim_eq

/-- If the oldest page is stuck there is no frame, and it is the newest then. -/
theorem acquire_of_stuck (hfree : w.shard.free = [])
    (hq : w.shard.recency.Represents ⟨f.val :: rest, capacity⟩)
    (hp : w.shard.table[p]? = some f) (hholds : (w.shard.frame f).holds = some p)
    (hstuck : w.Stuck p) :
    w.acquire.result = .error (.storage (.io .writeFault)) ∧ w.acquire.state =
      { w with shard := { w.shard with
        recency := ((w.shard.recency.unlink f.val).track f.val).1 } } := by
  obtain ⟨hdirty, hrefused⟩ := write_of_stuck hp hstuck
  have hframe : ({ w.shard with recency := w.shard.recency.unlink f.val } : Shard size).frame f =
    w.shard.frame f := rfl
  rw [acquire_of_oldest hfree hq, evict]
  simp only [hframe, hholds, hdirty, if_true, writeBack, hrefused]
  exact ⟨rfl, rfl⟩

/-- Otherwise it makes room, and is saved if it has to be. -/
theorem acquire_of_not_stuck (hfree : w.shard.free = [])
    (hq : w.shard.recency.Represents ⟨f.val :: rest, capacity⟩)
    (hp : w.shard.table[p]? = some f) (hholds : (w.shard.frame f).holds = some p)
    (hstuck : ¬ w.Stuck p) :
    w.acquire.result = .ok f ∧ w.acquire.state =
      ⟨({ w.shard with recency := w.shard.recency.unlink f.val } : Shard size).unmap p f,
        (w.save p).disk⟩ := by
  have hframe : ({ w.shard with recency := w.shard.recency.unlink f.val } : Shard size).frame f =
    w.shard.frame f := rfl
  rw [acquire_of_oldest hfree hq, evict]
  simp only [hframe, hholds]
  rcases write_of_not_stuck hp hstuck with ⟨hclean, hsave⟩ | ⟨hdirty, hwritten, hsave⟩
  · rw [hsave, if_neg (Bool.eq_false_iff.mp hclean)]
    exact ⟨rfl, rfl⟩
  · simp only [hdirty, if_true, writeBack, hframe, hwritten]
    exact ⟨rfl, rfl⟩

/-! ## New pages, one after the other -/

/-- The shard after `n` new pages were asked for, in vain or not. -/
def afterNewPages (s : Stripe) (w : Backed size Disk) : Nat → Backed size Disk
  | 0 => w
  | n + 1 => ((afterNewPages s w n).newPage s).state

/-- The first `k` frames that might be evicted are at the end of the recency list, and nothing else
is different. -/
structure Rotated (w : Backed size Disk) (k : Nat) (w' : Backed size Disk) : Prop where
  shard : w'.shard = { w.shard with recency := w'.shard.recency }
  disk : w'.disk = w.disk
  queue : w'.shard.recency.Represents ⟨w.shard.recency.order.rotate k, w.shard.recency.capacity⟩

/-- Page `q` has gone from frame `f`, saved if it was dirty, and the new page `id` is there. -/
structure Replaced (s : Stripe) (w : Backed size Disk) (q id : PageId) (f : Fin size)
    (w' : Backed size Disk) : Prop where
  lies : w.shard.table[q]? = some f
  disk : w'.disk = (w.save q).disk
  table : ∀ p : PageId, w'.shard.table[p]? =
    if p = id then some f else if p = q then none else w.shard.table[p]?
  frame : ∀ g, w'.shard.frame g = if g = f then .holding id .zero else w.shard.frame g
  order : w.shard.recency.order = f.val :: w'.shard.recency.order
  free : w'.shard.free = w.shard.free
  nextId : w'.shard.nextId = s.next? id

/-- Before the first attempt nothing has moved. -/
theorem Rotated.zero (hrecency : (Recency.empty capacity).Becomes w.shard.recency) :
    w.Rotated 0 w := by
  obtain ⟨hq, -⟩ := hrecency.represents
  refine ⟨rfl, rfl, ?_⟩
  rw [List.rotate_zero, hq.capacity]
  exact hq

/-- A page is stuck or not wherever it stands in the recency list. -/
theorem Rotated.stuck_iff {k : Nat} (h : w.Rotated k w') : w'.Stuck p ↔ w.Stuck p := by
  rw [Stuck, Stuck, h.shard, h.disk]
  rfl

section

variable {k : Nat} (hkept : w.shard.Kept s capacity w.shard.free) (hfree : w.shard.free = [])
  (hnext : w.shard.nextId = some id) (hrotated : w.Rotated k w')
  (holdest : w.shard.recency.order.rotate k = f.val :: rest) (hp : w.shard.table[p]? = some f)

include hkept hfree hnext hrotated holdest hp

/-- An attempt that cannot write its victim fails, and turns the queue by one. -/
theorem Rotated.newPage_of_stuck (hlength : (f.val :: rest).length ≤ max capacity 1)
    (hstuck : w.Stuck p) :
    (w'.newPage s).result = .error (.storage (.io .writeFault)) ∧
      w.Rotated (k + 1) (w'.newPage s).state := by
  have hstuck' := hrotated.stuck_iff.mpr hstuck
  obtain ⟨hshard, hdisk, hqueue⟩ := hrotated
  rw [holdest, hkept.capacity_eq] at hqueue
  have hfree' : w'.shard.free = [] := by rw [hshard]; exact hfree
  have hnext' : w'.shard.nextId = some id := by rw [hshard]; exact hnext
  have hp' : w'.shard.table[p]? = some f := by rw [hshard]; exact hp
  have hholds : (w'.shard.frame f).holds = some p := by rw [hshard]; exact hkept.holds hp
  obtain ⟨hfailed, hstate⟩ := acquire_of_stuck hfree' hqueue hp' hholds hstuck'
  rw [newPage_of_error hnext' hfailed]
  refine ⟨rfl, ?_⟩
  rw [hstate]
  refine ⟨?_, hdisk, ?_⟩
  · dsimp only
    generalize ((w'.shard.recency.unlink f.val).track f.val).1 = recency
    rw [hshard]
  · rw [← List.rotate_rotate, holdest, List.rotate_cons_succ, List.rotate_zero, hkept.capacity_eq]
    exact hqueue.requeue hlength

/-- An attempt whose victim can go replaces it. -/
theorem Rotated.newPage_of_not_stuck (hstuck : ¬ w.Stuck p) :
    (w'.newPage s).result = .ok (id, f) ∧ w'.Replaced s p id f (w'.newPage s).state := by
  have hstuck' := mt hrotated.stuck_iff.mp hstuck
  obtain ⟨hshard, hdisk, hqueue⟩ := hrotated
  rw [holdest, hkept.capacity_eq] at hqueue
  -- the rotation moved frames in the recency list and did nothing else
  have hfree' : w'.shard.free = [] := by rw [hshard]; exact hfree
  have hnext' : w'.shard.nextId = some id := by rw [hshard]; exact hnext
  have hp' : w'.shard.table[p]? = some f := by rw [hshard]; exact hp
  have hholds : (w'.shard.frame f).holds = some p := by rw [hshard]; exact hkept.holds hp
  obtain ⟨hfound, hstate⟩ := acquire_of_not_stuck hfree' hqueue hp' hholds hstuck'
  obtain ⟨hresult, hsame⟩ := newPage_of_ok hnext' hfound (hkept.next_owned hnext)
  refine ⟨hresult, ?_⟩
  rw [hsame, hstate]
  refine ⟨hp', rfl, fun q => ?_, fun g => ?_, ?_, rfl, rfl⟩
  · show ((w'.shard.table.erase p).insert id f)[q]? = _
    rw [Shard.getElem?_insert, Shard.getElem?_erase]
    simp only [eq_comm]
  · show ((({ w'.shard with recency := _ } : Shard size).unmap p f).install id f .zero).frame g = _
    rw [Shard.frame_install, Shard.frame_unmap]
    by_cases hgf : g = f
    · rw [if_pos hgf.symm, if_pos hgf]
    · rw [if_neg (Ne.symm hgf), if_neg (Ne.symm hgf), if_neg hgf]
      rfl
  · show _ = f.val :: (w'.shard.recency.unlink f.val).order
    rw [hqueue.order_eq, (hqueue.unlink_head rfl).order_eq]

end

/-! ## Going round -/

/-- What new pages come to while no frame is free, and `id` is the next to be given out. -/
structure Unwedged (s : Stripe) (w : Backed size Disk) (id : PageId) : Prop where
  nodup : w.shard.evictables.Nodup
  mem_iff : ∀ p, p ∈ w.shard.evictables ↔ w.shard.pinCount? p = some 0
  /-- The first unpinned page that is not stuck makes room, as soon as those before it have been
  tried; there are fewer of these than unpinned pages. -/
  recovers : (∃ p, w.shard.pinCount? p = some 0 ∧ ¬ w.Stuck p) →
    ∃ stuck q rest f, w.shard.evictables = stuck ++ q :: rest ∧ (∀ p ∈ stuck, w.Stuck p) ∧
      ¬ w.Stuck q ∧
      (∀ k < stuck.length, ((w.afterNewPages s k).newPage s).result =
        .error (.storage (.io .writeFault))) ∧
      (∀ k ≤ stuck.length, w.Rotated k (w.afterNewPages s k)) ∧
      ((w.afterNewPages s stuck.length).newPage s).result = .ok (id, f) ∧
      (w.afterNewPages s stuck.length).Replaced s q id f (w.afterNewPages s (stuck.length + 1))
  /-- If there is none, as many calls as there are unpinned pages change nothing. -/
  restores : (∀ p, w.shard.pinCount? p = some 0 → w.Stuck p) →
    (∀ k < w.shard.evictables.length, ((w.afterNewPages s k).newPage s).result =
      .error (.storage (.io .writeFault))) ∧
    (∀ k ≤ w.shard.evictables.length, w.Rotated k (w.afterNewPages s k)) ∧
    w.afterNewPages s w.shard.evictables.length = w

section

variable (hkept : w.shard.Kept s capacity w.shard.free)
  (hrecency : (Recency.empty capacity).Becomes w.shard.recency)

include hkept hrecency

theorem length_order : w.shard.recency.order.length = w.shard.evictables.length := by
  have hmap := hkept.map_holder? hrecency.represents.1
  simpa using congrArg List.length hmap

/-- The frame that is the oldest after `k` failures, and the page in it. -/
theorem exists_oldest {k : Nat} (hk : k < w.shard.evictables.length) :
    ∃ (f : Fin size) (rest : List Nat), w.shard.recency.order.rotate k = f.val :: rest ∧
      w.shard.table[w.shard.evictables[k]]? = some f ∧
      (f.val :: rest).length ≤ max capacity 1 := by
  obtain ⟨hq, hlength⟩ := hrecency.represents
  have hk' : k < w.shard.recency.order.length := length_order hkept hrecency ▸ hk
  have hheld : w.shard.holder? w.shard.recency.order[k] = some w.shard.evictables[k] := by
    have hget := congrArg (·[k]?) (hkept.map_holder? hq)
    simpa [hk, hk'] using hget
  obtain ⟨f, hf, hholds⟩ := Shard.holder?_eq_some_iff.mp hheld
  have hrotate : w.shard.recency.order.rotate k =
      f.val :: (w.shard.recency.order.drop (k + 1) ++ w.shard.recency.order.take k) := by
    rw [List.rotate_eq_drop_append_take (Nat.le_of_lt hk'), List.drop_eq_getElem_cons hk', hf,
      List.cons_append]
  refine ⟨f, _, hrotate, hkept.table_of_holds hholds, ?_⟩
  rw [← hrotate, List.length_rotate]
  exact hlength

variable (hfree : w.shard.free = []) (hnext : w.shard.nextId = some id)

include hfree hnext

/-- While the first pages of the recency list are stuck, new pages are asked for in vain, and those
pages go to its end. -/
theorem rotated_afterNewPages {n : Nat} (hn : n ≤ w.shard.evictables.length)
    (hstuck : ∀ p ∈ w.shard.evictables.take n, w.Stuck p) {k : Nat} (hk : k ≤ n) :
    w.Rotated k (w.afterNewPages s k) ∧ (k < n → ((w.afterNewPages s k).newPage s).result =
      .error (.storage (.io .writeFault))) := by
  have hstep {k : Nat} (hk : k < n) (hrotated : w.Rotated k (w.afterNewPages s k)) :
      ((w.afterNewPages s k).newPage s).result = .error (.storage (.io .writeFault)) ∧
        w.Rotated (k + 1) (w.afterNewPages s (k + 1)) := by
    have hlt : k < w.shard.evictables.length := Nat.lt_of_lt_of_le hk hn
    obtain ⟨f, rest, holdest, hp, hlength⟩ := exists_oldest hkept hrecency hlt
    have hmem : w.shard.evictables[k] ∈ w.shard.evictables.take n := by
      rw [List.mem_take_iff_getElem]
      exact ⟨k, by omega, rfl⟩
    exact hrotated.newPage_of_stuck hkept hfree hnext holdest hp hlength (hstuck _ hmem)
  have hrotated : w.Rotated k (w.afterNewPages s k) := by
    induction k with
    | zero => exact .zero hrecency
    | succ k ih => exact (hstep hk (ih (Nat.le_of_lt hk))).2
  exact ⟨hrotated, fun hlt => (hstep hlt hrotated).1⟩

/-- Pages that cannot be written do not wedge a shard without a free frame. -/
theorem unwedged (hroomy : size ≤ capacity) : w.Unwedged s id := by
  obtain ⟨hq, -⟩ := hrecency.represents
  have hmem (p : PageId) := hkept.mem_evictables_iff (p := p) hq hroomy
  refine ⟨hkept.nodup_evictables hq, hmem, ?_, ?_⟩
  · rintro ⟨p, hp, hfree'⟩
    obtain ⟨stuck, q, rest, hsplit, hstuck, hq⟩ := exists_first ⟨p, (hmem p).mpr hp, hfree'⟩
    have hlt : stuck.length < w.shard.evictables.length := by
      rw [hsplit, List.length_append, List.length_cons]
      omega
    have htake : w.shard.evictables.take stuck.length = stuck := by rw [hsplit, List.take_left]
    have hround {k : Nat} (hk : k ≤ stuck.length) :=
      rotated_afterNewPages hkept hrecency hfree hnext (Nat.le_of_lt hlt) (htake.symm ▸ hstuck) hk
    obtain ⟨f, order, holdest, hplace, -⟩ := exists_oldest hkept hrecency hlt
    have hget : w.shard.evictables[stuck.length] = q := by simp [hsplit]
    rw [hget] at hplace
    obtain ⟨hresult, hreplaced⟩ := (hround (Nat.le_refl _)).1.newPage_of_not_stuck hkept hfree hnext
      holdest hplace hq
    exact ⟨stuck, q, rest, f, hsplit, hstuck, hq, fun k hk => (hround (Nat.le_of_lt hk)).2 hk,
      fun k hk => (hround hk).1, hresult, hreplaced⟩
  · intro hall
    have hstuck : ∀ p ∈ w.shard.evictables.take w.shard.evictables.length, w.Stuck p :=
      fun p hp => hall p ((hmem p).mp (List.mem_of_mem_take hp))
    have hround {k : Nat} (hk : k ≤ w.shard.evictables.length) :=
      rotated_afterNewPages hkept hrecency hfree hnext (Nat.le_refl _) hstuck hk
    refine ⟨fun k hk => (hround (Nat.le_of_lt hk)).2 hk, fun k hk => (hround hk).1, ?_⟩
    -- a full round, and the queue is what it was
    have hrotate : w.shard.recency.order.rotate w.shard.evictables.length =
        w.shard.recency.order := by
      rw [← length_order hkept hrecency, List.rotate_length]
    obtain ⟨hshard, hdisk, hback⟩ := (hround (Nat.le_refl _)).1
    rw [hrotate, hkept.capacity_eq] at hback
    generalize w.afterNewPages s w.shard.evictables.length = w' at hshard hdisk hback ⊢
    rw [hback.unique hq] at hshard
    obtain ⟨sh, disk⟩ := w'
    exact congrArg₂ Backed.mk hshard hdisk

end

end Backed

end PageCache
