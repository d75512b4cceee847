import Mathlib.Data.List.Nodup
import Mathlib.Data.List.Perm.Subperm
import PageCache.Recency.Queue

/-!
# What the links of a recency list mean

A recency list is a map of links. `Represents` says that the links are those of one chain, and
which one: every frame of a plain queue links to its two neighbours there, and no other frame has
a link. Each change of the list is then the same change of the queue.

* `Represents.size_eq`, `Represents.contains_iff`: questions are answered as the queue answers them.
* `Represents.push`, `Represents.unlink`, `Represents.track`: changes commute with those of the
  queue, so a list that started empty represents a queue for ever.
* `Chained`: there is such a queue; the laws under it say what is tracked after each change.
* `Without`: what is left of a list of which one frame was taken.
-/

namespace PageCache.Recency

/-- The links of `r` are those of the chain that `q` lists. -/
structure Represents (r : Recency) (q : Queue) : Prop where
  nodup : q.frames.Nodup
  linked : ∀ {before after : List Nat} {k : Nat}, q.frames = before ++ k :: after →
    r.links[k]? = some ⟨after.head?, before.getLast?⟩
  unlinked : ∀ {k : Nat}, k ∉ q.frames → r.links[k]? = none
  oldest : r.oldest = q.frames.head?
  newest : r.newest = q.frames.getLast?
  capacity : r.capacity = q.capacity

/-! ## One change of the links

Pointing a neighbour past a removed frame changes one side of one link, if there is that link. -/

/-- Telling the newer neighbour of a removed frame changes the older side of that one link. -/
theorem links_joinNewer (r : Recency) (link : Link) (j : Nat) :
    (r.joinNewer link).links[j]? =
      r.links[j]?.map fun l =>
        if link.newer = some j then { l with older := link.older } else l := by
  cases hn : link.newer with
  | none => simp [joinNewer, hn]
  | some n =>
    simp only [joinNewer, hn, Std.ExtTreeMap.getElem?_modify, Std.LawfulEqCmp.compare_eq_iff_eq,
      Option.some.injEq]
    by_cases hj : n = j
    · simp [hj]
    · simp [hj]

/-- Telling the older neighbour of a removed frame changes the newer side of that one link. -/
theorem links_joinOlder (r : Recency) (link : Link) (j : Nat) :
    (r.joinOlder link).links[j]? =
      r.links[j]?.map fun l =>
        if link.older = some j then { l with newer := link.newer } else l := by
  cases ho : link.older with
  | none => simp [joinOlder, ho]
  | some n =>
    simp only [joinOlder, ho, Std.ExtTreeMap.getElem?_modify, Std.LawfulEqCmp.compare_eq_iff_eq,
      Option.some.injEq]
    by_cases hj : n = j
    · simp [hj]
    · simp [hj]

/-- The newer neighbour has nothing to do with the oldest end. -/
theorem oldest_joinNewer (r : Recency) (link : Link) : (r.joinNewer link).oldest = r.oldest := by
  cases hn : link.newer <;> simp [joinNewer, hn]

/-- A removed frame without a newer neighbour was the newest: its older neighbour is now. -/
theorem newest_joinNewer (r : Recency) (link : Link) :
    (r.joinNewer link).newest = if link.newer = none then link.older else r.newest := by
  cases hn : link.newer <;> simp [joinNewer, hn]

/-- A removed frame without an older neighbour was the oldest: its newer neighbour is now. -/
theorem oldest_joinOlder (r : Recency) (link : Link) :
    (r.joinOlder link).oldest = if link.older = none then link.newer else r.oldest := by
  cases ho : link.older <;> simp [joinOlder, ho]

/-- The older neighbour has nothing to do with the newest end. -/
theorem newest_joinOlder (r : Recency) (link : Link) : (r.joinOlder link).newest = r.newest := by
  cases ho : link.older <;> simp [joinOlder, ho]

/-- Taking out a frame does not change how many there is room for. -/
@[simp]
theorem capacity_unlink (r : Recency) (k : Nat) : (r.unlink k).capacity = r.capacity := by
  cases hk : r.links[k]? with
  | none => simp [unlink, hk]
  | some link =>
    cases hn : link.newer <;> cases ho : link.older <;>
      simp [unlink, hk, joinNewer, joinOlder, hn, ho]

namespace Represents

variable {r : Recency} {q : Queue}

/-- A list without links represents the queue without frames. -/
theorem empty (capacity : Nat) : (Recency.empty capacity).Represents (Queue.empty capacity) where
  nodup := List.nodup_nil
  linked h := by simp [Queue.empty] at h
  unlinked _ := Std.ExtTreeMap.getElem?_empty
  oldest := rfl
  newest := rfl
  capacity := rfl

/-! ## Questions -/

/-- A frame has a link exactly if it stands in the queue. -/
theorem getElem?_isSome_iff (h : r.Represents q) (k : Nat) :
    (r.links[k]?).isSome ↔ k ∈ q.frames := by
  constructor
  · intro hk
    by_contra hnot
    rw [h.unlinked hnot] at hk
    exact absurd hk (by simp)
  · intro hk
    -- it stands somewhere in the queue, and has the link of that place
    obtain ⟨before, after, hsplit⟩ := List.append_of_mem hk
    rw [h.linked hsplit]
    rfl

/-- The list tracks exactly the frames of the queue. -/
theorem contains_iff (h : r.Represents q) (k : Nat) : r.contains k = true ↔ k ∈ q.frames := by
  rw [Recency.contains, Std.ExtTreeMap.contains_eq_isSome_getElem?]
  exact h.getElem?_isSome_iff k

/-- The map has one entry for each frame of the queue. -/
theorem size_eq (h : r.Represents q) : r.size = q.frames.length := by
  have hperm : r.links.keys.Perm q.frames := by
    rw [List.perm_ext_iff_of_nodup Std.ExtTreeMap.nodup_keys h.nodup]
    intro k
    rw [Std.ExtTreeMap.mem_keys, Std.ExtTreeMap.mem_iff_isSome_getElem?]
    exact h.getElem?_isSome_iff k
  rw [Recency.size, ← Std.ExtTreeMap.length_keys]
  exact hperm.length_eq

/-- The frame that a full list gives up is the head of the queue. -/
theorem overflow?_eq (h : r.Represents q) :
    r.overflow? = if q.capacity ≤ q.frames.length then q.frames.head? else none := by
  rw [Recency.overflow?, h.capacity, h.size_eq, h.oldest]

/-! ## Changes -/

/-- What the links are after `k` joined: the newest frame has become the older neighbour of `k`. -/
theorem links_push (h : r.Represents q) (k j : Nat) :
    (r.push k).links[j]? =
      if k = j then some ⟨none, q.frames.getLast?⟩
      else if q.frames.getLast? = some j then r.links[j]?.map fun l => { l with newer := some k }
      else r.links[j]? := by
  rw [← h.newest]
  cases hnew : r.newest with
  | none => simp [Recency.push, hnew, Std.ExtTreeMap.getElem?_insert]
  | some last =>
    simp only [Recency.push, hnew, Std.ExtTreeMap.getElem?_insert,
      Std.ExtTreeMap.getElem?_modify, Std.LawfulEqCmp.compare_eq_iff_eq, Option.some.injEq]
    by_cases hj : last = j
    · rw [hj]
    · rw [if_neg hj, if_neg hj]

/-- A frame with another one after it is not the newest. -/
theorem getLast?_ne (h : r.Represents q) {before after : List Nat} {j next : Nat}
    (hsplit : q.frames = before ++ j :: next :: after) : q.frames.getLast? ≠ some j := by
  intro hlast
  have hnd := h.nodup
  rw [hsplit] at hlast hnd
  rw [List.getLast?_append_cons, List.getLast?_cons_cons] at hlast
  have htwice : j ∈ next :: after := List.mem_of_getLast? hlast
  exact (List.nodup_cons.mp (List.nodup_append.mp hnd).2.1).1 htwice

/-- After `k` joined, every frame links to its two neighbours in the longer queue. -/
theorem linked_push (h : r.Represents q) {k j : Nat} (hk : k ∉ q.frames)
    {before after : List Nat} (hsplit : q.frames ++ [k] = before ++ j :: after) :
    (r.push k).links[j]? = some ⟨after.head?, before.getLast?⟩ := by
  rw [h.links_push]
  -- the frame is the new one, or it stood in the queue already
  rcases List.eq_nil_or_concat after with rfl | ⟨after, last, rfl⟩
  · obtain ⟨hbefore, hj⟩ := List.append_inj' hsplit rfl
    obtain rfl : k = j := by simpa using hj
    rw [if_pos rfl, hbefore]
    rfl
  · rw [List.concat_eq_append, ← List.cons_append, ← List.append_assoc] at hsplit
    obtain ⟨hold, hlast⟩ := List.append_inj' hsplit rfl
    obtain rfl : k = last := by simpa using hlast
    have hjk : k ≠ j := by
      rintro rfl
      exact hk (hold ▸ by simp)
    rw [if_neg hjk, h.linked hold]
    cases after with
    | nil =>
      -- it was the newest, and gets its newer neighbour now
      rw [if_pos (by rw [hold]; simp)]
      rfl
    | cons next after =>
      rw [if_neg (h.getLast?_ne hold)]
      rfl

/-- Joining a frame that is not there appends it. -/
theorem push (h : r.Represents q) {k : Nat} (hk : k ∉ q.frames) :
    (r.push k).Represents { q with frames := q.frames ++ [k] } where
  nodup := by
    refine List.nodup_append.mpr ⟨h.nodup, List.nodup_singleton k, ?_⟩
    rintro j hj _ hj' rfl
    exact hk (List.mem_singleton.mp hj' ▸ hj)
  linked hsplit := h.linked_push hk hsplit
  unlinked {j} hj := by
    rw [List.mem_append, not_or] at hj
    rw [h.links_push, if_neg (by rintro rfl; simp at hj), h.unlinked hj.1]
    simp
  oldest := by
    -- a list without a newest frame is empty, and the new frame is its oldest, too
    cases hnew : r.newest with
    | none =>
      have hnil : q.frames = [] := by rwa [h.newest, List.getLast?_eq_none_iff] at hnew
      simp [Recency.push, hnew, hnil]
    | some last =>
      have hne : q.frames ≠ [] := by
        rintro hnil
        rw [h.newest, hnil] at hnew
        simp at hnew
      simp [Recency.push, hnew, h.oldest, List.head?_append_of_ne_nil _ hne]
  newest := by cases hnew : r.newest <;> simp [Recency.push, hnew]
  capacity := by cases hnew : r.newest <;> simp [Recency.push, hnew, h.capacity]

/-- The link of `j` once what lay between `before` and `after` is gone. -/
def bridged (before after : List Nat) (j : Nat) (l : Link) : Link :=
  ⟨if before.getLast? = some j then after.head? else l.newer,
    if after.head? = some j then before.getLast? else l.older⟩

/-- What the links are after `k` was taken out: the neighbours of `k` have become neighbours. -/
theorem links_unlink (h : r.Represents q) {before after : List Nat} {k : Nat}
    (hsplit : q.frames = before ++ k :: after) (j : Nat) :
    (r.unlink k).links[j]? =
      if k = j then none else r.links[j]?.map (bridged before after j) := by
  have hunlink : r.unlink k =
      ({ r with links := r.links.erase k }.joinNewer ⟨after.head?, before.getLast?⟩).joinOlder
        ⟨after.head?, before.getLast?⟩ := by
    rw [Recency.unlink, h.linked hsplit]
  -- from the outside in: its two neighbours, then `k` itself
  rw [hunlink, links_joinOlder, links_joinNewer]
  simp only [Std.ExtTreeMap.getElem?_erase, Std.LawfulEqCmp.compare_eq_iff_eq]
  by_cases hj : k = j
  · rw [if_pos hj, if_pos hj]
    rfl
  · rw [if_neg hj, if_neg hj, Option.map_map]
    congr 1
    funext l
    simp only [Function.comp, bridged]
    split <;> split <;> rfl

/-- A frame after the one that was taken out has a new older neighbour if it was the next. -/
theorem linked_of_after (h : r.Represents q) {before after mid post : List Nat} {k j : Nat}
    (hsplit : q.frames = before ++ k :: after) (hafter : after = mid ++ j :: post) :
    (if k = j then none else r.links[j]?.map (bridged before after j)) =
      some ⟨post.head?, (before ++ mid).getLast?⟩ := by
  have hnd := h.nodup
  rw [hsplit, hafter] at hnd
  have hkj : k ≠ j := by grind
  have hlast : before.getLast? ≠ some j := by
    intro hb
    have := List.mem_of_getLast? hb
    grind
  have hold : q.frames = (before ++ k :: mid) ++ j :: post := by rw [hsplit, hafter]; simp
  rw [if_neg hkj, h.linked hold, Option.map_some, bridged, if_neg hlast, hafter]
  -- it was the next after `k`, or others lay between
  cases mid with
  | nil => simp
  | cons m mid =>
    have hmj : m ≠ j := by grind
    simp [hmj, List.getLast?_cons_cons]

/-- A frame before the one that was taken out has a new newer neighbour if it was the last. -/
theorem linked_of_before (h : r.Represents q) {before after pre mid : List Nat} {k j : Nat}
    (hsplit : q.frames = before ++ k :: after) (hbefore : before = pre ++ j :: mid) :
    (if k = j then none else r.links[j]?.map (bridged before after j)) =
      some ⟨(mid ++ after).head?, pre.getLast?⟩ := by
  have hnd := h.nodup
  rw [hsplit, hbefore] at hnd
  have hkj : k ≠ j := by grind
  have hhead : after.head? ≠ some j := by
    intro ha
    have := List.mem_of_head? ha
    grind
  have hold : q.frames = pre ++ j :: (mid ++ k :: after) := by rw [hsplit, hbefore]; simp
  rw [if_neg hkj, h.linked hold, Option.map_some, bridged, if_neg hhead, hbefore]
  -- it was the last before `k`, or others lay between
  cases mid with
  | nil => simp
  | cons m mid =>
    have hlast : (pre ++ j :: m :: mid).getLast? ≠ some j := by
      rw [List.getLast?_append_cons, List.getLast?_cons_cons]
      intro hb
      have := List.mem_of_getLast? hb
      grind
    rw [if_neg hlast]
    rfl

/-- After `k` was taken out, every frame links to its two neighbours in the shorter queue. -/
theorem linked_unlink (h : r.Represents q) {before after pre post : List Nat} {k j : Nat}
    (hsplit : q.frames = before ++ k :: after) (hj : before ++ after = pre ++ j :: post) :
    (r.unlink k).links[j]? = some ⟨post.head?, pre.getLast?⟩ := by
  rw [h.links_unlink hsplit]
  -- the frame stood after `k` or before it
  rcases List.append_eq_append_iff.mp hj with ⟨mid, rfl, hafter⟩ | ⟨mid, hbefore, hpost⟩
  · exact h.linked_of_after hsplit hafter
  · cases mid with
    | nil =>
      -- it was the next after `k`
      obtain rfl : after = j :: post := by simpa using hpost.symm
      obtain rfl : before = pre := by simpa using hbefore
      simpa using h.linked_of_after hsplit (List.nil_append (j :: post)).symm
    | cons j' mid =>
      obtain ⟨rfl, rfl⟩ : j' = j ∧ post = mid ++ after := by simpa [eq_comm] using hpost
      exact h.linked_of_before hsplit hbefore

/-- Taking out a frame takes it out of the queue. -/
theorem unlink (h : r.Represents q) (k : Nat) : (r.unlink k).Represents (q.untrack k) := by
  by_cases hk : k ∈ q.frames
  swap
  · -- a frame that is not there: nothing happens on either side
    have hr : r.unlink k = r := by rw [Recency.unlink, h.unlinked hk]
    have hq : q.untrack k = q := by rw [Queue.untrack, List.erase_of_not_mem hk]
    rw [hr, hq]
    exact h
  obtain ⟨before, after, hsplit⟩ := List.append_of_mem hk
  have hnd := h.nodup
  rw [hsplit] at hnd
  have hkb : k ∉ before := by grind
  have herase : q.frames.erase k = before ++ after := by
    rw [hsplit, List.erase_append_right _ hkb, List.erase_cons_head]
  -- the two ends move only if `k` was one of them
  have hends : (r.unlink k).oldest = (if before.getLast? = none then after.head? else r.oldest) ∧
      (r.unlink k).newest = (if after.head? = none then before.getLast? else r.newest) := by
    rw [Recency.unlink, h.linked hsplit]
    simp only [oldest_joinOlder, oldest_joinNewer, newest_joinOlder, newest_joinNewer, and_self]
  exact
    { nodup := h.nodup.erase k
      linked := fun hj => h.linked_unlink hsplit (herase ▸ hj)
      unlinked := fun {j} hj => by
        have hj : j ∉ before ++ after := herase ▸ hj
        rw [h.links_unlink hsplit]
        split
        · rfl
        · next hne => rw [h.unlinked (by rw [hsplit]; grind)]; rfl
      oldest := by
        show (r.unlink k).oldest = (q.frames.erase k).head?
        rw [hends.1, herase, h.oldest, hsplit]
        cases before <;> simp
      newest := by
        show (r.unlink k).newest = (q.frames.erase k).getLast?
        rw [hends.2, herase, h.newest, hsplit]
        cases after <;> simp
      capacity := (capacity_unlink r k).trans h.capacity }

/-- Taking out the oldest frame leaves the rest of the queue. -/
theorem unlink_head (h : r.Represents q) {k : Nat} {rest : List Nat} (hq : q.frames = k :: rest) :
    (r.unlink k).Represents { q with frames := rest } := by
  have hq' : q.untrack k = { q with frames := rest } := by
    rw [Queue.untrack, hq, List.erase_cons_head]
  exact hq' ▸ h.unlink k

/-- The victim is the head of the queue, and it is taken out. -/
theorem victim_eq (h : r.Represents q) :
    r.victim = q.frames.head?.map fun k => (k, r.unlink k) := by
  rw [Recency.victim, h.oldest]

/-- Tracking a frame tracks it in the queue: a frame that is there stays where it is, and a full
list gives up its oldest frame first. -/
theorem track (h : r.Represents q) (k : Nat) : (r.track k).1.Represents (q.track k) := by
  rw [Recency.track, Queue.track]
  by_cases hk : k ∈ q.frames
  · rw [if_pos ((h.contains_iff k).mpr hk), if_pos hk]
    exact h
  rw [if_neg (mt (h.contains_iff k).mp hk), if_neg hk, h.overflow?_eq]
  by_cases hfull : q.capacity ≤ q.frames.length
  · rw [if_pos hfull, if_pos hfull]
    cases hq : q.frames with
    | nil =>
      -- an empty queue has nothing to give up, full or not
      have hpush := h.push hk
      rwa [hq] at hpush
    | cons oldest rest =>
      exact (h.unlink_head hq).push (by rw [hq] at hk; grind)
  · rw [if_neg hfull, if_neg hfull]
    exact h.push hk

end Represents

/-! ## Lists that are chains

What the rest of the pool needs of a recency list is which frames it tracks; the order stays with
the queue. -/

/-- The links are in order: they are the chain of some queue. -/
def Chained (r : Recency) : Prop :=
  ∃ q, r.Represents q

namespace Chained

variable {r : Recency}

/-- A list without links is a chain. -/
theorem empty (capacity : Nat) : (Recency.empty capacity).Chained :=
  ⟨_, .empty capacity⟩

/-- A chain without one of its frames is a chain. -/
theorem unlink (h : r.Chained) (k : Nat) : (r.unlink k).Chained :=
  let ⟨_, hq⟩ := h
  ⟨_, hq.unlink k⟩

/-- A chain that tracks a frame is a chain. -/
theorem track (h : r.Chained) (k : Nat) : (r.track k).1.Chained :=
  let ⟨_, hq⟩ := h
  ⟨_, hq.track k⟩

/-- What was taken out is not tracked any more; everything else is tracked as before. -/
theorem contains_unlink (h : r.Chained) (k j : Nat) :
    (r.unlink k).contains j = true ↔ j ≠ k ∧ r.contains j = true := by
  obtain ⟨q, hq⟩ := h
  rw [(hq.unlink k).contains_iff, hq.contains_iff]
  exact hq.nodup.mem_erase_iff

/-- The victim was tracked, and what is left is the list without it. -/
theorem victim_eq_some (h : r.Chained) {k : Nat} {rest : Recency}
    (hv : r.victim = some (k, rest)) : r.contains k = true ∧ rest = r.unlink k := by
  obtain ⟨q, hq⟩ := h
  rw [hq.victim_eq] at hv
  obtain ⟨j, hj, hjk⟩ := Option.map_eq_some_iff.mp hv
  obtain ⟨rfl, rfl⟩ := Prod.mk.inj hjk
  exact ⟨(hq.contains_iff j).mpr (List.mem_of_head? hj), rfl⟩

/-- There is a victim unless nothing is tracked. -/
theorem victim_eq_none (h : r.Chained) (hv : r.victim = none) (k : Nat) :
    r.contains k = false := by
  obtain ⟨q, hq⟩ := h
  rw [hq.victim_eq, Option.map_eq_none_iff, List.head?_eq_none_iff] at hv
  rw [← Bool.not_eq_true, hq.contains_iff, hv]
  exact List.not_mem_nil

/-- A frame that was just tracked is tracked, however full the list was. -/
theorem contains_track_self (h : r.Chained) (k : Nat) : (r.track k).1.contains k = true := by
  obtain ⟨q, hq⟩ := h
  rw [(hq.track k).contains_iff, Queue.track]
  split
  · assumption
  · split <;> simp

/-- Tracking a frame brings in no other frame. -/
theorem contains_of_track (h : r.Chained) {k j : Nat} (hj : (r.track k).1.contains j = true) :
    j = k ∨ r.contains j = true := by
  obtain ⟨q, hq⟩ := h
  rw [(hq.track k).contains_iff, Queue.track] at hj
  rw [hq.contains_iff]
  -- it was there, or it is the new one, or it stood behind the head that was given up
  split at hj
  · exact .inr hj
  · split at hj
    · rcases List.mem_append.mp hj with hj | hj
      · exact .inr (List.mem_of_mem_tail hj)
      · exact .inl (List.mem_singleton.mp hj)
    · rcases List.mem_append.mp hj with hj | hj
      · exact .inr hj
      · exact .inl (List.mem_singleton.mp hj)

/-- A list with room for one more forgets nothing. -/
theorem contains_track_of_lt (h : r.Chained) (hroom : r.size < r.capacity) {k j : Nat}
    (hj : r.contains j = true) : (r.track k).1.contains j = true := by
  obtain ⟨q, hq⟩ := h
  rw [hq.size_eq, hq.capacity] at hroom
  rw [hq.contains_iff] at hj
  rw [(hq.track k).contains_iff, Queue.track]
  split
  · exact hj
  · rw [if_neg (by omega)]
    exact List.mem_append_left _ hj

/-- Tracked frames are different numbers: if all lie below `n`, and one number below `n` is not
tracked, there are fewer than `n`. -/
theorem size_lt (h : r.Chained) {n k : Nat} (hbound : ∀ j, r.contains j = true → j < n)
    (hk : k < n) (hnot : r.contains k = false) : r.size < n := by
  obtain ⟨q, hq⟩ := h
  have hkq : k ∉ q.frames := by
    rw [← hq.contains_iff, hnot]
    decide
  -- `k` and the tracked frames are as many different numbers below `n`
  have hsub : k :: q.frames ⊆ List.range n := by
    intro j hj
    rcases List.mem_cons.mp hj with rfl | hj
    · exact List.mem_range.mpr hk
    · exact List.mem_range.mpr (hbound j ((hq.contains_iff j).mpr hj))
  have hnd : (k :: q.frames).Nodup := List.nodup_cons.mpr ⟨hkq, hq.nodup⟩
  have hle := (List.subperm_of_subset hnd hsub).length_le
  rw [List.length_cons, List.length_range] at hle
  rw [hq.size_eq]
  omega

end Chained

/-! ## Lists without a frame -/

/-- The links of `r'` are in order too, and it tracks what `r` tracks, but for `k`. -/
structure Without (r : Recency) (k : Nat) (r' : Recency) : Prop where
  chained : r'.Chained
  capacity_eq : r'.capacity = r.capacity
  contains_iff : ∀ j, r'.contains j = true ↔ j ≠ k ∧ r.contains j = true

namespace Chained

variable {r : Recency} {k : Nat}

/-- Taking out a frame leaves the list without it. -/
theorem without_unlink (h : r.Chained) (k : Nat) : r.Without k (r.unlink k) :=
  ⟨h.unlink k, capacity_unlink r k, h.contains_unlink k⟩

/-- Taking the victim leaves the list without it. -/
theorem without_victim (h : r.Chained) {rest : Recency} (hv : r.victim = some (k, rest)) :
    r.Without k rest := by
  obtain ⟨-, rfl⟩ := h.victim_eq_some hv
  exact h.without_unlink k

/-- A list is without a frame that it does not track. -/
theorem without_self (h : r.Chained) (hk : r.contains k = false) : r.Without k r := by
  refine ⟨h, rfl, fun j => ⟨fun hj => ⟨?_, hj⟩, And.right⟩⟩
  rintro rfl
  exact absurd hj (by rw [hk]; decide)

end Chained

/-- Tracking a frame does not change how many there is room for. -/
@[simp]
theorem capacity_track (r : Recency) (k : Nat) : (r.track k).1.capacity = r.capacity := by
  have hpush (r : Recency) : (r.push k).capacity = r.capacity := by
    cases hn : r.newest <;> simp [Recency.push, hn]
  rw [track]
  split
  · rfl
  · split
    · rw [hpush, capacity_unlink]
    · exact hpush r

end PageCache.Recency
