import PageCache.Proofs.Recency.Chain

/-!
# The order of a recency list

A recency list answers every request as the plain queue answers it, and what its links hold at any
time is one chain: whoever starts at the oldest frame and goes on to the newer neighbour meets the
frames of the queue, in their order (`Recency.refines_queue`).

* `Represents.answer`, `Represents.after`: one request, and many of them.
* `Threads`, `Represents.threads`: the chain, told by what a walk along the links meets.
* `Queue.length_after_le`: a list of capacity zero holds one frame, any other what it has room for.
* `order`: the tracked frames, oldest first; `Represents.order_eq` says that it is the queue.
* `Becomes.order_of_victim`: what becomes of the order when the victim comes back.
-/

namespace PageCache.Recency

/-! ## Many requests -/

/-- What becomes of the list by `requests`, in turn. -/
def after (r : Recency) (requests : List Request) : Recency :=
  requests.foldl (fun r request => (r.answer request).2) r

/-- What becomes of the queue by `requests`, in turn. -/
def Queue.after (q : Queue) (requests : List Request) : Queue :=
  requests.foldl (fun q request => (q.answer request).2) q

/-- More requests find what the earlier ones left. -/
theorem after_append (r : Recency) (requests requests' : List Request) :
    r.after (requests ++ requests') = (r.after requests).after requests' :=
  List.foldl_append

namespace Represents

variable {r : Recency} {q : Queue}

/-- The victim is the head of the queue, and the rest stays. -/
theorem answer_victim (h : r.Represents q) :
    (r.answer .victim).1 = (q.answer .victim).1 ∧
      (r.answer .victim).2.Represents (q.answer .victim).2 := by
  obtain ⟨frames, capacity⟩ := q
  cases frames with
  | nil =>
    have hnone : r.victim = none := h.victim_eq
    simp only [Recency.answer, hnone]
    exact ⟨rfl, h⟩
  | cons k rest =>
    have hsome : r.victim = some (k, r.unlink k) := h.victim_eq
    simp only [Recency.answer, hsome]
    exact ⟨rfl, h.unlink_head rfl⟩

/-- The list answers as the queue does, and represents what becomes of the queue. -/
theorem answer (h : r.Represents q) (request : Request) :
    (r.answer request).1 = (q.answer request).1 ∧
      (r.answer request).2.Represents (q.answer request).2 := by
  cases request with
  | track k => exact ⟨rfl, h.track k⟩
  | untrack k => exact ⟨rfl, h.unlink k⟩
  | victim => exact h.answer_victim
  | contains k =>
    have hmem : r.contains k = q.frames.contains k := by
      rw [Bool.eq_iff_iff, h.contains_iff, List.contains_iff_mem]
    exact ⟨congrArg Answer.truth hmem, h⟩
  | capacity => exact ⟨congrArg Answer.number h.capacity, h⟩
  | size => exact ⟨congrArg Answer.number h.size_eq, h⟩

/-- What becomes of the list represents what becomes of the queue, request by request. -/
theorem after (h : r.Represents q) (requests : List Request) :
    (r.after requests).Represents (q.after requests) := by
  induction requests generalizing r q with
  | nil => exact h
  | cons request rest ih => exact ih (h.answer request).2

/-- All answers are those of the queue, and so are the sizes in between. -/
theorem answers_eq (h : r.Represents q) (requests : List Request) :
    r.answers requests = q.answers requests := by
  induction requests generalizing r q with
  | nil => rfl
  | cons request rest ih =>
    obtain ⟨hanswer, hrest⟩ := h.answer request
    simp only [Recency.answers, Queue.answers, hanswer, hrest.size_eq, ih hrest]

end Represents

/-! ## Walking along the links -/

/-- The frame that became evictable next after `k`. -/
def newer? (r : Recency) (k : Nat) : Option Nat :=
  r.links[k]?.bind Link.newer

/-- The frame that became evictable just before `k`. -/
def older? (r : Recency) (k : Nat) : Option Nat :=
  r.links[k]?.bind Link.older

/-- The first `n` frames of the way that begins at `start` and goes on to the newer neighbour. -/
def walk (r : Recency) : (n : Nat) → (start : Option Nat) → List Nat
  | 0, _ => []
  | _ + 1, none => []
  | n + 1, some k => k :: r.walk n (r.newer? k)

/-- The tracked frames, oldest first. -/
def order (r : Recency) : List Nat :=
  r.walk r.size r.oldest

/-- The links are those of one doubly linked chain, which leads along `frames`. -/
structure Threads (r : Recency) (frames : List Nat) : Prop where
  /-- The way from the oldest frame ends after as many steps as there are links. -/
  walk_eq : ∀ n, r.size ≤ n → r.walk n r.oldest = frames
  nodup : frames.Nodup
  mem_iff : ∀ k, k ∈ frames ↔ r.contains k = true
  newest : frames.getLast? = r.newest
  older_iff : ∀ j k, r.older? k = some j ↔ r.newer? j = some k

namespace Represents

variable {r : Recency} {q : Queue} {before after : List Nat} {k : Nat}

/-- The newer neighbour of a frame is the next in the queue. -/
theorem newer?_eq (h : r.Represents q) (hsplit : q.frames = before ++ k :: after) :
    r.newer? k = after.head? := by
  rw [newer?, h.linked hsplit]
  rfl

/-- The older neighbour of a frame is the one before it in the queue. -/
theorem older?_eq (h : r.Represents q) (hsplit : q.frames = before ++ k :: after) :
    r.older? k = before.getLast? := by
  rw [older?, h.linked hsplit]
  rfl

/-- Only a frame of the queue has neighbours. -/
theorem mem_of_bind (h : r.Represents q) {end? : Link → Option Nat} {j : Nat}
    (hj : r.links[k]?.bind end? = some j) : k ∈ q.frames := by
  by_contra hk
  rw [h.unlinked hk] at hj
  exact absurd hj (by simp)

/-- From anywhere in the queue the way leads through the rest of it. -/
theorem walk_eq (h : r.Represents q) (hsplit : q.frames = before ++ after) {n : Nat}
    (hn : after.length ≤ n) : r.walk n after.head? = after := by
  induction after generalizing before n with
  | nil => cases n <;> rfl
  | cons k after ih =>
    obtain ⟨n, rfl⟩ : ∃ m, n = m + 1 := Nat.exists_eq_add_of_le' (Nat.le_of_add_left_le hn)
    have hrest : q.frames = (before ++ [k]) ++ after := by rw [hsplit, List.append_cons]
    -- one step along the link of `k`, and the rest of the way by induction
    rw [List.head?_cons, walk, h.newer?_eq hsplit, ih hrest (Nat.le_of_succ_le_succ hn)]

/-- Whoever has an older neighbour is the newer neighbour of that. -/
theorem newer?_of_older? (h : r.Represents q) {j : Nat} (hj : r.older? k = some j) :
    r.newer? j = some k := by
  obtain ⟨before, after, hsplit⟩ := List.append_of_mem (h.mem_of_bind hj)
  rw [h.older?_eq hsplit] at hj
  -- what is just before `k` has `k` behind it
  obtain ⟨before, rfl⟩ := List.getLast?_eq_some_iff.mp hj
  rw [List.append_assoc, List.singleton_append] at hsplit
  exact h.newer?_eq hsplit

/-- Whoever has a newer neighbour is the older neighbour of that. -/
theorem older?_of_newer? (h : r.Represents q) {j : Nat} (hk : r.newer? j = some k) :
    r.older? k = some j := by
  obtain ⟨before, after, hsplit⟩ := List.append_of_mem (h.mem_of_bind hk)
  -- what is just after `j` has `j` before it
  rw [h.newer?_eq hsplit] at hk
  obtain ⟨after, rfl⟩ := List.head?_eq_some_iff.mp hk
  rw [List.append_cons] at hsplit
  rw [h.older?_eq hsplit, List.getLast?_concat]

/-- The links lead along the queue. -/
theorem threads (h : r.Represents q) : r.Threads q.frames where
  walk_eq n hn := by
    rw [h.oldest]
    exact h.walk_eq (List.nil_append _).symm (h.size_eq ▸ hn)
  nodup := h.nodup
  mem_iff k := (h.contains_iff k).symm
  newest := h.newest.symm
  older_iff _ _ := ⟨h.newer?_of_older?, h.older?_of_newer?⟩

/-- The tracked frames, oldest first, are the queue. -/
theorem order_eq (h : r.Represents q) : r.order = q.frames :=
  h.threads.walk_eq _ (Nat.le_refl _)

/-- The queue is all there is to a list. -/
theorem unique {r' : Recency} (h : r.Represents q) (h' : r'.Represents q) : r = r' := by
  have hlinks : r.links = r'.links := by
    apply Std.ExtTreeMap.ext_getElem?
    intro k
    -- the links of a frame are told by its place in the queue
    by_cases hk : k ∈ q.frames
    · obtain ⟨before, after, hsplit⟩ := List.append_of_mem hk
      rw [h.linked hsplit, h'.linked hsplit]
    · rw [h.unlinked hk, h'.unlinked hk]
  have holdest : r.oldest = r'.oldest := h.oldest.trans h'.oldest.symm
  have hnewest : r.newest = r'.newest := h.newest.trans h'.newest.symm
  have hcapacity : r.capacity = r'.capacity := h.capacity.trans h'.capacity.symm
  cases r
  cases r'
  simp_all

/-- A victim that comes back is the newest frame. No other has to give way for it: it finds the
room that it left. -/
theorem requeue {rest : List Nat} {capacity : Nat} (h : r.Represents ⟨k :: rest, capacity⟩)
    (hlength : (k :: rest).length ≤ max capacity 1) :
    ((r.unlink k).track k).1.Represents ⟨rest ++ [k], capacity⟩ := by
  have hback := (h.unlink_head rfl).track k
  have hnot : k ∉ rest := (List.nodup_cons.mp h.nodup).1
  rw [List.length_cons] at hlength
  rw [Queue.track, if_neg hnot] at hback
  split at hback
  · next hfull =>
    -- a list that is full without the frame has room for none, and is empty now
    have hfull : capacity ≤ rest.length := hfull
    obtain rfl : rest = [] := List.eq_nil_of_length_eq_zero (by omega)
    exact hback
  · exact hback

end Represents

/-! ## How many frames are tracked -/

namespace Queue

variable {q : Queue}

/-- Tracking a frame does not change how many there is room for. -/
@[simp]
theorem capacity_track (q : Queue) (k : Nat) : (q.track k).capacity = q.capacity := by
  rw [track]
  split
  · rfl
  · split <;> rfl

/-- Tracking a frame makes the queue no longer than there is room for, or one frame. -/
theorem length_track_le (h : q.frames.length ≤ max q.capacity 1) (k : Nat) :
    (q.track k).frames.length ≤ max q.capacity 1 := by
  rw [track]
  split
  · exact h
  split
  · -- the frame that comes takes the place of one that goes, if there is one
    rw [List.length_append, List.length_tail, List.length_singleton]
    omega
  · rw [List.length_append, List.length_singleton]
    omega

/-- No request makes the queue longer than there is room for, or one frame. -/
theorem length_answer_le (h : q.frames.length ≤ max q.capacity 1) (request : Request) :
    (q.answer request).2.frames.length ≤ max (q.answer request).2.capacity 1 := by
  cases request with
  | track k =>
    show (q.track k).frames.length ≤ max (q.track k).capacity 1
    rw [capacity_track]
    exact length_track_le h k
  | untrack k => exact Nat.le_trans List.length_erase_le h
  | victim =>
    show q.frames.tail.length ≤ max q.capacity 1
    rw [List.length_tail]
    omega
  | contains | capacity | size => exact h

/-- However many requests there are, the queue is no longer than there is room for, or one frame. -/
theorem length_after_le (h : q.frames.length ≤ max q.capacity 1) (requests : List Request) :
    (q.after requests).frames.length ≤ max (q.after requests).capacity 1 := by
  induction requests generalizing q with
  | nil => exact h
  | cons request rest ih => exact ih (length_answer_le h request)

/-- No request changes how many frames there is room for. -/
theorem capacity_answer (q : Queue) (request : Request) :
    (q.answer request).2.capacity = q.capacity := by
  cases request with
  | track k => exact capacity_track q k
  | untrack | victim | contains | capacity | size => rfl

/-- However many requests there are, the room stays the same. -/
theorem capacity_after (q : Queue) (requests : List Request) :
    (q.after requests).capacity = q.capacity := by
  induction requests generalizing q with
  | nil => rfl
  | cons request rest ih => exact (ih _).trans (capacity_answer q request)

end Queue

/-! ## Lists that started empty -/

/-- A list that had nothing but requests since it was empty. -/
theorem represents_after (capacity : Nat) (requests : List Request) :
    ((empty capacity).after requests).Represents ((Queue.empty capacity).after requests) :=
  (Represents.empty capacity).after requests

/-- A queue that started empty is no longer than there is room for, or one frame. -/
theorem length_after_empty_le (capacity : Nat) (requests : List Request) :
    ((Queue.empty capacity).after requests).frames.length ≤ max capacity 1 := by
  have hle := Queue.length_after_le (q := .empty capacity) (Nat.zero_le _) requests
  rwa [Queue.capacity_after] at hle

/-- Requests lead from one list to the other. -/
def Becomes (r r' : Recency) : Prop :=
  ∃ requests, r' = r.after requests

namespace Becomes

variable {r r' r'' : Recency} {capacity k : Nat}

/-- A list becomes itself when nothing is requested. -/
theorem refl (r : Recency) : r.Becomes r :=
  ⟨[], rfl⟩

/-- Requests may go on where others ended. -/
theorem trans (h : r.Becomes r') (h' : r'.Becomes r'') : r.Becomes r'' := by
  obtain ⟨requests, rfl⟩ := h
  obtain ⟨requests', rfl⟩ := h'
  exact ⟨requests ++ requests', (r.after_append requests requests').symm⟩

/-- Tracking a frame is a request. -/
theorem track (r : Recency) (k : Nat) : r.Becomes (r.track k).1 :=
  ⟨[.track k], rfl⟩

/-- Taking out a frame is a request. -/
theorem unlink (r : Recency) (k : Nat) : r.Becomes (r.unlink k) :=
  ⟨[.untrack k], rfl⟩

/-- Taking the victim is a request. -/
theorem victim (h : r.victim = some (k, r')) : r.Becomes r' := by
  refine ⟨[.victim], ?_⟩
  show r' = (r.answer .victim).2
  simp only [answer, h]

/-- Requests leave the links in order. -/
theorem chained (h : r.Becomes r') (hr : r.Chained) : r'.Chained := by
  obtain ⟨requests, rfl⟩ := h
  obtain ⟨q, hq⟩ := hr
  exact ⟨_, hq.after requests⟩

/-- There is a queue behind the list, and it is no longer than there is room for, or one frame. -/
theorem represents (h : (empty capacity).Becomes r) :
    r.Represents ⟨r.order, capacity⟩ ∧ r.order.length ≤ max capacity 1 := by
  obtain ⟨requests, rfl⟩ := h
  have hq := represents_after capacity requests
  have hcapacity : ((Queue.empty capacity).after requests).capacity = capacity :=
    Queue.capacity_after ..
  have hlength := length_after_empty_le capacity requests
  rw [hq.order_eq]
  generalize (Queue.empty capacity).after requests = q at hq hcapacity hlength ⊢
  obtain ⟨frames, _⟩ := q
  obtain rfl := hcapacity
  exact ⟨hq, hlength⟩

/-- The victim was the oldest frame, and if it comes back it is the newest. -/
theorem order_of_victim (h : (empty capacity).Becomes r) (hv : r.victim = some (k, r')) :
    ∃ rest, r.order = k :: rest ∧ r'.order = rest ∧ (r'.track k).1.order = rest ++ [k] := by
  obtain ⟨hq, hlength⟩ := h.represents
  rw [hq.victim_eq] at hv
  -- the victim is the head of the queue
  obtain ⟨k', hhead, hvictim⟩ := Option.map_eq_some_iff.mp hv
  obtain ⟨rfl, rfl⟩ := Prod.mk.inj hvictim
  obtain ⟨rest, hframes⟩ := List.head?_eq_some_iff.mp hhead
  have hframes : r.order = k' :: rest := hframes
  rw [hframes] at hq hlength
  exact ⟨rest, hframes, (hq.unlink_head rfl).order_eq, (hq.requeue hlength).order_eq⟩

end Becomes

/-- Whatever a list that started empty is asked, the answers are those of the queue, and so are the
sizes; and at the end, as at any time before, its links are those of one chain that leads along the
frames of the queue, of which there are no more than there is room for, or one. -/
theorem refines_queue (capacity : Nat) (requests : List Request) :
    (empty capacity).answers requests = (Queue.empty capacity).answers requests ∧
      ((empty capacity).after requests).Threads ((Queue.empty capacity).after requests).frames ∧
      ((empty capacity).after requests).size ≤ max capacity 1 := by
  have hrepresents := represents_after capacity requests
  refine ⟨(Represents.empty capacity).answers_eq requests, hrepresents.threads, ?_⟩
  rw [hrepresents.size_eq]
  exact length_after_empty_le capacity requests

/-- A list of capacity zero holds the frame that was tracked last. -/
example : ((empty 0).after [.track 1, .track 2]).order = [2] := by
  decide

end PageCache.Recency
