import Mathlib.Data.List.Dedup
import PageCache.Proofs.Client.Failures
import PageCache.Proofs.Client.Refusals
import PageCache.Proofs.Shard.Reordering

/-!
# The page that goes is the one least recently used

Two things put an unpinned page at the end of the order in which pages go: its last pin is taken
off, or it was to go and could not be written. `Backed.orderingEvents` lists them, operation by
operation, and `Course` all of them from the start. What the shard keeps is a list of frames; it is
no more and no less than the unpinned pages in the order of their last events
(`Backed.leastRecentFirst_of_course`).

The invariant that goes through the induction is `Ordered.sublist`: the queue is a sublist of the
events, each page taken where it stands last.
-/

namespace PageCache

variable {size : Nat}

/-! ## Events -/

/-- The last event of `q` was before the last one of `p`. -/
def LastBefore (events : List PageId) (q p : PageId) : Prop :=
  ∃ past since, events = past ++ since ∧ q ∈ past ∧ q ∉ since ∧ p ∈ since

/-- What comes first when only last occurrences are kept occurred last before the other. -/
theorem lastBefore_of_sublist {events : List PageId} {q p : PageId}
    (h : [q, p].Sublist events.dedup) : LastBefore events q p := by
  -- over the events; an event that occurs again later is not kept where it stands
  induction events with
  | nil => exact absurd h (by simp)
  | cons e events ih =>
    have hlater (h : [q, p].Sublist events.dedup) : LastBefore (e :: events) q p := by
      obtain ⟨past, since, hsplit, hpast, hsince⟩ := ih h
      exact ⟨e :: past, since, congrArg (e :: ·) hsplit, List.mem_cons_of_mem e hpast, hsince⟩
    by_cases he : e ∈ events
    · rw [List.dedup_cons_of_mem he] at h
      exact hlater h
    · rw [List.dedup_cons_of_notMem he] at h
      cases h with
      | cons _ h => exact hlater h
      | cons_cons _ h =>
        have hp : p ∈ events := List.mem_dedup.mp (List.singleton_sublist.mp h)
        exact ⟨[q], events, rfl, List.mem_cons_self, he, hp⟩

/-- Pages with a new event come after the others. -/
theorem sublist_dedup_append {events rest moved : List PageId} (h : rest.Sublist events.dedup)
    (hmoved : ∀ p ∈ moved, p ∉ rest) :
    (rest ++ moved.dedup).Sublist (events ++ moved).dedup := by
  induction events generalizing rest with
  | nil =>
    obtain rfl := List.sublist_nil.mp h
    exact .refl _
  | cons e events ih =>
    have hlater {rest : List PageId} (h : rest.Sublist events.dedup)
        (hmoved : ∀ p ∈ moved, p ∉ rest) :
        (rest ++ moved.dedup).Sublist (e :: events ++ moved).dedup := by
      refine (ih h hmoved).trans ?_
      rw [List.cons_append, List.dedup_cons]
      split
      · exact .refl _
      · exact List.sublist_cons_self ..
    -- an event that occurs again later is not kept here
    by_cases he : e ∈ events
    · rw [List.dedup_cons_of_mem he] at h
      exact hlater h hmoved
    · rw [List.dedup_cons_of_notMem he] at h
      cases h with
      | cons _ h => exact hlater h hmoved
      | @cons_cons rest _ _ h =>
        have hnot : e ∉ events ++ moved := by
          intro hmem
          rcases List.mem_append.mp hmem with hmem | hmem
          · exact he hmem
          · exact hmoved e hmem List.mem_cons_self
        rw [List.cons_append, List.cons_append, List.dedup_cons_of_notMem hnot]
        exact (ih h fun p hp hrest => hmoved p hp (List.mem_cons_of_mem e hrest)).cons_cons e

/-- A sublist is known by its members, if nothing is listed twice. -/
theorem eq_filter_of_sublist {α : Type} {xs ys : List α} {P : α → Bool} (h : xs.Sublist ys)
    (hnodup : ys.Nodup) (hmem : ∀ x, x ∈ xs ↔ x ∈ ys ∧ P x = true) : xs = ys.filter P := by
  have hsub : xs.Sublist (ys.filter P) := by
    have hfilter := h.filter P
    rwa [List.filter_eq_self.mpr fun x hx => ((hmem x).mp hx).2] at hfilter
  have hperm : xs.Perm (ys.filter P) := by
    refine (List.perm_ext_iff_of_nodup (hnodup.sublist h) (hnodup.filter P)).mpr fun x => ?_
    rw [hmem, List.mem_filter]
  exact hsub.eq_of_length hperm.length_eq

namespace Backed

variable {δ : Type} [PageStore δ] {w : Backed size δ} {s : Stripe} {events : List PageId}

/-- The same shard, over a store that lists the writes it refuses. -/
def watched (w : Backed size δ) : Backed size (Tried δ) :=
  ⟨w.shard, .start w.disk⟩

/-- The pages that cannot be written while the shard does what it is asked. -/
def refused (s : Stripe) (w : Backed size δ) (op : ShardOp size) : List PageId :=
  (w.watched.ask s op).disk.refused

/-- The pages that become the last to go: a page whose last pin is taken off, and a page that was
to make room and could not be written. -/
def orderingEvents (s : Stripe) (w : Backed size δ) : ShardOp size → List PageId
  | .unpin p dirty => lastPinOff s w p dirty
  | .fetch p => w.refused s (.fetch p)
  | .newPage => w.refused s .newPage
  | .delete _ | .flush _ | .flushAll _ | .reach .. => []

/-- No page is created that is resident. -/
def Spares (s : Stripe) (w : Backed size δ) : ShardOp size → Prop
  | .newPage => ∀ {p : PageId} {f : Fin size},
      (w.newPage s).result = .ok (p, f) → w.shard.table[p]? = none
  | _ => True

/-- A frame has to be found. -/
def Searches (s : Stripe) (w : Backed size δ) : ShardOp size → Prop
  | .fetch p => s.Owns p ∧ w.shard.table[p]? = none
  | .newPage => w.shard.nextId ≠ none
  | _ => False

/-- What leaves the order in which pages go as it is. -/
inductive LeavesOrder (s : Stripe) (w : Backed size δ) : ShardOp size → Prop
  /-- A page is fetched that is pinned already. -/
  | fetch {p : PageId} {n : Nat} (hpinned : w.shard.pinCount? p = some (n + 1)) :
      LeavesOrder s w (.fetch p)
  /-- There is no frame to be had for a page, or it is another shard's. -/
  | fetchFailed {p : PageId} {e : Failure} (hresult : (w.fetch s p).result = .error e)
      (hcause : ∀ cause, e ≠ .storage (.io cause)) : LeavesOrder s w (.fetch p)
  | newPageFailed {e : Failure} (hresult : (w.newPage s).result = .error e)
      (hcause : ∀ cause, e ≠ .storage (.io cause)) : LeavesOrder s w .newPage
  /-- No pin was taken off. -/
  | unpin {p : PageId} {dirty : Bool} (hresult : (w.unpin s p dirty).result ≠ .ok true) :
      LeavesOrder s w (.unpin p dirty)
  | delete {p : PageId} (hresult : (w.delete s p).result ≠ .ok true) : LeavesOrder s w (.delete p)
  | flush (p : PageId) : LeavesOrder s w (.flush p)
  | flushAll (visit : Visit) : LeavesOrder s w (.flushAll visit)
  | reach (f : Fin size) (g : Page → Page) : LeavesOrder s w (.reach f g)

/-- The pages that may go are the unpinned ones, and the first to go is that whose last event was
before those of all others. -/
structure LeastRecentFirst (s : Stripe) (events : List PageId) (w : Backed size δ) : Prop where
  ordered : w.shard.evictables = events.dedup.filter fun p => w.shard.pinCount? p = some 0
  happened : ∀ {p : PageId}, w.shard.pinCount? p = some 0 → p ∈ events
  selects : w.shard.free = [] → (∃ p, w.shard.pinCount? p = some 0) →
    ∃ q, w.shard.pinCount? q = some 0 ∧
      (∀ {p : PageId}, w.shard.pinCount? p = some 0 → p ≠ q → LastBefore events q p) ∧
      ∀ {op : ShardOp size}, w.Spares s op → w.Searches s op →
        w.shard.Chooses q (w.refused s op) (w.ask s op).shard
  reorders : ∀ op : ShardOp size, w.shard.Reorders (w.orderingEvents s op) (w.ask s op).shard
  leaves : ∀ {op : ShardOp size}, w.LeavesOrder s op →
    (w.ask s op).shard.evictables = w.shard.evictables

end Backed

/-! ## Courses -/

/-- What a shard has been asked since all its frames were free, on a disk that may change at any
time, has led to `w`; `events` are all ordering events, the first of them first. -/
inductive Course {δ : Type} [PageStore δ] (s : Stripe) (capacity : Nat) :
    List PageId → Backed size δ → Prop
  | start (disk : δ) :
      Course s capacity [] ⟨{ Shard.fresh s size with recency := .empty capacity }, disk⟩
  | ask {events : List PageId} {w : Backed size δ} (h : Course s capacity events w)
      (op : ShardOp size) (hspared : w.Spares s op) :
      Course s capacity (events ++ w.orderingEvents s op) (w.ask s op)
  | beside {events : List PageId} {w : Backed size δ} (h : Course s capacity events w) (disk : δ) :
      Course s capacity events { w with disk }

namespace Backed

variable {δ : Type} [PageStore δ] {w : Backed size δ} {s : Stripe} {events : List PageId}
variable {capacity : Nat}

/-! ## One operation -/

/-- The list of refused writes makes no difference to the shard. -/
theorem shard_watched_ask (w : Backed size δ) (op : ShardOp size) :
    (w.watched.ask s op).shard = (w.ask s op).shard := by
  have hmirror : Mirror Anywhere (fun (d : δ) (e : Tried δ) => d = e.disk) w w.watched :=
    ⟨rfl, .anywhere _, rfl⟩
  have hserved := (serve_mirrors (Tried.simulates _) s.within_anywhere hmirror op).state.shard
  rw [state_serve, state_serve] at hserved
  exact hserved.symm

section

variable (h : w.shard.Kept s capacity w.shard.free)
  (hrecency : (Recency.empty capacity).Becomes w.shard.recency)

include h hrecency

/-- A question to a shard reorders the pages up for eviction by its ordering events. -/
theorem reorders_ask (hroomy : size ≤ capacity) (op : ShardOp size) :
    w.shard.Reorders (w.orderingEvents s op) (w.ask s op).shard := by
  have hwatched : w.watched.shard.Kept s capacity w.watched.shard.free := h
  cases op with
  | fetch p => exact w.shard_watched_ask (.fetch p) ▸ reorders_fetch hwatched hrecency rfl s p
  | newPage => exact w.shard_watched_ask .newPage ▸ reorders_newPage hwatched hrecency rfl s
  | unpin p dirty => exact reorders_unpin h hroomy hrecency s p dirty
  | delete p =>
    rcases w.evictables_delete hrecency s p with hsame | ⟨-, hsub⟩
    · exact .of_eq (congrArg Shard.evictables hsame)
    · exact .of_sublist hsub
  | flush p => exact .of_eq (sameButFlags_flush s w p).evictables
  | flushAll visit => exact .of_eq (sameButFlags_flushAll visit w).evictables
  | reach f g => exact .of_eq (Shard.evictables_setFrame _ rfl)

/-- What is no ordering event leaves the order alone. -/
theorem evictables_ask_of_leaves {op : ShardOp size} (hop : w.LeavesOrder s op) :
    (w.ask s op).shard.evictables = w.shard.evictables := by
  cases hop with
  | fetch hpinned => exact evictables_fetch_pinned h hrecency hpinned s
  | fetchFailed hresult hcause =>
    exact congrArg Shard.evictables (shard_fetch_of_error h hresult hcause)
  | newPageFailed hresult hcause =>
    exact congrArg Shard.evictables (shard_newPage_of_error h hresult hcause)
  | @unpin p dirty hresult =>
    have hcases := w.unpin_cases s p dirty
    show (w.unpin s p dirty).state.shard.evictables = _
    generalize (w.unpin s p dirty).result = r, (w.unpin s p dirty).state = w' at hcases hresult
    cases hcases with
    | refused => rfl
    | several | last => exact absurd rfl hresult
  | @delete p hresult =>
    rcases w.evictables_delete hrecency s p with hsame | ⟨htrue, -⟩
    · exact congrArg Shard.evictables hsame
    · exact absurd htrue hresult
  | flush p => exact (sameButFlags_flush s w p).evictables
  | flushAll visit => exact (sameButFlags_flushAll visit w).evictables
  | reach f g => exact Shard.evictables_setFrame _ rfl

/-- A shard without a free frame that looks for one chooses the head of the queue. -/
theorem chooses_ask {q : PageId} {rest : List PageId} (hfree : w.shard.free = [])
    (hqueue : w.shard.evictables = q :: rest) (hq : w.shard.table[q]? ≠ none) {op : ShardOp size}
    (hspared : w.Spares s op) (hsearches : w.Searches s op) :
    w.shard.Chooses q (w.refused s op) (w.ask s op).shard := by
  have hwatched : w.watched.shard.Kept s capacity w.watched.shard.free := h
  rw [← shard_watched_ask]
  cases op with
  | fetch p =>
    obtain ⟨howns, hp⟩ := hsearches
    exact chooses_fetch hwatched hrecency rfl hfree hqueue howns hp hq
  | newPage =>
    obtain ⟨id, hnext⟩ := Option.ne_none_iff_exists'.mp hsearches
    refine chooses_newPage hwatched hrecency rfl hfree hqueue hnext (fun {p f} hresult => ?_) hq
    have hmirror : Mirror Anywhere (fun (d : δ) (e : Tried δ) => d = e.disk) w w.watched :=
      ⟨rfl, .anywhere _, rfl⟩
    have hmirrors := newPage_mirrors (Tried.simulates _) s.within_anywhere hmirror
    exact hspared (hmirrors.result.trans hresult)
  | _ => exact hsearches.elim

end

/-- Whatever a shard is asked, its records stay in order. -/
theorem kept_ask [LawfulStore δ] (h : w.shard.Kept s capacity w.shard.free) {op : ShardOp size}
    (hspared : w.Spares s op) :
    (w.ask s op).shard.Kept s capacity (w.ask s op).shard.free := by
  cases op with
  | fetch p =>
    obtain ⟨ms, hruns, -⟩ := fetch_runs h p
    exact hruns.kept
  | newPage =>
    obtain ⟨ms, hruns, -⟩ := newPage_runs h hspared
    exact hruns.kept
  | unpin p dirty =>
    obtain ⟨ms, hruns, -⟩ := unpin_runs h p dirty
    exact hruns.kept
  | delete p =>
    obtain ⟨ms, hruns, -⟩ := delete_runs h p
    exact hruns.kept
  | flush p =>
    obtain ⟨ms, hruns, -⟩ := flush_runs h p
    exact hruns.kept
  | flushAll visit =>
    obtain ⟨ms, hruns, -⟩ := flushAll_runs visit h
    exact hruns.kept
  | reach f g =>
    obtain ⟨ms, hruns, -⟩ := reach_runs h f g
    exact hruns.kept

/-! ## Courses -/

/-- The records agree, the recency list had nothing but requests, and it has the frames in the
order of the last events of their pages. -/
structure Ordered (s : Stripe) (capacity : Nat) (events : List PageId) (w : Backed size δ) :
    Prop where
  kept : w.shard.Kept s capacity w.shard.free
  recency : (Recency.empty capacity).Becomes w.shard.recency
  sublist : w.shard.evictables.Sublist events.dedup

omit [PageStore δ] in
theorem Ordered.start (s : Stripe) (capacity : Nat) (disk : δ) : Ordered s capacity []
    (⟨{ Shard.fresh s size with recency := .empty capacity }, disk⟩ : Backed size δ) :=
  ⟨.fresh s capacity, .refl _, List.nil_sublist _⟩

section

variable (hroomy : size ≤ capacity)
include hroomy

/-- One question more, and the queue is still in the order of the events. -/
theorem Ordered.ask [LawfulStore δ] (h : Ordered s capacity events w) {op : ShardOp size}
    (hspared : w.Spares s op) :
    Ordered s capacity (events ++ w.orderingEvents s op) (w.ask s op) := by
  have hkept := kept_ask h.kept hspared
  have hrecency := h.recency.trans (w.becomes_ask s op)
  refine ⟨hkept, hrecency, ?_⟩
  obtain ⟨rest, hrest, hmoved, hafter⟩ := reorders_ask h.kept h.recency hroomy op
  have hnodup := hkept.nodup_evictables hrecency.represents.1
  rw [hafter] at hnodup ⊢
  have hsub := sublist_dedup_append (hrest.trans h.sublist) hmoved
  rwa [(List.nodup_append.mp hnodup).2.1.dedup] at hsub

/-- The queue is in the order of the events in every course of a shard. -/
theorem ordered_of_course [LawfulStore δ] (h : Course s capacity events w) :
    Ordered s capacity events w := by
  -- over the course; what the others do to the disk meanwhile leaves the queue alone
  induction h with
  | start disk => exact .start s capacity disk
  | ask _ op hspared ih => exact ih.ask hroomy hspared
  | beside _ disk ih => exact ⟨ih.kept, ih.recency, ih.sublist⟩

/-- However a shard is used whose recency list has room for every frame, and whatever the disk
refuses to do: the page that makes room is the unpinned one whose last event was before those of all
other unpinned pages. -/
theorem leastRecentFirst_of_course [LawfulStore δ] (h : Course s capacity events w) :
    w.LeastRecentFirst s events := by
  obtain ⟨hkept, hrecency, hsub⟩ := ordered_of_course hroomy h
  have hq := hrecency.represents.1
  have hmem (p : PageId) : p ∈ w.shard.evictables ↔ w.shard.pinCount? p = some 0 :=
    hkept.mem_evictables_iff hq hroomy
  have happened {p : PageId} (hp : w.shard.pinCount? p = some 0) : p ∈ events :=
    List.mem_dedup.mp (hsub.subset ((hmem p).mpr hp))
  refine ⟨?_, happened, fun hfree hsome => ?_, reorders_ask hkept hrecency hroomy,
    evictables_ask_of_leaves hkept hrecency⟩
  · refine eq_filter_of_sublist hsub (List.nodup_dedup events) fun p => ?_
    rw [hmem, decide_eq_true_iff, List.mem_dedup]
    exact ⟨fun hp => ⟨happened hp, hp⟩, fun hp => hp.2⟩
  · obtain ⟨p, hp⟩ := hsome
    obtain ⟨q, rest, hqueue⟩ := List.exists_cons_of_ne_nil (List.ne_nil_of_mem ((hmem p).mpr hp))
    have hunpinned : w.shard.pinCount? q = some 0 :=
      (hmem q).mp (hqueue ▸ List.mem_cons_self)
    have hlies : w.shard.table[q]? ≠ none := by
      intro hnone
      rw [Shard.pinCount?, hnone] at hunpinned
      exact absurd hunpinned (by simp)
    -- `q` is the head of the queue, so whatever else may be evicted is behind it
    refine ⟨q, hunpinned, fun {p} hp hpq => ?_, chooses_ask hkept hrecency hfree hqueue hlies⟩
    have hrest : p ∈ rest := by
      have hqueued := (hmem p).mpr hp
      rw [hqueue] at hqueued
      exact (List.mem_cons.mp hqueued).resolve_left hpq
    rw [hqueue] at hsub
    exact lastBefore_of_sublist (((List.singleton_sublist.mpr hrest).cons_cons q).trans hsub)

end

/-- Two frames. Page `0` is unpinned before page `1`, and is used again; so page `1` makes room for
the next page, although it came later. -/
theorem leastRecentFirst_of_course_two_frames : ∃ (events : List PageId) (w : Backed 2 Disk),
    Course .whole 2 events w ∧
      events = [⟨0, by decide⟩, ⟨1, by decide⟩, ⟨0, by decide⟩] ∧
      w.LeastRecentFirst .whole events ∧ w.shard.free = [] ∧
      w.shard.evictables = [⟨1, by decide⟩, ⟨0, by decide⟩] ∧
      (w.newPage .whole).result = .ok (⟨2, by decide⟩, 1) := by
  have h : Course .whole 2 [] (⟨.fresh .whole 2, .onMedium (.memory .empty)⟩ : Backed 2 Disk) :=
    .start _
  have hnew {events : List PageId} {w : Backed 2 Disk} (h : Course .whole 2 events w) (id : PageId)
      (hnext : w.shard.nextId = some id) (hid : w.shard.table[id]? = none) :
      Course .whole 2 (events ++ w.orderingEvents .whole .newPage) (w.ask .whole .newPage) := by
    refine h.ask .newPage fun {p f} hresult => ?_
    obtain rfl := Option.some.inj (hnext.symm.trans (nextId_of_newPage hresult))
    exact hid
  have h := hnew h ⟨0, by decide⟩ rfl rfl
  have h := hnew h ⟨1, by decide⟩ rfl rfl
  have h := h.ask (.unpin ⟨0, by decide⟩ true) trivial
  have h := h.ask (.unpin ⟨1, by decide⟩ true) trivial
  have h := h.ask (.fetch ⟨0, by decide⟩) trivial
  have h := h.ask (.unpin ⟨0, by decide⟩ false) trivial
  exact ⟨_, _, h, rfl, leastRecentFirst_of_course (Nat.le_refl 2) h, rfl, rfl, rfl⟩

end Backed

/-! ## Histories -/

/-- No page is created that is resident. -/
def Permit.spares (l : Layout) (size : Nat) (δ : Type) [PageStore δ] : Permit l size δ where
  ask i b op := b.Spares (l.stripe i) op
  beside _ _ := True

namespace Client

variable {l : Layout} {c : Client l size}

/-- In a step that takes nothing over the shards evolve without new pages that are resident. -/
theorem evolvesBy_of_noTakeover {log : List Entry} {step : Step} (h : NoTakeover log c step) :
    c.system.EvolvesBy (.spares l size Disk) (c.take step).state.system := by
  refine evolvesBy_take fun scope hscope => ?_
  -- a page that a shard creates is the one that the step creates
  have hspared (hop : c.creation? step = some (c.newHandle scope)) (i : Fin l.width)
      (hnew : ∀ q f, ((c.system.backed i).newPage (l.stripe i)).result = .ok (q, f) →
        (c.newHandle scope).result = .ok ⟨q, i, f⟩) :
      (c.system.backed i).Spares (l.stripe i) .newPage := by
    intro p f hresult
    have habsent := h _ _ hop (hnew p f hresult)
    exact Option.eq_none_iff_forall_not_mem.mpr fun g hg => habsent ⟨i, g, hg⟩
  obtain ⟨shard, op⟩ := step
  cases op with
  | newPage | newGuard => exact hspared (by simp only [creation?, hscope])
  | fetch | fetchGuard | delete => exact fun _ => trivial
  | writeHandle => exact fun _ _ => trivial
  | writeGuard => exact fun _ _ _ => trivial
  | _ => trivial

/-- Whatever a client does to a pool, short of creating a page that is resident, each shard runs its
course. -/
theorem course_of_history {b : Blueprint} {built : AnyPool} (hbuild : b.build = .ok built)
    (hunloaded : b.Unloaded) (disk : Disk) (durable : Option Lsn) {log : List Entry}
    {c : Client built.layout built.size}
    (h : History NoTakeover (built.start disk durable) log c) (i : Fin built.layout.width) :
    ∃ events, Course (built.layout.stripe i) b.capacity events (c.system.backed i) := by
  let P (w : System built.layout built.size Disk) : Prop :=
    ∀ i, ∃ events, Course (built.layout.stripe i) b.capacity events (w.backed i)
  refine h.keeps (P := fun _ c => P c.system) (fun i => ⟨[], ?_⟩) ?_ i
  · show Course _ b.capacity [] ⟨built.pool.shard i, disk⟩
    rw [Blueprint.shard_of_build hbuild hunloaded i]
    exact .start disk
  · intro log c step hc hspared
    refine (evolvesBy_of_noTakeover hspared).keeps (Q := P) ?_ (fun _ _ hw => hw) ?_ hc
    · intro w i op hw hop j
      by_cases hij : i = j
      · subst hij
        obtain ⟨events, hcourse⟩ := hw i
        refine ⟨events ++ (w.backed i).orderingEvents (built.layout.stripe i) op, ?_⟩
        rw [System.ask, System.backed_onShard]
        exact hcourse.ask op hop
      · obtain ⟨events, hcourse⟩ := hw j
        refine ⟨events, ?_⟩
        have hbacked : (w.ask i op).backed j = { w.backed j with disk := (w.ask i op).disk } := by
          rw [System.backed, System.ask, System.shard_onShard, if_neg hij]
          rfl
        rw [hbacked]
        -- to shard `j` it is as if only the disk had changed
        exact hcourse.beside _
    · intro w disk hw _ j
      obtain ⟨events, hcourse⟩ := hw j
      exact ⟨events, hcourse.beside disk⟩

end Client

end PageCache
