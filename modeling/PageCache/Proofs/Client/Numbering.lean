import PageCache.Proofs.Client.Evolves
import PageCache.Proofs.Pool.Build
import PageCache.Proofs.Pool.Creation
import PageCache.Proofs.Shard.Cases
import PageCache.Proofs.Shard.Full
import PageCache.Proofs.Shard.Tracking

/-!
# The numbers of new pages

Each shard counts the ids of its own stripe, and a cursor goes round the shards. As long as no new
page is made anywhere but at the cursor, these counters are one: after `k` calls, in vain or not,
the ids below `k` have been given out, those from `k` on have not, and the cursor stands at the
shard that owns `k` (`System.Numbered`). A call that finds the shard at the cursor full lets another
shard count, and the order is gone for good.
-/

namespace PageCache

/-- Every page has a shard. -/
def Layout.Complete (l : Layout) : Prop :=
  ∀ p, (l.stripe (l.route p)).Owns p

/-- The stripes of a pool split into shards have every page between them. -/
theorem Layout.complete_split {count : Nat} (h : 0 < count) (hle : count ≤ UInt32.size) :
    (split count h hle).Complete :=
  owns_route h hle

/-- A pool that is not split has every page. -/
theorem Layout.complete_whole : (alone .whole).Complete :=
  Stripe.owns_whole

/-! ## What the counters do not depend on -/

namespace Backed

variable {size : Nat} {δ : Type} [PageStore δ]

/-- A page that is fetched was numbered before, if it ever was. -/
theorem nextId_fetch (s : Stripe) (w : Backed size δ) (p : PageId) :
    (w.fetch s p).state.shard.nextId = w.shard.nextId := by
  rw [fetch]
  split
  swap
  · rfl
  split
  · rw [pinAgain]
    split
    · simp only [Shard.untrack_fst]
      rfl
    · rfl
  · have hsearched := w.search.nextId_eq
    refine Outcome.state_andThen (P := fun w' : Backed size δ =>
      w'.shard.nextId = w.shard.nextId) hsearched fun f _ => ?_
    rw [load]
    simp only
    split <;> exact hsearched

omit [PageStore δ] in
/-- An unpin numbers no pages. -/
theorem nextId_unpin (s : Stripe) (w : Backed size δ) (p : PageId) (dirty : Bool) :
    (w.unpin s p dirty).state.shard.nextId = w.shard.nextId := by
  have hunpin := w.unpin_cases s p dirty
  generalize (w.unpin s p dirty).result = r, (w.unpin s p dirty).state = w' at hunpin
  cases hunpin <;> rfl

/-- The id of a page that is deleted is not given out again, and no other is. -/
theorem nextId_delete (s : Stripe) (w : Backed size δ) (p : PageId) :
    (w.delete s p).state.shard.nextId = w.shard.nextId := by
  rw [delete]
  split
  swap
  · rfl
  simp only [Outcome.state_after, discard]
  split
  · rfl
  split
  · rfl
  · simp only [Shard.untrack_fst]
    rfl

/-- Only a new page moves the counter of a shard. -/
theorem nextId_ask (s : Stripe) (w : Backed size δ) {op : ShardOp size} (hop : op ≠ .newPage) :
    (w.ask s op).shard.nextId = w.shard.nextId := by
  cases op with
  | fetch p => exact nextId_fetch s w p
  | newPage => exact absurd rfl hop
  | unpin p dirty => exact nextId_unpin s w p dirty
  | delete p => exact nextId_delete s w p
  | flush p => exact (sameButFlags_flush s w p).nextId
  | flushAll visit => exact (sameButFlags_flushAll visit w).nextId
  | reach f g => rfl

end Backed

namespace System

variable {l : Layout} {size : Nat} {δ : Type} {w w' : System l size δ} {i : Fin l.width}

/-- All that new pages are numbered by. -/
def counters (w : System l size δ) : Fin l.width × (Fin l.width → Option PageId) :=
  (w.pool.cursor, fun i => (w.pool.shard i).nextId)

variable [PageStore δ]

/-- A question to one shard, other than for a new page, moves no counter and not the cursor. -/
theorem counters_ask (w : System l size δ) (i : Fin l.width) {o : ShardOp size}
    (ho : o ≠ .newPage) : (w.ask i o).counters = w.counters := by
  refine Prod.ext rfl (funext fun j => ?_)
  show ((w.ask i o).pool.shard j).nextId = _
  rw [ask, shard_onShard]
  split
  · next hij => exact hij ▸ Backed.nextId_ask (l.stripe i) (w.backed i) ho
  · rfl

/-- Flushing shard by shard moves none. -/
theorem counters_flushShards (visit : Visit) (shards : List (Fin l.width)) (w : System l size δ) :
    (flushShards visit shards w).state.counters = w.counters := by
  -- over the shards that are still to be flushed
  induction shards generalizing w with
  | nil => rfl
  | cons i rest ih =>
    have hin : (w.onShard i fun _ b => b.flushAll visit).state.counters = w.counters :=
      w.counters_ask i (o := .flushAll visit) (by simp)
    exact Outcome.state_andThen (P := fun w' : System l size δ => w'.counters = w.counters) hin
      fun _ _ => (ih _).trans hin

end System

namespace Client

variable {l : Layout} {size : Nat} {c : Client l size}

/-- A guard that is let go takes a pin off, no more. -/
theorem counters_release (c : Client l size) (g : Guard l size) :
    (c.release g).state.system.counters = c.system.counters := by
  rw [state_release]
  exact c.system.counters_ask (l.route g.handle.page) (o := .unpin g.handle.page g.modified)
    (by simp)

/-- A guard under a name lets the guard go that was held under it. -/
theorem counters_hold (c : Client l size) (name : String) (g : Guard l size) :
    (c.hold name g).state.system.counters = c.system.counters := by
  rw [hold]
  split
  · rfl
  · exact counters_release { c with guards := c.guards.insert name g } _

/-- Of all that a client can do, only a new page moves the counters. -/
theorem counters_perform (c : Client l size) (scope : Scope l) {op : Op}
    (hpage : ∀ name, op ≠ .newPage name) (hguard : ∀ name, op ≠ .newGuard name) :
    (c.perform scope op).state.system.counters = c.system.counters := by
  have hask (i : Fin l.width) {o : ShardOp size} (ho : o ≠ .newPage) :
      (c.system.ask i o).counters = c.system.counters :=
    c.system.counters_ask i ho
  have hfetch (p : PageId) :
      (c.fetchHandle scope p).state.system.counters = c.system.counters := by
    cases scope with
    | whole => exact hask (l.route p) (o := .fetch p) (by simp)
    | only i => exact hask i (o := .fetch p) (by simp)
  -- a call through the pool asks the shard of its page, a direct one the shard it is made on: one
  -- shard either way, and `hask` has it
  cases op with
  | newPage name => exact absurd rfl (hpage name)
  | newGuard name => exact absurd rfl (hguard name)
  | fetch p name =>
    exact Outcome.state_andThen
      (P := fun c' : Client l size => c'.system.counters = c.system.counters) (hfetch p)
      fun _ _ => hfetch p
  | fetchGuard access p name =>
    exact Outcome.state_andThen
      (P := fun c' : Client l size => c'.system.counters = c.system.counters) (hfetch p)
      fun _ _ => (counters_hold ..).trans (hfetch p)
  | unpin p dirty =>
    cases scope with
    | whole => exact hask (l.route p) (o := .unpin p dirty) (by simp)
    | only i => exact hask i (o := .unpin p dirty) (by simp)
  | delete p =>
    cases scope with
    | whole => exact hask (l.route p) (o := .delete p) (by simp)
    | only i => exact hask i (o := .delete p) (by simp)
  | flush p =>
    cases scope with
    | whole => exact hask (l.route p) (o := .flush p) (by simp)
    | only i => exact hask i (o := .flush p) (by simp)
  | flushAll visit =>
    cases scope with
    | whole => exact System.counters_flushShards visit (List.finRange l.width) c.system
    | only i => exact hask i (o := .flushAll visit) (by simp)
  | dropGuard name =>
    rw [perform, dropGuard]
    split
    · rfl
    · exact counters_release { c with guards := c.guards.erase name } _
  | writeHandle name edits =>
    rw [perform]
    split
    · rfl
    · next h _ => exact hask h.shard (o := .reach h.frame (Page.edit edits)) (by simp)
  | writeGuard name edits =>
    rw [perform]
    split
    · rfl
    · next g _ =>
      split
      · rfl
      · exact hask g.handle.shard (o := .reach g.handle.frame (Page.edit edits)) (by simp)
  | readHandle | tellHandle | readGuard =>
    rw [perform]
    split <;> rfl
  | disk | capacity | shardCount | shardFacts | pins => rfl

end Client

/-- Where a frame is to be had and the disk does what it is asked to, a page is made under the next
id. -/
theorem Backed.result_newPage {size : Nat} {δ : Type} [PageStore δ] {w : Backed size δ} {s : Stripe}
    {capacity : Nat} {p : PageId} (h : w.shard.Kept s capacity w.shard.free)
    (hdisk : Reliable w.disk) (hnext : w.shard.nextId = some p)
    (hroom : (w.newPage s).result ≠ .error (.storage .poolFull)) :
    ∃ f, (w.newPage s).result = .ok (p, f) := by
  have hfound : w.acquire.result ≠ .error (.storage .poolFull) := fun hfull =>
    hroom ((newPage_full_iff_acquire (hnext ▸ Option.some_ne_none p)).mpr hfull)
  obtain ⟨f, hf⟩ := h.acquisition.result_ok h hdisk
    (not_not.mp fun hnone => hfound ((h.acquisition.full_iff h).mpr hnone))
  exact ⟨f, (newPage_of_ok hnext hf (h.next_owned hnext)).1⟩

/-! ## One counter -/

/-- The `k`th page, if there are as many ids. -/
def PageId.nth (k : Nat) : Except Failure PageId :=
  match PageId.ofNat? k with
  | some p => .ok p
  | none => .error (.storage .idsExhausted)

namespace System

variable {l : Layout} {size : Nat} {δ : Type} [PageStore δ] [LawfulStore δ]
variable {w w' : System l size δ} {i : Fin l.width} {k capacity : Nat}

/-- Ids were given out in order, those below `k`, and the cursor stands where `k` belongs. -/
structure Numbered (w : System l size δ) (k : Nat) : Prop where
  unused_iff : ∀ p, w.view.unused p ↔ k ≤ p.val
  cursor_eq : w.pool.cursor.val = k % l.width

namespace Numbered

/-- As far as numbers go, only the counters matter. -/
theorem of_counters (h : w.Numbered k) (hcounters : w'.counters = w.counters) : w'.Numbered k where
  unused_iff p := by
    have hnext := congrFun (congrArg Prod.snd hcounters) (l.route p)
    have hnext : (w'.pool.shard (l.route p)).nextId = (w.pool.shard (l.route p)).nextId := hnext
    rw [← h.unused_iff p]
    show (_ ∧ Shard.Unused _ p) ↔ (_ ∧ Shard.Unused _ p)
    rw [Shard.Unused, Shard.Unused, hnext]
  cursor_eq := by
    have hcursor : w'.pool.cursor = w.pool.cursor := congrArg Prod.fst hcounters
    rw [hcursor]
    exact h.cursor_eq

/-- The next id of a shard is still to be given out. -/
theorem le_of_nextId (h : w.Numbered k) (hkept : w.Kept capacity) {n : PageId}
    (hn : (w.pool.shard i).nextId = some n) : k ≤ n.val := by
  have howns := (hkept i).next_owned hn
  obtain rfl := Layout.route_eq_of_owns howns
  exact (h.unused_iff n).mp ⟨howns, n, hn, Nat.le_refl _⟩

/-- The `k`th page belongs to the shard at the cursor. -/
theorem route_eq (h : w.Numbered k) {p : PageId} (hp : p.val = k) :
    l.route p = w.pool.cursor := by
  apply Fin.ext
  rw [h.cursor_eq, ← hp]
  rfl

/-- The shard at the cursor counts for all of them. -/
theorem nextId_cursor (h : w.Numbered k) (hkept : w.Kept capacity) :
    (w.pool.shard w.pool.cursor).nextId = PageId.ofNat? k := by
  cases hk : PageId.ofNat? k with
  | none =>
    rw [PageId.ofNat?_eq_none_iff] at hk
    rw [Option.eq_none_iff_forall_not_mem]
    intro n hn
    have hle := h.le_of_nextId hkept hn
    exact absurd n.isLt (by omega)
  | some p =>
    rw [PageId.ofNat?_eq_some_iff] at hk
    obtain ⟨-, n, hn, hle⟩ := (h.unused_iff p).mpr (Nat.le_of_eq hk.symm)
    rw [h.route_eq hk] at hn
    -- no id below `p` is left, and the shard has `p` left
    have hge := h.le_of_nextId hkept hn
    rw [hn]
    exact congrArg some (PageId.ext (by omega))

/-- Without an id there is nothing to look for a frame for. -/
theorem not_full_of_exhausted (h : w.Numbered k) (hkept : w.Kept capacity)
    (hk : PageId.ofNat? k = none) : ¬ w.Full w.pool.cursor := by
  have hnext : (w.backed w.pool.cursor).shard.nextId = none := (h.nextId_cursor hkept).trans hk
  rw [full_iff, Backed.newPage, hnext]
  simp

/-- On a disk that does what it is asked to, the shard at the cursor gives the `k`th page if it is
not full. -/
theorem result_of_not_full (h : w.Numbered k) (hkept : w.Kept capacity) (hdisk : Reliable w.disk)
    (hroom : ¬ w.Full w.pool.cursor) :
    w.newPage.result.map Handle.page = PageId.nth k := by
  have hnext : (w.backed w.pool.cursor).shard.nextId = PageId.ofNat? k := h.nextId_cursor hkept
  rw [(newPage_of_decides (decides_cursor hroom)).1, result_newPageIn]
  -- an id that is left comes with a frame, for the shard is not full; without one the pool says so
  cases hk : PageId.ofNat? k with
  | none =>
    rw [hk] at hnext
    simp only [Backed.newPage, hnext, PageId.nth, hk]
    rfl
  | some p =>
    rw [hk] at hnext
    obtain ⟨f, hf⟩ := Backed.result_newPage (s := l.stripe w.pool.cursor) (hkept w.pool.cursor)
      hdisk hnext fun hfull => hroom (full_iff.mpr hfull)
    rw [hf, PageId.nth, hk]
    rfl

/-- If the shard at the cursor is full, whatever page there is comes from elsewhere, and is not the
`k`th. -/
theorem result_of_full (h : w.Numbered k) (hkept : w.Kept capacity) (hfull : w.Full w.pool.cursor)
    (hresult : w.newPage.result ≠ .error (.storage .poolFull)) :
    w.newPage.result.map Handle.page ≠ PageId.nth k := by
  cases hk : PageId.ofNat? k with
  | none => exact absurd hfull (h.not_full_of_exhausted hkept hk)
  | some p =>
    obtain hall | ⟨i, hi⟩ := w.full_or_decides
    · exact absurd (newPage_of_full hall).1 hresult
    obtain ⟨_, _, -, -, hroom⟩ := id hi
    rw [(newPage_of_decides hi).1, result_newPageIn, PageId.nth, hk]
    intro hpage
    cases hnew : ((w.backed i).newPage (l.stripe i)).result with
    | error e => rw [hnew] at hpage; exact absurd hpage (by simp [Except.map])
    | ok placed =>
      rw [hnew] at hpage
      obtain rfl : placed.1 = p := Except.ok.inj hpage
      -- the page belongs to the shard that decided, and the `k`th to the one at the cursor
      have howns := (hkept i).next_owned (Backed.nextId_of_newPage hnew)
      have hroute := h.route_eq (PageId.ofNat?_eq_some_iff.mp hk)
      rw [Layout.route_eq_of_owns howns] at hroute
      exact hroom (hroute ▸ hfull)

/-- The `k`th page comes from the cursor, and from nowhere else. -/
theorem not_full_iff (h : w.Numbered k) (hkept : w.Kept capacity) (hdisk : Reliable w.disk)
    (hresult : w.newPage.result ≠ .error (.storage .poolFull)) :
    ¬ w.Full w.pool.cursor ↔ w.newPage.result.map Handle.page = PageId.nth k :=
  ⟨h.result_of_not_full hkept hdisk, fun hpage hfull => h.result_of_full hkept hfull hresult hpage⟩

/-- A call that does not pass over a full shard counts one page further, made or not. -/
theorem next (h : w.Numbered k) (hkept : w.Kept capacity) (hdisk : Reliable w.disk)
    (hspared : ∀ {k : Handle l size}, w.newPage.result = .ok k → w.view.slot k.page = none)
    (hroom : ¬ w.Full w.pool.cursor) : w.newPage.state.Numbered (k + 1) where
  unused_iff q := by
    obtain ⟨ms, hruns, hcreated⟩ := newPage_runs hkept hspared
    have hpage := h.result_of_not_full hkept hdisk hroom
    -- a page that was made took the id `k`; where none was made there is no id `k` at all, nor one
    -- above
    cases hresult : w.newPage.result with
    | error e =>
      rw [hresult] at hcreated hpage
      rw [hruns.path.unused_of_quiet hcreated, h.unused_iff]
      -- there was no id left
      cases hk : PageId.ofNat? k with
      | none =>
        rw [PageId.ofNat?_eq_none_iff] at hk
        have := q.isLt
        omega
      | some p =>
        rw [PageId.nth, hk] at hpage
        exact absurd hpage (by simp [Except.map])
    | ok made =>
      rw [hresult] at hcreated hpage
      have hmade : made.page.val = k := by
        rw [PageId.nth] at hpage
        split at hpage
        · next p hk => exact Except.ok.inj hpage ▸ PageId.ofNat?_eq_some_iff.mp hk
        · exact absurd hpage (by simp [Except.map])
      obtain ⟨quiet, v, hquiet, hpath, hstep⟩ := hruns.path.of_ends hcreated.2
      have hbefore : v.unused q ↔ k ≤ q.val := by
        rw [hpath.unused_of_quiet hquiet, h.unused_iff]
      have hafter : w.newPage.state.view.unused q ↔ v.unused q ∧ q ≠ made.page := by
        generalize w.newPage.state.view = v' at hstep
        cases hstep with
        | create => exact .rfl
      rw [hafter, hbefore, ne_eq, PageId.ext_iff, hmade]
      omega
  cursor_eq := by
    rw [(newPage_of_decides (decides_cursor hroom)).2]
    show (w.pool.cursor.val + 1) % l.width = _
    rw [h.cursor_eq, Nat.mod_add_mod]

/-- A pool that was just built has given out nothing. -/
theorem of_build {b : Blueprint} {built : AnyPool} (hbuild : b.build = .ok built)
    (hunloaded : b.Unloaded) (hcomplete : built.layout.Complete) (disk : Disk) :
    (⟨built.pool, disk⟩ : System built.layout built.size Disk).Numbered 0 where
  unused_iff p := by
    refine iff_of_true ⟨hcomplete p, ?_⟩ (Nat.zero_le _)
    rw [Blueprint.shard_of_build hbuild hunloaded]
    -- the first id of a stripe is the remainder of all of them
    let s := built.layout.stripe (built.layout.route p)
    have hfirst : p.val % s.count = s.first.val := hcomplete p
    exact ⟨s.first, rfl, hfirst ▸ Nat.mod_le ..⟩
  cursor_eq := by
    show built.pool.cursor.val = _
    rw [Blueprint.cursor_of_build hbuild hunloaded]
    exact (Nat.zero_mod _).symm

end Numbered

end System

end PageCache
