import PageCache.Proofs.Client.Coherent
import PageCache.Proofs.Client.Ids
import PageCache.Proofs.Client.Sharding
import PageCache.Proofs.Pool.Written
import PageCache.Proofs.Workload.Deeds

/-!
# Pools that workers work on

`System.Tended` says that a pool is as the deeds of the workers left it while guards are held: it
shows the bytes that the deeds tell, it has given out the ids of the pages that were created, and
its disk does what it is asked to. There is a lemma for each call of a shard, and for each access to
the bytes of a page. The only call that can fail is one for a frame, and what it fails of is that
the shard is full (`Tended.fetch_error`, `Tended.newPageIn_error`).
-/

namespace PageCache

/-! ## Layouts in which every page has a shard -/

namespace Layout.Complete

variable {l : Layout}

/-- A shard that stands alone owns every page. -/
theorem whole_of_alone {s : Stripe} (h : (alone s).Complete) : s.index = 0 ∧ s.count = 1 := by
  have hzero : 0 % s.count = s.index := h ⟨0, by decide⟩
  have hone : 1 % s.count = s.index := h ⟨1, by decide⟩
  rw [Nat.zero_mod] at hzero
  rw [← hzero, Nat.one_mod_eq_zero_iff] at hone
  exact ⟨hzero.symm, hone⟩

theorem index_eq (h : l.Complete) (i : Fin l.width) : (l.stripe i).index = i.val := by
  cases l with
  | alone s => exact h.whole_of_alone.1.trans (Nat.lt_one_iff.mp i.isLt).symm
  | split => rfl

theorem count_eq (h : l.Complete) (i : Fin l.width) : (l.stripe i).count = l.width := by
  cases l with
  | alone s => exact h.whole_of_alone.2
  | split => rfl

end Layout.Complete

/-! ## Answers on a disk that does what it is asked to -/

namespace Backed

variable {size : Nat} {δ : Type} [PageStore δ] {w : Backed size δ} {s : Stripe} {capacity : Nat}
variable {p : PageId} {e : Failure}

/-- A fetch can fail only of a shard that is full. -/
theorem fetch_error_full (h : w.shard.Kept s capacity w.shard.free) (hdisk : Reliable w.disk)
    (howns : s.Owns p)
    (hpins : ∀ {f}, w.shard.table[p]? = some f → (w.shard.frame f).pins < Frame.maxPins)
    (hresult : (w.fetch s p).result = .error e) : e = .storage .poolFull := by
  cases hp : w.shard.table[p]? with
  | some f =>
    rw [fetch, if_pos howns] at hresult
    simp only [hp, pinAgain, if_pos (hpins hp)] at hresult
    exact absurd hresult (by simp)
  | none =>
    by_cases hroom : w.shard.HasRoom
    · obtain ⟨f, hok⟩ := result_fetch h hdisk hroom howns hpins
      exact absurd (hresult.symm.trans hok) (by simp)
    · have hacquire := (h.acquisition.full_iff h).mpr hroom
      have hfull := (fetch_full_iff_acquire howns hp).mpr hacquire
      exact Except.error.inj (hresult.symm.trans hfull)

/-- So can a creation, as long as there are ids. -/
theorem newPage_error_full (h : w.shard.Kept s capacity w.shard.free) (hdisk : Reliable w.disk)
    (hnext : w.shard.nextId = some p) (hresult : (w.newPage s).result = .error e) :
    e = .storage .poolFull := by
  by_contra hne
  have hroom : (w.newPage s).result ≠ .error (.storage .poolFull) := by
    intro hfull
    exact hne (Except.error.inj (hresult.symm.trans hfull))
  obtain ⟨f, hok⟩ := result_newPage h hdisk hnext hroom
  exact absurd (hresult.symm.trans hok) (by simp)

end Backed

/-! ## Pools that workers work on -/

namespace System

open PageCache.Workload

variable {l : Layout} {size : Nat} {δ : Type} [PageStore δ] [LawfulStore δ]

/-- The pool is as the deeds of `past` left it, and the guards of `held` are held. Its disk was
`origin` in the beginning. -/
structure Tended (capacity : Nat) (origin : δ) (w : System l size δ) (held : List (Guard l size))
    (past : List Deed) : Prop where
  kept : w.Kept capacity
  reliable : Reliable w.disk
  /-- Only pages that were created have been written. -/
  served : ServesOnly (· ∈ created past) origin w.disk
  /-- It shows what the deeds tell. -/
  coherent : Coherent w.view held (ledger past)
  unused_iff : ∀ p, w.view.unused p ↔ p ∉ created past
  /-- Each shard has counted its pages. -/
  counted : w.Counted (countIn l past)
  inOrder : InOrder past
  nodup : (created past).Nodup

namespace Tended

variable {capacity : Nat} {origin : δ} {w w' : System l size δ} {held held' : List (Guard l size)}
variable {past : List Deed} {g : Guard l size} {p : PageId} {i : Fin l.width}

theorem perm (h : w.Tended capacity origin held past) (hperm : held.Perm held') :
    w.Tended capacity origin held' past :=
  { h with coherent := h.coherent.perm hperm }

/-- Where the cursor stands is of no concern. -/
theorem withCursor (h : w.Tended capacity origin held past) (cursor : Fin l.width) :
    (w.withCursor cursor).Tended capacity origin held past :=
  ⟨h.kept, h.reliable, h.served, h.coherent, h.unused_iff, h.counted, h.inOrder, h.nodup⟩

/-- A guard tells where its page lies. -/
theorem placed (h : w.Tended capacity origin held past) (hg : g ∈ held) :
    ∃ frame, w.view.slot g.handle.page = some (g.handle.frame, frame) :=
  (h.coherent g.handle.page).placed _ (mem_grips hg)

theorem mem_created_of_slot (h : w.Tended capacity origin held past) {place : Fin size × Frame}
    (hslot : w.view.slot p = some place) : p ∈ created past :=
  (h.coherent p).resident hslot

/-- A page that is still to be created lies nowhere. -/
theorem slot_none (h : w.Tended capacity origin held past) (hp : w.view.unused p) :
    w.view.slot p = none := by
  rw [Option.eq_none_iff_forall_not_mem]
  intro place hslot
  exact (h.unused_iff p).mp hp (h.mem_created_of_slot hslot)

theorem holdsOnly (h : w.Tended capacity origin held past) : w.HoldsOnly (· ∈ created past) := by
  intro i p f hp
  exact h.mem_created_of_slot ((slot_view ((h.kept i).owned hp)).trans (Shard.slot_of_table hp))

/-- There are no more pins on a page than guards. -/
theorem pins_le (h : w.Tended capacity origin held past) {f : Fin size} {frame : Frame}
    (hslot : w.view.slot p = some (f, frame)) : frame.pins ≤ held.length := by
  rw [(h.coherent p).pins hslot]
  show (grips held p).length ≤ held.length
  rw [grips, List.length_map]
  exact List.length_filter_le ..

/-- Shards that make no pages keep their counts. -/
theorem counted_of_counters (h : w.Tended capacity origin held past)
    (hcounters : w'.counters = w.counters) :
    w'.Counted (countIn l past) := by
  intro i
  have hnext : (w'.pool.shard i).nextId = (w.pool.shard i).nextId :=
    congrFun (congrArg Prod.snd hcounters) i
  rw [hnext]
  exact h.counted i

/-! ### Fetching -/

omit [LawfulStore δ] in
theorem counters_fetch (w : System l size δ) (p : PageId) :
    (w.fetch p).state.counters = w.counters :=
  w.counters_ask (l.route p) (o := .fetch p) (by simp)

/-- A fetch gives a guard of the page. -/
theorem fetch_ok (h : w.Tended capacity origin held past) (hp : p ∈ created past)
    {k : Handle l size} (hresult : (w.fetch p).result = .ok k) (access : Access) :
    k.page = p ∧ (l.stripe k.shard).Owns k.page ∧
      (w.fetch p).state.Tended capacity origin (⟨k, access, false⟩ :: held) past := by
  obtain ⟨ms, hruns, hfetched⟩ := fetchIn_runs h.kept (l.route p) p
  have hserved := h.served.trans (servesOnly_fetch h.kept h.holdsOnly p)
  have hcounted := h.counted_of_counters (counters_fetch w p)
  have hresult' : (w.fetchIn (l.route p) p).result = .ok k := hresult
  rw [hresult'] at hfetched
  obtain ⟨rfl, howns, hends⟩ := hfetched
  refine ⟨rfl, howns, hruns.kept, h.reliable.serves hruns.serves, hserved, ?_, ?_, hcounted,
    h.inOrder, h.nodup⟩
  · rcases hends with hpin | hload
    · obtain ⟨quiet, v, hquiet, hpath, hstep⟩ := hruns.path.of_ends hpin
      exact (h.coherent.quiet hquiet hpath).pin (g := ⟨k, access, false⟩) rfl hstep
    · obtain ⟨quiet, v, hquiet, hpath, hstep⟩ := hruns.path.of_ends hload
      exact (h.coherent.quiet hquiet hpath).load (g := ⟨k, access, false⟩) hp rfl hstep
  · intro q
    rw [← h.unused_iff q]
    -- neither a pin nor a load gives an id out
    have hunused {m : Move size} (hends : m.Ends ms)
        (hm : ∀ {v v' : View size}, v.Step m v' → v'.unused = v.unused) :
        (w.fetch k.page).state.view.unused = w.view.unused := by
      obtain ⟨quiet, v, hquiet, hpath, hstep⟩ := hruns.path.of_ends hends
      exact (hm hstep).trans (hpath.unused_of_quiet hquiet)
    rcases hends with hpin | hload
    · rw [hunused hpin fun hstep => by cases hstep; rfl]
    · rw [hunused hload fun hstep => by cases hstep; rfl]

/-- If it gives none, the pool is full. -/
theorem fetch_error (h : w.Tended capacity origin held past) (howns : (l.stripe (l.route p)).Owns p)
    (hfew : held.length < Frame.maxPins) {e : Failure} (hresult : (w.fetch p).result = .error e) :
    e = .storage .poolFull ∧ (w.fetch p).state.Tended capacity origin held past := by
  obtain ⟨ms, hruns, hfetched⟩ := fetchIn_runs h.kept (l.route p) p
  have hserved := h.served.trans (servesOnly_fetch h.kept h.holdsOnly p)
  have hcounted := h.counted_of_counters (counters_fetch w p)
  have hresult' : (w.fetchIn (l.route p) p).result = .error e := hresult
  rw [hresult'] at hfetched
  refine ⟨?_, hruns.kept, h.reliable.serves hruns.serves, hserved,
    h.coherent.quiet hfetched hruns.path, fun q => ?_, hcounted, h.inOrder, h.nodup⟩
  · apply Backed.fetch_error_full (h.kept _) h.reliable howns _
      (Outcome.result_map_eq_error_iff.mp hresult)
    intro f hf
    have hslot := (slot_view howns).trans (Shard.slot_of_table hf)
    exact Nat.lt_of_le_of_lt (h.pins_le hslot) hfew
  · rw [← h.unused_iff q]
    exact Iff.of_eq (congrFun (hruns.path.unused_of_quiet hfetched) q)

/-! ### Creating -/

/-- A shard that gives a page has one page more. -/
theorem newPageIn_ok (h : w.Tended capacity origin held past) {k : Handle l size}
    (hresult : (w.newPageIn i).result = .ok k) (access : Access) :
    k.page ∉ created past ∧ (l.stripe k.shard).Owns k.page ∧ l.route k.page = i ∧
      (w.newPageIn i).state.Tended capacity origin (⟨k, access, false⟩ :: held)
        (.created k.page :: past) := by
  have hunused := unused_of_newPageIn h.kept hresult
  have hnew := (h.unused_iff k.page).mp hunused
  have hspared {k' : Handle l size} (hk' : (w.newPageIn i).result = .ok k') :
      w.view.slot k'.page = none :=
    h.slot_none (unused_of_newPageIn h.kept hk')
  obtain ⟨ms, hruns, hcreated⟩ := newPageIn_runs h.kept i hspared
  rw [hresult] at hcreated
  obtain ⟨howns, hends⟩ := hcreated
  obtain ⟨quiet, v, hquiet, hpath, hstep⟩ := hruns.path.of_ends hends
  -- the shard's own account of the creation
  obtain ⟨⟨p, f⟩, hshard, hk⟩ := Outcome.result_map_eq_ok_iff.mp hresult
  obtain rfl : p = k.page := congrArg Handle.page hk
  obtain rfl : i = k.shard := congrArg Handle.shard hk
  have hroute := Layout.route_eq_of_owns howns
  have hserved := (h.served.trans (servesOnly_newPageIn h.kept h.holdsOnly k.shard)).mono
    fun q hq => List.mem_cons_of_mem k.page hq
  refine ⟨hnew, howns, hroute, hruns.kept, h.reliable.serves hruns.serves, hserved, ?_,
    fun q => ?_, fun j => ?_, h.inOrder.create _, List.nodup_cons.mpr ⟨hnew, h.nodup⟩⟩
  · rw [ledger_created h.inOrder hnew]
    exact (h.coherent.quiet hquiet hpath).create (g := ⟨k, access, false⟩) hnew rfl hstep
  · have hbefore : v.unused q ↔ q ∉ created past := by
      rw [hpath.unused_of_quiet hquiet, h.unused_iff]
    have hafter : (w.newPageIn k.shard).state.view.unused q ↔ v.unused q ∧ q ≠ k.page := by
      generalize (w.newPageIn k.shard).state.view = v' at hstep
      cases hstep with
      | create => exact .rfl
    rw [hafter, hbefore, created_created, List.mem_cons]
    tauto
  · show ((w.onShard k.shard Backed.newPage).state.pool.shard j).nextId = _
    rw [shard_onShard]
    by_cases hj : k.shard = j
    · subst hj
      have hnext := (h.counted k.shard).symm.trans (Backed.nextId_of_newPage hshard)
      rw [if_pos rfl, countIn_created_self past hroute, Backed.nextId_newPage_of_ok hshard]
      exact Stripe.next?_of_nth? hnext
    · rw [if_neg hj, countIn_created_of_ne past (by rw [hroute]; exact hj)]
      exact h.counted j

/-- If it gives none it is full, as long as it has ids, and nothing happens. -/
theorem newPageIn_error (h : w.Tended capacity origin held past) (hcomplete : l.Complete)
    (hids : l.width * ((created past).length + 1) < UInt32.size) {e : Failure}
    (hresult : (w.newPageIn i).result = .error e) :
    e = .storage .poolFull ∧ (w.newPageIn i).state = w := by
  have hfull : e = .storage .poolFull := by
    -- the shard has made no more pages than there are
    have hlt : (l.stripe i).index + countIn l past i * (l.stripe i).count < UInt32.size := by
      have hle : l.width * countIn l past i ≤ l.width * (created past).length :=
        Nat.mul_le_mul_left _ (countIn_le l past i)
      have hindex := i.isLt
      rw [hcomplete.index_eq, hcomplete.count_eq, Nat.mul_comm]
      rw [Nat.mul_add, Nat.mul_one] at hids
      omega
    have hnext : (w.backed i).shard.nextId = some ⟨_, hlt⟩ :=
      (h.counted i).trans (Stripe.nth?_eq_some_iff.mpr rfl)
    exact Backed.newPage_error_full (h.kept i) h.reliable hnext
      (Outcome.result_map_eq_error_iff.mp hresult)
  subst hfull
  exact ⟨rfl, state_newPageIn_of_full hresult⟩

/-! ### Guards -/

/-- A guard shows its page as it was stamped. -/
theorem bytes_eq (h : w.Tended capacity origin held past) (hg : g ∈ held)
    (howns : (l.stripe g.handle.shard).Owns g.handle.page) :
    w.bytes g.handle = .stamps g.handle.page (stampsOn past g.handle.page) := by
  obtain ⟨frame, hslot⟩ := h.placed hg
  rw [bytes_eq_of_slot howns hslot]
  exact h.coherent.bytes_eq (h.mem_created_of_slot hslot) List.not_mem_nil

/-- A page is stamped through a guard. -/
theorem stamp (h : w.Tended capacity origin (g :: held) past)
    (howns : (l.stripe g.handle.shard).Owns g.handle.page) :
    (w.modifyBytes g.handle (Page.stamp g.handle.page)).Tended capacity origin
      ({ g with modified := true } :: held) (.stamped g.handle.page :: past) := by
  obtain ⟨frame, hslot⟩ := h.placed List.mem_cons_self
  have hruns := modifyBytes_runs_of_slot h.kept howns hslot (Page.stamp g.handle.page)
  have hstep := hruns.path.step_of_single
  have hcounters : (w.modifyBytes g.handle (Page.stamp g.handle.page)).counters = w.counters :=
    w.counters_ask g.handle.shard (o := .reach g.handle.frame (Page.stamp g.handle.page)) (by simp)
  refine ⟨hruns.kept, h.reliable.serves hruns.serves, h.served, ?_, fun q => ?_,
    h.counted_of_counters hcounters, h.inOrder.stamp (h.mem_created_of_slot hslot), h.nodup⟩
  · rw [ledger_stamped]
    exact h.coherent.edit _ hstep
  · rw [created_stamped, ← h.unused_iff q]
    generalize (w.modifyBytes g.handle (Page.stamp g.handle.page)).view = v' at hstep
    cases hstep with
    | edit => exact .rfl

/-- A guard is let go of. -/
theorem unpin (h : w.Tended capacity origin (g :: held) past)
    (howns : (l.stripe g.handle.shard).Owns g.handle.page) :
    (w.unpin g.handle.page g.modified).state.Tended capacity origin held past := by
  obtain ⟨frame, hslot⟩ := h.placed List.mem_cons_self
  have hroute := Layout.route_eq_of_owns howns
  rw [← hroute] at howns
  obtain ⟨ms, hruns, hmoved⟩ := unpinIn_runs h.kept (l.route g.handle.page) g.handle.page g.modified
  -- the page is there and the guard has a pin on it
  have hpins : frame.pins ≠ 0 := by
    rw [(h.coherent g.handle.page).pins hslot]
    show (grips (g :: held) g.handle.page).length ≠ 0
    rw [grips_cons_self]
    exact Nat.succ_ne_zero _
  have hslot' := (slot_view howns).symm.trans hslot
  obtain ⟨htable, rfl⟩ := Shard.slot_eq_some_iff.mp hslot'
  have hfound : (w.unpin g.handle.page g.modified).result = .ok true :=
    Backed.result_unpin howns htable hpins g.modified
  have hfound' : (w.onShard (l.route g.handle.page) fun s b =>
      b.unpin s g.handle.page g.modified).result = .ok true := hfound
  rw [hfound'] at hmoved
  obtain rfl : ms = [.unpin g.handle.page g.modified] := hmoved
  have hstep := hruns.path.step_of_single
  have hcounters : (w.unpin g.handle.page g.modified).state.counters = w.counters :=
    w.counters_ask (l.route g.handle.page) (o := .unpin g.handle.page g.modified) (by simp)
  have hserved : ServesOnly (· ∈ created past) origin
      (w.unpin g.handle.page g.modified).state.disk := by
    rw [disk_unpin]
    exact h.served
  refine ⟨hruns.kept, h.reliable.serves hruns.serves, hserved, h.coherent.unpin hstep,
    fun q => ?_, h.counted_of_counters hcounters, h.inOrder, h.nodup⟩
  rw [← h.unused_iff q]
  show (w.onShard (l.route g.handle.page) fun s b =>
    b.unpin s g.handle.page g.modified).state.view.unused q ↔ _
  generalize (w.onShard (l.route g.handle.page) fun s b =>
    b.unpin s g.handle.page g.modified).state.view = v' at hstep
  cases hstep with
  | unpin => exact .rfl

/-! ### Writing everything back -/

/-- When nobody holds a guard, the disk has what every page shows after a flush. -/
theorem contents_flushAll (h : w.Tended capacity origin [] past) (visit : Visit) :
    (w.flushAll visit).result = .ok () ∧
      ServesOnly (· ∈ created past) origin (w.flushAll visit).state.disk ∧
      ∀ p, LawfulStore.contents (w.flushAll visit).state.disk p = .stamps p (stampsOn past p) := by
  have hok := flushShards_of_reliable h.reliable visit (List.finRange l.width)
  obtain ⟨ms, hruns, hquiet, hclean⟩ := flushAll_runs visit h.kept
  refine ⟨hok, h.served.trans (servesOnly_flushShards visit _ h.holdsOnly), fun p => ?_⟩
  have hsound := h.coherent.quiet hquiet hruns.path p
  by_cases hp : p ∈ created past
  · exact hsound.stored_eq rfl (hclean hok p) hp List.not_mem_nil
  · have hnever : stampsOn past p = 0 := by
      rw [stampsOn_eq_zero_iff]
      intro hstamped
      exact hp (h.inOrder p hstamped)
    rw [hnever, Page.stamps_zero]
    exact hsound.pristine hp

end Tended

end System

end PageCache
