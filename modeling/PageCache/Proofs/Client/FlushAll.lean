import Mathlib.Data.List.Sort
import PageCache.Proofs.Client.Placed
import PageCache.Proofs.Shard.FlushAll

/-!
# What a flush of all pages comes to

In every state a client can bring a pool to, and whatever pages the disk refuses to write then, a
flush of a shard stores all its dirty pages or fails at one that is stuck, and leaves the rest as it
was (`Backed.FlushesAll`). A flush of the pool does so shard by shard, and does not get beyond the
shard in which it fails (`System.FlushesAll`). All it takes is that resident pages have frames of
their own, and pages of a shard no other shard has; both survive everything, a new page under an id
that is resident too. `Client.flushAll_of_history` is the statement.
-/

namespace PageCache

namespace Backed

variable {size : Nat} {s : Stripe}

/-- What a flush of all pages of a shard comes to, visiting them as `visit` tells. -/
structure FlushesAll (w : Backed size Disk) (visit : Visit) : Prop where
  ok_iff : (w.flushAll visit).result = .ok () ↔ ∀ p, ¬ w.Stuck p
  /-- Only dirty pages are written, each at most once, whether or not the flush gets to its end. -/
  written : w.disk.Written w.Unsaved (w.flushAll visit).state.disk
  flushed : (w.flushAll visit).result = .ok () → w.Flushed (w.flushAll visit).state ∧
    ∀ visit', (w.flushAll visit').state = (w.flushAll visit).state
  failed : ∀ {e}, (w.flushAll visit).result = .error e →
    e = .storage (.io .writeFault) ∧ w.PartlyFlushed (w.flushAll visit).state

/-- A flush of a shard whose pages have frames of their own does so, in whatever order it visits
them. -/
theorem flushesAll {w : Backed size Disk} (h : w.shard.Placed False w.shard.free) (visit : Visit) :
    w.FlushesAll visit := by
  obtain ⟨hwritten, ⟨hfree, hresult, hflushed, hstate⟩ | ⟨⟨p, hstuck⟩, hresult, hpartly⟩⟩ :=
    flushAll_faulty h visit
  · refine ⟨iff_of_true hresult hfree, hwritten, fun _ => ⟨hflushed, fun visit' => ?_⟩, ?_⟩
    · obtain ⟨-, ⟨-, -, -, hstate'⟩ | ⟨⟨p, hstuck⟩, -⟩⟩ := flushAll_faulty h visit'
      · rw [hstate, hstate']
      · -- no page is stuck, whatever the order
        exact absurd hstuck (hfree p)
    · intro e he
      exact absurd (hresult.symm.trans he) (by simp)
  · refine ⟨iff_of_false ?_ fun hfree => hfree p hstuck, hwritten, fun hok => ?_, fun he => ?_⟩
    · simp [hresult]
    · exact absurd (hresult.symm.trans hok) (by simp)
    · exact ⟨(Except.error.inj (hresult.symm.trans he)).symm, hpartly⟩

/-! ## A shard among others -/

variable {w w₁ w' : Backed size Disk}

/-- The shard is the same, and so is what the disk has of its pages and would refuse of them. -/
structure Unmoved (s : Stripe) (w w' : Backed size Disk) : Prop where
  shard : w'.shard = w.shard
  faults : w'.disk.faults = w.disk.faults
  contents : ∀ {p}, s.Owns p → w'.disk.contents p = w.disk.contents p

/-- A shard that nothing happened to has the same dirty pages. -/
theorem Unmoved.unsaved_iff (h : Unmoved s w w') {p : PageId} {bytes : Page} :
    w'.Unsaved p bytes ↔ w.Unsaved p bytes := by
  rw [Unsaved, Unsaved, h.shard]

/-- Of a shard that nothing happened to the disk refuses the same pages. -/
theorem Unmoved.stuck_iff (h : Unmoved s w w') {p : PageId} : w'.Stuck p ↔ w.Stuck p := by
  rw [Stuck, Stuck, h.shard, h.faults]

/-- The dirty pages of a shard are of its stripe. -/
theorem owns_of_unsaved (h : w.shard.Confined s.Owns) {p : PageId} {bytes : Page}
    (hp : w.Unsaved p bytes) : s.Owns p := by
  obtain ⟨f, hf, -⟩ := hp
  exact h.table (Shard.unsaved?_eq_some_iff.mp hf).1

/-- What was flushed after nothing had happened to the shard was flushed. -/
theorem Flushed.of_unmoved (h : Unmoved s w w₁) (hflushed : w₁.Flushed w') : w.Flushed w' :=
  ⟨h.shard ▸ hflushed.same, fun hp => hflushed.stored (h.unsaved_iff.mpr hp)⟩

/-- What was flushed stays so while nothing happens to the shard. -/
theorem Flushed.unmoved (hconfined : w.shard.Confined s.Owns) (hflushed : w.Flushed w₁)
    (h : Unmoved s w₁ w') : w.Flushed w' := by
  refine ⟨h.shard ▸ hflushed.same, fun hp => ?_⟩
  obtain ⟨f, hf, hclean, hbytes, hcontents⟩ := hflushed.stored hp
  rw [Stored, h.shard]
  exact ⟨f, hf, hclean, hbytes, (h.contents (owns_of_unsaved hconfined hp)).trans hcontents⟩

/-- What was flushed in part after nothing had happened to the shard was flushed in part. -/
theorem PartlyFlushed.of_unmoved (hconfined : w.shard.Confined s.Owns)
    (h : Unmoved s w w₁) (hpartly : w₁.PartlyFlushed w') : w.PartlyFlushed w' := by
  refine ⟨h.shard ▸ hpartly.same, fun hp => ?_, hpartly.stuck⟩
  have howns := owns_of_unsaved hconfined hp
  exact (hpartly.stored_or (h.unsaved_iff.mpr hp)).imp_right fun ⟨hleft, hcontents⟩ =>
    ⟨hleft, hcontents.trans (h.contents howns)⟩

end Backed

/-! ## Pools -/

namespace System

variable {l : Layout} {size : Nat}

/-- A page that is dirty in one of `shards`, and its bytes. -/
def UnsavedAmong (w : System l size Disk) (shards : List (Fin l.width)) (p : PageId)
    (bytes : Page) : Prop :=
  ∃ i ∈ shards, (w.backed i).Unsaved p bytes

/-- What a flush of all pages of a pool comes to, visiting those of each shard as `visit` tells. -/
structure FlushesAll (w : System l size Disk) (visit : Visit) : Prop where
  ok_iff : (w.flushAll visit).result = .ok () ↔ ∀ i p, ¬ (w.backed i).Stuck p
  /-- Only dirty pages are written, each at most once. -/
  written : w.disk.Written (fun p bytes => ∃ i, (w.backed i).Unsaved p bytes)
    (w.flushAll visit).state.disk
  cursor : (w.flushAll visit).state.pool.cursor = w.pool.cursor
  flushed : (w.flushAll visit).result = .ok () →
    (∀ i, (w.backed i).Flushed ((w.flushAll visit).state.backed i)) ∧
      ∀ visit', (w.flushAll visit').state = (w.flushAll visit).state
  failed : ∀ {e}, (w.flushAll visit).result = .error e → e = .storage (.io .writeFault) ∧ ∃ i,
    (∀ j < i, (w.backed j).Flushed ((w.flushAll visit).state.backed j)) ∧
      (w.backed i).PartlyFlushed ((w.flushAll visit).state.backed i) ∧
      ∀ j > i, Backed.Unmoved (l.stripe j) (w.backed j) ((w.flushAll visit).state.backed j)

variable {w w' : System l size Disk} {i j : Fin l.width} {shards : List (Fin l.width)}

/-- The pages of one shard are dirty in no other. -/
theorem not_unsaved_of_ne (h : w.Placed) (hij : i ≠ j) {p : PageId} (hp : (l.stripe j).Owns p)
    (bytes : Page) : ¬ (w.backed i).Unsaved p bytes := by
  intro hunsaved
  have howns := Backed.owns_of_unsaved (h.confined i) hunsaved
  exact hij (Layout.eq_of_owns howns hp)

/-- Shards of a list were flushed, and nothing else happened to the pool. -/
structure FlushesOnly (w : System l size Disk) (shards : List (Fin l.width))
    (w' : System l size Disk) : Prop where
  cursor : w'.pool.cursor = w.pool.cursor
  shard : ∀ {j}, j ∉ shards → w'.pool.shard j = w.pool.shard j
  written : w.disk.Written (w.UnsavedAmong shards) w'.disk

namespace FlushesOnly

/-- Where no shard is flushed, nothing happens. -/
theorem nil (w : System l size Disk) : w.FlushesOnly [] w :=
  ⟨rfl, fun _ => rfl, .refl ..⟩

/-- The shards that were not flushed do not notice. -/
theorem unmoved (honly : w.FlushesOnly shards w') (h : w.Placed) (hj : j ∉ shards) :
    Backed.Unmoved (l.stripe j) (w.backed j) (w'.backed j) where
  shard := honly.shard hj
  faults := honly.written.faults
  contents {p} hp := by
    apply honly.written.contents_of_not
    rintro bytes ⟨i, hi, hunsaved⟩
    have hij : i ≠ j := by
      rintro rfl
      exact hj hi
    exact not_unsaved_of_ne h hij hp bytes hunsaved

/-- A shard is flushed, and then others are: together no page is written twice. -/
theorem cons {w₁ : System l size Disk} (hfirst : w.FlushesOnly [i] w₁)
    (honly : w₁.FlushesOnly shards w') (h : w.Placed) (hi : i ∉ shards) :
    w.FlushesOnly (i :: shards) w' where
  cursor := honly.cursor.trans hfirst.cursor
  shard {j} hj := by
    obtain ⟨hji, hj⟩ := not_or.mp (mt List.mem_cons.mpr hj)
    exact (honly.shard hj).trans (hfirst.shard fun hmem => hji (List.mem_singleton.mp hmem))
  written := by
    -- what is dirty in the shards after the first was so from the start
    have hsame {j : Fin l.width} (hj : j ∈ shards) (p : PageId) (bytes : Page) :
        (w₁.backed j).Unsaved p bytes ↔ (w.backed j).Unsaved p bytes := by
      have hji : j ∉ [i] := fun hmem => hi (List.mem_singleton.mp hmem ▸ hj)
      exact (hfirst.unmoved h hji).unsaved_iff
    have hboth := hfirst.written.append honly.written ?_
    · refine hboth.mono ?_
      rintro p bytes (⟨j, hj, hunsaved⟩ | ⟨j, hj, hunsaved⟩)
      · exact ⟨j, List.mem_singleton.mp hj ▸ List.mem_cons_self, hunsaved⟩
      · exact ⟨j, List.mem_cons_of_mem i hj, (hsame hj p bytes).mp hunsaved⟩
    · rintro p bytes bytes' ⟨k, hk, hunsaved⟩ ⟨j, hj, hunsaved'⟩
      obtain rfl := List.mem_singleton.mp hk
      have hkj : k ≠ j := by
        rintro rfl
        exact hi hj
      have howns := Backed.owns_of_unsaved (h.confined j) ((hsame hj p bytes').mp hunsaved')
      exact not_unsaved_of_ne h hkj howns bytes hunsaved

end FlushesOnly

/-- How the flush of one shard after the other ends. -/
inductive FlushEnds (w : System l size Disk) (shards : List (Fin l.width)) :
    Except Failure Unit → System l size Disk → Prop
  | all {w' : System l size Disk} (honly : w.FlushesOnly shards w')
      (hfree : ∀ j ∈ shards, ∀ p, ¬ (w.backed j).Stuck p)
      (hflushed : ∀ j ∈ shards, (w.backed j).Flushed (w'.backed j)) : FlushEnds w shards (.ok ()) w'
  | stuck (done : List (Fin l.width)) {rest : List (Fin l.width)} {i : Fin l.width}
      {w' : System l size Disk}
      (hsplit : shards = done ++ i :: rest) (honly : w.FlushesOnly (done ++ [i]) w')
      (hflushed : ∀ j ∈ done, (w.backed j).Flushed (w'.backed j))
      (hstuck : ∃ p, (w.backed i).Stuck p) (hpartly : (w.backed i).PartlyFlushed (w'.backed i)) :
      FlushEnds w shards (.error (.storage (.io .writeFault))) w'

/-- A shard is flushed, and then the others are: those have not noticed the first flush, and the
first shard does not notice what becomes of them. -/
theorem FlushEnds.cons {w₁ : System l size Disk} {r : Except Failure Unit} (h : w.Placed)
    (h₁ : w₁.Placed) (hi : i ∉ shards) (hfirst : w.FlushesOnly [i] w₁)
    (hfree : ∀ p, ¬ (w.backed i).Stuck p) (hflushed : (w.backed i).Flushed (w₁.backed i))
    (hends : FlushEnds w₁ shards r w') : FlushEnds w (i :: shards) r w' := by
  have hmoved {j : Fin l.width} (hj : j ∈ shards) :
      Backed.Unmoved (l.stripe j) (w.backed j) (w₁.backed j) :=
    hfirst.unmoved h fun hmem => hi (List.mem_singleton.mp hmem ▸ hj)
  cases hends with
  | all honly hfree' hflushed' =>
    refine .all (hfirst.cons honly h hi) ?_ ?_
    · rintro j (_ | ⟨_, hj⟩)
      · exact hfree
      · exact fun p hstuck => hfree' j hj p ((hmoved hj).stuck_iff.mpr hstuck)
    · rintro j (_ | ⟨_, hj⟩)
      · exact hflushed.unmoved (h.confined i) (honly.unmoved h₁ hi)
      · exact .of_unmoved (hmoved hj) (hflushed' j hj)
  | @stuck done rest k _ hsplit honly hflushed' hstuck hpartly =>
    -- the flush of the rest came as far as shard `k`
    have hreached {j : Fin l.width} (hj : j ∈ done ++ [k]) : j ∈ shards := by
      rw [hsplit, List.append_cons]
      exact List.mem_append_left rest hj
    have hk : k ∈ shards := hreached (List.mem_append_right done (List.mem_singleton_self k))
    have hi' : i ∉ done ++ [k] := fun hmem => hi (hreached hmem)
    refine .stuck (i :: done) (congrArg (i :: ·) hsplit) (hfirst.cons honly h hi') ?_ ?_
      (.of_unmoved (h.confined k) (hmoved hk) hpartly)
    · rintro j (_ | ⟨_, hj⟩)
      · exact hflushed.unmoved (h.confined i) (honly.unmoved h₁ hi')
      · exact .of_unmoved (hmoved (hreached (List.mem_append_left [k] hj))) (hflushed' j hj)
    · exact hstuck.imp fun p hp => (hmoved hk).stuck_iff.mp hp

/-- A flush of one shard writes dirty pages of that shard only. -/
theorem flushesOnly_single (h : w.Placed) (i : Fin l.width) (visit : Visit) :
    w.FlushesOnly [i] (w.onShard i fun _ b => b.flushAll visit).state where
  cursor := rfl
  shard {j} hj := by
    rw [shard_onShard, if_neg fun hij => hj (List.mem_singleton.mpr hij.symm)]
  written := (Backed.flushAll_faulty (h.shard i) visit).1.mono fun _ _ hunsaved =>
    ⟨i, List.mem_singleton_self i, hunsaved⟩

/-- Flushing one shard after the other ends with all of them flushed, or at one that has a page
stuck. -/
theorem flushShards_ends (h : w.Placed) (visit : Visit) (hshards : shards.Nodup) :
    FlushEnds w shards (flushShards visit shards w).result
      (flushShards visit shards w).state := by
  induction shards generalizing w with
  | nil => exact .all (.nil w) (List.forall_mem_nil _) (List.forall_mem_nil _)
  | cons i rest ih =>
    obtain ⟨hi, hrest⟩ := List.nodup_cons.mp hshards
    have hfirst := flushesOnly_single h i visit
    have hplaced := h.ask i (.flushAll visit)
    have hbacked := w.backed_onShard i fun _ b => b.flushAll visit
    rw [flushShards]
    obtain ⟨-, ⟨hfree, hresult, hflushed, -⟩ | ⟨hstuck, hresult, hpartly⟩⟩ :=
      Backed.flushAll_faulty (w := w.backed i) (h.shard i) visit
    · have hok : (w.onShard i fun _ b => b.flushAll visit).result = .ok () := hresult
      rw [Outcome.andThen_of_ok hok]
      exact (ih hplaced hrest).cons h hplaced hi hfirst hfree (hbacked ▸ hflushed)
    · -- the flush ends here, and the rest of the shards are not asked
      have herror : (w.onShard i fun _ b => b.flushAll visit).result =
          .error (.storage (.io .writeFault)) := hresult
      rw [Outcome.andThen_of_error herror]
      exact .stuck [] rfl hfirst (List.forall_mem_nil _) hstuck (hbacked ▸ hpartly)

/-- Where no page is stuck, the order in which the pages of a shard are visited does not matter. -/
theorem flushShards_visit (h : w.Placed) (hfree : ∀ i ∈ shards, ∀ p, ¬ (w.backed i).Stuck p)
    (hshards : shards.Nodup) (visit visit' : Visit) :
    (flushShards visit' shards w).state = (flushShards visit shards w).state := by
  induction shards generalizing w with
  | nil => rfl
  | cons i rest ih =>
    obtain ⟨hi, hrest⟩ := List.nodup_cons.mp hshards
    have hends (visit : Visit) := Backed.flushesAll (w := w.backed i) (h.shard i) visit
    have hok (visit : Visit) : (w.onShard i fun _ b => b.flushAll visit).result = .ok () :=
      (hends visit).ok_iff.mpr (hfree i List.mem_cons_self)
    have hsame : (w.onShard i fun _ b => b.flushAll visit').state =
        (w.onShard i fun _ b => b.flushAll visit).state :=
      congrArg (fun b : Backed size Disk => (⟨w.pool.setShard i b.shard, b.disk⟩ : System ..))
        (((hends visit).flushed (hok visit)).2 visit')
    rw [flushShards, flushShards, Outcome.andThen_of_ok (hok visit'),
      Outcome.andThen_of_ok (hok visit), hsame]
    refine ih (h.ask i (.flushAll visit)) (fun j hj p hstuck => ?_) hrest
    have hji : j ∉ [i] := fun hmem => hi (List.mem_singleton.mp hmem ▸ hj)
    -- the pages of the later shards are as stuck as they were
    have hmoved := (flushesOnly_single h i visit).unmoved h hji
    exact hfree j (List.mem_cons_of_mem i hj) p (hmoved.stuck_iff.mp hstuck)

/-- A flush of a pool whose shards keep their pages apart goes through all shards, or fails at the
first that has a page stuck: the shards before it are flushed, and those after it were not touched.
-/
theorem flushesAll (h : w.Placed) (visit : Visit) : w.FlushesAll visit := by
  have hends : FlushEnds w (List.finRange l.width) (w.flushAll visit).result
    (w.flushAll visit).state := flushShards_ends h visit (List.nodup_finRange _)
  generalize hresult : (w.flushAll visit).result = r,
    hstate : (w.flushAll visit).state = w' at hends
  cases hends with
  | all honly hfree hflushed =>
    have hfree' : ∀ i p, ¬ (w.backed i).Stuck p := fun i => hfree i (List.mem_finRange i)
    refine ⟨iff_of_true hresult hfree', ?_, ?_, fun _ => ⟨fun i => ?_, fun visit' => ?_⟩, ?_⟩
    · rw [hstate]
      exact honly.written.mono fun p bytes ⟨i, _, hunsaved⟩ => ⟨i, hunsaved⟩
    · rw [hstate]
      exact honly.cursor
    · rw [hstate]
      exact hflushed i (List.mem_finRange i)
    · exact flushShards_visit h hfree (List.nodup_finRange _) visit visit'
    · intro e he
      exact absurd (hresult.symm.trans he) (by simp)
  | @stuck done rest i _ hsplit honly hflushed hstuck hpartly =>
    obtain ⟨p, hp⟩ := hstuck
    -- the shards are flushed in the order of their indices, so those before are the smaller ones
    have hsorted : (done ++ i :: rest).Pairwise (· < ·) :=
      hsplit ▸ (List.sortedLT_finRange l.width).pairwise
    obtain ⟨-, hafter, hbefore⟩ := List.pairwise_append.mp hsorted
    refine ⟨iff_of_false ?_ fun hfree => hfree i p hp, ?_, ?_, ?_,
      fun {e} he => ⟨?_, i, ?_, ?_, ?_⟩⟩
    · simp [hresult]
    · rw [hstate]
      exact honly.written.mono fun p bytes ⟨i, _, hunsaved⟩ => ⟨i, hunsaved⟩
    · rw [hstate]
      exact honly.cursor
    · exact fun hok => absurd (hresult.symm.trans hok) (by simp)
    · exact (Except.error.inj (hresult.symm.trans he)).symm
    · intro j hji
      have hmem : j ∈ done ++ i :: rest := hsplit ▸ List.mem_finRange j
      rw [hstate]
      rcases List.mem_append.mp hmem with hj | hj | ⟨_, hj⟩
      · exact hflushed j hj
      · exact absurd hji (Nat.lt_irrefl _)
      · exact absurd hji (Fin.not_lt.mpr (Fin.le_of_lt (List.rel_of_pairwise_cons hafter hj)))
    · rw [hstate]
      exact hpartly
    · intro j hji
      rw [hstate]
      apply honly.unmoved h
      intro hmem
      rcases List.mem_append.mp hmem with hj | hj
      · have hlt := hbefore j hj i List.mem_cons_self
        exact absurd (Fin.lt_trans hlt hji) (Fin.lt_irrefl j)
      · exact absurd hji (List.mem_singleton.mp hj ▸ Fin.lt_irrefl j)

end System

/-! ## Histories -/

namespace Client

/-- On any pool, preloaded or not, after every history, and whatever pages the disk refuses to read
and to write from then on: a flush of all pages of a shard, and one of all pages of the pool,
succeed if no dirty page is stuck and otherwise fail with the write error, and leave behind what
they should. -/
theorem flushAll_of_history {b : Blueprint} {built : AnyPool} (hbuild : b.build = .ok built)
    (disk : Disk) (durable : Option Lsn)
    {allowed : List Entry → Client built.layout built.size → Step → Prop} {log : List Entry}
    {c : Client built.layout built.size}
    (h : History allowed (built.start disk durable) log c) (faults : Faults) (visit : Visit) :
    let w : System built.layout built.size Disk :=
      ⟨c.system.pool, { c.system.disk with faults }⟩
    (∀ i, (w.backed i).FlushesAll visit) ∧ w.FlushesAll visit := by
  intro w
  have hhistory := placed_of_history hbuild disk durable h
  have hplaced : w.Placed := ⟨hhistory.shard, hhistory.confined⟩
  exact ⟨fun i => Backed.flushesAll (hplaced.shard i) visit, System.flushesAll hplaced visit⟩

/-- Two shards with a dirty page in each, the first of them pinned: while page `1` cannot be
written, a flush of the pool stores page `0` and fails. -/
theorem flushAll_of_history_two_shards :
    ∃ (log : List Entry) (c : Client (.split 2 (by decide) (by decide)) 1),
      History (fun _ _ _ => True)
        ((AnyPool.fresh (.split 2 (by decide) (by decide)) 1).start
          (.onMedium (.memory .empty)) none) log c ∧
      log.map Entry.answer = [.ok (.placed ⟨0, by decide⟩ 0), .ok (.placed ⟨1, by decide⟩ 0),
        .ok .nothing, .ok (.truth true), .ok (.placed ⟨0, by decide⟩ 0), .ok (.truth true)] ∧
      let w : System (.split 2 (by decide) (by decide)) 1 Disk :=
        ⟨c.system.pool, { c.system.disk with faults := ⟨fun _ => false, fun p => p.val = 1⟩ }⟩
      (w.flushAll .ascending).result = .error (.storage (.io .writeFault)) ∧
        (∀ i, (w.backed i).FlushesAll .ascending) ∧ w.FlushesAll .ascending := by
  have h : History (fun _ _ _ => True)
    ((AnyPool.fresh (.split 2 (by decide) (by decide)) 1).start (.onMedium (.memory .empty)) none)
    [] _ := .start
  have h := h.step ⟨none, .newPage "a"⟩ trivial
  have h := h.step ⟨none, .newPage "b"⟩ trivial
  have h := h.step ⟨none, .writeHandle "a" [.fill 7]⟩ trivial
  have h := h.step ⟨none, .unpin ⟨0, by decide⟩ true⟩ trivial
  have h := h.step ⟨none, .fetch ⟨0, by decide⟩ "a"⟩ trivial
  have h := h.step ⟨none, .unpin ⟨1, by decide⟩ true⟩ trivial
  have hbuild : Blueprint.build (.split 1 2) =
    .ok (.fresh (.split 2 (by decide) (by decide)) 1) := rfl
  exact ⟨_, _, h, rfl, rfl, flushAll_of_history hbuild _ none h _ .ascending⟩

end Client

end PageCache
