import PageCache.Proofs.Workload.Crew

/-!
# Pools with a frame for every worker

A worker has a pin on one page at most, so where a shard has as many frames as there are workers it
is never full for one of them (`Tended.not_full`). Then whoever draws a turn from the cursor gets a
page from the shard whose turn it is, and though pages may be made in another order than the turns
were drawn in, in the end each shard has made as many as it had turns (`Unhindered`). Turns go
round, so the ids of all pages are the numbers below the number of turns
(`Tended.mem_created_iff_lt`).
-/

namespace PageCache

variable {l : Layout} {size : Nat} {δ : Type} [PageStore δ] [LawfulStore δ]

/-! ## Room -/

namespace System.Tended

open PageCache.Workload

variable {capacity : Nat} {origin : δ} {w : System l size δ} {held : List (Guard l size)}
variable {past : List Deed}

/-- Only pages that somebody holds a guard of are pinned. -/
theorem length_pinnedPages_le (h : w.Tended capacity origin held past) (i : Fin l.width) :
    (w.pool.shard i).pinnedPages.length ≤ held.length := by
  have hnodup : (w.pool.shard i).pinnedPages.Nodup :=
    (w.pool.shard i).table.nodup_keys.filter _
  have hsub : (w.pool.shard i).pinnedPages ⊆ held.map fun g => g.handle.page := by
    intro p hp
    obtain ⟨hresident, hpinned⟩ := List.mem_filter.mp hp
    rw [Shard.residents, Std.ExtTreeMap.mem_keys,
      Std.ExtTreeMap.mem_iff_isSome_getElem?] at hresident
    obtain ⟨f, hf⟩ := Option.isSome_iff_exists.mp hresident
    have howns := (h.kept i).owned hf
    have hslot := (slot_view howns).trans (Shard.slot_of_table hf)
    have hpins : ((w.pool.shard i).frame f).pins ≠ 0 := by
      simpa [Shard.pinCount?, hf] using hpinned
    rw [(h.coherent p).pins hslot] at hpins
    -- a pin is somebody's grip
    obtain ⟨grip, hgrip⟩ :=
      List.exists_mem_of_ne_nil _ (List.length_pos_iff.mp (Nat.pos_of_ne_zero hpins))
    obtain ⟨g, hg, rfl, -⟩ := exists_of_mem_grips hgrip
    exact List.mem_map_of_mem hg
  have hle := hnodup.length_le_of_subset hsub
  rwa [List.length_map] at hle

/-- With fewer guards than frames no shard is full. -/
theorem not_full (h : w.Tended capacity origin held past) (hroomy : size ≤ capacity)
    (hfew : held.length < size) :
    (∀ i, ¬ w.Full i) ∧ ∀ p, (w.fetch p).result ≠ .error (.storage .poolFull) := by
  have hshard (i : Fin l.width) : (w.backed i).FullWhenPinned (l.stripe i) :=
    Backed.fullWhenPinned (h.kept i) hroomy
  have hpinned (i : Fin l.width) : (w.pool.shard i).pinnedPages.length < size :=
    Nat.lt_of_le_of_lt (h.length_pinnedPages_le i) hfew
  refine ⟨fun i hfull => ?_, fun p hfull => ?_⟩
  · exact (hshard i).newPage_not_full (hpinned i) (full_iff.mp hfull)
  · exact (hshard (l.route p)).fetch_not_full (hpinned _) p
      (Outcome.result_map_eq_error_iff.mp hfull)

end System.Tended

namespace Workload

/-- For a worker with nothing in hand, and no more workers than frames, no shard is full. -/
theorem Sound.not_full {capacity total : Nat} {origin : δ} {w : State l size δ}
    {worker : Worker l size} {rest : List (Worker l size)} {past : List Deed}
    (h : Sound capacity origin total w (worker :: rest) past) (hempty : worker.EmptyHanded)
    (hroomy : size ≤ capacity) (hfew : (worker :: rest).length ≤ size) :
    (∀ i, ¬ w.system.Full i) ∧
      ∀ p, (w.system.fetch p).result ≠ .error (.storage .poolFull) := by
  have hle : (rest.filterMap Worker.guard?).length ≤ rest.length := List.length_filterMap_le ..
  rw [List.length_cons] at hfew
  exact (h.tended_rest hempty).not_full hroomy (by omega)

/-! ## Turns -/

/-- The shard whose turn a worker has drawn and not yet used. -/
def Worker.turn? (worker : Worker l size) : Option Nat :=
  match worker.phase with
  | .seeking (i :: _) => some i.val
  | _ => none

/-- Nobody was turned away while `k` turns were drawn. -/
structure Unhindered (w : State l size δ) (crew : List (Worker l size)) (past : List Deed)
    (k : Nat) : Prop where
  few : crew.length ≤ size
  cursor : w.system.pool.cursor.val = k % l.width
  poolFull : w.tally.poolFull = 0
  seeking : ∀ worker ∈ crew, worker.phase ≠ .seeking []
  /-- Every turn that was drawn is used by the shard whose turn it was, or still to be used. -/
  turns : ((created past).map (fun p => (l.route p).val) ++ crew.filterMap Worker.turn?).Perm
    ((List.range k).map (· % l.width))

namespace Unhindered

variable {capacity total k : Nat} {origin : δ} {w w' : State l size δ}
variable {crew crew' rest : List (Worker l size)} {past past' : List Deed}
variable {worker worker' : Worker l size} {i : Nat}

omit [PageStore δ] [LawfulStore δ] in
theorem perm (h : Unhindered w crew past k) (hperm : crew.Perm crew') :
    Unhindered w crew' past k where
  few := by rw [← hperm.length_eq]; exact h.few
  cursor := h.cursor
  poolFull := h.poolFull
  seeking worker hworker := h.seeking worker (hperm.mem_iff.mpr hworker)
  turns := ((hperm.filterMap _).append_left _).symm.trans h.turns

omit [PageStore δ] [LawfulStore δ] in
/-- A worker goes on that neither had drawn a turn nor draws one. -/
theorem other (h : Unhindered w (worker :: rest) past k) (hturn : worker.turn? = none)
    (hseeking : ∀ shards, worker'.phase ≠ .seeking shards)
    (hcursor : w'.system.pool.cursor = w.system.pool.cursor)
    (hfull : w'.tally.poolFull = w.tally.poolFull) (hcreated : created past' = created past) :
    Unhindered w' (worker' :: rest) past' k where
  few := h.few
  cursor := by rw [hcursor, h.cursor]
  poolFull := by rw [hfull, h.poolFull]
  seeking := by
    obtain ⟨-, hrest⟩ := List.forall_mem_cons.mp h.seeking
    exact List.forall_mem_cons.mpr ⟨hseeking [], hrest⟩
  turns := by
    have hturn' : worker'.turn? = none := by
      rw [Worker.turn?]
      split
      · next hphase => exact absurd hphase (hseeking _)
      · rfl
    have hturns := h.turns
    rw [List.filterMap_cons_none hturn] at hturns
    rw [hcreated, List.filterMap_cons_none hturn']
    exact hturns

omit [PageStore δ] [LawfulStore δ] in
/-- The next turn is drawn. -/
theorem draw (h : Unhindered w (worker :: rest) past k) (hturn : worker.turn? = none) (i : Nat) :
    ∃ worker', (w.draw i worker).workers = w.workers.setIfInBounds i worker' ∧
      Unhindered (w.draw i worker) (worker' :: rest) past (k + 1) := by
  obtain ⟨later, htour⟩ := l.tour_eq_cons w.system.pool.cursor
  refine ⟨⟨worker.left, .seeking (l.tour w.system.pool.cursor)⟩, rfl, h.few, ?_, h.poolFull, ?_,
    ?_⟩
  · show (w.system.pool.cursor.val + 1) % l.width = (k + 1) % l.width
    rw [h.cursor, Nat.mod_add_mod]
  · obtain ⟨-, hrest⟩ := List.forall_mem_cons.mp h.seeking
    refine List.forall_mem_cons.mpr ⟨?_, hrest⟩
    rw [htour]
    simp
  · have hturn' : (⟨worker.left, .seeking (l.tour w.system.pool.cursor)⟩ :
        Worker l size).turn? = some (k % l.width) := by
      simp only [Worker.turn?, htour, h.cursor]
    have hturns := h.turns
    rw [List.filterMap_cons_none hturn] at hturns
    rw [List.filterMap_cons_some hturn', List.range_succ, List.map_append]
    exact List.perm_middle.trans ((hturns.cons _).trans (List.perm_append_singleton ..).symm)

/-- The turn is used by the shard whose turn it is. -/
theorem seek (h : Unhindered w (worker :: rest) past k)
    (hsound : Sound capacity origin total w (worker :: rest) past) (hcomplete : l.Complete)
    (hids : l.width * total < UInt32.size) (hroomy : size ≤ capacity)
    {shards : List (Fin l.width)} (hphase : worker.phase = .seeking shards) (i : Nat) :
    ∃ worker', (w.seek i worker shards).workers = w.workers.setIfInBounds i worker' ∧
      Unhindered (w.seek i worker shards) (worker' :: rest) ((w.deedOf worker).toList ++ past)
        k := by
  cases shards with
  | nil => exact absurd hphase (h.seeking worker List.mem_cons_self)
  | cons shard shards =>
    rcases hsound.seek_cases hphase hcomplete hids i with
      ⟨made, hdeed, -, hroute, -, hseek⟩ | ⟨hfull, -, -⟩
    · have hturn : worker.turn? = some (l.route made.page).val := by
        rw [Worker.turn?, hphase, hroute]
      have hturn' : (⟨worker.left, .latching .create made⟩ : Worker l size).turn? = none := rfl
      rw [hdeed, hseek]
      refine ⟨_, rfl, h.few, h.cursor, h.poolFull, ?_, ?_⟩
      · obtain ⟨-, hrest⟩ := List.forall_mem_cons.mp h.seeking
        exact List.forall_mem_cons.mpr ⟨by simp, hrest⟩
      · have hturns := h.turns
        rw [List.filterMap_cons_some hturn] at hturns
        rw [List.filterMap_cons_none hturn']
        exact List.perm_middle.symm.trans hturns
    · have hempty := hsound.emptyHanded_of_seeking hphase
      exact absurd hfull ((hsound.not_full hempty hroomy h.few).1 shard)

/-- A page that is asked for is had. -/
theorem visit (h : Unhindered w (worker :: rest) past k)
    (hsound : Sound capacity origin total w (worker :: rest) past) (hcomplete : l.Complete)
    (hids : l.width * total < UInt32.size) (hroomy : size ≤ capacity)
    {p : PageId} {access : Access} (hphase : worker.phase = .asking (.visit p access)) (i : Nat) :
    ∃ worker', (w.ask i worker (.visit p access)).workers = w.workers.setIfInBounds i worker' ∧
      Unhindered (w.ask i worker (.visit p access)) (worker' :: rest) past k := by
  have hempty := hsound.emptyHanded_of_asking hphase
  have hturn : worker.turn? = none := by rw [Worker.turn?, hphase]
  rcases hsound.visit_cases hphase hcomplete hids i with ⟨k, -, -, -, hask⟩ | ⟨hfull, -, -⟩
  · rw [hask]
    exact ⟨_, rfl, h.other hturn (by simp) rfl rfl rfl⟩
  · exact absurd hfull ((hsound.not_full hempty hroomy h.few).2 p)

theorem step (h : Unhindered w w.workers.toList past k)
    (hsound : Sound capacity origin total w w.workers.toList past) (hcomplete : l.Complete)
    (hids : l.width * total < UInt32.size) (hroomy : size ≤ capacity) (i : Nat) (dice : Dice) :
    ∃ k', Unhindered (w.step i dice) (w.step i dice).workers.toList ((w.deed? i).toList ++ past)
      k' := by
  cases hi : w.workers[i]? with
  | none =>
    simp only [State.step, State.deed?, hi]
    exact ⟨k, h⟩
  | some worker =>
    obtain ⟨rest, hperm, hset⟩ := exists_others hi
    have hfirst := h.perm hperm
    have hsound := hsound.perm hperm
    have hdeed : w.deed? i = w.deedOf worker := by rw [State.deed?, hi, Option.bind_some]
    -- the worker whose turn it is may be put first; what it becomes is put back in its place
    have hgoes {w' : State l size δ} {past' : List Deed} {k' : Nat} (hgoes : ∃ worker',
        w'.workers = w.workers.setIfInBounds i worker' ∧
          Unhindered w' (worker' :: rest) past' k') :
        ∃ k', Unhindered w' w'.workers.toList past' k' := by
      obtain ⟨worker', hworkers, hunhindered⟩ := hgoes
      rw [hworkers]
      exact ⟨k', hunhindered.perm (hset worker').symm⟩
    rw [hdeed]
    -- turns are drawn when a page is asked for and used when it is created, so these phases have
    -- lemmas of their own; the others leave the turns as they are
    cases hphase : worker.phase with
    | ready =>
      have hnone : w.deedOf worker = none := by rw [State.deedOf, hphase]
      have hturn : worker.turn? = none := by rw [Worker.turn?, hphase]
      simp only [State.step, hi, hphase, hnone]
      split
      · exact ⟨k, h⟩
      · exact hgoes ⟨_, rfl, hfirst.other hturn (by simp) rfl rfl rfl⟩
    | asking job =>
      have hnone : w.deedOf worker = none := by rw [State.deedOf, hphase]
      have hturn : worker.turn? = none := by rw [Worker.turn?, hphase]
      simp only [State.step, hi, hphase, hnone]
      cases job with
      | create => exact hgoes (hfirst.draw hturn i)
      | visit p access => exact hgoes (hfirst.visit hsound hcomplete hids hroomy hphase i)
    | seeking shards =>
      simp only [State.step, hi, hphase]
      exact hgoes (hfirst.seek hsound hcomplete hids hroomy hphase i)
    | latching job made =>
      have hnone : w.deedOf worker = none := by rw [State.deedOf, hphase]
      have hturn : worker.turn? = none := by rw [Worker.turn?, hphase]
      simp only [State.step, hi, hphase, hnone]
      split
      · exact ⟨k, h⟩
      · exact hgoes ⟨_, rfl, hfirst.other hturn (by simp) rfl rfl rfl⟩
    | holding job made =>
      have hturn : worker.turn? = none := by rw [Worker.turn?, hphase]
      have hcreated : created ((w.deedOf worker).toList ++ past) = created past := by
        simp only [State.deedOf, hphase]
        split <;> rfl
      simp only [State.step, hi, hphase, State.work]
      split
      · exact hgoes ⟨_, rfl, hfirst.other hturn (by simp) rfl rfl hcreated⟩
      · exact hgoes ⟨_, rfl, hfirst.other hturn (by simp) rfl rfl hcreated⟩
    | unpinning job made trouble =>
      have hnone : w.deedOf worker = none := by rw [State.deedOf, hphase]
      have hturn : worker.turn? = none := by rw [Worker.turn?, hphase]
      simp only [State.step, hi, hphase, hnone]
      refine hgoes ⟨_, rfl, hfirst.other hturn ?_ rfl rfl rfl⟩
      cases trouble <;> simp
    | telling job made =>
      have hnone : w.deedOf worker = none := by rw [State.deedOf, hphase]
      have hturn : worker.turn? = none := by rw [Worker.turn?, hphase]
      simp only [State.step, hi, hphase, hnone]
      cases job with
      | create => exact hgoes ⟨_, rfl, hfirst.other hturn (by simp [Worker.next]) rfl rfl rfl⟩
      | visit p access =>
        exact hgoes ⟨_, rfl, hfirst.other hturn (by simp [Worker.next]) rfl rfl rfl⟩
    | stopped trouble =>
      have hnone : w.deedOf worker = none := by rw [State.deedOf, hphase]
      simp only [State.step, hi, hphase, hnone]
      exact ⟨k, h⟩

theorem run (h : Unhindered w w.workers.toList past k)
    (hsound : Sound capacity origin total w w.workers.toList past) (hcomplete : l.Complete)
    (hids : l.width * total < UInt32.size) (hroomy : size ≤ capacity)
    (schedule : List (Nat × Dice)) :
    ∃ k', Unhindered (w.run schedule) (w.run schedule).workers.toList
      (State.deeds schedule w ++ past) k' := by
  induction schedule generalizing w past k with
  | nil => exact ⟨k, h⟩
  | cons turn schedule ih =>
    obtain ⟨k', hstep⟩ := h.step hsound hcomplete hids hroomy turn.1 turn.2
    have hrun := ih hstep (hsound.step hcomplete hids turn.1 turn.2)
    rw [State.deeds, List.append_assoc]
    exact hrun

/-! ### At the end -/

/-- When all are done, every turn was used. -/
theorem of_finished (h : Unhindered w w.workers.toList past k)
    (hsound : Sound capacity origin total w w.workers.toList past) (hfinished : w.finished = true) :
    ((created past).map fun p => (l.route p).val).Perm ((List.range k).map (· % l.width)) := by
  have hturns : w.workers.toList.filterMap Worker.turn? = [] := by
    rw [List.filterMap_eq_nil_iff]
    intro worker hworker
    rw [State.finished, Array.all_eq_true_iff_forall_mem] at hfinished
    have hdone := hfinished worker (Array.mem_toList_iff.mp hworker)
    rw [Worker.turn?, (hsound.ready_of_finished hworker hdone).1]
  have h := h.turns
  rw [hturns, List.append_nil] at h
  exact h

end Unhindered

/-! ## The ids of all pages -/

/-- Of the numbers below `k`, those that leave the remainder `i` are the first so many. -/
theorem lt_countP_iff {k n i : Nat} (hi : i < n) (q : Nat) :
    q < ((List.range k).map (· % n)).countP (· = i) ↔ i + q * n < k := by
  have hn : 0 < n := Nat.lt_of_le_of_lt (Nat.zero_le i) hi
  induction k generalizing q with
  | zero => exact iff_of_false (Nat.not_lt_zero q) (Nat.not_lt_zero _)
  | succ k ih =>
    rw [List.range_succ, List.map_append, List.countP_append, List.map_singleton,
      List.countP_singleton]
    by_cases hk : k % n = i
    · -- `k` has the remainder, and `k / n` numbers before it have
      have hval : i + k / n * n = k := hk ▸ Nat.mod_add_div' k n
      have hcount : ((List.range k).map (· % n)).countP (· = i) = k / n := by
        refine eq_of_forall_lt_iff fun q => (ih q).trans ?_
        have hmul : q * n < k / n * n ↔ q < k / n := Nat.mul_lt_mul_right hn
        rw [← hmul]
        omega
      have hmul : q * n ≤ k / n * n ↔ q ≤ k / n := Nat.mul_le_mul_right_iff hn
      rw [hcount, decide_eq_true hk, if_pos rfl, Nat.lt_succ_iff, ← hmul]
      omega
    · have hne : i + q * n ≠ k := by
        intro heq
        rw [← heq, Nat.add_mul_mod_self_right, Nat.mod_eq_of_lt hi] at hk
        exact hk rfl
      rw [decide_eq_false hk, if_neg Bool.false_ne_true, Nat.add_zero]
      refine (ih q).trans ?_
      omega

end Workload

namespace System.Tended

open PageCache.Workload

variable {capacity k : Nat} {origin : δ} {w : System l size δ} {held : List (Guard l size)}
variable {past : List Deed}

/-- Of the pages of its shard, `p` is the one with number `p / width`. It was created if that shard
has made so many. -/
theorem mem_created_iff (h : w.Tended capacity origin held past) (hcomplete : l.Complete)
    (p : PageId) : p ∈ created past ↔ p.val / l.width < countIn l past (l.route p) := by
  have hunused : w.view.unused p ↔ ∃ n : PageId,
      (l.stripe (l.route p)).nth? (countIn l past (l.route p)) = some n ∧ n.val ≤ p.val := by
    rw [← h.counted (l.route p)]
    exact and_iff_right (hcomplete p)
  have hval : (l.route p).val + p.val / l.width * l.width = p.val := Nat.mod_add_div' ..
  have hmul : countIn l past (l.route p) * l.width ≤ p.val / l.width * l.width ↔
      countIn l past (l.route p) ≤ p.val / l.width := Nat.mul_le_mul_right_iff l.width_pos
  have hle : (l.route p).val + countIn l past (l.route p) * l.width ≤ p.val ↔
      countIn l past (l.route p) ≤ p.val / l.width := by
    rw [← hmul]
    omega
  -- what was not created is what is still unused, and that begins at the next id of the shard
  rw [← not_iff_not, ← h.unused_iff p, hunused, Nat.not_lt, ← hle]
  have hindex := hcomplete.index_eq (l.route p)
  have hcount := hcomplete.count_eq (l.route p)
  constructor
  · rintro ⟨n, hn, hle⟩
    rw [Stripe.nth?_eq_some_iff, hindex, hcount] at hn
    exact hn ▸ hle
  · intro hle
    refine ⟨⟨_, Nat.lt_of_le_of_lt hle p.isLt⟩, Stripe.nth?_eq_some_iff.mpr ?_, hle⟩
    rw [hindex, hcount]

/-- If every shard made as many pages as it had turns, the pages are those below the number of
turns. -/
theorem mem_created_iff_lt (h : w.Tended capacity origin held past) (hcomplete : l.Complete)
    (hturns : ((created past).map fun p => (l.route p).val).Perm
      ((List.range k).map (· % l.width))) (p : PageId) : p ∈ created past ↔ p.val < k := by
  have hcount : countIn l past (l.route p) =
      ((List.range k).map (· % l.width)).countP (· = (l.route p).val) := by
    rw [← hturns.countP_eq, List.countP_map]
    exact List.countP_congr fun q _ => by simp [Fin.ext_iff]
  have hval : (l.route p).val + p.val / l.width * l.width = p.val := Nat.mod_add_div' ..
  rw [h.mem_created_iff hcomplete, hcount, lt_countP_iff (l.route p).isLt, hval]

end System.Tended

end PageCache
