import PageCache.Proofs.Client.Journal

/-!
# A deleted page stays deleted

Once a delete was answered with true, the page is nowhere in the pool until somebody brings it in
again, and nothing of it is left to be written back: its frame was wiped and is free
(`Shard.Wiped`). So the pool does not write the page, and the disk has of it what it had when it was
deleted (`Client.StaysDeleted`).

What carries the induction is that a page that nobody brings in is not resident (`Diary.absent`).
What is written is resident, so this page is not; and no other call of the disk would change what
there is of it (`Journal.pagePart_eq`).
-/

namespace PageCache

variable {l : Layout} {size : Nat}

/-! ## Deleting -/

/-- Frame `f` is free, once, and there is nothing of a page in it or about it. -/
structure Shard.Wiped (sh : Shard size) (f : Fin size) : Prop where
  free : sh.free.count f = 1
  blank : sh.frame f = .blank
  untracked : sh.recency.contains f = false

section

variable {δ : Type} [PageStore δ] {w : Backed size δ} {s : Stripe} {capacity : Nat} {p : PageId}
variable {f : Fin size}

/-- A page that is deleted goes, and the disk is told that it may be reclaimed. -/
theorem Backed.delete_of_true (h : w.shard.Mapped w.shard.free)
    (hdelete : (w.delete s p).result = .ok true) :
    s.Owns p ∧ (w.delete s p).state.disk = (PageStore.deallocate w.disk p).1 ∧
      (w.delete s p).state.shard.record? p = none := by
  by_cases howns : s.Owns p
  swap
  · rw [delete, if_neg howns] at hdelete
    exact absurd hdelete (by simp)
  rw [delete, if_pos howns] at hdelete ⊢
  obtain ⟨hdisk, ⟨-, -, hrecord⟩ | ⟨hfalse, -⟩⟩ :=
    discard_cases (w := { w with disk := (PageStore.deallocate w.disk p).1 }) h p
  · exact ⟨howns, hdisk, (hrecord p).trans (if_pos rfl)⟩
  · exact absurd (hdelete.symm.trans hfalse) (by simp)

omit [PageStore δ] in
/-- The frame of a page that is dropped comes last in the free list, blank. -/
theorem Backed.frame_discard (hp : w.shard.table[p]? = some f)
    (h : (w.discard p).result = .ok true) :
    f ∈ (w.discard p).state.shard.free ∧ (w.discard p).state.shard.frame f = .blank := by
  unfold discard at h ⊢
  rw [hp] at h ⊢
  dsimp only at h ⊢
  split at h
  · exact absurd h (by simp)
  next hpins =>
  rw [if_neg hpins]
  refine ⟨List.mem_append_right _ List.mem_cons_self, ?_⟩
  exact (Shard.frame_setFrame ..).trans (if_pos rfl)

theorem Backed.wiped_delete [LawfulStore δ] (h : w.shard.Kept s capacity w.shard.free)
    (hp : w.shard.table[p]? = some f) (hdelete : (w.delete s p).result = .ok true) :
    (w.delete s p).state.shard.Wiped f := by
  obtain ⟨ms, hruns, -⟩ := delete_runs h p
  have hkept := hruns.kept
  have howns := h.owned hp
  obtain ⟨hfree, hblank⟩ :
      f ∈ (w.delete s p).state.shard.free ∧ (w.delete s p).state.shard.frame f = .blank := by
    rw [delete, if_pos howns] at hdelete ⊢
    exact frame_discard (w := { w with disk := (PageStore.deallocate w.disk p).1 }) hp hdelete
  refine ⟨List.count_eq_one_of_mem hkept.spare_nodup hfree, hblank, ?_⟩
  rw [← Bool.not_eq_true]
  intro htracked
  obtain ⟨q, g, hgf, hq, -⟩ := hkept.tracked htracked
  obtain rfl : g = f := Fin.ext hgf
  exact hkept.not_mem_spare hq hfree

end

/-! ## Pages that nobody brings in -/

section

variable {δ : Type} [PageStore δ] {i : Fin l.width} {b₀ b : Backed size δ}
variable {es : List (Errand l size δ)} {p : PageId}

theorem Diary.absent (h : Diary i b₀ es b) (h₀ : b₀.shard.Mapped b₀.shard.free)
    (hp : b₀.shard.record? p = none) (hes : ∀ e ∈ es, e.concern p ≠ .brings) :
    b.shard.record? p = none ∧ ∀ e ∈ es, e.found.shard.record? p = none := by
  refine h.record (P := fun es r => (∀ e ∈ es, e.concern p ≠ .brings) →
    r = none ∧ ∀ e ∈ es, e.found.shard.record? p = none) h₀ (fun _ => ⟨hp, List.forall_mem_nil _⟩)
    (fun {es e r} ih _ hstep hes => ?_) hes
  obtain ⟨hbefore, hlast⟩ := List.forall_mem_append.mp hes
  obtain ⟨hfound, hmeanwhile⟩ := ih hbefore
  refine ⟨?_, List.forall_mem_append.mpr ⟨hmeanwhile, List.forall_mem_singleton.mpr hfound⟩⟩
  rw [hfound] at hstep
  exact hstep.none_of_not_brings (hlast e List.mem_cons_self)

/-- What is to be written is resident. -/
theorem Errand.Accounted.unwritten {e : Errand l size δ} (h : e.Accounted)
    (hp : e.found.shard.record? p = none) (bytes : Page) : (p, bytes) ∉ Attempt.writes e.calls := by
  intro hmem
  obtain ⟨n, hrecord⟩ := (h.unsaved hmem).record?
  exact absurd (hp.symm.trans hrecord) (by simp)

end

/-! ## The disk -/

/-- A page that was handed back is as it was until it is written. -/
theorem Audited.pagePart_afterAll {d : Disk} {calls : List Attempt} {p : PageId}
    {kept : Option Page} (hp : d.medium.pagePart p = ⟨kept, true⟩)
    (hcalls : ∀ bytes, (p, bytes) ∉ Attempt.writes calls) :
    (afterAll d calls).medium.pagePart p = ⟨kept, true⟩ := by
  induction calls generalizing d with
  | nil => exact hp
  | cons a calls ih =>
    have hsplit (bytes : Page) : (p, bytes) ∉ Attempt.writes [a] ++ Attempt.writes calls := by
      rw [← Attempt.writes_append]
      exact hcalls bytes
    refine ih ?_ fun bytes hmem => hsplit bytes (List.mem_append_right _ hmem)
    rw [Disk.pagePart_after]
    split
    · next hpage =>
      obtain ⟨page, call, succeeded⟩ := a
      obtain ⟨rfl, -⟩ := hpage
      cases call with
      | read => exact hp
      | write bytes => exact absurd (List.mem_append_left _ List.mem_cons_self) (hsplit bytes)
      | deallocate =>
        rw [hp]
        rfl
    · exact hp

/-- A pool that does not write a page leaves what the disk has of it as it is. -/
theorem Journal.pagePart_eq {w₀ w : System l size Disk} {es : List (Errand l size Disk)}
    {p : PageId} {kept : Option Page}
    (h : Journal (fun d d' => d'.medium.pagePart p = d.medium.pagePart p) w₀ es w)
    (hp : w₀.disk.medium.pagePart p = ⟨kept, true⟩)
    (hes : ∀ e ∈ es, ∀ bytes, (p, bytes) ∉ Attempt.writes e.calls) :
    w.disk.medium.pagePart p = ⟨kept, true⟩ := by
  induction h with
  | start => exact hp
  | @errand es w _ i op _ ih =>
    obtain ⟨hbefore, hlast⟩ := List.forall_mem_append.mp hes
    let e : Errand l size Disk := ⟨i, w.backed i, op⟩
    have hleft : (w.serve i op).state.disk = e.left.disk :=
      congrArg Backed.disk (Backed.state_serve ..)
    rw [hleft, e.disk_left]
    exact Audited.pagePart_afterAll (ih hbefore) (hlast e List.mem_cons_self)
  | turn _ _ ih => exact ih hes
  | beside _ disk hdisk ih => exact hdisk.trans (ih hes)

namespace Client

variable {capacity : Nat} {c c' : Client l size} {i : Fin l.width} {p : PageId}

/-- A request to the disk, past the pool, leaves what it has of page `p` as it is. -/
def LeavesPage (p : PageId) (_ : List Entry) (c : Client l size) (step : Step) : Prop :=
  ∀ r, step.op = .disk r →
    (c.system.disk.perform r).state.medium.pagePart p = c.system.disk.medium.pagePart p

/-- Page `p` was deleted when the disk was `d`, and from `c₁`, which is how that left the pool, it
went on by the steps of `log` to `c`. -/
structure StaysDeleted (p : PageId) (d : Disk) (c₁ : Client l size) (log : List Entry)
    (c : Client l size) : Prop where
  absent : ¬ c.Resident p
  /-- The answers of the pool, and of the shard that may have the page. -/
  unpin : ∀ {scope : Scope l}, scope = .whole ∨ scope = .only (l.route p) → ∀ dirty,
    (c.unpin scope p dirty).result = .ok false
  flush : ∀ {scope : Scope l}, scope = .whole ∨ scope = .only (l.route p) →
    (c.flush scope p).result = .ok false
  /-- Nobody tries to write the page. -/
  unwritten : ∀ e ∈ c₁.errands log, ∀ bytes, (p, bytes) ∉ Attempt.writes e.calls
  /-- Unless it is changed past the pool, the disk has of the page what it had, and counts it as
  handed back. -/
  stored : History (LeavesPage p) c₁ log c →
    (c.system.disk.medium.pagePart p).kept = (d.medium.pagePart p).kept ∧
      c.system.disk.medium.isDeallocated p = true

/-! ## Histories -/

/-- A step whose delete was answered with true has deleted the page from the shard that has such
pages. -/
theorem take_delete {shard : Option Nat}
    (h : (c.take ⟨shard, .delete p⟩).result = .ok (.truth true)) :
    ∃ i, ((c.system.backed i).delete (l.stripe i) p).result = .ok true ∧
      (c.take ⟨shard, .delete p⟩).state.system =
        (c.system.onShard i fun s b => b.delete s p).state := by
  rw [take] at h ⊢
  cases hscope : l.scope? shard with
  | none =>
    rw [hscope] at h
    exact absurd h (by simp)
  | some scope =>
    rw [hscope] at h
    dsimp only at h ⊢
    obtain ⟨deleted, hresult, hreply⟩ := Outcome.result_map_eq_ok_iff.mp h
    obtain rfl : deleted = true := Reply.truth.inj hreply
    cases scope with
    | whole => exact ⟨l.route p, hresult, rfl⟩
    | only i => exact ⟨i, hresult, rfl⟩

theorem not_resident_iff : ¬ c.Resident p ↔ ∀ i, (c.system.pool.shard i).record? p = none := by
  rw [Resident, not_exists]
  refine forall_congr' fun i => ?_
  rw [Shard.record?_eq_none_iff, Option.eq_none_iff_forall_ne_some, not_exists]

/-- A page that is not resident stays away until it is brought in. -/
theorem staysDeleted {d : Disk} {c₁ : Client l size} {log : List Entry}
    (h₁ : c₁.system.Kept capacity) (howns : (l.stripe (l.route p)).Owns p) (hgone : ¬ c₁.Resident p)
    (hdisk : c₁.system.disk.medium.pagePart p = ⟨(d.medium.pagePart p).kept, true⟩)
    (h : History NoTakeover c₁ log c) (hbrings : ∀ e ∈ c₁.errands log, e.concern p ≠ .brings) :
    StaysDeleted p d c₁ log c := by
  have hdiary (i : Fin l.width) := diary_of_history h i
  have hmapped (i : Fin l.width) : (c₁.system.backed i).shard.Mapped _ := (h₁ i).mapped
  have habsent (i : Fin l.width) := (hdiary i).absent (hmapped i) (not_resident_iff.mp hgone i)
    fun e he => hbrings e (List.mem_of_mem_filter he)
  -- a page that is not there is not dirty, so no shard writes it
  have hunwritten : ∀ e ∈ c₁.errands log, ∀ bytes, (p, bytes) ∉ Attempt.writes e.calls := by
    intro e he
    have hmem : e ∈ Errand.of e.shard (c₁.errands log) :=
      List.mem_filter.mpr ⟨he, decide_eq_true rfl⟩
    exact ((hdiary e.shard).accounted (hmapped e.shard) e hmem).unwritten
      ((habsent e.shard).2 e hmem)
  have hp : (c.system.backed (l.route p)).shard.table[p]? = none :=
    Shard.record?_eq_none_iff.mp (habsent (l.route p)).1
  have hunpin (dirty : Bool) :
      ((c.system.backed (l.route p)).unpin (l.stripe (l.route p)) p dirty).result = .ok false := by
    rw [Backed.unpin, if_pos howns, hp]
    rfl
  have hflush :
      ((c.system.backed (l.route p)).flush (l.stripe (l.route p)) p).result = .ok false := by
    rw [Backed.flush, if_pos howns, Backed.tryFlush, hp]
    rfl
  refine ⟨not_resident_iff.mpr fun i => (habsent i).1, ?_, ?_, hunwritten, fun hleaves => ?_⟩
  · rintro scope (rfl | rfl) dirty
    all_goals exact hunpin dirty
  · rintro scope (rfl | rfl)
    all_goals exact hflush
  · have hjournal := journal_of_history
      (B := fun d d' => d'.medium.pagePart p = d.medium.pagePart p) (h.both hleaves) And.left
      And.right
    rw [Medium.isDeallocated_eq, hjournal.pagePart_eq hdisk hunwritten]
    exact ⟨rfl, rfl⟩

/-- However a pool is used, short of creating a page that is resident, and whatever its disk refuses
to do: if the answer to a delete is true, the frame the page was in is wiped, and as long as nobody
brings the page in again it stays deleted. -/
theorem deleted_of_history {b : Blueprint} {built : AnyPool} (hbuild : b.build = .ok built)
    (hunloaded : b.Unloaded) (disk : Disk) (durable : Option Lsn) {log : List Entry}
    {c : Client built.layout built.size}
    (h : History NoTakeover (built.start disk durable) log c) (shard : Option Nat) (p : PageId)
    (hdelete : (c.take ⟨shard, .delete p⟩).result = .ok (.truth true)) :
    let c₁ := (c.take ⟨shard, .delete p⟩).state
    (∀ {i : Fin built.layout.width} {f : Fin built.size},
      (c.system.pool.shard i).table[p]? = some f → (c₁.system.pool.shard i).Wiped f) ∧
      ∀ {stretch : List Entry} {c' : Client built.layout built.size},
        History NoTakeover c₁ stretch c' →
          (∀ e ∈ c₁.errands stretch, e.concern p ≠ .brings) →
            StaysDeleted p c.system.disk c₁ stretch c' := by
  intro c₁
  have hkept := kept_of_history (kept_of_build hbuild hunloaded disk durable) h
  have hspared : NoTakeover log c ⟨shard, .delete p⟩ := noTakeover_of_none rfl
  have hkept₁ : c₁.Kept b.capacity := (keeps_take hkept _ hspared).kept
  obtain ⟨i, hresult, hstate⟩ := take_delete hdelete
  obtain ⟨howns, hdisk, hrecord⟩ := Backed.delete_of_true (hkept.system i).mapped hresult
  have hshard : c₁.system.pool.shard i =
      ((c.system.backed i).delete (built.layout.stripe i) p).state.shard := by
    rw [hstate, System.shard_onShard, if_pos rfl]
  -- the shard that answered is the one the page belongs to
  have hself {j : Fin built.layout.width} {c : Client built.layout built.size}
      (hc : c.Kept b.capacity) {f : Fin built.size}
      (hp : (c.system.pool.shard j).table[p]? = some f) : j = i :=
    Layout.eq_of_owns ((hc.system j).owned hp) howns
  refine ⟨fun {j f} hp => ?_, fun {stretch c'} hstretch hbrings => ?_⟩
  · obtain rfl := hself hkept hp
    rw [hshard]
    exact Backed.wiped_delete (hkept.system j) hp hresult
  · obtain rfl := Layout.route_eq_of_owns howns
    refine staysDeleted hkept₁.system howns ?_ ?_ hstretch hbrings
    · rintro ⟨j, f, hp⟩
      obtain rfl := hself hkept₁ hp
      rw [← hshard, Shard.record?_eq_none_iff] at hrecord
      exact absurd (hrecord.symm.trans hp) (by simp)
    · have hpart := c.system.disk.pagePart_after p p .deallocate
      rw [if_pos ⟨rfl, rfl⟩] at hpart
      rw [hstate, System.disk_onShard, hdisk]
      exact hpart

/-- Two frames. Page `0` is changed and deleted; other pages come and go, and when a page has to be
written to make room, and everything is flushed, it is never page `0`. -/
theorem deleted_of_history_two_frames :
    ∃ log c stretch c', History NoTakeover ((AnyPool.fresh (.alone .whole) 2).start
        (.onMedium (.memory .empty)) none) log c ∧
      (c.system.pool.shard ⟨0, by decide⟩).dirty? ⟨0, by decide⟩ = some true ∧
      let deleted := c.take ⟨none, .delete ⟨0, by decide⟩⟩
      deleted.result = .ok (.truth true) ∧
      (deleted.state.system.pool.shard ⟨0, by decide⟩).Wiped ⟨0, by decide⟩ ∧
      History NoTakeover deleted.state stretch c' ∧
      stretch.map Entry.answer = [.ok (.placed ⟨1, by decide⟩ 1), .ok (.placed ⟨2, by decide⟩ 0),
        .ok (.truth true), .ok (.placed ⟨3, by decide⟩ 0), .ok .done] ∧
      (deleted.state.errands stretch).map (fun e => (Attempt.writes e.calls).map Prod.fst) =
        [[], [], [], [⟨2, by decide⟩], []] ∧
      StaysDeleted ⟨0, by decide⟩ c.system.disk deleted.state stretch c' := by
  have h : History FetchesCreated ((AnyPool.fresh (.alone .whole) 2).start
      (.onMedium (.memory .empty)) none) [] _ := .start
  have h := h.step ⟨none, .newPage "a"⟩ trivial
  have h := h.step ⟨none, .unpin ⟨0, by decide⟩ true⟩ trivial
  have hbuild : Blueprint.build (.alone 2 1 0 none) = .ok (.fresh (.alone .whole) 2) := rfl
  have hspared {log log' : List Entry} {c : Client (.alone .whole) 2} (step : Step)
      (h : History FetchesCreated ((AnyPool.fresh (.alone .whole) 2).start
        (.onMedium (.memory .empty)) none) log c) : NoTakeover log' c step := by
    obtain ⟨-, hkept, hknown⟩ := noTakeover_of_fetchesCreated (kept_of_build hbuild trivial _ none)
      (known_of_build hbuild trivial _ none) h
    exact noTakeover_of_known hkept hknown step
  have hlog := (noTakeover_of_fetchesCreated (kept_of_build hbuild trivial _ none)
    (known_of_build hbuild trivial _ none) h).1
  -- from the delete on, the steps are those of a history of the whole and of one that starts there
  have h := h.step ⟨none, .delete ⟨0, by decide⟩⟩ trivial
  have hstretch := (h.rest NoTakeover).step ⟨none, .newPage "b"⟩ (hspared _ h)
  have h := h.step ⟨none, .newPage "b"⟩ trivial
  have hstretch := hstretch.step ⟨none, .newPage "c"⟩ (hspared _ h)
  have h := h.step ⟨none, .newPage "c"⟩ trivial
  have hstretch := hstretch.step ⟨none, .unpin ⟨2, by decide⟩ true⟩ (hspared _ h)
  have h := h.step ⟨none, .unpin ⟨2, by decide⟩ true⟩ trivial
  have hstretch := hstretch.step ⟨none, .newPage "d"⟩ (hspared _ h)
  have hstretch := hstretch.step ⟨none, .flushAll .ascending⟩ (noTakeover_of_none rfl)
  obtain ⟨hwiped, hstays⟩ := deleted_of_history hbuild trivial _ none hlog none
    ⟨0, by decide⟩ rfl
  refine ⟨_, _, _, _, hlog, rfl, rfl, hwiped rfl, hstretch, rfl, rfl, hstays hstretch ?_⟩
  have hconcerns : ∀ concern ∈ [Concern.nothing, .nothing, .nothing, .nothing, .nothing],
    concern ≠ .brings := by decide
  exact fun e he => hconcerns _ (List.mem_map_of_mem (f := fun e => e.concern ⟨0, by decide⟩) he)

end Client

end PageCache
