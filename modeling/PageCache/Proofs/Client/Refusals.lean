import PageCache.Proofs.Client.Product
import PageCache.Proofs.Store.Traced
import PageCache.Store.Volume

/-!
# What a refused delete leaves behind

A delete is refused if somebody has the page pinned, but the disk has been told by then that the
page may be reclaimed. So two runs of a pool, one of them without the deletes that were refused
(`System.unrefused`), come to the same pool and the same stored bytes, and differ in the marks on
the disk: a page is marked besides if a delete of it was refused and it was not written since
(`System.refused_deletes_only_mark`).

A pool does over related stores the same (`System.call_mirrors`), so it is enough to look at what a
single call does to the disk.
-/

namespace PageCache

open Outcome (Mirrors)

/-! ## Related stores -/

namespace Backed

variable {size : Nat} {δ : Type} [PageStore δ] {w : Backed size δ}

omit [PageStore δ] in
/-- A shard that refuses to drop a page is left as it was. -/
theorem state_discard_refused {p : PageId} (h : (w.discard p).result = .ok false) :
    (w.discard p).state = w := by
  unfold discard at h ⊢
  cases hp : w.shard.table[p]? with
  | none => rfl
  | some f =>
    simp only [hp] at h ⊢
    split
    · rfl
    · next hpins =>
      rw [if_neg hpins] at h
      exact absurd (Except.ok.inj h) (by simp)

/-- A refused delete has told the disk, and done nothing else. -/
theorem state_delete_refused {s : Stripe} {p : PageId} (h : (w.delete s p).result = .ok false) :
    (w.delete s p).state = { w with disk := (PageStore.deallocate w.disk p).1 } := by
  rw [delete] at h ⊢
  split
  · next howns =>
    rw [if_pos howns] at h
    exact state_discard_refused h
  · next howns =>
    rw [if_neg howns] at h
    exact absurd h (by simp)

end Backed

/-- The page that a call asks to delete, of the pool or of one shard. -/
def PoolOp.deletes? {l : Layout} {size : Nat} : PoolOp l size → Option PageId
  | .delete p | .direct _ (.delete p) => some p
  | _ => none

namespace System

variable {l : Layout} {size : Nat} {δ ε : Type} [PageStore δ] [PageStore ε] {R : δ → ε → Prop}
variable {w : System l size δ} {w' : System l size ε}

/-- The same pool over related stores. -/
structure Mirror (R : δ → ε → Prop) (w : System l size δ) (w' : System l size ε) : Prop where
  pool : w.pool = w'.pool
  disk : R w.disk w'.disk

/-- On stores that answer alike a shard answers alike. -/
theorem serve_mirrors (hR : StoreSimulation Anywhere R) (h : Mirror R w w') (i : Fin l.width)
    (op : ShardOp size) : Mirrors (Mirror R) (w.serve i op) (w'.serve i op) := by
  have hbacked : Backed.Mirror Anywhere R (w.backed i) (w'.backed i) :=
    ⟨congrArg (fun pool => pool.shard i) h.pool, .anywhere _, h.disk⟩
  obtain ⟨hresult, hstate⟩ := Backed.serve_mirrors hR (l.stripe i).within_anywhere hbacked op
  refine ⟨hresult, ?_, hstate.disk⟩
  show w.pool.setShard i _ = w'.pool.setShard i _
  rw [h.pool, hstate.shard]

/-- What is asked of the shards is the same, with the same answers, and so is what comes of it. -/
theorem scanned_mirrors (hR : StoreSimulation Anywhere R) (op : ShardOp size)
    (goesOn : Except Failure (ShardReply size) → Bool) (shards : List (Fin l.width))
    (h : Mirror R w w') : scanned op goesOn shards w = scanned op goesOn shards w' := by
  induction shards generalizing w w' with
  | nil => rfl
  | cons i rest ih =>
    obtain ⟨hresult, hstate⟩ := serve_mirrors hR h i op
    rw [scanned, scanned, hresult, ih hstate]

/-- A log is replayed alike. -/
theorem replay_mirrors (hR : StoreSimulation Anywhere R) (log : List (Exchange l size))
    (h : Mirror R w w') : Mirror R (w.replay log) (w'.replay log) := by
  induction log generalizing w w' with
  | nil => exact h
  | cons e log ih => exact ih (serve_mirrors hR h e.shard e.op).state

/-- A call of the pool is answered alike, and leaves stores that answer alike. -/
theorem call_mirrors (hR : StoreSimulation Anywhere R) (h : Mirror R w w') (c : PoolOp l size) :
    Mirrors (Mirror R) (w.call c) (w'.call c) := by
  have hturned : Mirror R (w.turnedBy c) (w'.turnedBy c) :=
    ⟨congrArg (fun pool => { pool with cursor := c.turn pool.cursor }) h.pool, h.disk⟩
  have hexchanges : w.exchanges c = w'.exchanges c := by
    rw [exchanges, exchanges, ← h.pool]
    exact scanned_mirrors hR _ _ _ hturned
  obtain ⟨hstate, e, hlast, hanswer⟩ := w.call_told c
  obtain ⟨hstate', e', hlast', hanswer'⟩ := w'.call_told c
  refine ⟨?_, ?_⟩
  · rw [hexchanges, hlast', Option.some.injEq] at hlast
    rw [hanswer, hanswer', hlast]
  · rw [hstate, hstate', hexchanges]
    exact replay_mirrors hR _ hturned

/-! ## Refusals -/

/-- The page that a call asks to delete, if that is refused. -/
def refused? (w : System l size δ) (c : PoolOp l size) : Option PageId :=
  match (w.call c).result with
  | .ok (.truth false) => c.deletes?
  | _ => none

/-- The pages of which a delete is refused in the course of the calls. -/
def refusals : List (PoolOp l size) → System l size δ → List PageId
  | [], _ => []
  | c :: calls, w => (w.refused? c).toList ++ refusals calls (w.call c).state

/-- The calls without the deletes that are refused. -/
def unrefused : List (PoolOp l size) → System l size δ → List (PoolOp l size)
  | [], _ => []
  | c :: calls, w =>
    let rest := unrefused calls (w.call c).state
    if (w.refused? c).isSome then rest else c :: rest

theorem after_concat (w : System l size δ) (calls : List (PoolOp l size)) (c : PoolOp l size) :
    w.after (calls ++ [c]) = ((w.after calls).call c).state :=
  List.foldl_append

theorem refusals_concat (calls : List (PoolOp l size)) (c : PoolOp l size) (w : System l size δ) :
    refusals (calls ++ [c]) w = refusals calls w ++ ((w.after calls).refused? c).toList := by
  induction calls generalizing w with
  | nil => exact List.append_nil _
  | cons c' calls ih =>
    rw [List.cons_append, refusals, refusals, ih, List.append_assoc]
    rfl

theorem unrefused_concat (calls : List (PoolOp l size)) (c : PoolOp l size) (w : System l size δ) :
    unrefused (calls ++ [c]) w =
      unrefused calls w ++ if ((w.after calls).refused? c).isSome then [] else [c] := by
  induction calls generalizing w with
  | nil =>
    exact (List.nil_append _).symm
  | cons c' calls ih =>
    rw [List.cons_append, unrefused, unrefused, ih]
    cases (w.refused? c').isSome <;> rfl

/-- All that a refused delete does is to tell the disk. -/
theorem state_call_refused {w : System l size δ} {c : PoolOp l size} {p : PageId}
    (h : w.refused? c = some p) :
    (w.call c).state = { w with disk := (PageStore.deallocate w.disk p).1 } := by
  have hshard (i : Fin l.width) (q : PageId)
      (hresult : (w.serve i (.delete q)).result = .ok (.truth false)) :
      (w.serve i (.delete q)).state = { w with disk := (PageStore.deallocate w.disk q).1 } := by
    obtain ⟨deleted, hfalse, htruth⟩ := Outcome.result_map_eq_ok_iff.mp hresult
    obtain rfl := ShardReply.truth.inj htruth
    have hfalse : ((w.backed i).delete (l.stripe i) q).result = .ok false := hfalse
    show (w.onShard i fun s b => b.delete s q).state = _
    rw [onShard, Outcome.state_inside, Backed.state_delete_refused hfalse]
    exact congrArg (System.mk · _) (w.pool.setShard_self i)
  unfold refused? at h
  split at h
  · next hresult =>
    cases c with
    | delete q =>
      obtain rfl := Option.some.inj h
      exact hshard (l.route q) q hresult
    | direct i op =>
      cases op with
      | delete q =>
        obtain rfl := Option.some.inj h
        exact hshard i q hresult
      | _ => exact absurd h (by simp [PoolOp.deletes?])
    | _ => exact absurd h (by simp [PoolOp.deletes?])
  · exact absurd h (by simp)

/-! ## What the disk is asked -/

/-- The same pool, with a list of the calls its disk gets from here on. -/
def traced (w : System l size δ) : System l size (Traced δ) :=
  ⟨w.pool, w.disk, []⟩

/-- What a call asks of the disk, as far as it succeeds. -/
def asks (w : System l size δ) (c : PoolOp l size) : List (PageId × PageCall) :=
  (w.traced.call c).state.disk.calls

def asksAll : List (PoolOp l size) → System l size δ → List (PageId × PageCall)
  | [], _ => []
  | c :: calls, w => w.asks c ++ asksAll calls (w.call c).state

theorem asksAll_concat (calls : List (PoolOp l size)) (c : PoolOp l size) (w : System l size δ) :
    asksAll (calls ++ [c]) w = asksAll calls w ++ (w.after calls).asks c := by
  induction calls generalizing w with
  | nil => exact List.append_nil _
  | cons c' calls ih =>
    rw [List.cons_append, asksAll, asksAll, ih, List.append_assoc]
    rfl

end System

/-! ## Two runs -/

namespace System

variable {l : Layout} {size : Nat} {n : Nat} {w v v' : System l size Disk} {c : PoolOp l size}

/-- The calls on the list tell what is marked after a call. -/
theorem isDeallocated_call (w : System l size Disk) (c : PoolOp l size) (p : PageId) :
    (w.call c).state.disk.medium.isDeallocated p =
      markedAfter p (w.asks c) (w.disk.medium.isDeallocated p) := by
  have hstart : Mirror (Traced.Tells w.disk.medium.isDeallocated) w.traced w :=
    ⟨rfl, rfl, fun _ => rfl⟩
  exact (call_mirrors (Traced.simulation_tells _ _) hstart c).state.disk.isDeallocated p

/-- Pools over disks that differ in their marks ask the same of them. -/
theorem asks_eq (h : Mirror (Disk.SameBut n) v v') (c : PoolOp l size) : v.asks c = v'.asks c := by
  have hstart : Mirror (Traced.SameBut n) v.traced v'.traced := ⟨h.pool, h.disk, rfl⟩
  exact (call_mirrors (Traced.simulation_sameBut _ n) hstart c).state.disk.calls

/-- For a delete that is refused the store is asked one thing: to hand the page back. -/
theorem asks_of_refused {p : PageId} (h : w.refused? c = some p) :
    w.asks c = [(p, .deallocate)] := by
  have hstart : Mirror (Traced.Tells w.disk.medium.isDeallocated) w.traced w :=
    ⟨rfl, rfl, fun _ => rfl⟩
  have hresult := (call_mirrors (Traced.simulation_tells _ _) hstart c).result
  have htraced : w.traced.refused? c = some p := by
    rw [← h, refused?, refused?, hresult]
  rw [asks, state_call_refused htraced]
  rfl

/-- A delete of page `p` is refused in the course of the calls, and the page is not written after
that. -/
def RefusedSince (calls : List (PoolOp l size)) (w : System l size Disk) (p : PageId) : Prop :=
  ∃ before c since, calls = before ++ c :: since ∧ (w.after before).refused? c = some p ∧
    ¬ Writes p (asksAll since ((w.after before).call c).state)

/-- A delete was refused since the page was last written if the last call is such a delete, or if
there was one before and the last call does not write the page. -/
theorem refusedSince_concat (calls : List (PoolOp l size)) (c : PoolOp l size)
    (w : System l size Disk) (p : PageId) :
    RefusedSince (calls ++ [c]) w p ↔
      (w.after calls).refused? c = some p ∨
        RefusedSince calls w p ∧ ¬ Writes p ((w.after calls).asks c) := by
  have hafter (before : List (PoolOp l size)) (c' : PoolOp l size) (since : List (PoolOp l size)) :
      w.after (before ++ c' :: since) = ((w.after before).call c').state.after since :=
    List.foldl_append
  constructor
  · rintro ⟨before, c', since, hcalls, hrefused, hwrites⟩
    rcases List.eq_nil_or_concat since with rfl | ⟨since, last, rfl⟩
    · -- the refusal is the last of the calls
      obtain ⟨rfl, hlast⟩ := List.append_inj' hcalls rfl
      exact .inl ((List.cons.inj hlast).1 ▸ hrefused)
    · rw [List.concat_eq_append, ← List.cons_append, ← List.append_assoc] at hcalls
      obtain ⟨rfl, hlast⟩ := List.append_inj' hcalls rfl
      obtain rfl := (List.cons.inj hlast).1
      rw [List.concat_eq_append, asksAll_concat, ← hafter, writes_append, not_or] at hwrites
      exact .inr ⟨⟨before, c', since, rfl, hrefused, hwrites.1⟩, hwrites.2⟩
  · rintro (hrefused | ⟨⟨before, c', since, rfl, hrefused, hwrites⟩, hlast⟩)
    · exact ⟨calls, c, [], rfl, hrefused, not_writes_nil p⟩
    · refine ⟨before, c', since ++ [c], by rw [List.append_assoc, List.cons_append], hrefused, ?_⟩
      rw [asksAll_concat, ← hafter, writes_append, not_or]
      exact ⟨hwrites, hlast⟩

/-- What two runs that differ in refused deletes have in common after `calls`, one of them being in
state `v` and the other one in state `v'`. -/
structure MarkedBesides (calls : List (PoolOp l size)) (w v v' : System l size Disk) : Prop where
  mirror : Mirror (Disk.SameBut (w.refusals calls).length) v v'
  isDeallocated : ∀ p, v.disk.medium.isDeallocated p = true ↔
    v'.disk.medium.isDeallocated p = true ∨ RefusedSince calls w p

namespace MarkedBesides

variable {calls : List (PoolOp l size)}

/-- Before the first call there is one state. -/
theorem start (w : System l size Disk) : MarkedBesides [] w w w where
  mirror := ⟨rfl, .refl _, rfl⟩
  isDeallocated p := by
    refine (or_iff_left ?_).symm
    rintro ⟨before, c, since, hnil, -⟩
    exact absurd hnil (by simp)

/-- A delete is refused to the one run, and left out in the other. -/
theorem refusal {p : PageId} (h : MarkedBesides calls w (w.after calls) v')
    (hrefused : (w.after calls).refused? c = some p) :
    MarkedBesides (calls ++ [c]) w (w.after (calls ++ [c])) v' where
  mirror := by
    rw [refusals_concat, hrefused, List.length_append, after_concat, state_call_refused hrefused]
    exact ⟨h.mirror.pool, h.mirror.disk.medium.deallocate_left p, h.mirror.disk.faults⟩
  isDeallocated q := by
    have hspares : ¬ Writes q [(p, PageCall.deallocate)] := by
      rintro ⟨bytes, hmem⟩
      exact absurd (Prod.mk.inj (List.mem_singleton.mp hmem)).2 (by simp)
    have hmarked : markedAfter q [(p, .deallocate)] ((w.after calls).disk.medium.isDeallocated q) =
        if p = q then true else (w.after calls).disk.medium.isDeallocated q := rfl
    rw [after_concat, isDeallocated_call, refusedSince_concat, asks_of_refused hrefused, hmarked,
      and_iff_left hspares, hrefused, Option.some.injEq]
    by_cases hpq : p = q
    · simp only [hpq, if_true, true_or, or_true]
    · rw [if_neg hpq, h.isDeallocated, or_iff_right (a := p = q) hpq]

/-- Both runs go on with the same call. -/
theorem call (h : MarkedBesides calls w (w.after calls) v')
    (hdone : (w.after calls).refused? c = none) :
    MarkedBesides (calls ++ [c]) w (w.after (calls ++ [c])) (v'.call c).state where
  mirror := by
    rw [refusals_concat, hdone, Option.toList_none, List.append_nil, after_concat]
    exact (call_mirrors (Disk.simulation_sameBut _ _) h.mirror c).state
  isDeallocated p := by
    rw [after_concat, isDeallocated_call, isDeallocated_call, refusedSince_concat, hdone,
      asks_eq h.mirror]
    by_cases hwrites : Writes p (v'.asks c)
    · -- the page was written, and that it was marked before is forgotten
      rw [markedAfter_of_writes hwrites _ (v'.disk.medium.isDeallocated p)]
      simp only [hwrites, not_true, and_false, reduceCtorEq, or_false]
    · have hmarked := h.isDeallocated p
      rw [markedAfter_of_not_writes _ hwrites,
        markedAfter_of_not_writes (v'.disk.medium.isDeallocated p) hwrites, Bool.or_eq_true,
        Bool.or_eq_true, hmarked]
      simp only [hwrites, not_false_eq_true, and_true, reduceCtorEq, false_or]
      exact or_right_comm

end MarkedBesides

/-- Deletes that are refused change nothing but marks: a run of any calls and the run without those
deletes have the same shards in the end, and media that differ only in the count of hand-backs and
in the marks of pages that were refused since they were last written. -/
theorem refused_deletes_only_mark (w : System l size Disk) (calls : List (PoolOp l size)) :
    MarkedBesides calls w (w.after calls) (w.after (w.unrefused calls)) := by
  -- over the calls, the last of them split off: it is made in both runs, or it is refused and left
  -- out of one
  induction calls using List.reverseRecOn with
  | nil => exact .start w
  | append_singleton calls c ih =>
    rw [unrefused_concat]
    cases hrefused : (w.after calls).refused? c with
    | none =>
      rw [if_neg (by simp), after_concat _ (w.unrefused calls)]
      exact ih.call hrefused
    | some p =>
      rw [if_pos (by simp), List.append_nil]
      exact ih.refusal hrefused

/-- With one frame: a page is created, and a delete of it is refused because it is pinned. It stays
pinned, and the disk has it marked, which it has not if the delete is left out. -/
theorem marked_by_refused_delete :
    let w : System (.alone .whole) 1 Disk := .fresh _ _ (.onMedium (.memory .empty))
    let calls : List (PoolOp (.alone .whole) 1) := [.newPage, .delete ⟨0, by decide⟩]
    w.unrefused calls = [.newPage] ∧
      ((w.after calls).pool.shard (Layout.first _)).pinCount? ⟨0, by decide⟩ = some 1 ∧
      (w.after calls).disk.medium.isDeallocated ⟨0, by decide⟩ = true ∧
      (w.after (w.unrefused calls)).disk.medium.isDeallocated ⟨0, by decide⟩ = false ∧
      (w.after calls).disk.snapshot = .memory 0 0 1 ∧
      (w.after (w.unrefused calls)).disk.snapshot = .memory 0 0 0 :=
  ⟨rfl, rfl, rfl, rfl, rfl, rfl⟩

end System

end PageCache
