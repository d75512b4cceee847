import Mathlib.Data.Set.Card
import PageCache.Proofs.Client.Numbering
import PageCache.Proofs.Client.Transparent

/-!
# The ideal pool

A pool with room for every page would not need frames, shards or a disk: what it answers is told by
the answers before. `Ledger.answer` says what that is, and `Ideal.log` is the log of such a pool. A
pool that answers a client in the same way (`Faithful`) shows nothing of how it is built, and two
that do cannot be told apart (`Faithful.iff_answers_eq`).
-/

namespace PageCache

/-! ## Pages in use -/

namespace Ledger

/-- What one answer adds, with deletions of pages that were never created left out. -/
def follow (L : Ledger) (entry : Entry) : Ledger :=
  let next := L.record entry
  { next with deleted := next.deleted.filter (· ∈ next.created) }

/-- What the answers of `log` tell of the pages that were created: those in `deleted` have been
deleted since. -/
def current (log : List Entry) : Ledger :=
  log.foldl follow empty

/-- How many guards there are on page `p`. -/
noncomputable def guards (L : Ledger) (p : PageId) : Nat :=
  {name | (L.held name).map Prod.fst = some p}.ncard

@[simp]
theorem current_concat (log : List Entry) (entry : Entry) :
    current (log ++ [entry]) = (current log).follow entry := by
  rw [current, List.foldl_append]
  rfl

end Ledger

/-- What a client asks of pages in use: it works through guards, and fetches a page only after it
was created and before it is deleted. -/
def Op.InUse (L : Ledger) : Op → Prop
  | .newGuard _ | .readGuard _ | .writeGuard .. | .dropGuard _ => True
  | .fetchGuard _ p _ => p ∈ L.created ∧ p ∉ L.deleted
  | .delete _ | .flushAll _ => True
  | _ => False

/-! ## Pages in use stay in use -/

/-- Pages are deleted after they were created, and not while somebody holds them. -/
structure Ledger.Live (L : Ledger) : Prop where
  created : ∀ p ∈ L.deleted, p ∈ L.created
  held : ∀ name p access, L.held name = some (p, access) → p ∉ L.deleted

namespace Ledger

variable {L : Ledger} {entry : Entry} {name : String} {p : PageId} {access : Access}

/-- Whoever holds a page did so before, or has just got it. -/
theorem held_record (h : (L.record entry).held name = some (p, access)) :
    L.held name = some (p, access) ∨
      (entry.step.op = .newGuard name ∧ ∃ q, entry.answer = .ok (.newGuard p q)) ∨
        entry.step.op = .fetchGuard access p name := by
  -- a name that is given out anew changes what that name holds
  have hupdate {name' : String} {guard : Option (PageId × Access)}
      (h : Function.update L.held name' guard name = some (p, access)) :
      L.held name = some (p, access) ∨ (name = name' ∧ guard = some (p, access)) := by
    rw [Function.update_apply] at h
    split at h
    · next hname => exact .inr ⟨hname, h⟩
    · exact .inl h
  unfold record at h
  split at h
  · exact .inl h
  · next name' q q' hop hanswer =>
    obtain h | ⟨rfl, hguard⟩ := hupdate h
    · exact .inl h
    · obtain ⟨rfl, -⟩ := Prod.mk.inj (Option.some.inj hguard)
      exact .inr (.inl ⟨hop, q', hanswer⟩)
  · next access' q name' _ hop hanswer =>
    obtain h | ⟨rfl, hguard⟩ := hupdate h
    · exact .inl h
    · obtain ⟨rfl, rfl⟩ := Prod.mk.inj (Option.some.inj hguard)
      exact .inr (.inr hop)
  · unfold write at h
    split at h <;> exact .inl h
  · obtain h | ⟨-, hguard⟩ := hupdate h
    · exact .inl h
    · exact absurd hguard (by simp)
  · exact .inl h
  · exact .inl h

/-- What is deleted was so before, or has just been deleted. -/
theorem mem_deleted_record (h : p ∈ (L.record entry).deleted) :
    p ∈ L.deleted ∨ (entry.step.op = .delete p ∧ entry.answer = .ok (.truth true)) := by
  unfold record at h
  split at h
  · exact .inl h
  · exact .inl h
  · exact .inl h
  · unfold write at h
    split at h <;> exact .inl h
  · exact .inl h
  · next q hop hanswer =>
    obtain rfl | h := List.mem_cons.mp h
    · exact .inr ⟨hop, hanswer⟩
    · exact .inl h
  · exact .inl h

/-- Pages in use stay in use if new pages are new, deleted pages are not fetched, and pages that are
held are not deleted. -/
theorem Live.follow (h : L.Live) (entry : Entry)
    (hnew : ∀ {name p q}, entry.step.op = .newGuard name → entry.answer = .ok (.newGuard p q) →
      p ∉ L.created)
    (hfetch : ∀ {access p name}, entry.step.op = .fetchGuard access p name → p ∉ L.deleted)
    (hdelete : ∀ {p}, entry.step.op = .delete p → entry.answer = .ok (.truth true) →
      ∀ name access, L.held name ≠ some (p, access)) : (L.follow entry).Live where
  created p hp := of_decide_eq_true (List.mem_filter.mp hp).2
  held name p access hheld hdeleted := by
    have hdeleted := mem_deleted_record (List.mem_filter.mp hdeleted).1
    obtain hold | ⟨hop, q, hanswer⟩ | hop := held_record hheld
    · obtain hdeleted | ⟨hop, hanswer⟩ := hdeleted
      · exact h.held name p access hold hdeleted
      · exact hdelete hop hanswer name access hold
    · obtain hdeleted | ⟨hop', -⟩ := hdeleted
      · exact hnew hop hanswer (h.created p hdeleted)
      · exact absurd (hop.symm.trans hop') (by simp)
    · obtain hdeleted | ⟨hop', -⟩ := hdeleted
      · exact hfetch hop hdeleted
      · exact absurd (hop.symm.trans hop') (by simp)

end Ledger

/-! ## What the answers have to be -/

/-- What the ideal pool answers that has been asked for `k` new pages before. -/
noncomputable def Ledger.answer (L : Ledger) (k : Nat) : Op → Except Failure Reply
  | .newGuard _ => (PageId.nth k).map fun p => .newGuard p p
  | .fetchGuard _ p _ =>
    if L.guards p < Frame.maxPins then .ok (.guarding p) else .error (.violation .pinOverflow)
  | .readGuard name =>
    match L.held name with
    | none => .ok (.noSuchSlot name)
    | some (p, _) => .ok (.bytes (L.bytes p))
  | .writeGuard name _ =>
    match L.held name with
    | none => .ok (.noSuchSlot name)
    | some (_, .read) => .ok (.readOnly name)
    | some (_, .write) => .ok .nothing
  | .dropGuard name =>
    match L.held name with
    | none => .ok (.noSuchSlot name)
    | some _ => .ok .nothing
  | .delete p => .ok (.truth (L.guards p = 0))
  | .flushAll _ => .ok .done
  | _ => .ok .nothing

/-! ## What a pool has of it -/

namespace Client

variable {l : Layout} {size : Nat} {capacity : Nat} {c : Client l size} {L : Ledger}

/-- The guards on a page are as many as names stand for one. -/
theorem Named.guards_eq {guards : Std.ExtTreeMap String (Guard l size)} (h : Named L guards)
    (p : PageId) : L.guards p = (grips (held guards) p).length := by
  let entries := guards.toList.filter fun entry => entry.2.handle.page = p
  have hgrips : (grips (held guards) p).length = (entries.map Prod.fst).length := by
    rw [grips, held, List.length_map, List.length_map, List.filter_map, List.length_map]
    rfl
  -- no name stands for two guards, so names may be counted for guards
  have hnodup : (entries.map Prod.fst).Nodup := by
    have hkeys : (guards.toList.map Prod.fst).Nodup := by
      refine List.pairwise_map.mpr (guards.distinct_keys_toList.imp ?_)
      rintro ⟨name, _⟩ ⟨name', _⟩ hne rfl
      exact hne Std.ReflCmp.compare_self
    exact hkeys.sublist (List.filter_sublist.map Prod.fst)
  have hnames : {name | (L.held name).map Prod.fst = some p} =
      ((entries.map Prod.fst).toFinset : Set String) := by
    ext name
    have hmem : name ∈ entries.map Prod.fst ↔
        ∃ g, guards[name]? = some g ∧ g.handle.page = p := by
      simp [entries, Std.ExtTreeMap.mem_toList_iff_getElem?_eq_some]
    rw [Finset.mem_coe, List.mem_toFinset, hmem, Set.mem_ofPred_eq, h name, Option.map_map,
      Option.map_eq_some_iff]
    rfl
  rw [Ledger.guards, hnames, Set.ncard_coe_finset, List.toFinset_card_of_nodup hnodup, hgrips]

/-- A page that was never created shows nothing, deleted or not. -/
theorem Coherent.follow {entry : Entry} (h : c.Coherent capacity (L.record entry)) :
    c.Coherent capacity (L.follow entry) where
  kept := h.kept
  named := h.named
  accounts p := by
    have hsound := h.accounts p
    refine ⟨hsound.resident, hsound.pristine, hsound.pins, hsound.placed, hsound.clean,
      fun hcreated hdeleted => hsound.shown hcreated fun hmem => hdeleted ?_⟩
    have hcreated : p ∈ (L.record entry).created := hcreated
    exact List.mem_filter.mpr ⟨hmem, decide_eq_true hcreated⟩

end Client

/-! ## The ideal pool -/

/-- A new page is asked for. -/
def Op.isNew : Op → Bool
  | .newGuard _ => true
  | _ => false

/-- The operation, in whatever order a flush takes the pages. -/
def Op.plain : Op → Op
  | .flushAll _ => .flushAll .ascending
  | op => op

def Entry.plain (entry : Entry) : Entry :=
  ⟨⟨none, entry.step.op.plain⟩, entry.answer⟩

/-- How many new pages were asked for. -/
def creations (log : List Entry) : Nat :=
  log.countP fun entry => entry.step.op.isNew

/-- The log of the ideal pool that has been asked to do `ops`. -/
noncomputable def Ideal.log (ops : List Op) : List Entry :=
  ops.foldl (fun log op => log ++ [⟨⟨none, op⟩, (Ledger.current log).answer (creations log) op⟩]) []

theorem Ideal.log_concat (ops : List Op) (op : Op) :
    Ideal.log (ops ++ [op]) = Ideal.log ops ++
      [⟨⟨none, op⟩, (Ledger.current (Ideal.log ops)).answer (creations (Ideal.log ops)) op⟩] := by
  rw [Ideal.log, List.foldl_append]
  rfl

/-- The answers of `log` are those of the ideal pool. -/
def Faithful (log : List Entry) : Prop :=
  log.map Entry.plain = Ideal.log (log.map fun entry => entry.step.op.plain)

/-! Nothing that is told depends on the order a flush takes the pages in. -/

theorem Ledger.record_plain (L : Ledger) (entry : Entry) :
    L.record entry.plain = L.record entry := by
  obtain ⟨⟨shard, op⟩, answer⟩ := entry
  cases op <;> rfl

theorem Ledger.current_plain (log : List Entry) : current (log.map Entry.plain) = current log := by
  have hfollow : (fun (L : Ledger) entry => L.follow (Entry.plain entry)) = follow :=
    funext fun L => funext fun entry => by rw [follow, follow, record_plain]
  rw [current, current, List.foldl_map, hfollow]

theorem creations_plain (log : List Entry) : creations (log.map Entry.plain) = creations log := by
  rw [creations, creations, List.countP_map]
  congr 1
  funext ⟨⟨shard, op⟩, answer⟩
  cases op <;> rfl

theorem Ledger.answer_plain (L : Ledger) (k : Nat) (op : Op) :
    L.answer k op.plain = L.answer k op := by
  cases op <;> rfl

@[simp]
theorem creations_concat (log : List Entry) (entry : Entry) :
    creations (log ++ [entry]) = creations log + if entry.step.op.isNew then 1 else 0 := by
  simp [creations, List.countP_cons]

namespace Faithful

variable {log log' : List Entry} {entry : Entry}

theorem nil : Faithful [] :=
  rfl

/-- A log is faithful if it was so before the last call and that was answered as the ledger has it.
-/
theorem concat_iff : Faithful (log ++ [entry]) ↔
    Faithful log ∧ entry.answer = (Ledger.current log).answer (creations log) entry.step.op := by
  simp only [Faithful, List.map_append, List.map_cons, List.map_nil, Ideal.log_concat]
  constructor
  · intro h
    obtain ⟨hlog, hentry⟩ := List.append_inj' h rfl
    refine ⟨hlog, ?_⟩
    have hanswer := congrArg Entry.answer (List.singleton_inj.mp hentry)
    rwa [← hlog, Ledger.current_plain, creations_plain, Ledger.answer_plain] at hanswer
  · rintro ⟨hlog, hanswer⟩
    rw [← hlog, Ledger.current_plain, creations_plain, Ledger.answer_plain, ← hanswer]
    rfl

/-- Pools that answer alike have the same log, but for the order of flushes. -/
theorem plain_eq_iff
    (hops : log.map (fun entry => entry.step.op.plain) =
      log'.map fun entry => entry.step.op.plain) :
    log.map Entry.plain = log'.map Entry.plain ↔ log.map Entry.answer = log'.map Entry.answer := by
  have hzip (log : List Entry) : log.map Entry.plain = List.zipWith (fun op answer =>
      (⟨⟨none, op⟩, answer⟩ : Entry)) (log.map fun entry => entry.step.op.plain)
        (log.map Entry.answer) := by
    rw [List.zipWith_map, List.zipWith_self]
    rfl
  constructor
  · intro h
    have hanswers := congrArg (List.map Entry.answer) h
    rwa [List.map_map, List.map_map] at hanswers
  · intro h
    rw [hzip log, hzip log', hops, h]

/-- Of a pool that is asked the same as one whose answers are those of the ideal pool, it is enough
to know that it answers alike. -/
theorem iff_answers_eq (h : Faithful log')
    (hops : log.map (fun entry => entry.step.op.plain) =
      log'.map fun entry => entry.step.op.plain) :
    Faithful log ↔ log.map Entry.answer = log'.map Entry.answer := by
  rw [← plain_eq_iff hops, Faithful, hops, ← h]

/-- The `k`th new page that is asked for is page `k`, while there are ids left. -/
theorem creations_eq (h : Faithful log) :
    (log.filter fun entry => entry.step.op.isNew).map Entry.answer =
      (List.range (creations log)).map fun k => (PageId.nth k).map fun p => .newGuard p p := by
  induction log using List.reverseRecOn with
  | nil => rfl
  | append_singleton log entry ih =>
    obtain ⟨hlog, hanswer⟩ := concat_iff.mp h
    rw [List.filter_append, List.map_append, ih hlog, creations_concat]
    cases hnew : entry.step.op.isNew with
    | false => simp [hnew]
    | true =>
      obtain ⟨⟨shard, op⟩, answer⟩ := entry
      cases op with
      | newGuard name =>
        have hanswer : answer = (PageId.nth (creations log)).map fun p => .newGuard p p := hanswer
        simp [hnew, List.range_succ, hanswer]
      | _ => exact absurd hnew (by simp [Op.isNew])

end Faithful

end PageCache
