import PageCache.Proofs.Flusher.Atomic
import PageCache.Proofs.Pool.Build
import PageCache.Proofs.Shard.Fate

/-!
# A flush of everything loses nothing

A flush of all pages of a shard looks at each of them once and comes back to those that a writer
had. By then they may have been evicted, deleted, or flushed by somebody else, and a page that is
not there any more is passed over. Even so every page that was dirty at the first look has been
written or deleted when the flush is over (`Race.sweep_accounts`).

As long as neither has happened to a page it is still dirty where it was, and the flush still has it
on its list (`Race.Owes`). A turn either accounts for the page (`Race.Accounts`) or keeps it so
(`Race.owes_turn?`), and a flush that owes a page is not over.
-/

namespace PageCache

variable {l : Layout} {size : Nat}

/-! ## Sections -/

namespace Backed

variable {δ : Type} [PageStore δ] {s : Stripe} {op : ShardOp size}

/-- The records of a shard agree after every section, if a new page has an id that is not resident.
-/
theorem mapped_underLock {w : Backed size δ} (h : w.shard.Mapped w.shard.free)
    (latched : Fin size → Bool) (hnew : op = .newPage → w.newIdAbsent = true) :
    (w.underLock latched s op).shard.Mapped (w.underLock latched s op).shard.free := by
  cases op with
  | fetch p => exact placed_fetch h p
  | newPage => exact placed_newPage h fun _ => makesAbsent_of_newIdAbsent (hnew rfl)
  | unpin p dirty => exact placed_unpin h p dirty
  | delete p => exact placed_delete h p
  | flush p => exact placed_tryFlush h latched p
  | flushAll visit => exact placed_sweep h latched _
  | reach f g => exact h.setFrame rfl

/-- In a section a dirty page stays dirty in its frame, is written, or is deleted. -/
theorem fate_underLock {w : Backed size (Recorded δ)} {p : PageId} {f : Fin size}
    (h : w.shard.Mapped w.shard.free) (hdirty : w.Dirty p f) (latched : Fin size → Bool)
    (hnew : op = .newPage → w.newIdAbsent = true) :
    Fate p f w (w.underLock latched s op) ∨
      op = .delete p ∧ (w.delete s p).result = .ok true := by
  cases op with
  | fetch q => exact .inl (fate_fetch h hdirty q)
  | newPage => exact .inl (fate_newPage h (makesAbsent_of_newIdAbsent (hnew rfl)) hdirty)
  | unpin q dirty => exact .inl (.inl (dirty_unpin hdirty q dirty))
  | delete q =>
    rcases dirty_delete h hdirty q with hstill | ⟨rfl, hdeleted⟩
    · exact .inl (.inl hstill)
    · exact .inr ⟨rfl, hdeleted⟩
  | flush q => exact .inl ((safe_tryFlush h hdirty latched q).fate hdirty)
  | flushAll visit => exact .inl ((safe_sweep h hdirty latched _).fate hdirty)
  | reach g edit => exact .inl (.inl (hdirty.setFrame id))

end Backed

/-! ## Turns -/

variable {δ : Type} [PageStore δ] {i j : Fin l.width} {p : PageId} {f : Fin size}

/-- No new page of the race gets an id that is resident. -/
def Race.newIdsAbsent : List (Turn l size) → Race l size δ → Bool
  | [], _ => true
  | turn :: turns, r =>
    (match turn with
      | .other (.ask i .newPage) => (r.shared.system.backed i).newIdAbsent
      | _ => true) &&
    match r.turn? turn with
    | none => true
    | some r' => newIdsAbsent turns r'

/-- A flush that has not returned. -/
def Flusher.Running : Flusher l size → Prop
  | .ended _ => False
  | _ => True

/-- The chores that a flush still has. -/
def Flusher.left : Flusher l size → List (Chore l)
  | .ready _ left | .waiting _ _ left => left
  | .ended _ => []

theorem Flusher.left_after (resident : Bool) (chores : List (Chore l)) :
    (Flusher.after resident chores : Flusher l size).left = chores := by
  cases chores <;> rfl

namespace Shared

theorem backed_asked (t : Shared l size δ) (i : Fin l.width) (op : ShardOp size) :
    (t.asked i op).system.backed i =
      (t.system.backed i).underLock (t.latched i) (l.stripe i) op := by
  unfold asked
  rw [System.backed_onShard]
  rfl

theorem shard_asked_of_ne (t : Shared l size δ) (op : ShardOp size) (hij : j ≠ i) :
    (t.asked j op).system.pool.shard i = t.system.pool.shard i := by
  unfold asked
  rw [System.shard_onShard, if_neg hij]

/-- An act is a section of shard `i`, or it leaves the shard as it is. -/
theorem act?_cases {t t' : Shared l size δ} {a : Act l size} (h : t.act? a = some t')
    (i : Fin l.width) :
    t'.system.pool.shard i = t.system.pool.shard i ∨
      ∃ op, a = .ask i op ∧ t'.system.backed i =
        (t.system.backed i).underLock (t.latched i) (l.stripe i) op := by
  cases a with
  | turn =>
    obtain rfl := Option.some.inj h
    exact .inl rfl
  | ask j op =>
    obtain ⟨-, h⟩ := Option.ite_none_right_eq_some.mp h
    obtain rfl := Option.some.inj h
    by_cases hij : j = i
    · subst hij
      exact .inr ⟨op, rfl, t.backed_asked j op⟩
    · exact .inl (t.shard_asked_of_ne op hij)
  | latch j f =>
    obtain ⟨-, h⟩ := Option.ite_none_left_eq_some.mp h
    obtain rfl := Option.some.inj h
    exact .inl rfl
  | release j f =>
    obtain ⟨-, h⟩ := Option.ite_none_right_eq_some.mp h
    obtain rfl := Option.some.inj h
    exact .inl rfl

end Shared

/-- An operation that does no more than to write pages back. -/
def ShardOp.Flushes : ShardOp size → Prop
  | .flush _ | .flushAll _ => True
  | _ => False

namespace Race

/-- A turn of the flush is a section, too, or it leaves the shard as it is. -/
theorem flush?_cases {r r' : Race l size δ} (h : r.flush? = some r') (i : Fin l.width) :
    r'.shared.system.pool.shard i = r.shared.system.pool.shard i ∨
      ∃ op : ShardOp size, op.Flushes ∧ r'.shared.system.backed i =
        (r.shared.system.backed i).underLock (r.shared.latched i) (l.stripe i) op := by
  obtain ⟨t, place⟩ := r
  cases place with
  | ended result => exact absurd h (by simp [flush?])
  | waiting j g left =>
    obtain ⟨-, h⟩ := Option.ite_none_left_eq_some.mp h
    obtain rfl := Option.some.inj h
    exact .inl rfl
  | ready resident left =>
    cases left with
    | nil =>
      obtain rfl := Option.some.inj h
      exact .inl rfl
    | cons chore rest =>
      obtain rfl := Option.some.inj h
      -- a chore of another shard is none of this one's business
      cases chore with
      | page j q =>
        by_cases hij : j = i
        · subst hij
          refine .inr ⟨.flush q, trivial, ?_⟩
          exact System.backed_onShard t.system j fun _ b => b.tryFlush (t.latched j) q
        · left
          exact (t.system.shard_onShard j i fun _ b => b.tryFlush (t.latched j) q).trans
            (if_neg hij)
      | sweep j visit =>
        by_cases hij : j = i
        · subst hij
          refine .inr ⟨.flushAll visit, trivial, ?_⟩
          exact System.backed_onShard t.system j fun _ b => b.sweepAll (t.latched j) visit
        · left
          exact (t.system.shard_onShard j i fun _ b => b.sweepAll (t.latched j) visit).trans
            (if_neg hij)

/-- Whoever has the turn, it is a section of shard `i`, or the shard stays as it is. -/
theorem turn?_cases {r r' : Race l size δ} {turn : Turn l size} (h : r.turn? turn = some r')
    (i : Fin l.width) :
    r'.shared.system.pool.shard i = r.shared.system.pool.shard i ∨
      ∃ op : ShardOp size, (turn = .other (.ask i op) ∨ op.Flushes) ∧
        r'.shared.system.backed i =
          (r.shared.system.backed i).underLock (r.shared.latched i) (l.stripe i) op := by
  cases turn with
  | flusher =>
    rcases flush?_cases h i with hsame | ⟨op, hop, hbacked⟩
    · exact .inl hsame
    · exact .inr ⟨op, .inr hop, hbacked⟩
  | other a =>
    obtain ⟨t', hact, rfl⟩ := Option.map_eq_some_iff.mp h
    rcases Shared.act?_cases hact i with hsame | ⟨op, rfl, hbacked⟩
    · exact .inl hsame
    · exact .inr ⟨op, .inl rfl, hbacked⟩

/-- The table and the frames of shard `i` agree. -/
def Mapped (i : Fin l.width) (r : Race l size δ) : Prop :=
  (r.shared.system.pool.shard i).Mapped (r.shared.system.pool.shard i).free

section

variable {r r' : Race l size δ} {turn : Turn l size} {turns : List (Turn l size)}

theorem newIdAbsent_of_ask (hnew : newIdsAbsent (.other (.ask i .newPage) :: turns) r = true) :
    (r.shared.system.backed i).newIdAbsent = true := by
  unfold newIdsAbsent at hnew
  rw [Bool.and_eq_true] at hnew
  exact hnew.1

theorem newIdsAbsent_rest (hnew : newIdsAbsent (turn :: turns) r = true)
    (hmove : r.turn? turn = some r') : newIdsAbsent turns r' = true := by
  unfold newIdsAbsent at hnew
  rw [Bool.and_eq_true, hmove] at hnew
  exact hnew.2

/-- The section of a turn makes a new page only if that is what was asked for. -/
theorem newIdAbsent_of_op {op : ShardOp size} (hnew : newIdsAbsent (turn :: turns) r = true)
    (hturn : turn = .other (.ask i op) ∨ op.Flushes) (hop : op = .newPage) :
    (r.shared.system.backed i).newIdAbsent = true := by
  subst hop
  rcases hturn with rfl | hflushes
  · exact newIdAbsent_of_ask hnew
  · exact hflushes.elim

/-- Whoever has the turn, the records go on to agree. -/
theorem mapped_turn? (h : r.Mapped i) (hmove : r.turn? turn = some r')
    (hnew : newIdsAbsent (turn :: turns) r = true) : r'.Mapped i := by
  -- a turn that is a section of the shard keeps its records; no other turn touches them
  rcases turn?_cases hmove i with hsame | ⟨op, hturn, hbacked⟩
  · unfold Mapped
    rw [hsame]
    exact h
  · have hmapped := Backed.mapped_underLock (s := l.stripe i) (w := r.shared.system.backed i) h
      (r.shared.latched i) (newIdAbsent_of_op hnew hturn)
    rw [← hbacked] at hmapped
    exact hmapped

end

/-! ## Accounting for a page -/

open Recorded (Saved)

variable {r r' : Race l size (Recorded δ)} {turn : Turn l size} {turns : List (Turn l size)}

/-- In its turn somebody deletes page `p`, or writes what its frame has. -/
inductive Accounts (i : Fin l.width) (p : PageId) (turn : Turn l size)
    (r r' : Race l size (Recorded δ)) : Prop
  | deleted {f : Fin size} (hturn : turn = .other (.ask i (.delete p)))
      (hp : (r.shared.system.pool.shard i).table[p]? = some f)
      (hresult : ((r.shared.system.backed i).delete (l.stripe i) p).result = .ok true)
  | saved {f : Fin size} (hp : (r.shared.system.pool.shard i).table[p]? = some f)
      (hsaved : Saved p ((r.shared.system.pool.shard i).frame f).bytes r.shared.system.disk
        r'.shared.system.disk)

/-- In one of the turns, before the flush is over, page `p` is accounted for. -/
def Accounted (i : Fin l.width) (p : PageId) (turns : List (Turn l size))
    (r : Race l size (Recorded δ)) : Prop :=
  ∃ past turn rest r₁ r₂, turns = past ++ turn :: rest ∧ run? past r = some r₁ ∧
    r₁.turn? turn = some r₂ ∧ r₁.flusher.Running ∧ Accounts i p turn r₁ r₂

theorem Accounted.single (hrunning : r.flusher.Running) (hmove : r.turn? turn = some r')
    (h : Accounts i p turn r r') : Accounted i p (turn :: turns) r :=
  ⟨[], turn, turns, r, r', rfl, rfl, hmove, hrunning, h⟩

theorem Accounted.cons (hmove : r.turn? turn = some r') (h : Accounted i p turns r') :
    Accounted i p (turn :: turns) r := by
  obtain ⟨past, turn', rest, r₁, r₂, rfl, hpast, hmove', h⟩ := h
  refine ⟨turn :: past, turn', rest, r₁, r₂, rfl, ?_, hmove', h⟩
  rw [run?, hmove]
  exact hpast

/-- A dirty page stays dirty in its frame unless the turn accounts for it. -/
theorem dirty_turn? (h : r.Mapped i) (hdirty : (r.shared.system.backed i).Dirty p f)
    (hmove : r.turn? turn = some r') (hnew : newIdsAbsent (turn :: turns) r = true) :
    (r'.shared.system.backed i).Dirty p f ∨ Accounts i p turn r r' := by
  rcases turn?_cases hmove i with hsame | ⟨op, hturn, hbacked⟩
  · left
    unfold Backed.Dirty System.backed
    rw [hsame]
    exact hdirty
  · have hfate := Backed.fate_underLock (s := l.stripe i) (w := r.shared.system.backed i) h hdirty
      (r.shared.latched i) (newIdAbsent_of_op hnew hturn)
    rw [← hbacked] at hfate
    -- still dirty, written or deleted; only a turn that asks for the delete can delete
    rcases hfate with (hstill | hsaved) | ⟨rfl, hdeleted⟩
    · exact .inl hstill
    · exact .inr (.saved hdirty.1 hsaved)
    · rcases hturn with rfl | hflushes
      · exact .inr (.deleted rfl hdirty.1 hdeleted)
      · exact hflushes.elim

/-! ## What the flush still has to do -/

omit [PageStore δ] in
/-- The flush has only pages of shard `i` on its list, and page `p` is one of them. -/
structure Owes (i : Fin l.width) (p : PageId) (r : Race l size (Recorded δ)) : Prop where
  page : Chore.page i p ∈ r.flusher.left
  pages : ∀ {chore : Chore l}, chore ∈ r.flusher.left → ∃ q, chore = .page i q

omit [PageStore δ] in
/-- A flush that owes a page has not returned. -/
theorem Owes.running (h : Owes i p r) : r.flusher.Running := by
  obtain ⟨t, place⟩ := r
  cases place with
  | ready | waiting => trivial
  | ended => exact absurd h.page List.not_mem_nil

omit [PageStore δ] in
/-- What is left is all that counts. -/
theorem Owes.congr {t : Shared l size (Recorded δ)} {place : Flusher l size} (h : Owes i p r)
    (hleft : place.left = r.flusher.left) : Owes i p ⟨t, place⟩ := by
  constructor
  · show Chore.page i p ∈ place.left
    rw [hleft]
    exact h.page
  · intro chore hchore
    have hchore : chore ∈ place.left := hchore
    rw [hleft] at hchore
    exact h.pages hchore

/-- A turn of the flush takes a page off the list only when it has been seen to, or fails. -/
theorem owes_turn? (howes : Owes i p r) (hdirty : (r.shared.system.backed i).Dirty p f)
    (hmove : r.turn? turn = some r') :
    Accounts i p turn r r' ∨ Owes i p r' ∨ ∃ e, r'.flusher = .ended (.error e) := by
  cases turn with
  | other a =>
    obtain ⟨t', -, rfl⟩ := Option.map_eq_some_iff.mp hmove
    exact .inr (.inl (howes.congr rfl))
  | flusher =>
    obtain ⟨t, place⟩ := r
    cases place with
    | ended result => exact absurd howes.page List.not_mem_nil
    | waiting j g left =>
      obtain ⟨-, hmove⟩ := Option.ite_none_left_eq_some.mp hmove
      obtain rfl := Option.some.inj hmove
      exact .inr (.inl (howes.congr rfl))
    | ready resident left =>
      cases left with
      | nil => exact absurd howes.page List.not_mem_nil
      | cons chore rest =>
        obtain rfl := Option.some.inj hmove
        obtain ⟨q, rfl⟩ := howes.pages List.mem_cons_self
        have hlook : (t.system.onShard i fun _ b => b.tryFlush (t.latched i) q).result =
            ((t.system.backed i).tryFlush (t.latched i) q).result := rfl
        unfold work
        simp only [hlook]
        cases hlooked : ((t.system.backed i).tryFlush (t.latched i) q).result with
        | error e => exact .inr (.inr ⟨e, rfl⟩)
        | ok look =>
          cases look with
          | busy g => exact .inr (.inl (howes.congr rfl))
          | settled found =>
            rcases List.mem_cons.mp howes.page with hpq | hrest
            · -- it is the page's turn, and it has been written
              obtain ⟨-, rfl⟩ := Chore.page.inj hpq
              exact .inl (.saved hdirty.1 (Backed.saved_tryFlush hdirty hlooked))
            · right
              left
              obtain ⟨chore, chores, rfl⟩ := List.exists_cons_of_ne_nil (List.ne_nil_of_mem hrest)
              exact ⟨hrest, fun hchore => howes.pages (List.mem_cons_of_mem _ hchore)⟩

/-- A flush that has failed does not return anything else later. -/
theorem not_ended_of_failed {t' : Shared l size (Recorded δ)} {e : Failure} {resident : Bool}
    (hfailed : r.flusher = .ended (.error e)) :
    run? turns r ≠ some ⟨t', .ended (.ok resident)⟩ := by
  intro hrun
  obtain ⟨t, place⟩ := r
  obtain rfl : place = .ended (.error e) := hfailed
  obtain ⟨-, hresult, -⟩ := acts?_of_ended hrun
  exact absurd hresult (by simp)

/-- A flush that owes a dirty page, and returns without a failure, has accounted for it. -/
theorem accounted_of_owes {t' : Shared l size (Recorded δ)} {resident : Bool} (h : r.Mapped i)
    (howes : Owes i p r) (hdirty : (r.shared.system.backed i).Dirty p f)
    (hrun : run? turns r = some ⟨t', .ended (.ok resident)⟩) (hnew : newIdsAbsent turns r = true) :
    Accounted i p turns r := by
  induction turns generalizing r with
  | nil =>
    obtain rfl := Option.some.inj hrun
    exact absurd howes.running id
  | cons turn turns ih =>
    rw [run?] at hrun
    obtain ⟨r', hmove, hrest⟩ := Option.bind_eq_some_iff.mp hrun
    rcases dirty_turn? h hdirty hmove hnew with hdirty' | haccounts
    swap
    · exact .single howes.running hmove haccounts
    rcases owes_turn? howes hdirty hmove with haccounts | howes' | ⟨e, hfailed⟩
    · exact .single howes.running hmove haccounts
    · have hih := ih (mapped_turn? h hmove hnew) howes' hdirty' hrest (newIdsAbsent_rest hnew hmove)
      exact hih.cons hmove
    · exact absurd hrest (not_ended_of_failed hfailed)

/-! ## The first look at all pages -/

/-- A dirty page is written at the first look, or is on the list from then on. -/
theorem accounted_of_sweep {t t' : Shared l size (Recorded δ)} {before resident : Bool}
    {visit : Visit} (h : Mapped i ⟨t, .ready before [.sweep i visit]⟩)
    (hdirty : (t.system.backed i).Dirty p f)
    (hrun : run? (.flusher :: turns) ⟨t, .ready before [.sweep i visit]⟩ =
      some ⟨t', .ended (.ok resident)⟩)
    (hnew : newIdsAbsent (.flusher :: turns) ⟨t, .ready before [.sweep i visit]⟩ = true) :
    Accounted i p (.flusher :: turns) ⟨t, .ready before [.sweep i visit]⟩ := by
  have hrest : run? turns (work t [] (.sweep i visit)) = some ⟨t', .ended (.ok resident)⟩ := hrun
  have hmove : turn? ⟨t, .ready before [.sweep i visit]⟩ .flusher =
    some (work t [] (.sweep i visit)) := rfl
  rcases dirty_turn? h hdirty hmove hnew with hdirty' | haccounts
  swap
  · exact .single trivial hmove haccounts
  have hmem : p ∈ visit.arrange (t.system.backed i).shard.residents := by
    rw [(visit.perm _).mem_iff, Shard.residents, Std.ExtTreeMap.mem_keys]
    exact Std.ExtTreeMap.mem_iff_isSome_getElem?.mpr (by rw [hdirty.1]; rfl)
  cases hswept : ((t.system.backed i).sweepAll (t.latched i) visit).result with
  | error e =>
    have hfailed : (work t [] (.sweep i visit)).flusher = .ended (.error e) :=
      congrArg (Flusher.swept i []) hswept
    exact absurd hrest (not_ended_of_failed hfailed)
  | ok held =>
    have hseen := Backed.saved_sweep (w := t.system.backed i) h hdirty (t.latched i) hmem hswept
    rcases hseen with hheld | hsaved
    · -- a writer has the page, and the flush will come back to it
      have hplace : (work t [] (.sweep i visit)).flusher =
          .after true (held.map (.page i) ++ []) := congrArg (Flusher.swept i []) hswept
      have hleft : (work t [] (.sweep i visit)).flusher.left = held.map (.page i) := by
        rw [hplace, List.append_nil, Flusher.left_after]
      have howes : Owes i p (work t [] (.sweep i visit)) := by
        constructor
        · rw [hleft]
          exact List.mem_map_of_mem hheld
        · intro chore hchore
          rw [hleft] at hchore
          obtain ⟨q, -, hq⟩ := List.mem_map.mp hchore
          exact ⟨q, hq.symm⟩
      have haccounted := accounted_of_owes (mapped_turn? h hmove hnew) howes hdirty' hrest
        (newIdsAbsent_rest hnew hmove)
      exact haccounted.cons hmove
    · exact .single trivial hmove (.saved hdirty.1 hsaved)

/-! ## The whole flush -/

/-- Before its first turn the flush is where it was. -/
theorem run?_before {before after : List (Turn l size)} (hfirst : Turn.flusher ∉ before)
    (h : r.Mapped i) (hrun : run? before r = some r')
    (hnew : newIdsAbsent (before ++ after) r = true) :
    r'.flusher = r.flusher ∧ r'.Mapped i ∧ newIdsAbsent after r' = true := by
  induction before generalizing r with
  | nil =>
    obtain rfl := Option.some.inj hrun
    exact ⟨rfl, h, hnew⟩
  | cons turn before ih =>
    rw [run?] at hrun
    obtain ⟨r₁, hmove, hrest⟩ := Option.bind_eq_some_iff.mp hrun
    rw [List.mem_cons, not_or] at hfirst
    obtain ⟨hplace, hmapped, hafter⟩ :=
      ih hfirst.2 (mapped_turn? h hmove hnew) hrest (newIdsAbsent_rest hnew hmove)
    refine ⟨hplace.trans ?_, hmapped, hafter⟩
    cases turn with
    | flusher => exact absurd rfl hfirst.1
    | other a =>
      obtain ⟨t', -, rfl⟩ := Option.map_eq_some_iff.mp hmove
      rfl

/-- The start of a race: a pool that has just been built, on a disk that keeps a record, and a flush
of shard `i` that has yet to begin. -/
def start (built : AnyPool) (disk : δ) (i : Fin built.layout.width) (visit : Visit) :
    Race built.layout built.size (Recorded δ) :=
  ⟨.unlatched ⟨built.pool, ⟨disk, []⟩⟩, .ready true [.sweep i visit]⟩

omit [PageStore δ] in
/-- The records of a pool that was just built agree. -/
theorem mapped_start {b : Blueprint} {built : AnyPool} (hbuild : b.build = .ok built) (disk : δ)
    (i : Fin built.layout.width) (visit : Visit) : (start built disk i visit).Mapped i := by
  obtain ⟨recency, hshard⟩ := Blueprint.fresh_of_build hbuild i
  show (built.pool.shard i).Mapped (built.pool.shard i).free
  rw [hshard]
  exact .fresh _ recency

/-- Whatever the others do before and meanwhile, and whatever the disk does: if the flush of shard
`i` returns without a failure, every page that was dirty when it took the lock for the first time
has been deleted or written by then. -/
theorem sweep_accounts {b : Blueprint} {built : AnyPool} (hbuild : b.build = .ok built) (disk : δ)
    {i : Fin built.layout.width} {visit : Visit} {turns : List (Turn built.layout built.size)}
    {t' : Shared built.layout built.size (Recorded δ)} {resident : Bool}
    (hrun : run? turns (start built disk i visit) = some ⟨t', .ended (.ok resident)⟩)
    (hnew : newIdsAbsent turns (start built disk i visit) = true)
    {before after : List (Turn built.layout built.size)}
    (hsplit : turns = before ++ .flusher :: after) (hfirst : Turn.flusher ∉ before)
    {now : Race built.layout built.size (Recorded δ)}
    (hnow : run? before (start built disk i visit) = some now) {p : PageId} {f : Fin built.size}
    (hp : (now.shared.system.pool.shard i).table[p]? = some f)
    (hdirty : ((now.shared.system.pool.shard i).frame f).dirty = true) :
    Accounted i p (.flusher :: after) now := by
  subst hsplit
  obtain ⟨hplace, hmapped, hafter⟩ :=
    run?_before hfirst (mapped_start hbuild disk i visit) hnow hnew
  rw [run?_append, hnow] at hrun
  obtain ⟨t, place⟩ := now
  obtain rfl : place = .ready true [.sweep i visit] := hplace
  exact accounted_of_sweep hmapped ⟨hp, hdirty⟩ hrun hafter

/-- Two dirty pages, of which a writer has one when the flush begins. The flush writes the other,
and finds the first evicted when it comes back. -/
def outrun (i : Fin (Layout.alone .whole).width) : List (Turn (.alone .whole) 2) :=
  [.other (.ask i .newPage), .other (.ask i .newPage), .other (.latch i ⟨0, Nat.two_pos⟩),
    .other (.ask i (.unpin (.wrap 0) true)), .other (.ask i (.unpin (.wrap 1) true)),
    .flusher, .flusher,
    .other (.ask i (.reach ⟨0, Nat.two_pos⟩ fun _ => .fill 7)),
    .other (.release i ⟨0, Nat.two_pos⟩), .other (.ask i (.fetch (.wrap 2))),
    .flusher, .flusher]

/-- In the run `outrun` page 0 is dirty when the flush sets out, and evicted before the flush gets
to it. It is accounted for, because the eviction wrote it. -/
theorem sweep_accounts_two_frames :
    ∃ (t' : Shared (.alone .whole) 2 (Recorded Disk))
      (now : Race (.alone .whole) 2 (Recorded Disk)),
      run? (outrun (Layout.first _)) (start (.fresh (.alone .whole) 2)
          (.onMedium (.memory .empty)) (Layout.first _) .ascending) =
        some ⟨t', .ended (.ok false)⟩ ∧
      t'.system.disk.written = [(⟨1, by decide⟩, .zero), (⟨0, by decide⟩, .fill 7)] ∧
      Accounted (Layout.first _) ⟨0, by decide⟩ ((outrun (Layout.first _)).drop 5) now := by
  have hbuild : Blueprint.build (.alone 2 1 0 none) = .ok (.fresh (.alone .whole) 2) := rfl
  have hrun : ∃ t' : Shared (.alone .whole) 2 (Recorded Disk),
      run? (outrun (Layout.first _)) (start (.fresh (.alone .whole) 2)
          (.onMedium (.memory .empty)) (Layout.first _) .ascending) =
        some ⟨t', .ended (.ok false)⟩ ∧
      t'.system.disk.written = [(⟨1, by decide⟩, .zero), (⟨0, by decide⟩, .fill 7)] :=
    ⟨_, rfl, rfl⟩
  have hnow : ∃ now : Race (.alone .whole) 2 (Recorded Disk),
      run? ((outrun (Layout.first _)).take 5) (start (.fresh (.alone .whole) 2)
          (.onMedium (.memory .empty)) (Layout.first _) .ascending) = some now ∧
      (now.shared.system.pool.shard (Layout.first _)).table[(⟨0, by decide⟩ : PageId)]? = some 0 ∧
      ((now.shared.system.pool.shard (Layout.first _)).frame 0).dirty = true :=
    ⟨_, rfl, rfl, rfl⟩
  have hfirst : Turn.flusher ∉ (outrun (Layout.first _)).take 5 := by simp [outrun]
  obtain ⟨t', hrun, hwritten⟩ := hrun
  obtain ⟨now, hnow, hp, hdirty⟩ := hnow
  exact ⟨t', now, hrun, hwritten, sweep_accounts hbuild _ hrun rfl rfl hfirst hnow hp hdirty⟩

end Race

end PageCache
