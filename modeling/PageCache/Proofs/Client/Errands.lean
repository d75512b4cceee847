import PageCache.Proofs.Client.LeastRecent
import PageCache.Proofs.Shard.WriteBacks

/-!
# Errands

An errand is one thing that one shard was asked, with the shard as it was found (`Errand`). What was
answered, what the store was asked meanwhile and what was left behind follow from that. For a page
an errand is one of a few things (`Concern`), and what it makes of the record of the page depends on
that alone (`RecordStep`, `Errand.Accounted.record`). All that a shard ever reads is the page that a
fetch misses, and all that it writes are dirty pages.
-/

namespace PageCache

/-- What an errand is to a page. -/
inductive Concern
  /-- The page comes in, loaded or new. -/
  | brings
  /-- The page is fetched, and is there. -/
  | hits
  /-- A pin is taken off. -/
  | unpins (dirty : Bool)
  | deletes
  /-- Nobody asked for the page, or to no avail. -/
  | nothing
deriving DecidableEq

/-- What becomes of the record of a page that is written so often in the course of an errand. -/
inductive RecordStep : Option (Nat × Bool) → Concern → Nat → Option (Nat × Bool) → Prop
  | brings : RecordStep none .brings 0 (some (1, false))
  | hits (pins : Nat) (dirty : Bool) :
      RecordStep (some (pins, dirty)) .hits 0 (some (pins + 1, dirty))
  | unpins (pins : Nat) (dirty changed : Bool) :
      RecordStep (some (pins + 1, dirty)) (.unpins changed) 0 (some (pins, dirty || changed))
  | deletes (dirty : Bool) : RecordStep (some (0, dirty)) .deletes 0 none
  /-- A page that is not resident may be deleted too. -/
  | absent : RecordStep none .deletes 0 none
  | idles {r r' : Option (Nat × Bool)} {k : Nat} (h : Idles r k r') : RecordStep r .nothing k r'

/-- A page that is not there and is not brought in is not there afterwards. -/
theorem RecordStep.none_of_not_brings {c : Concern} {k : Nat} {r : Option (Nat × Bool)}
    (h : RecordStep none c k r) (hc : c ≠ .brings) : r = none := by
  cases h with
  | brings => exact absurd rfl hc
  | absent => rfl
  | idles hidles => exact hidles.of_none.2

variable {size : Nat} {δ : Type}

/-- What it is to page `p` that a shard was asked this and answered that. -/
def ShardOp.concern (op : ShardOp size) (answer : Except Failure (ShardReply size))
    (sh : Shard size) (p : PageId) : Concern :=
  match op, answer with
  | .fetch q, .ok _ =>
    if q = p then if sh.table[p]?.isSome then .hits else .brings else .nothing
  | .newPage, .ok (.handle q _) => if q = p then .brings else .nothing
  | .unpin q dirty, .ok (.truth true) => if q = p then .unpins dirty else .nothing
  | .delete q, .ok (.truth true) => if q = p then .deletes else .nothing
  | _, _ => .nothing

namespace ShardOp

variable {op : ShardOp size} {sh : Shard size} {p : PageId}

theorem concern_error (op : ShardOp size) (e : Failure) (sh : Shard size) (p : PageId) :
    op.concern (.error e) sh p = .nothing := by
  cases op <;> rfl

theorem concern_flush (q : PageId) (answer : Except Failure (ShardReply size)) (sh : Shard size)
    (p : PageId) : (flush q).concern answer sh p = .nothing := by
  cases answer <;> rfl

theorem concern_flushAll (visit : Visit) (answer : Except Failure (ShardReply size))
    (sh : Shard size) (p : PageId) : (flushAll visit).concern answer sh p = .nothing := by
  cases answer <;> rfl

theorem concern_reach (f : Fin size) (g : Page → Page) (answer : Except Failure (ShardReply size))
    (sh : Shard size) (p : PageId) : (reach f g).concern answer sh p = .nothing := by
  cases answer <;> rfl

/-- A page comes in only by being fetched or created. -/
theorem brings_cases {answer : Except Failure (ShardReply size)}
    (h : op.concern answer sh p = .brings) :
    op = .fetch p ∨ op = .newPage ∧ ∃ f, answer = .ok (.handle p f) := by
  unfold concern at h
  split at h
  · split at h
    · next hqp => exact .inl (hqp ▸ rfl)
    · cases h
  · next q f =>
    split at h
    · next hqp => exact .inr ⟨rfl, f, hqp ▸ rfl⟩
    · cases h
  · split at h <;> cases h
  · split at h <;> cases h
  · cases h

end ShardOp

/-! ## What is asked of the store -/

variable [PageStore δ]

namespace Backed

/-- The same shard, over a store that lists what it is asked. -/
def audited (w : Backed size δ) : Backed size (Audited δ) :=
  ⟨w.shard, .start w.disk⟩

/-- The pages that have to be read: one that is fetched, if it is not there and there is a frame to
be had. -/
def wanted (s : Stripe) (w : Backed size δ) : ShardOp size → List PageId
  | .fetch p =>
    if s.Owns p ∧ w.shard.table[p]? = none ∧ w.acquire.result.isOk = true then [p] else []
  | _ => []

open Audited (Adds)

/-- What the store was asked in the course of an operation, and what that made of the pages. -/
structure Accounted (s : Stripe) (w : Backed size (Audited δ)) (op : ShardOp size)
    (calls : List Attempt) : Prop where
  adds : Adds calls w.disk (w.serve s op).state.disk
  reads : Attempt.reads calls = w.wanted s op
  unsaved : ∀ {p : PageId} {bytes : Page}, (p, bytes) ∈ Attempt.writes calls →
    w.shard.Unsaved p bytes
  once : ((Attempt.writes calls).map Prod.fst).Nodup
  record : ∀ p, RecordStep (w.shard.record? p) (op.concern (w.serve s op).result w.shard p)
    (Attempt.saved p calls) ((w.serve s op).state.shard.record? p)

variable {w w' : Backed size (Audited δ)} {s : Stripe} {calls : List Attempt}

/-- The store is not asked. -/
theorem Accounted.still {op : ShardOp size} (hdisk : (w.serve s op).state.disk = w.disk)
    (hwanted : w.wanted s op = [])
    (hrecord : ∀ p, RecordStep (w.shard.record? p) (op.concern (w.serve s op).result w.shard p) 0
      ((w.serve s op).state.shard.record? p)) : Accounted s w op [] :=
  ⟨hdisk ▸ .refl _, hwanted.symm, fun h => absurd h List.not_mem_nil, List.nodup_nil, hrecord⟩

/-- No page was asked for. -/
theorem WritesBack.accounted {op : ShardOp size} (h : WritesBack calls w (w.serve s op).state)
    (hwanted : w.wanted s op = [])
    (hconcern : ∀ p, op.concern (w.serve s op).result w.shard p = .nothing) :
    Accounted s w op calls where
  adds := h.adds
  reads := h.reads.trans hwanted.symm
  unsaved := h.unsaved
  once := h.once
  record p := by
    rw [hconcern]
    exact .idles (h.idles p)

/-- An operation that fails asks for no page. -/
theorem WritesBack.accounted_error {op : ShardOp size} {e : Failure}
    (h : WritesBack calls w (w.serve s op).state) (hwanted : w.wanted s op = [])
    (hresult : (w.serve s op).result = .error e) : Accounted s w op calls :=
  h.accounted hwanted fun p => hresult ▸ op.concern_error e w.shard p

/-- What fails before anything was done has asked for nothing. -/
theorem accounted_of_fail {op : ShardOp size} {e : Failure} (hwanted : w.wanted s op = [])
    (hserve : w.serve s op = .fail e w) : Accounted s w op [] := by
  have hstay : WritesBack [] w (w.serve s op).state := by
    rw [hserve]
    exact .still rfl rfl rfl
  exact hstay.accounted_error hwanted (by rw [hserve]; rfl)

/-- For a page that is there nothing is read. -/
theorem wanted_of_table {p : PageId} {f : Fin size} (hp : w.shard.table[p]? = some f) :
    w.wanted s (.fetch p) = [] := by
  rw [wanted, if_neg]
  rintro ⟨-, hnone, -⟩
  exact absurd (hnone.symm.trans hp) (by simp)

/-! ## Bringing a page in -/

/-- A page is read once, and then it is in the frame, or that stays without a page. -/
theorem load_accounted {f : Fin size} (h : w.shard.Mapped (f :: w.shard.free)) (p : PageId) :
    (∃ buffer succeeded, Adds [⟨p, .read buffer, succeeded⟩] w.disk (w.load p f).state.disk) ∧
      (((w.load p f).result = .ok f ∧ ∀ q, (w.load p f).state.shard.record? q =
          if p = q then some (1, false) else w.shard.record? q) ∨
        (∃ e, (w.load p f).result = .error e) ∧
          ∀ q, (w.load p f).state.shard.record? q = w.shard.record? q) := by
  have hvacant : (w.shard.frame f).holds = none := h.spare_holds List.mem_cons_self
  unfold load
  dsimp only
  cases (PageStore.read w.disk p (w.shard.frame f).bytes).result with
  | ok => exact ⟨⟨_, _, rfl⟩, .inl ⟨rfl, h.record?_install p _⟩⟩
  | error cause => exact ⟨⟨_, _, rfl⟩, .inr ⟨⟨_, rfl⟩, h.record?_setFrame_vacant hvacant _⟩⟩

/-- A page that is not there is fetched: other pages are written back, and the page is read. -/
theorem accounted_fetch_absent (h : w.shard.Mapped w.shard.free) {p : PageId} (howns : s.Owns p)
    (hp : w.shard.table[p]? = none) : ∃ calls, Accounted s w (.fetch p) calls := by
  have hserve : w.serve s (.fetch p) =
      (w.acquire.andThen fun f w => w.load p f).map (.handle p) := by
    rw [serve, fetch, if_pos howns]
    simp only [hp]
  have hsearch := w.search
  obtain ⟨calls, hwrites⟩ := hsearch.writesBack h
  cases hresult : w.acquire.result with
  | error e =>
    rw [Outcome.andThen_of_error hresult] at hserve
    have hwrites : WritesBack calls w (w.serve s (.fetch p)).state := hserve ▸ hwrites
    refine ⟨calls, hwrites.accounted_error (e := e) ?_ (by rw [hserve]; rfl)⟩
    rw [wanted, hresult]
    exact if_neg fun hmiss => absurd hmiss.2.2 (by simp [Except.isOk, Except.toBool])
  | ok f =>
    rw [hresult] at hsearch
    rw [Outcome.andThen_of_ok hresult] at hserve
    obtain ⟨⟨buffer, succeeded, hadds⟩, hloaded⟩ := load_accounted (hsearch.placed_of_ok h) p
    have hstate : (w.serve s (.fetch p)).state = (w.acquire.state.load p f).state := by
      rw [hserve]
      rfl
    have hanswer : (w.serve s (.fetch p)).result =
        (w.acquire.state.load p f).result.map (.handle p) := by
      rw [hserve]
      rfl
    refine ⟨calls ++ [⟨p, .read buffer, succeeded⟩], ?_, ?_, ?_, ?_, fun q => ?_⟩
    · exact hstate ▸ hwrites.adds.trans hadds
    · rw [Attempt.reads_append, hwrites.reads, wanted, hresult]
      exact (if_pos ⟨howns, hp, rfl⟩).symm
    · rw [Attempt.writes_append, Attempt.writes_read, List.append_nil]
      exact hwrites.unsaved
    · rw [Attempt.writes_append, Attempt.writes_read, List.append_nil]
      exact hwrites.once
    · -- to every other page the fetch is what the search was to it; the page itself was not there
      -- for the search to touch
      have hidles := hwrites.idles q
      rw [Attempt.saved_append, Attempt.saved_read, Nat.add_zero, hstate, hanswer]
      rcases hloaded with ⟨hok, hrecord⟩ | ⟨⟨e, herror⟩, hrecord⟩
      · rw [hok, hrecord]
        by_cases hpq : p = q
        · subst hpq
          have hconcern : (ShardOp.fetch p : ShardOp size).concern (.ok (.handle p f)) w.shard p =
              .brings := by simp [ShardOp.concern, hp]
          have habsent := Shard.record?_eq_none_iff.mpr hp
          rw [habsent] at hidles ⊢
          rw [if_pos rfl, hidles.of_none.1]
          exact hconcern ▸ .brings
        · have hconcern : (ShardOp.fetch p : ShardOp size).concern (.ok (.handle p f)) w.shard q =
              .nothing := by simp [ShardOp.concern, hpq]
          rw [if_neg hpq]
          exact hconcern ▸ .idles hidles
      · rw [herror, hrecord]
        exact ShardOp.concern_error (.fetch p) e w.shard q ▸ .idles hidles

/-- A page that is there is fetched. -/
theorem accounted_fetch_resident (h : w.shard.Mapped w.shard.free) {p : PageId} {f : Fin size}
    (howns : s.Owns p) (hp : w.shard.table[p]? = some f) : Accounted s w (.fetch p) [] := by
  have hserve : w.serve s (.fetch p) = (w.pinAgain f).map (.handle p) := by
    rw [serve, fetch, if_pos howns]
    simp only [hp]
  have hwanted : w.wanted s (.fetch p) = [] := wanted_of_table hp
  rw [pinAgain] at hserve
  dsimp only at hserve
  split at hserve
  · let frame : Frame := { w.shard.frame f with pins := (w.shard.frame f).pins + 1 }
    have hstate : (w.serve s (.fetch p)).state =
        { w with shard := ((w.shard.setFrame f frame).untrack f).1 } := by rw [hserve]; rfl
    have hanswer : (w.serve s (.fetch p)).result = .ok (.handle p f) := by rw [hserve]; rfl
    refine .still (by rw [hstate]) hwanted fun q => ?_
    have hrecord : (w.serve s (.fetch p)).state.shard.record? q =
        (w.shard.setFrame f frame).record? q := by
      rw [hstate, Shard.untrack_fst]
      exact Shard.record?_congr rfl rfl q
    rw [hanswer, hrecord, h.record?_setFrame hp]
    by_cases hpq : p = q
    · subst hpq
      have hconcern : (ShardOp.fetch p : ShardOp size).concern (.ok (.handle p f)) w.shard p =
          .hits := by simp [ShardOp.concern, hp]
      rw [if_pos rfl, Shard.record?_of_table hp]
      exact hconcern ▸ .hits _ _
    · have hconcern : (ShardOp.fetch p : ShardOp size).concern (.ok (.handle p f)) w.shard q =
          .nothing := by simp [ShardOp.concern, hpq]
      rw [if_neg hpq]
      exact hconcern ▸ .idles (.stays _)
  · exact accounted_of_fail hwanted hserve

/-- A page is fetched, and it is there, it is not, or it belongs elsewhere. -/
theorem accounted_fetch (h : w.shard.Mapped w.shard.free) (p : PageId) :
    ∃ calls, Accounted s w (.fetch p) calls := by
  by_cases howns : s.Owns p
  · cases hp : w.shard.table[p]? with
    | none => exact accounted_fetch_absent h howns hp
    | some f => exact ⟨[], accounted_fetch_resident h howns hp⟩
  · have hserve : w.serve s (.fetch p) = .fail (s.foreign p) w := by
      rw [serve, fetch, if_neg howns]
      rfl
    exact ⟨[], accounted_of_fail (if_neg fun h => howns h.1) hserve⟩

/-- Pages are written back for a new page, and nothing is read; if none is made, that is all. -/
theorem accounted_newPage (h : w.shard.Mapped w.shard.free) (hspared : w.Spares s .newPage) :
    ∃ calls, Accounted s w .newPage calls := by
  have hsearch := w.search
  obtain ⟨calls, hwrites⟩ := hsearch.writesBack h
  have hstate : (w.serve s .newPage).state = (w.newPage s).state := rfl
  have hanswer : (w.serve s .newPage).result =
    (w.newPage s).result.map fun placed => .handle placed.1 placed.2 := rfl
  have hcreation := w.creation s
  generalize hr : (w.newPage s).result = r, hs : (w.newPage s).state = w' at hcreation
  cases hcreation with
  | exhausted =>
    have hstay : WritesBack [] w (w.serve s .newPage).state := by
      rw [hstate, hs]
      exact .still rfl rfl rfl
    exact ⟨[], hstay.accounted_error rfl (by rw [hanswer, hr]; rfl)⟩
  | unplaced =>
    have hwrites : WritesBack calls w (w.serve s .newPage).state := by
      rw [hstate, hs]
      exact hwrites
    exact ⟨calls, hwrites.accounted_error rfl (by rw [hanswer, hr]; rfl)⟩
  | foreign =>
    -- the frame that was found is of no account, for no page lies in it
    have hwrites : WritesBack calls w (w.serve s .newPage).state := by
      rw [hstate, hs]
      exact ⟨hwrites.adds, hwrites.reads, hwrites.unsaved, hwrites.once, hwrites.idles,
        hwrites.fewer⟩
    exact ⟨calls, hwrites.accounted_error rfl (by rw [hanswer, hr]; rfl)⟩
  | @made p f _ hfound =>
    rw [hfound] at hsearch
    have hmapped := hsearch.placed_of_ok h
    refine ⟨calls, ?_, hwrites.reads, hwrites.unsaved, hwrites.once, fun q => ?_⟩
    · rw [hstate, hs]
      exact hwrites.adds
    · have hrecord : (w.serve s .newPage).state.shard.record? q =
          (w.acquire.state.shard.install p f .zero).record? q := by
        rw [hstate, hs]
        exact Shard.record?_congr rfl rfl q
      have hidles := hwrites.idles q
      rw [hanswer, hr, hrecord, hmapped.record?_install]
      show RecordStep _ (if p = q then .brings else .nothing) _ _
      by_cases hpq : p = q
      · subst hpq
        have habsent := Shard.record?_eq_none_iff.mpr (hspared hr)
        rw [habsent] at hidles ⊢
        rw [if_pos rfl, if_pos rfl, hidles.of_none.1]
        exact .brings
      · rw [if_neg hpq, if_neg hpq]
        exact .idles hidles

/-! ## Everything else -/

/-- A page is unpinned: a pin comes off, or the unpin is refused. -/
theorem accounted_unpin (h : w.shard.Mapped w.shard.free) (p : PageId) (dirty : Bool) :
    Accounted s w (.unpin p dirty) [] := by
  have hcases := w.unpin_cases s p dirty
  have hserve : (w.serve s (.unpin p dirty)).state = (w.unpin s p dirty).state := rfl
  have hanswer : (w.serve s (.unpin p dirty)).result =
    (w.unpin s p dirty).result.map .truth := rfl
  -- a pin comes off, whether or not it is the last
  have hless {f : Fin size} {sh : Shard size} (hp : w.shard.table[p]? = some f)
      (hpins : (w.shard.frame f).pins ≠ 0) (hresult : (w.unpin s p dirty).result = .ok true)
      (hstate : (w.unpin s p dirty).state = { w with shard := sh })
      (htable : sh.table = (w.shard.setFrame f (w.unpinned f dirty)).table)
      (hframes : sh.frames = (w.shard.setFrame f (w.unpinned f dirty)).frames) :
      Accounted s w (.unpin p dirty) [] := by
    refine .still (by rw [hserve, hstate]) rfl fun q => ?_
    rw [hserve, hanswer, hresult, hstate, Shard.record?_congr htable hframes,
      h.record?_setFrame hp]
    show RecordStep _ (if p = q then .unpins dirty else .nothing) _ _
    by_cases hpq : p = q
    · subst hpq
      obtain ⟨n, hn⟩ := Nat.exists_eq_succ_of_ne_zero hpins
      rw [if_pos rfl, if_pos rfl, Shard.record?_of_table hp, unpinned, hn]
      exact .unpins n _ dirty
    · rw [if_neg hpq, if_neg hpq]
      exact .idles (.stays _)
  generalize hr : (w.unpin s p dirty).result = r, hs : (w.unpin s p dirty).state = w' at hcases
  -- however many pins there were, the record loses one; the recency list, which the last pin moves,
  -- is no part of it
  cases hcases with
  | refused hresult =>
    refine .still (by rw [hserve, hs]) rfl fun q => ?_
    have hconcern : (ShardOp.unpin p dirty : ShardOp size).concern (r.map .truth) w.shard q =
        .nothing := by
      match r with
      | .error e => rfl
      | .ok false => rfl
      | .ok true => exact absurd rfl hresult
    rw [hserve, hanswer, hr, hs, hconcern]
    exact .idles (.stays _)
  | several hp hpins => exact hless hp (Nat.ne_zero_of_lt hpins) hr hs rfl rfl
  | last hp hpins => exact hless hp (hpins ▸ Nat.one_ne_zero) hr hs rfl rfl

omit [PageStore δ] in
/-- A page is dropped if nobody has it pinned, and stays as it is otherwise. -/
theorem discard_cases {w : Backed size δ} (h : w.shard.Mapped w.shard.free) (p : PageId) :
    (w.discard p).state.disk = w.disk ∧
      ((w.discard p).result = .ok true ∧ (∀ n dirty, w.shard.record? p = some (n, dirty) → n = 0) ∧
          (∀ q, (w.discard p).state.shard.record? q =
            if p = q then none else w.shard.record? q) ∨
        (w.discard p).result = .ok false ∧ (w.discard p).state = w) := by
  unfold discard
  cases hp : w.shard.table[p]? with
  | none =>
    have habsent := Shard.record?_eq_none_iff.mpr hp
    refine ⟨rfl, .inl ⟨rfl, fun n dirty hrecord => ?_, fun q => ?_⟩⟩
    · exact absurd (habsent.symm.trans hrecord) (by simp)
    · show w.shard.record? q = if p = q then none else w.shard.record? q
      by_cases hpq : p = q
      · rw [if_pos hpq, ← hpq, habsent]
      · rw [if_neg hpq]
  | some f =>
    dsimp only
    split
    · exact ⟨rfl, .inr ⟨rfl, rfl⟩⟩
    · next hpins =>
      refine ⟨rfl, .inl ⟨rfl, fun n dirty hrecord => ?_, fun q => ?_⟩⟩
      · obtain ⟨rfl, -⟩ := Prod.mk.inj (Option.some.inj
          ((Shard.record?_of_table hp).symm.trans hrecord))
        exact Nat.eq_zero_of_not_pos hpins
      · rw [Shard.untrack_fst]
        exact (Shard.record?_congr rfl rfl q).trans (h.record?_vacate hp .blank q)

/-- A page is deleted: the store is told, and the page goes unless it is pinned. -/
theorem accounted_delete (h : w.shard.Mapped w.shard.free) (p : PageId) :
    ∃ calls, Accounted s w (.delete p) calls := by
  by_cases howns : s.Owns p
  swap
  · have hserve : w.serve s (.delete p) = .fail (s.foreign p) w := by
      rw [serve, delete, if_neg howns]
      rfl
    exact ⟨[], accounted_of_fail rfl hserve⟩
  let told : Backed size (Audited δ) := { w with disk := (PageStore.deallocate w.disk p).1 }
  have hstate : (w.serve s (.delete p)).state = (told.discard p).state := by
    rw [serve, delete, if_pos howns]
    rfl
  have hanswer : (w.serve s (.delete p)).result = (told.discard p).result.map .truth := by
    rw [serve, delete, if_pos howns]
    rfl
  obtain ⟨hdisk, hcases⟩ := discard_cases (w := told) h p
  refine ⟨[⟨p, .deallocate, true⟩], ?_, rfl, fun hmem => absurd hmem List.not_mem_nil,
    List.nodup_nil, fun q => ?_⟩
  · rw [hstate, hdisk]
    exact w.disk.adds_note p .deallocate
  · rw [Attempt.saved_deallocate, hanswer, hstate]
    -- what is resident goes if it has no pins, and the record of no other page is changed
    rcases hcases with ⟨hresult, hpins, hrecord⟩ | ⟨hresult, hsame⟩
    · rw [hresult, hrecord]
      show RecordStep _ (if p = q then .deletes else .nothing) _ _
      by_cases hpq : p = q
      · subst hpq
        rw [if_pos rfl, if_pos rfl]
        cases hr : w.shard.record? p with
        | none => exact .absent
        | some r =>
          obtain ⟨n, dirty⟩ := r
          obtain rfl : n = 0 := hpins n dirty hr
          exact .deletes dirty
      · rw [if_neg hpq, if_neg hpq]
        exact .idles (.stays _)
    · rw [hresult, hsame]
      exact .idles (.stays _)

/-- Whatever is asked of a shard whose records agree, short of a new page that is resident. -/
theorem accounted (h : w.shard.Mapped w.shard.free) {op : ShardOp size} (hspared : w.Spares s op) :
    ∃ calls, Accounted s w op calls := by
  cases op with
  | fetch p => exact accounted_fetch h p
  | newPage => exact accounted_newPage h hspared
  | unpin p dirty => exact ⟨[], accounted_unpin h p dirty⟩
  | delete p => exact accounted_delete h p
  | flush p =>
    have hwrites : ∃ calls, WritesBack calls w (w.serve s (.flush p)).state := by
      rw [serve, flush]
      split
      · exact writesBack_tryFlush h noWriter p
      · exact ⟨[], .still rfl rfl rfl⟩
    obtain ⟨calls, hwrites⟩ := hwrites
    exact ⟨calls, hwrites.accounted rfl fun q => ShardOp.concern_flush p _ w.shard q⟩
  | flushAll visit =>
    obtain ⟨calls, hwrites⟩ := writesBack_sweep h noWriter (visit.arrange w.shard.residents)
    have hwrites : WritesBack calls w (w.serve s (.flushAll visit)).state := hwrites
    exact ⟨calls, hwrites.accounted rfl fun q => ShardOp.concern_flushAll visit _ w.shard q⟩
  | reach f g =>
    have hsame (q : PageId) : (w.serve s (.reach f g)).state.shard.record? q =
        w.shard.record? q := by
      show w.shard.table[q]?.map _ = w.shard.table[q]?.map _
      -- an edit changes bytes, and a record has none
      refine Option.map_congr fun k _ => ?_
      show (((w.shard.setFrame f _).frame k).pins, ((w.shard.setFrame f _).frame k).dirty) = _
      rw [Shard.frame_setFrame]
      split
      · next hfk => exact hfk ▸ rfl
      · rfl
    refine ⟨[], .still rfl rfl fun q => ?_⟩
    rw [ShardOp.concern_reach, hsame]
    exact .idles (.stays _)

end Backed

/-! ## Errands -/

/-- A shard was asked `op`, and this is how it was found. -/
structure Errand (l : Layout) (size : Nat) (δ : Type) where
  shard : Fin l.width
  found : Backed size δ
  op : ShardOp size

namespace Errand

variable {l : Layout}

def stripe (e : Errand l size δ) : Stripe :=
  l.stripe e.shard

def answer (e : Errand l size δ) : Except Failure (ShardReply size) :=
  (e.found.serve e.stripe e.op).result

def left (e : Errand l size δ) : Backed size δ :=
  e.found.ask e.stripe e.op

/-- What the store was asked. -/
def calls (e : Errand l size δ) : List Attempt :=
  (e.found.audited.ask e.stripe e.op).disk.calls

def concern (e : Errand l size δ) (p : PageId) : Concern :=
  e.op.concern e.answer e.found.shard p

/-- How often page `p` was written. -/
def saved (e : Errand l size δ) (p : PageId) : Nat :=
  Attempt.saved p e.calls

/-- What is read is what has to be, what is written is dirty, and the record of each page changes as
it should. -/
structure Accounted (e : Errand l size δ) : Prop where
  reads : Attempt.reads e.calls = e.found.wanted e.stripe e.op
  unsaved : ∀ {p : PageId} {bytes : Page}, (p, bytes) ∈ Attempt.writes e.calls →
    e.found.shard.Unsaved p bytes
  once : ((Attempt.writes e.calls).map Prod.fst).Nodup
  record : ∀ p, RecordStep (e.found.shard.record? p) (e.concern p) (e.saved p)
    (e.left.shard.record? p)

open Backed (Mirror)

theorem audited_mirror (w : Backed size δ) :
    Mirror Anywhere (Audited.Accounts w.disk) w w.audited :=
  ⟨rfl, .anywhere _, Audited.accounts_start w.disk⟩

/-- The list of calls makes no difference to what is answered and left. -/
theorem served_mirrors (e : Errand l size δ) :
    Outcome.Mirrors (Mirror Anywhere (Audited.Accounts e.found.disk))
      (e.found.serve e.stripe e.op) (e.found.audited.serve e.stripe e.op) :=
  Backed.serve_mirrors (Audited.simulates _ e.found.disk) e.stripe.within_anywhere
    (audited_mirror e.found) e.op

/-- What the calls have made of the store is what is left of it. -/
theorem disk_left (e : Errand l size δ) :
    e.left.disk = Audited.afterAll e.found.disk e.calls := by
  rw [left, calls, ← Backed.state_serve, ← Backed.state_serve]
  exact e.served_mirrors.state.disk.calls

/-- A shard wants the same of an audited store, for it finds the same frame. -/
theorem wanted_audited (w : Backed size δ) (s : Stripe) (op : ShardOp size) :
    w.audited.wanted s op = w.wanted s op := by
  have hacquired := (Backed.acquire_mirrors (Audited.simulates _ w.disk) (audited_mirror w)).result
  cases op with
  | fetch p =>
    rw [Backed.wanted, Backed.wanted, hacquired]
    rfl
  | _ => rfl

/-- A new page takes over nothing on an audited store if it does not on the store itself. -/
theorem spares_audited {w : Backed size δ} {s : Stripe} {op : ShardOp size} (h : w.Spares s op) :
    w.audited.Spares s op := by
  cases op with
  | newPage =>
    intro p f hresult
    have hmirror := Backed.newPage_mirrors (Audited.simulates _ w.disk) s.within_anywhere
      (audited_mirror w)
    exact h (hmirror.result.trans hresult)
  | _ => trivial

/-- Every errand of a shard whose records agree is accounted for. -/
theorem accounted (e : Errand l size δ) (h : e.found.shard.Mapped e.found.shard.free)
    (hspared : e.found.Spares e.stripe e.op) : e.Accounted := by
  obtain ⟨hresult, hstate⟩ := e.served_mirrors
  obtain ⟨calls, hadds, hreads, hunsaved, honce, hrecord⟩ :=
    Backed.accounted (w := e.found.audited) h (spares_audited hspared)
  -- the audit of the shard is the errand, for an audited store answers as the store below it
  have hcalls : e.calls = calls := by
    rw [Errand.calls, ← Backed.state_serve]
    exact hadds
  have hleft : e.left.shard = (e.found.audited.serve e.stripe e.op).state.shard := by
    rw [left, ← Backed.state_serve]
    exact hstate.shard
  rw [wanted_audited] at hreads
  refine ⟨hcalls ▸ hreads, hcalls ▸ hunsaved, hcalls ▸ honce, fun p => ?_⟩
  have hstep := hrecord p
  rw [← hresult, ← hleft, ← hcalls] at hstep
  exact hstep

end Errand

end PageCache
