import PageCache.Proofs.Client.Numbering
import PageCache.Proofs.Client.Product
import PageCache.Proofs.Pool.Build

/-!
# The ids that new pages get

A shard counts. Its `k`th page has the `k`th id of its stripe, `index + k * count`, as long as that
number is one of 32 bits; after that the shard says that it is out of ids, and does nothing. No call
that fails uses an id up, whatever it fails of and whatever else the shard is asked in between.

The ids are told from the exchanges of a pool with its shards (`Exchange.made`). One exchange moves
one counter at most, and only by giving out the id it stands at (`Counted.serve`); so after all
exchanges each counter stands where the number of pages says (`Counted.replay`), and
`System.ids_in_order` reads the rest off.
-/

namespace PageCache

/-! ## Counting the ids of a stripe -/

namespace Stripe

variable {s : Stripe} {k : Nat} {p : PageId}

/-- The `k`th id of the stripe, if there are as many. -/
def nth? (s : Stripe) (k : Nat) : Option PageId :=
  PageId.ofNat? (s.index + k * s.count)

/-- The `k`th id is that number, and nothing else is. -/
theorem nth?_eq_some_iff : s.nth? k = some p ↔ p.val = s.index + k * s.count :=
  PageId.ofNat?_eq_some_iff

/-- The ids are counted from `0`. -/
theorem nth?_zero (s : Stripe) : s.nth? 0 = some s.first := by
  rw [nth?_eq_some_iff, Nat.zero_mul]
  rfl

/-- After the `k`th id comes the next one, if there is one. -/
theorem next?_of_nth? (h : s.nth? k = some p) : s.next? p = s.nth? (k + 1) := by
  rw [nth?_eq_some_iff] at h
  unfold next? PageId.plus? nth?
  rw [h, Nat.succ_mul, Nat.add_assoc]

/-- A stripe that has a `k`th id has all before it. -/
theorem exists_nth?_of_le {j : Nat} (h : s.nth? k = some p) (hjk : j ≤ k) :
    ∃ q, s.nth? j = some q := by
  rw [nth?_eq_some_iff] at h
  have hle : j * s.count ≤ k * s.count := Nat.mul_le_mul_right _ hjk
  refine ⟨⟨s.index + j * s.count, ?_⟩, nth?_eq_some_iff.mpr rfl⟩
  exact Nat.lt_of_le_of_lt (Nat.add_le_add_left hle _) (h ▸ p.isLt)

/-- An id has one number only. -/
theorem eq_of_nth? {j : Nat} (hj : s.nth? j = some p) (hk : s.nth? k = some p) : j = k := by
  rw [nth?_eq_some_iff] at hj hk
  exact Nat.eq_of_mul_eq_mul_right s.count_pos (Nat.add_left_cancel (hj.symm.trans hk))

/-- The ids that are counted are those of the stripe. -/
theorem owns_of_nth? (h : s.nth? k = some p) : s.Owns p := by
  rw [nth?_eq_some_iff] at h
  unfold Owns
  -- whole rounds do not change the residue
  rw [h, Nat.add_mul_mod_self_right]
  exact Nat.mod_eq_of_lt s.index_lt

end Stripe

/-! ## One new page -/

namespace Backed

variable {size : Nat} {δ : Type} [PageStore δ] {w : Backed size δ} {s : Stripe} {p : PageId}

/-- Nobody who looks for a frame says anything about ids. -/
theorem result_acquire_ne_exhausted (w : Backed size δ) :
    w.acquire.result ≠ .error (.storage .idsExhausted) := by
  intro h
  have hsearch := w.search
  rw [h] at hsearch
  generalize w.acquire.state = w' at hsearch
  cases hsearch

/-- A shard says that it is out of ids if it is, and then only. -/
theorem newPage_exhausted_iff :
    (w.newPage s).result = .error (.storage .idsExhausted) ↔ w.shard.nextId = none := by
  have hcreation := w.creation s
  generalize (w.newPage s).result = r, (w.newPage s).state = w' at hcreation
  -- of the four ways a creation can go, only the first is about a counter that is at its end
  cases hcreation with
  | exhausted hnext => exact iff_of_true rfl hnext
  | unplaced hnext hsearch =>
    refine iff_of_false ?_ (by simp [hnext])
    rintro ⟨rfl⟩
    exact w.result_acquire_ne_exhausted hsearch
  | foreign hnext => exact iff_of_false (by simp [Stripe.foreign]) (by simp [hnext])
  | made hnext => exact iff_of_false (by simp) (by simp [hnext])

/-- A page that was made has the id the counter stood at, and the counter moves on. -/
theorem nextId_newPage_of_ok {f : Fin size} (h : (w.newPage s).result = .ok (p, f)) :
    (w.newPage s).state.shard.nextId = s.next? p := by
  obtain ⟨hnext, hsearch, howns⟩ := made_of_newPage h
  rw [(newPage_of_ok hnext hsearch howns).2]

/-- No id is used up in vain, unless it is one of another stripe. -/
theorem nextId_newPage_of_error {e : Failure} (howns : ∀ {q}, w.shard.nextId = some q → s.Owns q)
    (h : (w.newPage s).result = .error e) :
    (w.newPage s).state.shard.nextId = w.shard.nextId := by
  have hcreation := w.creation s
  generalize (w.newPage s).state = w' at hcreation ⊢
  rw [h] at hcreation
  cases hcreation with
  | exhausted => rfl
  | unplaced => exact w.search.nextId_eq
  | foreign hnext _ hforeign => exact absurd (howns hnext) hforeign

end Backed

/-! ## The pages of a log -/

/-- The page that an answer tells of. -/
def placed? {size : Nat} : Except Failure (ShardReply size) → Option PageId
  | .ok (.handle p _) => some p
  | _ => none

/-- An answer tells of a page if it is a handle. -/
theorem placed?_eq_some_iff {size : Nat} {answer : Except Failure (ShardReply size)} {p : PageId} :
    placed? answer = some p ↔ ∃ f, answer = .ok (.handle p f) := by
  constructor
  · intro h
    unfold placed? at h
    split at h
    · next f =>
      obtain rfl := Option.some.inj h
      exact ⟨f, rfl⟩
    · exact absurd h (by simp)
  · rintro ⟨f, rfl⟩
    rfl

namespace Exchange

variable {l : Layout} {size : Nat} {i : Fin l.width} {e : Exchange l size}
variable {log log' : List (Exchange l size)}

/-- The page that was made, if one was asked for and there is one. -/
def made? (e : Exchange l size) : Option PageId :=
  match e.op with
  | .newPage => placed? e.answer
  | _ => none

/-- The pages that shard `i` made, the first of them first. -/
def made (i : Fin l.width) (log : List (Exchange l size)) : List PageId :=
  (reaching i log).filterMap made?

/-- What was made in two parts of a log was made in the whole. -/
theorem made_append : made i (log ++ log') = made i log ++ made i log' := by
  unfold made
  rw [reaching_append, List.filterMap_append]

/-- One exchange makes the page that it tells of. -/
theorem made_single_self (e : Exchange l size) : made e.shard [e] = e.made?.toList := by
  unfold made
  rw [reaching_cons_self]
  cases he : e.made? with
  | none => simp [reaching, he]
  | some p => simp [reaching, he]

/-- One exchange makes no page of another shard. -/
theorem made_single_of_ne (h : e.shard ≠ i) : made i [e] = [] := by
  unfold made
  rw [reaching_cons_of_ne h]
  rfl

/-- A page was made if one was asked for and the answer is a handle. -/
theorem made?_eq_some_iff {p : PageId} :
    e.made? = some p ↔ e.op = .newPage ∧ ∃ f, e.answer = .ok (.handle p f) := by
  rw [← placed?_eq_some_iff]
  unfold made?
  cases e.op <;> simp

/-- Without asking for one, no page is made. -/
theorem made?_eq_none_of_op (h : e.op ≠ .newPage) : e.made? = none := by
  rw [Option.eq_none_iff_forall_not_mem]
  intro p hp
  exact h (made?_eq_some_iff.mp hp).1

/-- What a shard made it made in one of the exchanges with it. -/
theorem mem_made {p : PageId} : p ∈ made i log ↔ ∃ e ∈ log, e.shard = i ∧ e.made? = some p := by
  unfold made reaching
  simp only [List.mem_filterMap, List.mem_filter, decide_eq_true_eq, and_assoc]

end Exchange

/-! ## The counters of a pool -/

namespace System

open Exchange (made)

variable {l : Layout} {size : Nat} {δ : Type} [PageStore δ] {w : System l size δ}
variable {n : Fin l.width → Nat} {e : Exchange l size} {log : List (Exchange l size)}

omit [PageStore δ] in
/-- The counter of every shard stands where `n` pages of the shard leave it. -/
def Counted (w : System l size δ) (n : Fin l.width → Nat) : Prop :=
  ∀ i, (w.pool.shard i).nextId = (l.stripe i).nth? (n i)

/-- A shard that is served is asked. -/
theorem shard_serve_self (w : System l size δ) (i : Fin l.width) (op : ShardOp size) :
    (w.serve i op).state.pool.shard i = ((w.backed i).ask (l.stripe i) op).shard := by
  rw [← Backed.state_serve, ← backed_serve]
  rfl

/-- A page that a shard made has the id the counter stood at, and the counter moves on. -/
theorem nextId_of_made {p : PageId} (hanswer : (w.serve e.shard e.op).result = e.answer)
    (hmade : e.made? = some p) :
    (w.pool.shard e.shard).nextId = some p ∧
      ((w.serve e.shard e.op).state.pool.shard e.shard).nextId =
        (l.stripe e.shard).next? p := by
  obtain ⟨i, op, answer⟩ := e
  obtain ⟨hop, f, hok⟩ := Exchange.made?_eq_some_iff.mp hmade
  obtain rfl : op = .newPage := hop
  obtain rfl : answer = .ok (.handle p f) := hok
  have hmap : ((w.backed i).newPage (l.stripe i)).result.map
      (fun placed : PageId × Fin size => ShardReply.handle placed.1 placed.2) =
        .ok (.handle p f) := hanswer
  -- the shard answers with a place, which the exchange tells as a handle
  have hresult : ((w.backed i).newPage (l.stripe i)).result = .ok (p, f) := by
    cases hnew : ((w.backed i).newPage (l.stripe i)).result with
    | error e =>
      rw [hnew] at hmap
      exact absurd hmap (by simp [Except.map])
    | ok placed =>
      rw [hnew] at hmap
      obtain ⟨rfl, rfl⟩ := ShardReply.handle.inj (Except.ok.inj hmap)
      rfl
  refine ⟨Backed.nextId_of_newPage hresult, ?_⟩
  show ((w.serve i .newPage).state.pool.shard i).nextId = _
  rw [shard_serve_self]
  exact Backed.nextId_newPage_of_ok hresult

/-- A shard that makes no page keeps its counter where it is. -/
theorem nextId_of_not_made (h : w.Counted n) (hanswer : (w.serve e.shard e.op).result = e.answer)
    (hmade : e.made? = none) :
    ((w.serve e.shard e.op).state.pool.shard e.shard).nextId =
      (w.pool.shard e.shard).nextId := by
  obtain ⟨i, op, answer⟩ := e
  show ((w.serve i op).state.pool.shard i).nextId = (w.pool.shard i).nextId
  rw [shard_serve_self]
  by_cases hop : op = .newPage
  · -- a page was asked for, so the answer is an error, and the counter stands where it did
    subst hop
    cases hnew : ((w.backed i).newPage (l.stripe i)).result with
    | error e =>
      refine Backed.nextId_newPage_of_error (fun hnext => ?_) hnew
      exact Stripe.owns_of_nth? ((h i).symm.trans hnext)
    | ok placed =>
      have hok : (w.serve i .newPage).result = .ok (.handle placed.1 placed.2) := by
        show ((w.backed i).newPage (l.stripe i)).result.map _ = _
        rw [hnew]
        rfl
      obtain rfl : _ = answer := hok.symm.trans hanswer
      exact absurd hmade (by simp [Exchange.made?, placed?])
  · exact Backed.nextId_ask (l.stripe i) (w.backed i) hop

namespace Counted

/-- One exchange: a page has the id that the number of pages before it says, and counts. -/
theorem serve (h : w.Counted n) (hanswer : (w.serve e.shard e.op).result = e.answer) :
    (∀ p ∈ e.made?, (l.stripe e.shard).nth? (n e.shard) = some p) ∧
      (w.serve e.shard e.op).state.Counted fun i => n i + (made i [e]).length := by
  have hother {i : Fin l.width} (hi : e.shard ≠ i) :
      ((w.serve e.shard e.op).state.pool.shard i).nextId =
        (l.stripe i).nth? (n i + (made i [e]).length) := by
    rw [shard_serve_of_ne w e.op hi, Exchange.made_single_of_ne hi]
    exact h i
  -- only an exchange that makes a page takes an id, and only that of its own shard
  cases hmade : e.made? with
  | none =>
    refine ⟨fun p hp => absurd hp (by simp), fun i => ?_⟩
    by_cases hi : e.shard = i
    · subst hi
      rw [nextId_of_not_made h hanswer hmade]
      show _ = (l.stripe e.shard).nth? (n e.shard + (made e.shard [e]).length)
      rw [Exchange.made_single_self, hmade]
      exact h e.shard
    · exact hother hi
  | some p =>
    obtain ⟨hnext, hmoved⟩ := nextId_of_made hanswer hmade
    have hnth : (l.stripe e.shard).nth? (n e.shard) = some p := (h e.shard).symm.trans hnext
    refine ⟨fun q hq => Option.some.inj hq ▸ hnth, fun i => ?_⟩
    by_cases hi : e.shard = i
    · subst hi
      rw [hmoved]
      show _ = (l.stripe e.shard).nth? (n e.shard + (made e.shard [e]).length)
      rw [Exchange.made_single_self, hmade]
      exact Stripe.next?_of_nth? hnth
    · exact hother hi

/-- All exchanges, one after the other. -/
theorem replay (h : w.Counted n) (hlog : Answered log w) :
    (∀ i k p, (made i log)[k]? = some p → (l.stripe i).nth? (n i + k) = some p) ∧
      (w.replay log).Counted fun i => n i + (made i log).length := by
  induction log generalizing w n with
  | nil => exact ⟨fun i k p hp => absurd hp (by simp [made, Exchange.reaching]), h⟩
  -- each exchange counts first, and the log after it
  | cons e log ih =>
    obtain ⟨hanswer, hlog⟩ := hlog
    obtain ⟨hfirst, hcounted⟩ := h.serve hanswer
    obtain ⟨hrest, hcounted⟩ := ih hcounted hlog
    have hsplit (i : Fin l.width) : made i (e :: log) = made i [e] ++ made i log := by
      rw [← Exchange.made_append, List.singleton_append]
    constructor
    · intro i k p hp
      rw [hsplit, List.getElem?_append] at hp
      split at hp
      · next hk =>
        -- the exchange itself was with the shard, and made the page
        have hmem := List.mem_of_getElem? hp
        obtain ⟨e', he', rfl, hmade⟩ := Exchange.mem_made.mp hmem
        obtain rfl := List.mem_singleton.mp he'
        rw [Exchange.made_single_self, hmade] at hk
        obtain rfl : k = 0 := Nat.lt_one_iff.mp hk
        exact hfirst p hmade
      · next hk =>
        have hnth := hrest i _ p hp
        rwa [show n i + (made i [e]).length + (k - (made i [e]).length) = n i + k by omega]
          at hnth
    · intro i
      show _ = (l.stripe i).nth? (n i + (made i (e :: log)).length)
      rw [hsplit, List.length_append, ← Nat.add_assoc]
      exact hcounted i

end Counted

/-! ## Whole histories -/

omit [PageStore δ] in
/-- The system with its cursor somewhere else. -/
def withCursor (w : System l size δ) (cursor : Fin l.width) : System l size δ :=
  { w with pool := { w.pool with cursor } }

/-- What the shards are asked has nothing to do with the cursor. -/
theorem replay_withCursor (w : System l size δ) (cursor : Fin l.width)
    (log : List (Exchange l size)) :
    (w.withCursor cursor).replay log = (w.replay log).withCursor cursor := by
  induction log generalizing w with
  | nil => rfl
  | cons e log ih => exact ih (w.serve e.shard e.op).state

/-- What the shards answer has nothing to do with the cursor. -/
theorem answered_withCursor {cursor : Fin l.width} :
    Answered log (w.withCursor cursor) ↔ Answered log w := by
  induction log generalizing w with
  | nil => rfl
  | cons e log ih =>
    unfold Answered
    exact and_congr .rfl (ih (w := (w.serve e.shard e.op).state))

/-- The later exchanges are answered in the state that the earlier ones left. -/
theorem answered_append {log' : List (Exchange l size)} :
    Answered (log ++ log') w ↔ Answered log w ∧ Answered log' (w.replay log) := by
  induction log generalizing w with
  | nil => exact (true_and _).symm.to_iff
  | cons e log ih =>
    rw [List.cons_append, Answered, Answered, ih, and_assoc]
    rfl

/-- What passes between a pool and its shards are the answers that the shards give. -/
theorem answered_traffic (calls : List (PoolOp l size)) (w : System l size δ) :
    Answered (traffic calls w) w := by
  induction calls generalizing w with
  | nil => trivial
  | cons c calls ih =>
    rw [traffic, answered_append]
    -- a call turns the cursor, which no shard sees
    have hcall : (w.call c).state =
        (w.replay (w.exchanges c)).withCursor (c.turn w.pool.cursor) :=
      (w.call_told c).state.trans (w.replay_withCursor _ _)
    refine ⟨answered_withCursor.mp (w.answered_exchanges c), ?_⟩
    have hrest := ih (w.call c).state
    rw [hcall] at hrest ⊢
    exact answered_withCursor.mp hrest

/-! ## What the callers get -/

end System

/-- The page that a call has given, if it was one for a new page. -/
def PoolOp.given? {l : Layout} {size : Nat} (c : PoolOp l size)
    (answer : Except Failure (ShardReply size)) : Option PageId :=
  match c with
  | .newPage | .direct _ .newPage => placed? answer
  | _ => none

namespace System

open Exchange (made)

variable {l : Layout} {size : Nat} {δ : Type} [PageStore δ] {w : System l size δ}
variable {e : Exchange l size} {op : ShardOp size}
variable {goesOn : Except Failure (ShardReply size) → Bool} {shards : List (Fin l.width)}

/-- The pages that calls have given, the first of them first. -/
def given : List (PoolOp l size) → System l size δ → List PageId
  | [], _ => []
  | c :: calls, w => (c.given? (w.call c).result).toList ++ given calls (w.call c).state

/-- A scan asks all shards the same. -/
theorem op_of_mem_scanned (he : e ∈ scanned op goesOn shards w) : e.op = op := by
  induction shards generalizing w with
  | nil => exact absurd he List.not_mem_nil
  | cons i rest ih =>
    rw [scanned] at he
    rcases List.mem_cons.mp he with rfl | he
    · rfl
    · split at he
      · exact ih he
      · exact absurd he List.not_mem_nil

/-- Without asking for one, a scan makes no page. -/
theorem made_scanned_of_ne (hop : op ≠ .newPage) :
    (scanned op goesOn shards w).filterMap Exchange.made? = [] := by
  rw [List.filterMap_eq_nil_iff]
  intro e he
  exact Exchange.made?_eq_none_of_op (op_of_mem_scanned he ▸ hop)

/-- Only the last of the shards that are asked for a page makes one. -/
theorem made_scanned (shards : List (Fin l.width)) (w : System l size δ) :
    (scanned .newPage saysFull shards w).filterMap Exchange.made? =
      ((scanned .newPage saysFull shards w).getLast?.bind Exchange.made?).toList := by
  induction shards generalizing w with
  | nil => rfl
  | cons i rest ih =>
    rw [scanned]
    cases hfull : saysFull (w.serve i .newPage).result with
    | false =>
      rw [if_neg Bool.false_ne_true, List.getLast?_singleton, Option.bind_some]
      cases hmade : Exchange.made? ⟨i, .newPage, (w.serve i .newPage).result⟩ with
      | none => exact List.filterMap_cons_none hmade
      | some p => exact List.filterMap_cons_some hmade
    -- a shard that is full makes nothing, and the rest is asked
    | true =>
      have hnone : Exchange.made? ⟨i, .newPage, (w.serve i .newPage).result⟩ = none := by
        rw [saysFull_iff.mp hfull]
        rfl
      rw [if_pos rfl, List.filterMap_cons_none hnone, ih, List.getLast?_cons]
      cases (scanned .newPage saysFull rest (w.serve i .newPage).state).getLast? with
      | none => rw [Option.getD_none, Option.bind_some, hnone, Option.bind_none]
      | some e => rfl

/-- What a call gives is what the shards made for it. -/
theorem made_exchanges (w : System l size δ) (c : PoolOp l size) :
    (w.exchanges c).filterMap Exchange.made? = (c.given? (w.call c).result).toList := by
  cases c with
  | newPage =>
    obtain ⟨-, e, hlast, hresult⟩ := w.call_told .newPage
    have hop : e.op = .newPage := op_of_mem_scanned (List.mem_of_getLast? hlast)
    rw [hresult]
    refine (made_scanned _ _).trans ?_
    show ((w.exchanges .newPage).getLast?.bind Exchange.made?).toList = _
    rw [hlast, Option.bind_some]
    obtain ⟨i, op, answer⟩ := e
    obtain rfl : op = .newPage := hop
    rfl
  | direct i op =>
    -- past the pool too, a page is made only where one is asked for
    by_cases hop : op = .newPage
    · subst hop
      show List.filterMap Exchange.made? [⟨i, .newPage, (w.serve i .newPage).result⟩] =
        (placed? (w.serve i .newPage).result).toList
      cases hplaced : placed? (w.serve i .newPage).result with
      | none => exact List.filterMap_cons_none hplaced
      | some p => exact List.filterMap_cons_some hplaced
    · refine (made_scanned_of_ne hop).trans ?_
      cases op <;> first | rfl | exact absurd rfl hop
  | _ => exact made_scanned_of_ne (by simp [PoolOp.scan])

/-- What a history of calls gives is what the shards made in it. -/
theorem given_eq (calls : List (PoolOp l size)) (w : System l size δ) :
    given calls w = (traffic calls w).filterMap Exchange.made? := by
  induction calls generalizing w with
  | nil => rfl
  | cons c calls ih => rw [given, traffic, List.filterMap_append, made_exchanges, ih]

/-! ## Pages of different shards, and of one -/

variable {n : Fin l.width → Nat} {log : List (Exchange l size)}

/-- A page that a log made has the number of its place among those of its shard. -/
theorem Counted.nth_of_mem (h : w.Counted n) (hlog : Answered log w) {p : PageId}
    (hp : p ∈ log.filterMap Exchange.made?) : ∃ i k, (l.stripe i).nth? (n i + k) = some p := by
  obtain ⟨e, he, hmade⟩ := List.mem_filterMap.mp hp
  have hmem : p ∈ made e.shard log := Exchange.mem_made.mpr ⟨e, he, rfl, hmade⟩
  obtain ⟨k, hk⟩ := List.getElem?_of_mem hmem
  exact ⟨e.shard, k, (h.replay hlog).1 e.shard k p hk⟩

/-- No page is made twice, by whatever shards. -/
theorem Counted.nodup (h : w.Counted n) (hlog : Answered log w) :
    (log.filterMap Exchange.made?).Nodup := by
  induction log generalizing w n with
  | nil => exact List.nodup_nil
  | cons e log ih =>
    obtain ⟨hanswer, hlog⟩ := hlog
    obtain ⟨hfirst, hcounted⟩ := h.serve hanswer
    have hrest := ih hcounted hlog
    cases hmade : e.made? with
    | none =>
      rw [List.filterMap_cons_none hmade]
      exact hrest
    | some p =>
      rw [List.filterMap_cons_some hmade, List.nodup_cons]
      refine ⟨fun hp => ?_, hrest⟩
      -- a later page of the same shard has a larger number, one of another shard another residue
      obtain ⟨j, k, hlater⟩ := hcounted.nth_of_mem hlog hp
      have hnow := hfirst p hmade
      by_cases hj : e.shard = j
      · subst hj
        have hone : (made e.shard [e]).length = 1 := by
          rw [Exchange.made_single_self, hmade]
          rfl
        rw [hone, Stripe.nth?_eq_some_iff] at hlater
        rw [Stripe.nth?_eq_some_iff] at hnow
        have hcount : 0 < (l.stripe e.shard).count := (l.stripe e.shard).count_pos
        have hless : n e.shard * (l.stripe e.shard).count <
            (n e.shard + 1 + k) * (l.stripe e.shard).count :=
          Nat.mul_lt_mul_of_pos_right (by omega) hcount
        omega
      · exact disjoint_of_ne hj (Stripe.owns_of_nth? hnow) (Stripe.owns_of_nth? hlater)

omit [PageStore δ] in
/-- A shard that has just been built has made no page. -/
theorem counted_of_build {b : Blueprint} {built : AnyPool} (hbuild : b.build = .ok built)
    (disk : δ) : (⟨built.pool, disk⟩ : System built.layout built.size δ).Counted fun _ => 0 := by
  intro i
  show (built.pool.shard i).nextId = (built.layout.stripe i).nth? 0
  rw [Stripe.nth?_zero]
  exact Blueprint.nextId_of_build hbuild i

/-! ## Ids in order -/

/-- In the course of `calls` every shard gives its ids out in order, and none in vain. -/
structure IdsInOrder (w : System l size δ) (calls : List (PoolOp l size)) : Prop where
  /-- The `k`th page of a shard has the `k`th id of its stripe. -/
  numbered : ∀ {i k p}, (made i (traffic calls w))[k]? = some p →
    p.val = (l.stripe i).index + k * (l.stripe i).count
  /-- Only the pages that were made count, whatever else was asked and whatever failed. -/
  counter : ∀ {before after}, traffic calls w = before ++ after → ∀ i,
    ((w.replay before).pool.shard i).nextId =
      PageId.ofNat? ((l.stripe i).index + (made i before).length * (l.stripe i).count)
  /-- A shard without an id says so, which it does exactly if the next is no number of 32 bits. -/
  exhausted : ∀ {before e after}, traffic calls w = before ++ e :: after → e.op = .newPage →
    (e.answer = .error (.storage .idsExhausted) ↔
      UInt32.size ≤ (l.stripe e.shard).index +
        (made e.shard before).length * (l.stripe e.shard).count)
  /-- To say so changes nothing. -/
  untouched : ∀ {before e after}, traffic calls w = before ++ e :: after → e.op = .newPage →
    e.answer = .error (.storage .idsExhausted) → w.replay (before ++ [e]) = w.replay before
  owned : ∀ {i p}, p ∈ made i (traffic calls w) → (l.stripe i).Owns p
  /-- What the callers get are the pages that were made, and no two of them are one. -/
  given : given calls w = (traffic calls w).filterMap Exchange.made?
  distinct : (System.given calls w).Nodup

/-- A shard that is out of ids leaves the system as it is. -/
theorem serve_of_exhausted {i : Fin l.width} (h : (w.pool.shard i).nextId = none) :
    (w.serve i .newPage).state = w := by
  refine onShard_self ?_
  show ((w.backed i).newPage (l.stripe i)).state = w.backed i
  rw [Backed.newPage_of_exhausted (w := w.backed i) _ h]
  rfl

/-- The answer to a shard that was asked for a page says that there is none if there is none. -/
theorem exhausted_iff (hop : e.op = .newPage)
    (hanswer : (w.serve e.shard e.op).result = e.answer) :
    e.answer = .error (.storage .idsExhausted) ↔ (w.pool.shard e.shard).nextId = none := by
  have hnone : (w.pool.shard e.shard).nextId = none ↔
      ((w.backed e.shard).newPage (l.stripe e.shard)).result =
        .error (.storage .idsExhausted) :=
    (Backed.newPage_exhausted_iff (w := w.backed e.shard)).symm
  rw [← hanswer, hop, hnone]
  show (((w.backed e.shard).newPage (l.stripe e.shard)).result.map _ = _) ↔ _
  cases ((w.backed e.shard).newPage (l.stripe e.shard)).result with
  | ok placed => simp [Except.map]
  | error e' => simp [Except.map]

section

variable {before after : List (Exchange l size)}

/-- What was asked next was answered in the state that the exchanges before had left. -/
theorem answer_of_split (hlog : Answered (before ++ e :: after) w) :
    ((w.replay before).serve e.shard e.op).result = e.answer := by
  obtain ⟨-, hanswer, -⟩ := answered_append.mp hlog
  exact hanswer

/-- At any time each counter stands where the pages say that the shard has made. -/
theorem Counted.nextId (h : w.Counted fun _ => 0) (hlog : Answered (before ++ after) w)
    (i : Fin l.width) : ((w.replay before).pool.shard i).nextId =
      PageId.ofNat? ((l.stripe i).index + (made i before).length * (l.stripe i).count) := by
  have hcounted := (h.replay (answered_append.mp hlog).1).2 i
  simp only [Nat.zero_add] at hcounted
  exact hcounted

/-- A page that a shard made has the id of its place among them. -/
theorem Counted.nth (h : w.Counted fun _ => 0) (hlog : Answered log w) {i : Fin l.width} {k : Nat}
    {p : PageId} (hp : (made i log)[k]? = some p) : (l.stripe i).nth? k = some p := by
  have hnth := (h.replay hlog).1 i k p hp
  rwa [Nat.zero_add] at hnth

end

/-- Pools of every kind, and shards by themselves, number their pages so on any disk. -/
theorem ids_in_order {b : Blueprint} {built : AnyPool} (hbuild : b.build = .ok built)
    (disk : δ) (calls : List (PoolOp built.layout built.size)) :
    IdsInOrder ⟨built.pool, disk⟩ calls := by
  have hstart := counted_of_build hbuild disk
  have hall := answered_traffic calls ⟨built.pool, disk⟩
  exact
    { numbered := fun hp => Stripe.nth?_eq_some_iff.mp (hstart.nth hall hp)
      counter := fun hsplit i => hstart.nextId (hsplit ▸ hall) i
      exhausted := by
        intro before e after hsplit hop
        rw [hsplit] at hall
        rw [exhausted_iff hop (answer_of_split hall), hstart.nextId hall]
        exact PageId.ofNat?_eq_none_iff
      untouched := by
        intro before e after hsplit hop hexhausted
        rw [hsplit] at hall
        have hnone := (exhausted_iff hop (answer_of_split hall)).mp hexhausted
        rw [replay, List.foldl_append]
        show (System.serve (System.replay _ before) e.shard e.op).state = _
        rw [hop]
        exact serve_of_exhausted hnone
      owned := by
        intro i p hp
        obtain ⟨k, hk⟩ := List.getElem?_of_mem hp
        exact Stripe.owns_of_nth? (hstart.nth hall hk)
      given := given_eq calls _
      distinct := by
        rw [given_eq]
        exact hstart.nodup hall }

/-- A shard by itself that owns every `2 ^ 31`th id, on a disk that does not write the first page at
the first attempt. The write that fails costs no id, and after two pages there are none left. -/
theorem ids_in_order_two_left :
    ∃ calls : List (PoolOp (.alone ⟨2147483648, 1, by decide, by decide⟩) 1),
      IdsInOrder (fresh _ 1 (PlannedDisk.reluctant ⟨1, by decide⟩)) calls ∧
      (traffic calls (fresh _ 1 (PlannedDisk.reluctant ⟨1, by decide⟩))).map Exchange.answer =
        [.ok (.handle ⟨1, by decide⟩ 0), .ok (.truth true), .error (.storage (.io .writeFault)),
          .ok (.handle ⟨2147483649, by decide⟩ 0), .ok (.truth true),
          .error (.storage .idsExhausted)] := by
  have hbuild : (Blueprint.alone 1 2147483648 1 none).build =
      .ok (.fresh (.alone ⟨2147483648, 1, by decide, by decide⟩) 1) := rfl
  refine ⟨[.newPage, .unpin ⟨1, by decide⟩ true, .newPage, .newPage,
    .unpin ⟨2147483649, by decide⟩ false, .newPage], ids_in_order hbuild _ _, ?_⟩
  rfl

end System

end PageCache
