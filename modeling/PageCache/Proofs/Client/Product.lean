import PageCache.Proofs.Client.Calls
import PageCache.Proofs.Shard.Local

/-!
# A pool is the product of its shards

The shards of a pool have a disk in common, and that is all. On a store that keeps its pages apart a
shard answers what one would answer that has the store to itself and is asked the same, and it and
its pages end up the same (`System.independent`). It does not matter what is asked of the others, or
when: two calls that reach different shards may be made in either order.
-/

namespace PageCache

open PagewiseStore (part Apart simulation_sameOn simulation_spares)

variable {l : Layout} {size : Nat} {δ : Type}

/-- A shard of stripe `s` to which nothing has happened. -/
def Backed.fresh (s : Stripe) (size : Nat) (disk : δ) : Backed size δ :=
  ⟨.fresh s size, disk⟩

/-- A pool to which nothing has happened. -/
def System.fresh (l : Layout) (size : Nat) (disk : δ) : System l size δ :=
  ⟨.fresh l size, disk⟩

/-- Pools with the same shards and the same cursor are one pool. -/
theorem Pool.ext_shard {pool pool' : Pool l size} (hshard : ∀ i, pool.shard i = pool'.shard i)
    (hcursor : pool.cursor = pool'.cursor) : pool = pool' := by
  obtain ⟨shards, cursor⟩ := pool
  obtain ⟨shards', cursor'⟩ := pool'
  obtain rfl : cursor = cursor' := hcursor
  rw [Pool.mk.injEq]
  exact ⟨Vector.ext fun i hi => hshard ⟨i, hi⟩, rfl⟩

namespace Exchange

/-- The exchanges with shard `i`. -/
def reaching (i : Fin l.width) (log : List (Exchange l size)) : List (Exchange l size) :=
  log.filter fun e => e.shard = i

/-- What shard `i` was asked. -/
def ops (i : Fin l.width) (log : List (Exchange l size)) : List (ShardOp size) :=
  (reaching i log).map op

variable {i : Fin l.width}

/-- The first exchange is one of those with its own shard. -/
theorem reaching_cons_self (e : Exchange l size) (log : List (Exchange l size)) :
    reaching e.shard (e :: log) = e :: reaching e.shard log := by
  simp [reaching]

/-- An exchange with another shard does not reach shard `i`. -/
theorem reaching_cons_of_ne {e : Exchange l size} (hi : e.shard ≠ i)
    (log : List (Exchange l size)) : reaching i (e :: log) = reaching i log := by
  simp [reaching, hi]

/-- What reaches shard `i` in two parts of a log reaches it in the whole. -/
theorem reaching_append (i : Fin l.width) (log log' : List (Exchange l size)) :
    reaching i (log ++ log') = reaching i log ++ reaching i log' :=
  List.filter_append ..

end Exchange

variable [PageStore δ]

/-! ## One shard -/

namespace Backed

/-- The answers to one question after the other. -/
def answers (s : Stripe) : List (ShardOp size) → Backed size δ →
    List (Except Failure (ShardReply size))
  | [], _ => []
  | op :: ops, w => (w.serve s op).result :: answers s ops (w.serve s op).state

/-- What becomes of the shard in the course of that. -/
def afterAll (s : Stripe) (ops : List (ShardOp size)) (w : Backed size δ) : Backed size δ :=
  ops.foldl (fun w op => (w.serve s op).state) w

/-- The later questions are answered by what the earlier ones left. -/
theorem answers_append (s : Stripe) (ops ops' : List (ShardOp size)) (w : Backed size δ) :
    answers s (ops ++ ops') w = answers s ops w ++ answers s ops' (afterAll s ops w) := by
  induction ops generalizing w with
  | nil => rfl
  | cons op ops ih => exact congrArg _ (ih _)

/-- The later questions find what the earlier ones left. -/
theorem afterAll_append (s : Stripe) (ops ops' : List (ShardOp size)) (w : Backed size δ) :
    afterAll s (ops ++ ops') w = afterAll s ops' (afterAll s ops w) :=
  List.foldl_append

end Backed

namespace System

/-- What becomes of a pool by one call after the other. -/
def after (calls : List (PoolOp l size)) (w : System l size δ) : System l size δ :=
  calls.foldl (fun w c => (w.call c).state) w

/-- What passes between the pool and its shards in the course of that. -/
def traffic : List (PoolOp l size) → System l size δ → List (Exchange l size)
  | [], _ => []
  | c :: calls, w => w.exchanges c ++ traffic calls (w.call c).state

variable [PagewiseStore δ]

/-! ## What the shards leave each other -/

/-- The shards keep to their stripes, and the store keeps the stripes apart. -/
structure Parted (w : System l size δ) : Prop where
  confined : ∀ i, (w.pool.shard i).Confined (l.stripe i).Owns
  apart : Apart w.disk

variable {w v : System l size δ} {i j : Fin l.width} {b : Backed size δ} {op : ShardOp size}
variable {goesOn : Except Failure (ShardReply size) → Bool}

omit [PageStore δ] [PagewiseStore δ] in
/-- No page is of two stripes. -/
theorem disjoint_of_ne {p : PageId} (hij : i ≠ j) (hp : (l.stripe i).Owns p) :
    ¬ (l.stripe j).Owns p := fun hj =>
  hij (Layout.eq_of_owns hp hj)

omit [PagewiseStore δ] in
/-- The shard that is asked becomes what it would by itself, on the same disk. -/
theorem backed_serve (w : System l size δ) (i : Fin l.width) (op : ShardOp size) :
    (w.serve i op).state.backed i = ((w.backed i).serve (l.stripe i) op).state := by
  show (⟨(w.serve i op).state.pool.shard i, _⟩ : Backed size δ) = _
  rw [serve, shard_onShard, if_pos rfl]
  rfl

omit [PagewiseStore δ] in
/-- The shards that are not asked stay as they are. -/
theorem shard_serve_of_ne (w : System l size δ) (op : ShardOp size) (hij : i ≠ j) :
    (w.serve i op).state.pool.shard j = w.pool.shard j := by
  rw [serve, shard_onShard, if_neg hij]

namespace Parted

/-- A shard that keeps to its stripe sees what it sees. -/
theorem twins (h : w.Parted) (i : Fin l.width) :
    Backed.Twins (l.stripe i) (w.backed i) (w.backed i) :=
  .refl (h.confined i) h.apart

/-- A question to one shard leaves all of them within their stripes. -/
theorem serve (h : w.Parted) (i : Fin l.width) (op : ShardOp size) :
    (w.serve i op).state.Parted := by
  have htwins := (Backed.serve_mirrors (simulation_sameOn _) (l.stripe i).within_owns (h.twins i)
    op).state
  refine ⟨fun j => ?_, htwins.disk.apart⟩
  -- the shard that is asked keeps to its stripe, and the others do not change
  by_cases hij : i = j
  · subst hij
    have hconfined := htwins.confined
    rwa [← backed_serve] at hconfined
  · rw [shard_serve_of_ne w op hij]
    exact h.confined j

/-- Many questions, to any shards, leave all of them within their stripes. -/
theorem replay (h : w.Parted) (log : List (Exchange l size)) : (w.replay log).Parted := by
  induction log generalizing w with
  | nil => exact h
  | cons e log ih => exact ih (h.serve e.shard e.op)

/-- Where the next creation starts does not matter here. -/
theorem turnedBy (h : w.Parted) (c : PoolOp l size) : (w.turnedBy c).Parted :=
  ⟨h.confined, h.apart⟩

/-- A call leaves the shards within their stripes. -/
theorem call (h : w.Parted) (c : PoolOp l size) : (w.call c).state.Parted := by
  rw [(w.call_told c).state]
  exact (h.turnedBy c).replay _

/-- A history of calls leaves the shards within their stripes. -/
theorem after (h : w.Parted) (calls : List (PoolOp l size)) : (w.after calls).Parted := by
  induction calls generalizing w with
  | nil => exact h
  | cons c calls ih => exact ih (h.call c)

/-- The shards of a pool to which nothing has happened are within their stripes. -/
theorem fresh {disk : δ} (hdisk : Apart disk) : (System.fresh l size disk).Parted where
  confined i := by
    show ((Pool.fresh l size).shard i).Confined _
    rw [Pool.shard_fresh]
    exact .fresh (l.stripe i) size
  apart := hdisk

end Parted

/-! ## A shard among others, and by itself -/

/-- A shard is asked, and so is one that sees the same. -/
theorem twins_serve (h : Backed.Twins (l.stripe i) (w.backed i) b) (op : ShardOp size) :
    (w.serve i op).result = (b.serve (l.stripe i) op).result ∧
      Backed.Twins (l.stripe i) ((w.serve i op).state.backed i)
        (b.serve (l.stripe i) op).state := by
  rw [backed_serve]
  obtain ⟨hresult, hstate⟩ :=
    Backed.serve_mirrors (simulation_sameOn _) (l.stripe i).within_owns h op
  exact ⟨hresult, hstate⟩

/-- Another shard is asked. -/
theorem twins_serve_of_ne (hw : w.Parted) (h : Backed.Twins (l.stripe i) (w.backed i) b)
    (op : ShardOp size) (hij : i ≠ j) :
    Backed.Twins (l.stripe i) ((w.serve j op).state.backed i) b := by
  -- what shard `j` does to the disk is about its own pages
  obtain ⟨-, hspares⟩ := (Backed.serve_mirrors (simulation_spares (l.stripe j).Owns w.disk)
    (l.stripe j).within_owns (w := w.backed j)
      ⟨rfl, hw.confined j, rfl, fun _ => rfl⟩ op).state.disk
  exact
    { shard := (shard_serve_of_ne w op hij.symm).trans h.shard
      confined := (hw.serve j op).confined i
      disk :=
        { apart := (hw.serve j op).apart
          apart' := h.disk.apart'
          part := fun hp => (hspares (disjoint_of_ne hij hp)).trans (h.disk.part hp) } }

/-- Whatever is asked of the shards, shard `i` becomes what one by itself does that is asked what
reaches it. -/
theorem twins_replay (log : List (Exchange l size)) (hw : w.Parted)
    (h : Backed.Twins (l.stripe i) (w.backed i) b) :
    Backed.Twins (l.stripe i) ((w.replay log).backed i)
      (b.afterAll (l.stripe i) (Exchange.ops i log)) := by
  induction log generalizing w b with
  | nil => exact h
  | cons e log ih =>
    by_cases hi : e.shard = i
    · -- the question is one for shard `i`: both are asked it
      subst hi
      rw [Exchange.ops, Exchange.reaching_cons_self]
      exact ih (hw.serve e.shard e.op) (twins_serve h e.op).2
    · rw [Exchange.ops, Exchange.reaching_cons_of_ne hi]
      exact ih (hw.serve e.shard e.op) (twins_serve_of_ne hw h e.op (Ne.symm hi))

/-- The answers in `log` are those that the shards give. -/
def Answered : List (Exchange l size) → System l size δ → Prop
  | [], _ => True
  | e :: log, w => (w.serve e.shard e.op).result = e.answer ∧
      Answered log (w.serve e.shard e.op).state

omit [PagewiseStore δ] in
/-- A scan records what the shards answer. -/
theorem answered_scanned (op : ShardOp size) (goesOn : Except Failure (ShardReply size) → Bool)
    (shards : List (Fin l.width)) (w : System l size δ) :
    Answered (scanned op goesOn shards w) w := by
  induction shards generalizing w with
  | nil => trivial
  | cons i rest ih =>
    rw [scanned]
    refine ⟨rfl, ?_⟩
    split
    · exact ih _
    · trivial

omit [PagewiseStore δ] in
/-- A call records what the shards answer. -/
theorem answered_exchanges (w : System l size δ) (c : PoolOp l size) :
    Answered (w.exchanges c) (w.turnedBy c) :=
  answered_scanned ..

/-- If the log tells what the shards answer, one by itself gives the answers that shard `i` gave. -/
theorem answers_replay {log : List (Exchange l size)} (hlog : Answered log w) (hw : w.Parted)
    (h : Backed.Twins (l.stripe i) (w.backed i) b) :
    b.answers (l.stripe i) (Exchange.ops i log) =
      (Exchange.reaching i log).map Exchange.answer := by
  induction log generalizing w b with
  | nil => rfl
  | cons e log ih =>
    obtain ⟨hanswer, hlog⟩ := hlog
    by_cases hi : e.shard = i
    · -- the question is one for shard `i`, which gives the answer in the log
      subst hi
      obtain ⟨hresult, htwins⟩ := twins_serve h e.op
      rw [Exchange.ops, Exchange.reaching_cons_self, List.map_cons, List.map_cons, Backed.answers,
        ← hresult, hanswer]
      exact congrArg _ (ih hlog (hw.serve e.shard e.op) htwins)
    · rw [Exchange.ops, Exchange.reaching_cons_of_ne hi]
      exact ih hlog (hw.serve e.shard e.op) (twins_serve_of_ne hw h e.op (Ne.symm hi))

/-- After any calls a shard is what it would be by itself, and has answered as it would. -/
theorem twins_after (calls : List (PoolOp l size)) (hw : w.Parted)
    (h : Backed.Twins (l.stripe i) (w.backed i) b) :
    b.answers (l.stripe i) (Exchange.ops i (traffic calls w)) =
        (Exchange.reaching i (traffic calls w)).map Exchange.answer ∧
      Backed.Twins (l.stripe i) ((w.after calls).backed i)
        (b.afterAll (l.stripe i) (Exchange.ops i (traffic calls w))) := by
  induction calls generalizing w b with
  | nil => exact ⟨rfl, h⟩
  | cons c calls ih =>
    -- a call turns the cursor first, and then has its exchanges
    have hturned := hw.turnedBy c
    have hanswers := answers_replay (w.answered_exchanges c) hturned h
    have htwins := twins_replay (w.exchanges c) hturned h
    rw [← (w.call_told c).state] at htwins
    obtain ⟨hrest, hafter⟩ := ih (hw.call c) htwins
    rw [traffic, Exchange.ops, Exchange.reaching_append, List.map_append, List.map_append,
      Backed.answers_append, Backed.afterAll_append]
    exact ⟨congrArg₂ _ hanswers hrest, hafter⟩

/-! ## Calls that reach different shards -/

/-- What is not reached stays as it is. -/
theorem twins_replay_of_not_mem {log : List (Exchange l size)} (hw : w.Parted)
    (hlog : ∀ e ∈ log, e.shard ≠ i) (h : Backed.Twins (l.stripe i) (w.backed i) b) :
    Backed.Twins (l.stripe i) ((w.replay log).backed i) b := by
  have hnone : Exchange.reaching i log = [] := by
    simpa [Exchange.reaching, List.filter_eq_nil_iff] using hlog
  have htwins := twins_replay log hw h
  rwa [Exchange.ops, hnone] at htwins

/-- Two pools that show shard `i` the same still do when the same is asked of both. -/
theorem replay_congr (log : List (Exchange l size)) (hw : w.Parted) (hv : v.Parted)
    (h : Backed.Twins (l.stripe i) (w.backed i) (v.backed i)) :
    Backed.Twins (l.stripe i) ((w.replay log).backed i) ((v.replay log).backed i) :=
  (twins_replay log hw h).trans (twins_replay log hv (hv.twins i)).symm

/-- A scan goes the same way if the shards it comes to see the same. -/
theorem scanned_congr (shards : List (Fin l.width)) (hw : w.Parted) (hv : v.Parted)
    (h : ∀ e ∈ scanned op goesOn shards w,
      Backed.Twins (l.stripe e.shard) (w.backed e.shard) (v.backed e.shard)) :
    scanned op goesOn shards v = scanned op goesOn shards w := by
  induction shards generalizing w v with
  | nil => rfl
  | cons i rest ih =>
    rw [scanned, List.forall_mem_cons] at h
    obtain ⟨hi, hrest⟩ := h
    obtain ⟨hresult, -⟩ := twins_serve hi op
    have hresult : (w.serve i op).result = (v.serve i op).result := hresult
    rw [scanned, scanned, hresult]
    -- both scans go on from here, or both end
    cases hgo : goesOn (v.serve i op).result with
    | false => rfl
    | true =>
      rw [hresult, hgo, if_pos rfl] at hrest
      have hsame := ih (hw.serve i op) (hv.serve i op) fun e he =>
        replay_congr [⟨i, op, .ok .done⟩] hw hv (hrest e he)
      rw [if_pos rfl, if_pos rfl, hsame]

variable {c c' : PoolOp l size}

omit [PagewiseStore δ] in
/-- Only the creation of a page moves the cursor, and whatever the shards answer. -/
theorem cursor_call (w : System l size δ) (c : PoolOp l size) :
    (w.call c).state.pool.cursor = c.turn w.pool.cursor := by
  -- no question to a shard touches the cursor
  have hreplay (log : List (Exchange l size)) (v : System l size δ) :
      (v.replay log).pool.cursor = v.pool.cursor := by
    induction log generalizing v with
    | nil => rfl
    | cons e log ih => exact ih _
  rw [(w.call_told c).state, hreplay]
  rfl

/-- The calls ask no shard that both of them ask. -/
def Disjoint (w : System l size δ) (c c' : PoolOp l size) : Prop :=
  ∀ e ∈ w.exchanges c, ∀ e' ∈ w.exchanges c', e.shard ≠ e'.shard

omit [PagewiseStore δ] in
/-- Which call is named first does not matter. -/
theorem Disjoint.symm (h : w.Disjoint c c') : w.Disjoint c' c :=
  fun e he e' he' => (h e' he' e he).symm

omit [PagewiseStore δ] in
/-- A call does not move the cursor for one that reaches other shards. -/
theorem Disjoint.scan_eq (h : w.Disjoint c c') :
    c'.scan (w.call c).state.pool.cursor = c'.scan w.pool.cursor := by
  rw [cursor_call]
  cases c' with
  | newPage =>
    cases c with
    | newPage =>
      -- the same call would ask the same twice
      obtain ⟨-, e, hlast, -⟩ := w.call_told .newPage
      have he := List.mem_of_getLast? hlast
      exact absurd rfl (h e he e he)
    | _ => rfl
  | _ => rfl

/-- A call that does not reach shard `i` leaves it as it is. -/
theorem twins_call (hw : w.Parted) (hi : ∀ e ∈ w.exchanges c, e.shard ≠ i) :
    Backed.Twins (l.stripe i) ((w.call c).state.backed i) (w.backed i) := by
  rw [(w.call_told c).state]
  exact twins_replay_of_not_mem (hw.turnedBy c) hi (hw.twins i)

/-- A call asks the same after another that reaches other shards. -/
theorem Disjoint.exchanges_eq (h : w.Disjoint c c') (hw : w.Parted) :
    (w.call c).state.exchanges c' = w.exchanges c' := by
  rw [exchanges, h.scan_eq]
  refine scanned_congr _ (hw.turnedBy c') ((hw.call c).turnedBy c') fun e he => ?_
  exact (twins_call hw fun e' he' => h e' he' e he).symm

/-- A call is answered the same after another that reaches other shards. -/
theorem Disjoint.result_eq (h : w.Disjoint c c') (hw : w.Parted) :
    ((w.call c).state.call c').result = (w.call c').result := by
  obtain ⟨-, e, hlast, hresult⟩ := (w.call c).state.call_told c'
  obtain ⟨-, e', hlast', hresult'⟩ := w.call_told c'
  rw [h.exchanges_eq hw, hlast'] at hlast
  rw [hresult, hresult', Option.some.inj hlast]

/-- A shard that the second call does not reach does not see which was first. -/
theorem Disjoint.twins (h : w.Disjoint c c') (hw : w.Parted)
    (hi : ∀ e ∈ w.exchanges c', e.shard ≠ i) :
    Backed.Twins (l.stripe i) (((w.call c).state.call c').state.backed i)
      (((w.call c').state.call c).state.backed i) := by
  -- either way the shard is what the first call alone makes of it
  have hfirst : Backed.Twins (l.stripe i) (((w.call c).state.call c').state.backed i)
      ((w.call c).state.backed i) :=
    twins_call (hw.call c) ((h.exchanges_eq hw).symm ▸ hi)
  have hsecond : Backed.Twins (l.stripe i) (((w.call c').state.call c).state.backed i)
      ((w.call c).state.backed i) := by
    rw [((w.call c').state.call_told c).state, h.symm.exchanges_eq hw, (w.call_told c).state]
    exact replay_congr _ ((hw.call c').turnedBy c) (hw.turnedBy c) (twins_call hw hi)
  exact hfirst.trans hsecond.symm

/-- It makes no difference which of two calls is made first. -/
structure Commute (w : System l size δ) (c c' : PoolOp l size) : Prop where
  first : ((w.call c').state.call c).result = (w.call c).result
  second : ((w.call c).state.call c').result = (w.call c').result
  pool : ((w.call c).state.call c').state.pool = ((w.call c').state.call c).state.pool
  part : ∀ {i p}, (l.stripe i).Owns p →
    part ((w.call c).state.call c').state.disk p = part ((w.call c').state.call c).state.disk p

/-- Two calls that reach different shards commute. -/
theorem commute_of_disjoint (hw : w.Parted) (h : w.Disjoint c c') : w.Commute c c' := by
  -- no shard is reached by both
  have htwins (i : Fin l.width) :
      Backed.Twins (l.stripe i) (((w.call c).state.call c').state.backed i)
        (((w.call c').state.call c).state.backed i) := by
    by_cases hi : ∀ e ∈ w.exchanges c', e.shard ≠ i
    · exact h.twins hw hi
    · obtain ⟨e', he', rfl⟩ : ∃ e' ∈ w.exchanges c', e'.shard = i := by simpa using hi
      exact (h.symm.twins hw fun e he => h e he e' he').symm
  refine ⟨h.symm.result_eq hw, h.result_eq hw, ?_, fun hp => (htwins _).disk.part hp⟩
  refine Pool.ext_shard (fun i => (htwins i).shard) ?_
  rw [cursor_call, cursor_call, cursor_call, cursor_call]
  cases c <;> cases c' <;> rfl

/-! ## The product -/

/-- The shards of pool `w`, which is asked `calls`, have nothing to do with one another: each does
what `lone` would that is asked the same. -/
structure Independent (w : System l size δ) (lone : Fin l.width → Backed size δ)
    (calls : List (PoolOp l size)) : Prop where
  answers : ∀ i, (lone i).answers (l.stripe i) (Exchange.ops i (traffic calls w)) =
    (Exchange.reaching i (traffic calls w)).map Exchange.answer
  shard : ∀ i, (w.after calls).pool.shard i =
    ((lone i).afterAll (l.stripe i) (Exchange.ops i (traffic calls w))).shard
  part : ∀ {i p}, (l.stripe i).Owns p → part (w.after calls).disk p =
    part ((lone i).afterAll (l.stripe i) (Exchange.ops i (traffic calls w))).disk p
  /-- The pool only passes on what the last shard said that it asked. -/
  last : ∀ c, ∃ e, ((w.after calls).exchanges c).getLast? = some e ∧
    ((w.after calls).call c).result = e.answer
  commute : ∀ c c', (w.after calls).Disjoint c c' → (w.after calls).Commute c c'

/-- Each shard of a pool goes its way as it would by itself. -/
theorem independent (l : Layout) (size : Nat) {disk : δ} (hdisk : Apart disk)
    (calls : List (PoolOp l size)) :
    Independent (fresh l size disk) (fun i => .fresh (l.stripe i) size disk) calls := by
  have hparted : (fresh l size disk).Parted := .fresh hdisk
  -- at the start the shard sees what one by itself does
  have htwins (i : Fin l.width) : Backed.Twins (l.stripe i) ((fresh l size disk).backed i)
      (.fresh (l.stripe i) size disk) := by
    have hshard : ((fresh l size disk).backed i).shard = .fresh (l.stripe i) size :=
      Pool.shard_fresh i
    exact ⟨hshard, hparted.confined i, .refl _ hdisk⟩
  exact
    { answers := fun i => (twins_after calls hparted (htwins i)).1
      shard := fun i => (twins_after calls hparted (htwins i)).2.shard
      part := fun hp => (twins_after calls hparted (htwins _)).2.disk.part hp
      last := fun c => (((fresh l size disk).after calls).call_told c).answer
      commute := fun c c' h => commute_of_disjoint (hparted.after calls) h }

/-- Two shards of one frame, on a disk that does not write page `0` at the first attempt: the shard
that has it makes room for another page when it tries again. -/
theorem independent_two_shards :
    ∃ calls : List (PoolOp (.split 2 (by decide) (by decide)) 1),
      Independent (fresh _ 1 (PlannedDisk.reluctant ⟨0, by decide⟩))
        (fun i => .fresh (Layout.stripe _ i) 1 (.reluctant ⟨0, by decide⟩)) calls ∧
      (Exchange.reaching ⟨0, by decide⟩ (traffic calls
          (fresh _ 1 (PlannedDisk.reluctant ⟨0, by decide⟩)))).map Exchange.answer =
        [.ok (.handle ⟨0, by decide⟩ 0), .ok (.truth true), .error (.storage (.io .writeFault)),
          .ok (.handle ⟨2, by decide⟩ 0), .error (.storage .poolFull)] := by
  have hdisk : Apart (PlannedDisk.reluctant ⟨0, by decide⟩) := trivial
  refine ⟨[.newPage, .unpin ⟨0, by decide⟩ true, .newPage, .direct ⟨0, by decide⟩ .newPage,
    .direct ⟨0, by decide⟩ .newPage, .newPage], independent _ 1 hdisk _, ?_⟩
  rfl

end System

end PageCache
