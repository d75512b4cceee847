import PageCache.Proofs.Client.Evolves
import PageCache.Proofs.Pool.Creation
import PageCache.Proofs.Shard.Simulation

/-!
# What a call of a pool asks of its shards

A pool does nothing itself. It passes a call on to one shard, or goes through its shards in turn,
and then each answer decides whether the next is asked (`PoolOp.scan`). `System.exchanges` lists
what was asked of which shard for one call, with the answers, and `System.call_told` says that this
is all there is to the call: the pool is left as the shards leave it, and what it says is what the
last of them said.
-/

namespace PageCache

/-! ## What is said -/

/-- What a shard answers. -/
inductive ShardReply (size : Nat)
  /-- The page lies in the frame, with a pin for whoever asked. -/
  | handle (page : PageId) (frame : Fin size)
  | truth (value : Bool)
  | done
  /-- What was found in a frame. -/
  | bytes (found : Page)

/-- What is said of a new handle. -/
def Handle.reply {l : Layout} {size : Nat} (h : Handle l size) : ShardReply size :=
  .handle h.page h.frame

/-- A question to one shard, and the answer. -/
structure Exchange (l : Layout) (size : Nat) where
  shard : Fin l.width
  op : ShardOp size
  answer : Except Failure (ShardReply size)

/-- What a pool may be asked. -/
inductive PoolOp (l : Layout) (size : Nat)
  | fetch (p : PageId)
  | newPage
  | unpin (p : PageId) (dirty : Bool)
  | delete (p : PageId)
  | flush (p : PageId)
  | flushAll (visit : Visit)
  /-- A shard is spoken to past the pool, or a frame of it is reached through a handle. -/
  | direct (i : Fin l.width) (op : ShardOp size)

variable {l : Layout} {size : Nat} {δ : Type} [PageStore δ]

/-- What a shard of stripe `s` does and answers. -/
def Backed.serve (s : Stripe) (w : Backed size δ) :
    ShardOp size → Outcome (Backed size δ) (ShardReply size)
  | .fetch p => (w.fetch s p).map (.handle p)
  | .newPage => (w.newPage s).map fun (p, f) => .handle p f
  | .unpin p dirty => (w.unpin s p dirty).map .truth
  | .delete p => (w.delete s p).map .truth
  | .flush p => (w.flush s p).map .truth
  | .flushAll visit => (w.flushAll visit).map fun _ => .done
  | .reach f g => (System.reach f g s w).map fun _ => .bytes (w.shard.frame f).bytes

theorem Backed.state_serve (s : Stripe) (w : Backed size δ) (op : ShardOp size) :
    (w.serve s op).state = w.ask s op := by
  cases op <;> rfl

/-- Over related stores a shard does the same, whatever it is asked, and answers the same. -/
theorem Backed.serve_mirrors {ε : Type} [PageStore ε] {P : PageId → Prop} {R : δ → ε → Prop}
    {s : Stripe} {w : Backed size δ} {w' : Backed size ε} (hR : StoreSimulation P R)
    (hs : s.Within P) (h : Mirror P R w w') (op : ShardOp size) :
    Outcome.Mirrors (Mirror P R) (w.serve s op) (w'.serve s op) := by
  cases op with
  | fetch p => exact (fetch_mirrors hR hs h p).map _
  | newPage => exact (newPage_mirrors hR hs h).map _
  | unpin p dirty => exact (unpin_mirrors h s p dirty).map _
  | delete p => exact (delete_mirrors hR hs h p).map _
  | flush p => exact (flush_mirrors hR h s p).map _
  | flushAll visit => exact (flushAll_mirrors hR h visit).map _
  | reach f g =>
    rw [serve, serve, System.reach, System.reach, ← h.shard]
    exact h.still (h.confined.reframe f _ _ _)

/-- Whatever a shard is asked, it goes on having to do with the pages of `P` only. -/
theorem Backed.confined_ask {P : PageId → Prop} {s : Stripe} {w : Backed size δ} (hs : s.Within P)
    (h : w.shard.Confined P) (op : ShardOp size) : (w.ask s op).shard.Confined P := by
  rw [← state_serve]
  exact (serve_mirrors (.eq P) hs ⟨rfl, h, rfl⟩ op).state.confined

namespace System

def serve (w : System l size δ) (i : Fin l.width) (op : ShardOp size) :
    Outcome (System l size δ) (ShardReply size) :=
  w.onShard i fun s b => b.serve s op

def call (w : System l size δ) : PoolOp l size → Outcome (System l size δ) (ShardReply size)
  | .fetch p => (w.fetch p).map Handle.reply
  | .newPage => w.newPage.map Handle.reply
  | .unpin p dirty => (w.unpin p dirty).map .truth
  | .delete p => (w.delete p).map .truth
  | .flush p => (w.flush p).map .truth
  | .flushAll visit => (w.flushAll visit).map fun _ => .done
  | .direct i op => w.serve i op

end System

/-! ## What is asked of the shards -/

/-- The same question to one shard after the other, until one gives an answer that ends it. -/
structure Scan (l : Layout) (size : Nat) where
  op : ShardOp size
  shards : List (Fin l.width)
  goesOn : Except Failure (ShardReply size) → Bool

/-- The answer is that the shard has no frame to spare. -/
def saysFull : Except Failure (ShardReply size) → Bool
  | .error (.storage .poolFull) => true
  | _ => false

omit [PageStore δ] in
/-- One error says that a shard is full. -/
theorem saysFull_iff {answer : Except Failure (ShardReply size)} :
    saysFull answer = true ↔ answer = .error (.storage .poolFull) := by
  constructor
  · intro h
    unfold saysFull at h
    split at h
    · rfl
    · exact absurd h (by simp)
  · rintro rfl
    rfl

namespace PoolOp

/-- The questions to the shards that a call comes to, with the cursor at `cursor`: a new page is
sought until a shard is not full, and a flush ends where a page cannot be written. -/
def scan (cursor : Fin l.width) : PoolOp l size → Scan l size
  | .fetch p => ⟨.fetch p, [l.route p], fun _ => false⟩
  | .newPage => ⟨.newPage, l.tour cursor, saysFull⟩
  | .unpin p dirty => ⟨.unpin p dirty, [l.route p], fun _ => false⟩
  | .delete p => ⟨.delete p, [l.route p], fun _ => false⟩
  | .flush p => ⟨.flush p, [l.route p], fun _ => false⟩
  | .flushAll visit => ⟨.flushAll visit, List.finRange l.width, Except.isOk⟩
  | .direct i op => ⟨op, [i], fun _ => false⟩

/-- Where the cursor is after a call. -/
def turn (cursor : Fin l.width) : PoolOp l size → Fin l.width
  | .newPage => l.next cursor
  | _ => cursor

end PoolOp

namespace System

/-- The exchanges of a scan, as far as it goes. -/
def scanned (op : ShardOp size) (goesOn : Except Failure (ShardReply size) → Bool) :
    List (Fin l.width) → System l size δ → List (Exchange l size)
  | [], _ => []
  | i :: rest, w =>
    let o := w.serve i op
    ⟨i, op, o.result⟩ :: if goesOn o.result then scanned op goesOn rest o.state else []

omit [PageStore δ] in
/-- The system with its cursor as a call leaves it. -/
def turnedBy (w : System l size δ) (c : PoolOp l size) : System l size δ :=
  { w with pool := { w.pool with cursor := c.turn w.pool.cursor } }

/-- What passes between a pool and its shards because of a call. -/
def exchanges (w : System l size δ) (c : PoolOp l size) : List (Exchange l size) :=
  let scan := c.scan w.pool.cursor
  scanned scan.op scan.goesOn scan.shards (w.turnedBy c)

/-- What becomes of the shards when they are asked what they were asked. -/
def replay (w : System l size δ) (log : List (Exchange l size)) : System l size δ :=
  log.foldl (fun w e => (w.serve e.shard e.op).state) w

/-! ## Nothing else happens -/

/-- What is said and left behind is what the exchanges, from `w` on, have led to. -/
structure Told (w : System l size δ) (log : List (Exchange l size))
    (o : Outcome (System l size δ) (ShardReply size)) : Prop where
  state : o.state = w.replay log
  answer : ∃ e, log.getLast? = some e ∧ o.result = e.answer

/-- `walk` asks shards in turn, as long as `goesOn` says so of their answers. -/
structure Walks (op : ShardOp size) (goesOn : Except Failure (ShardReply size) → Bool)
    (walk : List (Fin l.width) → System l size δ →
      Outcome (System l size δ) (ShardReply size)) : Prop where
  nil : ∀ w, (walk [] w).state = w
  /-- To have asked all of them is to say what the last of them said. -/
  last : ∀ (v w : System l size δ) i, goesOn (w.serve i op).result = true →
    (walk [] v).result = (w.serve i op).result
  goes : ∀ w i rest, goesOn (w.serve i op).result = true →
    (walk (i :: rest) w).result = (walk rest (w.serve i op).state).result ∧
      (walk (i :: rest) w).state = (walk rest (w.serve i op).state).state
  stops : ∀ w i rest, goesOn (w.serve i op).result = false →
    (walk (i :: rest) w).result = (w.serve i op).result ∧
      (walk (i :: rest) w).state = (w.serve i op).state

variable {op : ShardOp size} {goesOn : Except Failure (ShardReply size) → Bool}

/-- The shards on a walk are asked in turn until one of them ends it, and that one has the answer.
-/
theorem Walks.told {walk : List (Fin l.width) → System l size δ →
      Outcome (System l size δ) (ShardReply size)} (h : Walks op goesOn walk)
    (w : System l size δ) (i : Fin l.width) (rest : List (Fin l.width)) :
    Told w (scanned op goesOn (i :: rest) w) (walk (i :: rest) w) := by
  -- over the shards still on the way: where one of them does not end the walk, what it left is
  -- where the rest sets out
  induction rest generalizing w i with
  | nil =>
    rw [scanned, scanned, ite_self]
    refine ⟨?_, _, rfl, ?_⟩
    · cases hgo : goesOn (w.serve i op).result with
      | true => exact (h.goes w i [] hgo).2.trans (h.nil _)
      | false => exact (h.stops w i [] hgo).2
    · cases hgo : goesOn (w.serve i op).result with
      | true => exact (h.goes w i [] hgo).1.trans (h.last _ w i hgo)
      | false => exact (h.stops w i [] hgo).1
  | cons j rest ih =>
    rw [scanned]
    cases hgo : goesOn (w.serve i op).result with
    | true =>
      obtain ⟨hresult, hstate⟩ := h.goes w i (j :: rest) hgo
      obtain ⟨hrest, e, hlast, hanswer⟩ := ih (w.serve i op).state j
      refine ⟨hstate.trans hrest, e, ?_, hresult.trans hanswer⟩
      rw [if_pos rfl, List.getLast?_cons, hlast, Option.getD_some]
    | false =>
      obtain ⟨hresult, hstate⟩ := h.stops w i (j :: rest) hgo
      exact ⟨hstate, _, rfl, hresult⟩

theorem told_serve (w : System l size δ) (i : Fin l.width) (op : ShardOp size) :
    Told w (scanned op (fun _ => false) [i] w) (w.serve i op) :=
  ⟨rfl, _, rfl, rfl⟩

theorem result_serve_newPage (w : System l size δ) (i : Fin l.width) :
    (w.serve i .newPage).result = (w.newPageIn i).result.map Handle.reply := by
  show ((w.backed i).newPage (l.stripe i)).result.map _ =
    (((w.backed i).newPage (l.stripe i)).result.map _).map _
  cases ((w.backed i).newPage (l.stripe i)).result <;> rfl

/-- A shard says that it is full when it is. -/
theorem saysFull_serve (w : System l size δ) (i : Fin l.width) :
    saysFull (w.serve i .newPage).result = true ↔ w.Full i := by
  rw [saysFull_iff, result_serve_newPage, Full]
  cases (w.newPageIn i).result with
  | ok h => exact iff_of_false (by simp [Except.map]) (by simp)
  | error e => simp [Except.map]

/-- A new page is sought on a walk past the full shards. -/
theorem walks_newPageAmong :
    Walks .newPage saysFull fun shards (w : System l size δ) =>
      (newPageAmong shards w).map Handle.reply where
  nil w := rfl
  last v w i hgo := (saysFull_iff.mp hgo).symm
  goes w i rest hgo := by
    rw [newPageAmong_of_full ((w.saysFull_serve i).mp hgo)]
    exact ⟨rfl, rfl⟩
  stops w i rest hgo := by
    have hroom : ¬ w.Full i := fun hfull => by
      rw [(w.saysFull_serve i).mpr hfull] at hgo
      exact absurd hgo (by simp)
    obtain ⟨hresult, hstate⟩ := newPageAmong_cons hroom rest
    exact ⟨(congrArg (Except.map Handle.reply) hresult).trans (w.result_serve_newPage i).symm,
      hstate⟩

theorem result_serve_flushAll (w : System l size δ) (i : Fin l.width) (visit : Visit) :
    (w.serve i (.flushAll visit)).result =
      (w.onShard i fun _ b => b.flushAll visit).result.map fun _ => .done :=
  rfl

theorem isOk_serve_flushAll (w : System l size δ) (i : Fin l.width) (visit : Visit) :
    (w.serve i (.flushAll visit)).result.isOk = true ↔
      (w.onShard i fun _ b => b.flushAll visit).result = .ok () := by
  rw [result_serve_flushAll]
  cases (w.onShard i fun _ b => b.flushAll visit).result <;>
    simp [Except.map, Except.isOk, Except.toBool]

/-- Flushing shard by shard is a walk that the first failure ends. -/
theorem walks_flushShards (visit : Visit) :
    Walks (.flushAll visit) Except.isOk fun shards (w : System l size δ) =>
      (flushShards visit shards w).map fun _ => .done where
  nil w := rfl
  last v w i hgo := by
    rw [result_serve_flushAll, (w.isOk_serve_flushAll i visit).mp hgo]
    rfl
  goes w i rest hgo := by
    rw [flushShards, Outcome.andThen_of_ok ((w.isOk_serve_flushAll i visit).mp hgo)]
    exact ⟨rfl, rfl⟩
  stops w i rest hgo := by
    rw [result_serve_flushAll]
    cases hresult : (w.onShard i fun _ b => b.flushAll visit).result with
    | ok => exact absurd ((w.isOk_serve_flushAll i visit).mpr hresult) (by simp [hgo])
    | error =>
      rw [flushShards, Outcome.andThen_of_error hresult]
      exact ⟨rfl, rfl⟩

/-- A call leaves the shards as its exchanges do, and says what was said last. -/
theorem call_told (w : System l size δ) (c : PoolOp l size) :
    Told (w.turnedBy c) (w.exchanges c) (w.call c) := by
  cases c with
  | fetch p =>
    obtain ⟨hstate, e, hlast, hanswer⟩ := w.told_serve (l.route p) (.fetch p)
    refine ⟨hstate, e, hlast, Eq.trans ?_ hanswer⟩
    show (((w.backed (l.route p)).fetch (l.stripe (l.route p)) p).result.map _).map _ =
      ((w.backed (l.route p)).fetch (l.stripe (l.route p)) p).result.map _
    cases ((w.backed (l.route p)).fetch (l.stripe (l.route p)) p).result <;> rfl
  | newPage =>
    -- the tour begins somewhere, so it is a walk of one shard at least
    obtain ⟨rest, htour⟩ := l.tour_eq_cons w.pool.cursor
    obtain ⟨hstate, e, hlast, hanswer⟩ :=
      walks_newPageAmong.told (w.turnedBy .newPage) w.pool.cursor rest
    rw [← htour] at hstate hlast hanswer
    obtain ⟨hresult, hstate'⟩ := w.newPage_eq_among
    refine ⟨hstate'.trans hstate, e, hlast, ?_⟩
    exact (congrArg (Except.map Handle.reply) hresult).trans hanswer
  | flushAll visit =>
    obtain ⟨first, rest, hshards⟩ : ∃ first rest, List.finRange l.width = first :: rest :=
      List.exists_cons_of_ne_nil (List.ne_nil_of_mem (List.mem_finRange l.first))
    have htold := (walks_flushShards visit).told w first rest
    rw [← hshards] at htold
    exact htold
  | unpin p dirty => exact w.told_serve (l.route p) (.unpin p dirty)
  | delete p => exact w.told_serve (l.route p) (.delete p)
  | flush p => exact w.told_serve (l.route p) (.flush p)
  | direct i op => exact w.told_serve i op

end System

end PageCache
