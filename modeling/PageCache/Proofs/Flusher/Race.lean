import PageCache.Pool.Flusher
import PageCache.Proofs.Client.Evolves

/-!
# A flush among other clients

A flush works in sections. In each of them it has the lock of one shard, and nothing else happens to
that shard; between two sections, and while it waits for a writer to let go of a frame, the other
clients do as they like. `Race` is a pool with latches on its frames and one flush that is under
way, and `Race.run?` takes turns: a `Turn` is one section of the flush, or one act of somebody else.

An act has to be possible. Bytes are changed by who has the latch of the frame; an operation that
brings a page into a frame or takes one out needs that latch itself, so it waits while a writer has
it. A turn that would have to wait gives `none`.

`System.advance` is what becomes of a flush when nobody else gets a turn (`Race.reaches_advance`).
-/

namespace PageCache

variable {l : Layout} {size : Nat} {δ : Type} [PageStore δ]

/-! ## What an operation waits for -/

namespace Backed

omit [PageStore δ] in
/-- The frame that the next page is brought into. -/
def target? (w : Backed size δ) : Option (Fin size) :=
  match w.shard.free with
  | f :: _ => some f
  | [] =>
    match w.shard.recency.victim with
    | none => none
    | some (frame, _) => if h : frame < size then some ⟨frame, h⟩ else none

omit [PageStore δ] in
/-- The frame whose latch an operation takes, if there is one. -/
def claim? (s : Stripe) (w : Backed size δ) : ShardOp size → Option (Fin size)
  | .fetch p => if s.Owns p ∧ w.shard.table[p]? = none then w.target? else none
  | .newPage => if w.shard.nextId = none then none else w.target?
  | .delete p =>
    match w.shard.table[p]? with
    | none => none
    | some f => if s.Owns p ∧ (w.shard.frame f).pins = 0 then some f else none
  | _ => none

omit [PageStore δ] in
/-- Nobody else has the latch that is needed, and who changes bytes has it. -/
def ready (latched : Fin size → Bool) (s : Stripe) (w : Backed size δ) : ShardOp size → Bool
  | .reach f _ => latched f
  | op =>
    match w.claim? s op with
    | none => true
    | some f => !latched f

/-- What is done to a shard while its lock is held. An operation is done as a whole; of a flush it
is one look, at a page or at all of them. -/
def underLock (latched : Fin size → Bool) (s : Stripe) (w : Backed size δ) :
    ShardOp size → Backed size δ
  | .flush p => (w.tryFlush latched p).state
  | .flushAll visit => (w.sweepAll latched visit).state
  | op => w.ask s op

end Backed

/-! ## Acts -/

/-- A pool, and which frames are in a writer's hands. -/
structure Shared (l : Layout) (size : Nat) (δ : Type) where
  system : System l size δ
  latched : Latches l size

/-- What the other clients do, one step of it. -/
inductive Act (l : Layout) (size : Nat)
  /-- The cursor for new pages moves on. -/
  | turn
  | ask (i : Fin l.width) (op : ShardOp size)
  | latch (i : Fin l.width) (f : Fin size)
  | release (i : Fin l.width) (f : Fin size)

namespace Shared

omit [PageStore δ] in
/-- Nobody has a latch. -/
def unlatched (system : System l size δ) : Shared l size δ :=
  ⟨system, fun _ _ => false⟩

omit [PageStore δ] in
def withLatch (t : Shared l size δ) (i : Fin l.width) (f : Fin size) (held : Bool) :
    Shared l size δ :=
  { t with latched := fun j g => if j = i ∧ g = f then held else t.latched j g }

omit [PageStore δ] in
def turned (t : Shared l size δ) : Shared l size δ :=
  let pool := t.system.pool
  { t with system := { t.system with pool := { pool with cursor := l.next pool.cursor } } }

/-- Shard `i` is worked on under its lock. -/
def asked (t : Shared l size δ) (i : Fin l.width) (op : ShardOp size) : Shared l size δ :=
  { t with system :=
      (t.system.onShard i fun s b => .ok () (b.underLock (t.latched i) s op)).state }

/-- One act, unless it has to wait. -/
def act? (t : Shared l size δ) : Act l size → Option (Shared l size δ)
  | .turn => some t.turned
  | .ask i op =>
    if (t.system.backed i).ready (t.latched i) (l.stripe i) op then some (t.asked i op) else none
  | .latch i f => if t.latched i f then none else some (t.withLatch i f true)
  | .release i f => if t.latched i f then some (t.withLatch i f false) else none

/-- One act after the other. -/
def acts? : List (Act l size) → Shared l size δ → Option (Shared l size δ)
  | [], t => some t
  | a :: acts, t => (t.act? a).bind (acts? acts)

end Shared

/-! ## The flush -/

/-- Where a flush is. -/
inductive Flusher (l : Layout) (size : Nat)
  /-- It is about to take the lock for the first of the chores that are left. `resident` answers for
  what was done before. -/
  | ready (resident : Bool) (left : List (Chore l))
  /-- It has no lock, and waits for frame `f` of shard `i`. -/
  | waiting (i : Fin l.width) (f : Fin size) (left : List (Chore l))
  | ended (result : Except Failure Bool)

/-- A flush that has done a section, and may have more to do. -/
def Flusher.after (resident : Bool) : List (Chore l) → Flusher l size
  | [] => .ended (.ok resident)
  | left => .ready resident left

/-- A flush that has looked at page `p`. -/
def Flusher.looked (i : Fin l.width) (p : PageId) (rest : List (Chore l)) :
    Except Failure (Look size) → Flusher l size
  | .ok (.settled resident) => .after resident rest
  | .ok (.busy f) => .waiting i f (.page i p :: rest)
  | .error e => .ended (.error e)

/-- A flush that has looked at all pages, and has those to come back to that a writer had. -/
def Flusher.swept (i : Fin l.width) (rest : List (Chore l)) :
    Except Failure (List PageId) → Flusher l size
  | .ok held => .after true (held.map (.page i) ++ rest)
  | .error e => .ended (.error e)

structure Race (l : Layout) (size : Nat) (δ : Type) where
  shared : Shared l size δ
  flusher : Flusher l size

/-- Who is next. -/
inductive Turn (l : Layout) (size : Nat)
  | flusher
  | other (a : Act l size)

/-- What the others do in the course of `turns`. -/
def Turn.others : List (Turn l size) → List (Act l size)
  | [] => []
  | .flusher :: turns => others turns
  | .other a :: turns => a :: others turns

namespace Race

/-- A section of the flush, for the chore it is about. `rest` is left after it. -/
def work (t : Shared l size δ) (rest : List (Chore l)) : Chore l → Race l size δ
  | .page i p =>
    let o := t.system.onShard i fun _ b => b.tryFlush (t.latched i) p
    ⟨{ t with system := o.state }, .looked i p rest o.result⟩
  | .sweep i visit =>
    let o := t.system.onShard i fun _ b => b.sweepAll (t.latched i) visit
    ⟨{ t with system := o.state }, .swept i rest o.result⟩

/-- The turn of the flush. It does not go on before the frame it waits for is free, nor after the
end. -/
def flush? (r : Race l size δ) : Option (Race l size δ) :=
  match r.flusher with
  | .ready resident [] => some ⟨r.shared, .ended (.ok resident)⟩
  | .ready _ (chore :: rest) => some (work r.shared rest chore)
  | .waiting i f left => if r.shared.latched i f then none else some ⟨r.shared, .ready true left⟩
  | .ended _ => none

def turn? (r : Race l size δ) : Turn l size → Option (Race l size δ)
  | .flusher => r.flush?
  | .other a => (r.shared.act? a).map fun shared => ⟨shared, r.flusher⟩

/-- One turn after the other. -/
def run? : List (Turn l size) → Race l size δ → Option (Race l size δ)
  | [], r => some r
  | turn :: turns, r => (r.turn? turn).bind (run? turns)

theorem run?_other (t : Shared l size δ) (flusher : Flusher l size) (a : Act l size)
    (turns : List (Turn l size)) :
    run? (.other a :: turns) ⟨t, flusher⟩ =
      (t.act? a).bind fun t' => run? turns ⟨t', flusher⟩ := by
  rw [run?, turn?]
  cases t.act? a <;> rfl

/-- Turns after turns, if the first can all be taken. -/
theorem run?_append (turns turns' : List (Turn l size)) (r : Race l size δ) :
    run? (turns ++ turns') r = (run? turns r).bind (run? turns') := by
  induction turns generalizing r with
  | nil => rfl
  | cons turn turns ih =>
    rw [List.cons_append, run?, run?, Option.bind_assoc]
    exact congrArg _ (funext ih)

end Race

/-! ## A flush that nobody interrupts -/

variable {latched : Latches l size} {i : Fin l.width} {p : PageId} {w : System l size δ}

/-- What a look says is not changed by its saying so. -/
theorem System.lookAt_eq (latched : Latches l size) (i : Fin l.width) (p : PageId)
    (w : System l size δ) :
    (w.lookAt latched i p).result = ((w.backed i).tryFlush (latched i) p).result ∧
      (w.lookAt latched i p).state = (w.onShard i fun _ b => b.tryFlush (latched i) p).state := by
  have hresult : (w.onShard i fun _ b => b.tryFlush (latched i) p).result =
      ((w.backed i).tryFlush (latched i) p).result := rfl
  unfold System.lookAt
  cases hlook : ((w.backed i).tryFlush (latched i) p).result with
  | error e =>
    rw [Outcome.andThen_of_error (hresult.trans hlook)]
    exact ⟨rfl, rfl⟩
  | ok look =>
    rw [Outcome.andThen_of_ok (hresult.trans hlook)]
    cases look <;> exact ⟨rfl, rfl⟩

namespace Race

/-- The flush stands where `System.advance` says that it got to. -/
def Stands : Except Failure (Progress l) → Flusher l size → Prop
  | .ok (.finished _), .ended (.ok _) => True
  | .ok (.waiting left), .waiting _ _ left' => left' = left
  | .error e, .ended (.error e') => e' = e
  | _, _ => False

/-- Turns of the flush alone lead to where outcome `o` is. -/
def Reaches (r : Race l size δ) (o : Outcome (System l size δ) (Progress l)) : Prop :=
  ∃ n place, run? (List.replicate n .flusher) r = some ⟨⟨o.state, r.shared.latched⟩, place⟩ ∧
    Stands o.result place

variable {r r' : Race l size δ} {o : Outcome (System l size δ) (Progress l)}

/-- One turn of the flush, and then the rest of the way. -/
theorem Reaches.flush (hmove : r.flush? = some r') (hlatched : r'.shared.latched = r.shared.latched)
    (h : Reaches r' o) : Reaches r o := by
  obtain ⟨n, place, hrun, hstands⟩ := h
  refine ⟨n + 1, place, ?_, hstands⟩
  rw [List.replicate_succ, run?, turn?, hmove, ← hlatched]
  exact hrun

theorem reaches_after {events : List Event} : Reaches r (o.after events) ↔ Reaches r o :=
  .rfl

/-- The chore of page `p` is done as the first thing of many. -/
theorem reaches_page {resident : Bool} {rest : List (Chore l)}
    {next : Look size → System l size δ → Outcome (System l size δ) (Progress l)}
    (hsettled : ∀ found w', Reaches ⟨⟨w', latched⟩, .after found rest⟩ (next (.settled found) w'))
    (hbusy : ∀ f w', ∃ o, next (.busy f) w' = o ∧ o.result = .ok (.waiting (.page i p :: rest)) ∧
      o.state = w') :
    Reaches ⟨⟨w, latched⟩, .ready resident (.page i p :: rest)⟩
      ((w.lookAt latched i p).andThen next) := by
  obtain ⟨hresult, hstate⟩ := System.lookAt_eq latched i p w
  have hlook : (w.onShard i fun _ b => b.tryFlush (latched i) p).result =
      ((w.backed i).tryFlush (latched i) p).result := rfl
  have hmove : flush? ⟨⟨w, latched⟩, .ready resident (.page i p :: rest)⟩ =
      some ⟨⟨(w.lookAt latched i p).state, latched⟩,
        .looked i p rest (w.lookAt latched i p).result⟩ := by
    rw [hresult, hstate]
    rfl
  cases hlooked : (w.lookAt latched i p).result with
  | error e =>
    rw [hlooked] at hmove
    rw [Outcome.andThen_of_error hlooked]
    exact .flush hmove rfl ⟨0, _, rfl, rfl⟩
  | ok look =>
    rw [hlooked] at hmove
    rw [Outcome.andThen_of_ok hlooked, reaches_after]
    cases look with
    | settled found => exact .flush hmove rfl (hsettled found _)
    | busy f =>
      obtain ⟨o, ho, hwaits, hsame⟩ := hbusy f (w.lookAt latched i p).state
      rw [ho]
      refine .flush hmove rfl ⟨0, .waiting i f (.page i p :: rest), ?_, ?_⟩
      · rw [hsame]
        rfl
      · rw [hwaits]
        rfl

/-- The pages that a sweep has to come back to are done one by one. -/
theorem reaches_pages {rest : List (Chore l)}
    (hrest : ∀ (found : Bool) (w' : System l size δ),
      Reaches ⟨⟨w', latched⟩, .after found rest⟩ (w'.advance latched true rest))
    (pages : List PageId) (found : Bool) (w : System l size δ) :
    Reaches ⟨⟨w, latched⟩, .after found (pages.map (.page i) ++ rest)⟩
      ((w.flushPages latched i pages).andThen fun left w =>
        match left with
        | [] => w.advance latched true rest
        | _ => .ok (.waiting (left.map (.page i) ++ rest)) w) := by
  induction pages generalizing found w with
  | nil =>
    rw [System.flushPages, Outcome.andThen_of_ok (Outcome.result_ok ..), reaches_after]
    exact hrest found w
  | cons p pages ih =>
    rw [System.flushPages, Outcome.andThen_assoc]
    exact reaches_page ih fun f w' => ⟨_, rfl, rfl, rfl⟩

/-- `System.advance` takes the turns of a flush to which nobody comes in between. -/
theorem reaches_advance (latched : Latches l size) (chores : List (Chore l))
    (found resident : Bool) (w : System l size δ) :
    Reaches ⟨⟨w, latched⟩, .ready found chores⟩ (w.advance latched resident chores) := by
  have hafter {rest : List (Chore l)}
      (h : ∀ (found resident : Bool) (w' : System l size δ),
        Reaches ⟨⟨w', latched⟩, .ready found rest⟩ (w'.advance latched resident rest))
      (found resident : Bool) (w' : System l size δ) :
      Reaches ⟨⟨w', latched⟩, .after found rest⟩ (w'.advance latched resident rest) := by
    cases rest with
    | nil => exact ⟨0, _, rfl, trivial⟩
    | cons => exact h found resident w'
  -- over the chores: each is as many turns as it takes, after which the rest begins
  induction chores generalizing found resident w with
  | nil => exact ⟨1, _, rfl, trivial⟩
  | cons chore rest ih =>
    cases chore with
    | page i p =>
      rw [System.advance]
      exact reaches_page (fun found w' => hafter ih found found w') fun f w' => ⟨_, rfl, rfl, rfl⟩
    | sweep i visit =>
      rw [System.advance]
      have hmove : flush? ⟨⟨w, latched⟩, .ready found (.sweep i visit :: rest)⟩ =
          some ⟨⟨(w.onShard i fun _ b => b.sweepAll (latched i) visit).state, latched⟩,
            .swept i rest (w.onShard i fun _ b => b.sweepAll (latched i) visit).result⟩ := rfl
      cases hswept : (w.onShard i fun _ b => b.sweepAll (latched i) visit).result with
      | error e =>
        rw [hswept] at hmove
        rw [Outcome.andThen_of_error hswept]
        -- the error ends the flush here
        exact .flush hmove rfl ⟨0, _, rfl, rfl⟩
      | ok held =>
        rw [hswept] at hmove
        rw [Outcome.andThen_of_ok hswept, reaches_after]
        exact .flush hmove rfl
          (reaches_pages (fun found w' => hafter ih found true w') held true _)

end Race

end PageCache
