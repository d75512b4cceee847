import PageCache.Proofs.Client.Moves
import PageCache.Proofs.Pool.Creation

/-!
# What becomes of the shards of a pool

Whatever a client does comes down to a few operations of single shards, one after the other:
`ShardOp` lists them, and `System.Evolves` says of two states of a pool that nothing else leads from
one to the other. It need not be known what a step is asked for or how it ends; what every operation
keeps of a shard holds of every shard after every history (`Client.History.shards`).

Much can only be said where these operations are not just any: if no page is created that is
resident, say, or if nobody writes to a certain page. A `Permit` tells what a shard may be asked in
which state, and `System.EvolvesBy` what permitted operations lead to. If that is permitted which a
step of a client asks for (`Client.Permits`), the step leads from one state of the pool to another
by permitted operations (`Client.evolvesBy_take`). Which shard will answer for a new page need not
be known: those that are tried before are full, and a full shard is as it was.

This is for what can be said of one shard by itself, or of one page. What ties the pages of a pool
together is told by moves, in `View`.
-/

namespace PageCache

/-- What a shard may be asked. -/
inductive ShardOp (size : Nat)
  | fetch (p : PageId)
  | newPage
  | unpin (p : PageId) (dirty : Bool)
  | delete (p : PageId)
  | flush (p : PageId)
  | flushAll (visit : Visit)
  /-- The bytes of a frame are changed by somebody who has its latch. -/
  | reach (f : Fin size) (g : Page → Page)

variable {l : Layout} {size : Nat} {δ : Type} [PageStore δ]

/-- What a shard of stripe `s` does about it. -/
def Backed.ask (s : Stripe) (w : Backed size δ) : ShardOp size → Backed size δ
  | .fetch p => (w.fetch s p).state
  | .newPage => (w.newPage s).state
  | .unpin p dirty => (w.unpin s p dirty).state
  | .delete p => (w.delete s p).state
  | .flush p => (w.flush s p).state
  | .flushAll visit => (w.flushAll visit).state
  | .reach f g => (System.reach f g s w).state

namespace System

/-- Shard `i` is asked, and the others stay as they are. -/
def ask (w : System l size δ) (i : Fin l.width) (op : ShardOp size) : System l size δ :=
  (w.onShard i fun s b => .ok () (b.ask s op)).state

/-- Shards are asked in turn, and what is beside the shards may change at any time. -/
inductive Evolves (w : System l size δ) : System l size δ → Prop
  | refl : Evolves w w
  | ask {w' : System l size δ} (h : Evolves w w') (i : Fin l.width) (op : ShardOp size) :
      Evolves w (w'.ask i op)
  | beside {w' : System l size δ} (h : Evolves w w') (cursor : Fin l.width) (disk : δ) :
      Evolves w ⟨{ w'.pool with cursor }, disk⟩

namespace Evolves

variable {w w' : System l size δ}

/-- What every operation keeps of a shard, whatever disk it finds, is kept of all of them. -/
theorem shards {P : Fin l.width → Shard size → Prop} (h : Evolves w w')
    (hask : ∀ (i : Fin l.width) (b : Backed size δ) (op : ShardOp size), P i b.shard →
      P i (b.ask (l.stripe i) op).shard)
    (hw : ∀ i, P i (w.pool.shard i)) : ∀ i, P i (w'.pool.shard i) := by
  induction h with
  | refl => exact hw
  | @ask w' _ i op ih =>
    intro j
    rw [System.ask, shard_onShard]
    split
    · next hij => exact hij ▸ hask i (w'.backed i) op (ih i)
    · exact ih j
  | beside _ cursor disk ih => exact ih

theorem single (w : System l size δ) (i : Fin l.width) (op : ShardOp size) :
    Evolves w (w.ask i op) :=
  .ask .refl i op

end Evolves

end System

/-! ## What is permitted -/

/-- What may happen to a pool. Pages may be unpinned and flushed by all means. -/
structure Permit (l : Layout) (size : Nat) (δ : Type) where
  /-- What the shards may be asked. -/
  ask : Fin l.width → Backed size δ → ShardOp size → Prop
  /-- What may become of the disk past the pool. -/
  beside : δ → δ → Prop
  unpin : ∀ i b p dirty, ask i b (.unpin p dirty) := by intros; trivial
  flush : ∀ i b p, ask i b (.flush p) := by intros; trivial
  flushAll : ∀ i b visit, ask i b (.flushAll visit) := by intros; trivial

namespace System

variable {P : Permit l size δ} {w w' w'' : System l size δ}

/-- Shards are asked in turn, and nothing happens but what is permitted. -/
inductive EvolvesBy (P : Permit l size δ) (w : System l size δ) : System l size δ → Prop
  | refl : EvolvesBy P w w
  | ask {w' : System l size δ} (h : EvolvesBy P w w') (i : Fin l.width) (op : ShardOp size)
      (hop : P.ask i (w'.backed i) op) : EvolvesBy P w (w'.ask i op)
  | turn {w' : System l size δ} (h : EvolvesBy P w w') (cursor : Fin l.width) :
      EvolvesBy P w ⟨{ w'.pool with cursor }, w'.disk⟩
  | beside {w' : System l size δ} (h : EvolvesBy P w w') (disk : δ)
      (hdisk : P.beside w'.disk disk) : EvolvesBy P w ⟨w'.pool, disk⟩

namespace EvolvesBy

/-- What is permitted may go on where it ended. -/
theorem trans (h : EvolvesBy P w w') (h' : EvolvesBy P w' w'') : EvolvesBy P w w'' := by
  induction h' with
  | refl => exact h
  | ask _ i op hop ih => exact ih.ask i op hop
  | turn _ cursor ih => exact ih.turn cursor
  | beside _ disk hdisk ih => exact ih.beside disk hdisk

theorem single {i : Fin l.width} {op : ShardOp size} (hop : P.ask i (w.backed i) op) :
    EvolvesBy P w (w.ask i op) :=
  .ask .refl i op hop

/-- What permitted operations keep is kept. -/
theorem keeps {Q : System l size δ → Prop} (h : EvolvesBy P w w')
    (hask : ∀ w i op, Q w → P.ask i (w.backed i) op → Q (w.ask i op))
    (hturn : ∀ w cursor, Q w → Q ⟨{ w.pool with cursor }, w.disk⟩)
    (hbeside : ∀ w disk, Q w → P.beside w.disk disk → Q ⟨w.pool, disk⟩) (hw : Q w) : Q w' := by
  induction h with
  | refl => exact hw
  | ask _ i op hop ih => exact hask _ i op ih hop
  | turn _ cursor ih => exact hturn _ cursor ih
  | beside _ disk hdisk ih => exact hbeside _ disk ih hdisk

/-- What is permitted happens. -/
theorem evolves (h : EvolvesBy P w w') : Evolves w w' := by
  induction h with
  | refl => exact .refl
  | ask _ i op _ ih => exact ih.ask i op
  | @turn w' _ cursor ih => exact ih.beside cursor w'.disk
  | @beside w' _ disk _ ih => exact ih.beside w'.pool.cursor disk

/-- A new page is asked of one shard, or of none that is not full. -/
theorem newPage (h : ∀ i, (∀ q f, ((w.backed i).newPage (l.stripe i)).result = .ok (q, f) →
    w.newPage.result = .ok ⟨q, i, f⟩) → P.ask i (w.backed i) .newPage) :
    EvolvesBy P w w.newPage.state := by
  -- the cursor goes on in any case
  have hturned : EvolvesBy P w w.turned := .turn .refl (l.next w.pool.cursor)
  rcases w.full_or_decides with hall | ⟨i, hi⟩
  · -- all shards are full, and as they were
    rw [(newPage_of_full hall).2]
    exact hturned
  · rw [(newPage_of_decides hi).2]
    refine hturned.ask i .newPage (h i fun q f hresult => ?_)
    rw [(newPage_of_decides hi).1, result_newPageIn, hresult]
    rfl

/-- Flushing shards is permitted by all means. -/
theorem flushShards (visit : Visit) (shards : List (Fin l.width))
    (w : System l size δ) : EvolvesBy P w (System.flushShards visit shards w).state := by
  induction shards generalizing w with
  | nil => exact .refl
  | cons i rest ih =>
    have hin : EvolvesBy P w (w.onShard i fun _ b => b.flushAll visit).state :=
      single (P.flushAll i (w.backed i) visit)
    exact Outcome.state_andThen (P := fun w' => EvolvesBy P w w') hin fun _ _ => hin.trans (ih _)

end EvolvesBy

end System

open PageCache.System (EvolvesBy)

namespace Client

variable {P : Permit l size Disk} {c : Client l size} {scope : Scope l}

/-- What an operation asks for that needs a permit is permitted. -/
def Permits (P : Permit l size Disk) (c : Client l size) (scope : Scope l) : Op → Prop
  | .disk op => P.beside c.system.disk (c.system.disk.perform op).state
  | .newPage _ | .newGuard _ => ∀ i,
      (∀ q f, ((c.system.backed i).newPage (l.stripe i)).result = .ok (q, f) →
        (c.newHandle scope).result = .ok ⟨q, i, f⟩) → P.ask i (c.system.backed i) .newPage
  | .fetch p _ | .fetchGuard _ p _ => ∀ i, P.ask i (c.system.backed i) (.fetch p)
  | .delete p => ∀ i, P.ask i (c.system.backed i) (.delete p)
  | .writeHandle name edits => ∀ k, c.handles[name]? = some k →
      P.ask k.shard (c.system.backed k.shard) (.reach k.frame (Page.edit edits))
  | .writeGuard name edits => ∀ g, c.guards[name]? = some g → g.access = .write →
      P.ask g.handle.shard (c.system.backed g.handle.shard)
        (.reach g.handle.frame (Page.edit edits))
  | _ => True

/-! ## The pool, addressed -/

/-- A fetch asks one shard for the page. -/
theorem evolvesBy_fetchHandle {p : PageId}
    (h : ∀ i, P.ask i (c.system.backed i) (.fetch p)) :
    EvolvesBy P c.system (c.fetchHandle scope p).state.system := by
  cases scope with
  | whole => exact .single (h (l.route p))
  | only i => exact .single (h i)

/-- A creation asks the shard that answers, and no other that is not full. -/
theorem evolvesBy_newHandle (h : ∀ i,
    (∀ q f, ((c.system.backed i).newPage (l.stripe i)).result = .ok (q, f) →
      (c.newHandle scope).result = .ok ⟨q, i, f⟩) → P.ask i (c.system.backed i) .newPage) :
    EvolvesBy P c.system (c.newHandle scope).state.system := by
  cases scope with
  | whole => exact .newPage h
  | only i =>
    -- one shard is asked, and what it answers is what the client is told
    refine .single (h i fun q f hresult => ?_)
    show (c.system.newPageIn i).result = _
    rw [System.result_newPageIn, hresult]
    rfl

/-- An unpin needs no permit. -/
theorem evolvesBy_unpin (c : Client l size) (scope : Scope l) (p : PageId) (dirty : Bool) :
    EvolvesBy P c.system (c.unpin scope p dirty).state.system := by
  cases scope with
  | whole => exact .single (P.unpin (l.route p) _ p dirty)
  | only i => exact .single (P.unpin i _ p dirty)

/-- To let go of a guard needs no permit. -/
theorem evolvesBy_release (c : Client l size) (g : Guard l size) :
    EvolvesBy P c.system (c.release g).state.system :=
  state_release c g ▸ evolvesBy_unpin c .whole g.handle.page g.modified

/-- To give a guard a name needs no permit. -/
theorem evolvesBy_hold (c : Client l size) (name : String) (g : Guard l size) :
    EvolvesBy P c.system (c.hold name g).state.system := by
  rw [hold]
  split
  · exact .refl
  · exact evolvesBy_release { c with guards := c.guards.insert name g } _

/-- To drop a guard needs no permit. -/
theorem evolvesBy_dropGuard (c : Client l size) (name : String) :
    EvolvesBy P c.system (c.dropGuard name).state.system := by
  rw [dropGuard]
  split
  · exact .refl
  · exact evolvesBy_release { c with guards := c.guards.erase name } _

/-! ## Steps -/

/-- An operation that is permitted does what is permitted. -/
theorem evolvesBy_perform {op : Op} (h : c.Permits P scope op) :
    EvolvesBy P c.system (c.perform scope op).state.system := by
  cases op with
  | newPage name =>
    have hnew := evolvesBy_newHandle h
    exact Outcome.state_andThen (P := fun c' : Client l size => EvolvesBy P c.system c'.system) hnew
      fun _ _ => hnew
  | newGuard name =>
    have hnew := evolvesBy_newHandle h
    exact Outcome.state_andThen (P := fun c' : Client l size => EvolvesBy P c.system c'.system) hnew
      fun _ _ => hnew.trans (evolvesBy_hold _ name _)
  | fetch p name =>
    have hfetch : EvolvesBy P c.system (c.fetchHandle scope p).state.system :=
      evolvesBy_fetchHandle h
    exact Outcome.state_andThen (P := fun c' : Client l size => EvolvesBy P c.system c'.system)
      hfetch fun _ _ => hfetch
  | fetchGuard access p name =>
    have hfetch : EvolvesBy P c.system (c.fetchHandle scope p).state.system :=
      evolvesBy_fetchHandle h
    exact Outcome.state_andThen (P := fun c' : Client l size => EvolvesBy P c.system c'.system)
      hfetch fun _ _ => hfetch.trans (evolvesBy_hold _ name _)
  | unpin p dirty => exact evolvesBy_unpin c scope p dirty
  | delete p =>
    cases scope with
    | whole => exact .single (h (l.route p))
    | only i => exact .single (h i)
  | flush p =>
    cases scope with
    | whole => exact .single (P.flush (l.route p) _ p)
    | only i => exact .single (P.flush i _ p)
  | flushAll visit =>
    cases scope with
    | whole => exact .flushShards visit (List.finRange l.width) c.system
    | only i => exact .single (P.flushAll i _ visit)
  | dropGuard name => exact evolvesBy_dropGuard c name
  | writeHandle name edits =>
    rw [perform]
    split
    · exact .refl
    · next k hk => exact .single (h k hk)
  | writeGuard name edits =>
    rw [perform]
    split
    · exact .refl
    · next g hg =>
      split
      · exact .refl
      · next hwrite => exact .single (h g hg hwrite)
  -- whoever only looks asks no shard
  | readHandle | tellHandle | readGuard =>
    rw [perform]
    split <;> exact .refl
  | disk op => exact .beside .refl _ h
  | capacity | shardCount | shardFacts | pins => exact .refl

/-- A step that is permitted does what is permitted; one that addresses no shard does nothing. -/
theorem evolvesBy_take {step : Step}
    (h : ∀ scope, l.scope? step.shard = some scope → c.Permits P scope step.op) :
    EvolvesBy P c.system (c.take step).state.system := by
  rw [take]
  split
  · exact .refl
  · next scope hscope => exact evolvesBy_perform (h scope hscope)

/-- Whatever the step, nothing happens to the shards but operations of them. -/
theorem evolves_take (c : Client l size) (step : Step) :
    c.system.Evolves (c.take step).state.system := by
  -- everything is permitted, so nothing has to be known of the step
  let anything : Permit l size Disk := { ask := fun _ _ _ => True, beside := fun _ _ => True }
  refine (evolvesBy_take (P := anything) fun scope _ => ?_).evolves
  cases step.op <;> simp [Permits, anything]

/-- What every operation keeps of a shard holds of all shards at the end of every history. -/
theorem History.shards {allowed : List Entry → Client l size → Step → Prop}
    {P : Fin l.width → Shard size → Prop} {c₀ : Client l size} {log : List Entry}
    (h : History allowed c₀ log c)
    (hask : ∀ (i : Fin l.width) (b : Backed size Disk) (op : ShardOp size), P i b.shard →
      P i (b.ask (l.stripe i) op).shard)
    (h₀ : ∀ i, P i (c₀.system.pool.shard i)) : ∀ i, P i (c.system.pool.shard i) :=
  h.keeps (P := fun _ c => ∀ i, P i (c.system.pool.shard i)) h₀ fun {_ c} step hc _ =>
    (c.evolves_take step).shards hask hc

end Client

end PageCache
