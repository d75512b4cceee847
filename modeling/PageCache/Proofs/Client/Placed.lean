import PageCache.Proofs.Client.Calls
import PageCache.Proofs.Pool.Build
import PageCache.Proofs.Shard.Placed

/-!
# Pages in place, in all shards

Whatever a client does, every resident page has a frame to itself, and no shard comes to a page of
another stripe (`System.Placed`). Nothing is assumed for that, of the recency lists, of the disk or
of the pages that are asked for: it holds of every pool after every history
(`Client.placed_of_history`).
-/

namespace PageCache

variable {size : Nat} {δ : Type} [PageStore δ]

/-- Whatever a shard is asked, its pages stay in place. If the frames are to tell the same as the
table (`exact`), it must not be asked for a new page while the next id is resident. -/
theorem Backed.placed_ask {s : Stripe} {w : Backed size δ} {exact : Prop}
    (h : w.shard.Placed exact w.shard.free) {op : ShardOp size}
    (hnew : exact → op = .newPage → w.MakesAbsent s) :
    (w.ask s op).shard.Placed exact (w.ask s op).shard.free := by
  cases op with
  | fetch p => exact placed_fetch h p
  | newPage => exact placed_newPage h fun hexact => hnew hexact rfl
  | unpin p dirty => exact placed_unpin h p dirty
  | delete p => exact placed_delete h p
  | flush p =>
    have hsame := sameButFlags_flush s w p
    exact hsame.free.symm ▸ h.sameButFlags hsame
  | flushAll visit => exact placed_sweep h noWriter _
  | reach f g => exact h.setFrame rfl

namespace System

variable {l : Layout} {w : System l size δ}

omit [PageStore δ] in
/-- In every shard resident pages have frames of their own, and they are pages of its stripe. -/
structure Placed (w : System l size δ) : Prop where
  shard : ∀ i, (w.pool.shard i).Placed False (w.pool.shard i).free
  confined : ∀ i, (w.pool.shard i).Confined (l.stripe i).Owns

/-- One shard is asked, and the others stay as they are. -/
theorem Placed.ask (h : w.Placed) (i : Fin l.width) (op : ShardOp size) : (w.ask i op).Placed := by
  have hshard (j : Fin l.width) : (w.ask i op).pool.shard j =
      if i = j then ((w.backed i).ask (l.stripe i) op).shard else w.pool.shard j :=
    shard_onShard ..
  refine ⟨fun j => ?_, fun j => ?_⟩
  · rw [hshard]
    split
    · next hij =>
      subst hij
      exact Backed.placed_ask (w := w.backed i) (h.shard i) False.elim
    · exact h.shard j
  · rw [hshard]
    split
    · next hij =>
      subst hij
      exact Backed.confined_ask (w := w.backed i) (l.stripe i).within_owns (h.confined i) op
    · exact h.confined j

end System

/-- After every history, whatever pages were asked for, every resident page has a frame to itself,
and is of the stripe of its shard. -/
theorem Client.placed_of_history {b : Blueprint} {built : AnyPool} (hbuild : b.build = .ok built)
    (disk : Disk) (durable : Option Lsn)
    {allowed : List Entry → Client built.layout built.size → Step → Prop} {log : List Entry}
    {c : Client built.layout built.size}
    (h : History allowed (built.start disk durable) log c) : c.system.Placed := by
  have hshard := h.shards (P := fun i sh => sh.Placed False sh.free ∧
      sh.Confined (built.layout.stripe i).Owns)
    (fun i w op hw => ⟨Backed.placed_ask hw.1 False.elim,
      Backed.confined_ask (built.layout.stripe i).within_owns hw.2 op⟩) fun i => by
    show (built.pool.shard i).Placed False (built.pool.shard i).free ∧
      (built.pool.shard i).Confined _
    obtain ⟨recency, hfresh⟩ := Blueprint.fresh_of_build hbuild i
    rw [hfresh]
    exact ⟨.fresh _ recency, (Shard.Confined.fresh ..).withRecency recency⟩
  exact ⟨fun i => (hshard i).1, fun i => (hshard i).2⟩

end PageCache
