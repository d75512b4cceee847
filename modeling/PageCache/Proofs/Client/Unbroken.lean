import PageCache.Proofs.Client.Calls
import PageCache.Proofs.Client.Numbering
import PageCache.Proofs.Shard.Steady

/-!
# Pools break no rule of their own

Whatever a client asks of a pool of shards, and whatever its disk does, no operation meets a broken
rule as long as no page has all the pins it can have (`Client.no_rule_broken`): pages are looked for
in the shard that owns them, new ones get an id of the shard that makes them, and no recency list
names a frame that is none. The one way to break a rule is to speak to a shard past the pool about a
page of another shard, and then nothing happens.
-/

namespace PageCache

namespace Outcome

variable {σ τ α β : Type} {o : Outcome σ α}

/-- No rule was broken. -/
def Unbroken (o : Outcome σ α) : Prop :=
  ∀ v, o.result ≠ .error (.violation v)

theorem unbroken_ok (a : α) (s : σ) : (ok a s).Unbroken :=
  fun _ => by simp

/-- What is made of the answer breaks no rule. -/
theorem Unbroken.map (h : o.Unbroken) (g : α → β) : (o.map g).Unbroken :=
  fun v hv => h v (result_map_eq_error_iff.mp hv)

/-- Two operations one after the other break no rule if neither does. -/
theorem Unbroken.andThen (h : o.Unbroken) {next : α → σ → Outcome σ β}
    (hnext : ∀ a, o.result = .ok a → (next a o.state).Unbroken) : (o.andThen next).Unbroken := by
  intro v hv
  cases hresult : o.result with
  | error e =>
    rw [andThen_of_error hresult] at hv
    exact h v (hresult.trans (congrArg _ (Except.error.inj hv)))
  | ok a =>
    rw [andThen_of_ok hresult] at hv
    exact hnext a hresult v hv

end Outcome

open Outcome (Unbroken unbroken_ok)

namespace Backed

variable {size : Nat} {δ : Type} [PageStore δ] {s : Stripe} {w : Backed size δ}

omit [PageStore δ] in
/-- An operation that breaks only rules which cannot be broken breaks none. -/
theorem Behaves.unbroken {α : Type} {V : Violation → Prop} {o : Outcome (Backed size δ) α}
    (h : Behaves V o) (hV : ∀ v, ¬ V v) : o.Unbroken :=
  fun v hv => hV v (h.broken hv)

/-- Whatever a shard is asked, it stays steady. -/
theorem steady_ask (h : w.shard.Steady) (op : ShardOp size) : (w.ask s op).shard.Steady := by
  cases op with
  | fetch p => exact (fetch_behaves (s := s) h p).steady
  | newPage => exact (newPage_behaves (s := s) h).steady
  | unpin p dirty => exact (unpin_behaves (s := s) h p dirty).steady
  | delete p => exact (delete_behaves (s := s) h p).steady
  | flush p => exact (flush_behaves (s := s) h p).steady
  | flushAll visit => exact (flushAll_behaves h visit).steady
  | reach f g => exact h.setFrame f (h.pins f)

end Backed

/-! ## Pools -/

namespace System

variable {l : Layout} {size : Nat} {δ : Type} [PageStore δ] {w : System l size δ} {i : Fin l.width}

omit [PageStore δ] in
/-- All shards are steady, and have to do with pages of their stripes only. -/
structure Steady (w : System l size δ) : Prop where
  shard : ∀ i, (w.pool.shard i).Steady
  confined : ∀ i, (w.pool.shard i).Confined (l.stripe i).Owns

/-- Nothing that happens to the shards changes that. -/
theorem Evolves.steady {w' : System l size δ} (h : Evolves w w') (hw : w.Steady) : w'.Steady where
  shard := h.shards (P := fun _ sh => sh.Steady)
    (fun i _ op hb => Backed.steady_ask (s := l.stripe i) hb op) hw.shard
  confined := h.shards (P := fun i sh => sh.Confined (l.stripe i).Owns)
    (fun i _ op hb => Backed.confined_ask (l.stripe i).within_owns hb op) hw.confined

/-- The id that a shard takes for a new page is never found to be another shard's. -/
theorem newPageIn_unbroken (h : w.Steady) (i : Fin l.width) : (w.newPageIn i).Unbroken := by
  refine Unbroken.map (Backed.Behaves.unbroken
    (Backed.newPage_behaves (s := l.stripe i) (w := w.backed i) (h.shard i)) ?_) _
  rintro _ ⟨p, hnext, hforeign⟩
  exact hforeign ((h.confined i).next hnext)

/-- Whichever of the shards creates the page, no rule is broken. -/
theorem newPageAmong_unbroken (shards : List (Fin l.width)) (h : w.Steady) :
    (newPageAmong shards w).Unbroken := by
  induction shards generalizing w with
  | nil => exact fun _ => by simp [newPageAmong]
  | cons i rest ih =>
    have hin := newPageIn_unbroken h i
    cases hresult : (w.newPageIn i).result with
    | ok k =>
      rw [newPageAmong_of_ok hresult]
      exact fun _ => by simp
    | error e =>
      -- a full shard is passed over; any other error ends the search, and it broke no rule
      by_cases he : e = .storage .poolFull
      · subst he
        rw [newPageAmong_of_full hresult]
        exact ih (Evolves.steady (.single w i .newPage) h)
      · rw [newPageAmong_of_error hresult he]
        exact fun v hv => hin v (hresult.trans hv)

/-- A creation breaks no rule. -/
theorem newPage_unbroken (h : w.Steady) : w.newPage.Unbroken := by
  rw [newPage]
  split
  · exact newPageAmong_unbroken _ ⟨h.shard, h.confined⟩
  · exact newPageIn_unbroken h l.first

/-- Flushing some shards breaks no rule. -/
theorem flushShards_unbroken (visit : Visit) (shards : List (Fin l.width)) (h : w.Steady) :
    (flushShards visit shards w).Unbroken := by
  induction shards generalizing w with
  | nil => exact unbroken_ok () w
  | cons i rest ih =>
    have hflush :=
      (Backed.flushAll_behaves (w := w.backed i) (h.shard i) visit).unbroken fun _ => id
    refine Unbroken.andThen (o := w.onShard i fun _ b => b.flushAll visit) hflush fun _ _ => ?_
    exact ih (Evolves.steady (.single w i (.flushAll visit)) h)

end System

/-! ## Clients -/

/-- The page that an operation asks the pool about. -/
def Op.names? : Op → Option PageId
  | .fetch p _ | .fetchGuard _ p _ | .unpin p _ | .delete p | .flush p => some p
  | _ => none

/-- The shard that is asked about page `p`. -/
def Scope.asked {l : Layout} : Scope l → PageId → Fin l.width
  | whole, p => l.route p
  | only i, _ => i

namespace Client

variable {l : Layout} {size : Nat} {c : Client l size}

/-- No page has all the pins it can have. -/
def Unsaturated (c : Client l size) : Prop :=
  ∀ i p, (c.system.pool.shard i).pinCount? p ≠ some Frame.maxPins

/-- A fetch from the shard of its page breaks no rule, if the page may have one more pin. -/
theorem fetchHandle_unbroken (h : c.system.Steady) (hpins : c.Unsaturated) {scope : Scope l}
    {p : PageId} (howns : (l.stripe (scope.asked p)).Owns p) :
    (c.fetchHandle scope p).Unbroken := by
  -- both scopes come down to one shard, which is that of the page
  have hfetch : (c.system.fetchIn (scope.asked p) p).Unbroken :=
    Unbroken.map ((Backed.fetch_behaves (w := c.system.backed (scope.asked p)) (h.shard _)
      p).unbroken fun _ hv => hpins _ p (hv howns)) _
  cases scope <;> exact hfetch

/-- A creation breaks no rule, routed or in one shard. -/
theorem newHandle_unbroken (h : c.system.Steady) (scope : Scope l) :
    (c.newHandle scope).Unbroken := by
  cases scope with
  | whole => exact System.newPage_unbroken h
  | only i => exact System.newPageIn_unbroken h i

/-- An unpin in the shard of its page breaks no rule. -/
theorem unpin_unbroken (h : c.system.Steady) {scope : Scope l} {p : PageId}
    (howns : (l.stripe (scope.asked p)).Owns p) (dirty : Bool) :
    (c.unpin scope p dirty).Unbroken := by
  have hunpin := (Backed.unpin_behaves (w := c.system.backed (scope.asked p)) (h.shard _) p
    dirty).unbroken fun _ => not_not.mpr howns
  cases scope <;> exact hunpin

/-- A deletion in the shard of its page breaks no rule. -/
theorem delete_unbroken (h : c.system.Steady) {scope : Scope l} {p : PageId}
    (howns : (l.stripe (scope.asked p)).Owns p) : (c.delete scope p).Unbroken := by
  have hdelete := (Backed.delete_behaves (w := c.system.backed (scope.asked p)) (h.shard _)
    p).unbroken fun _ => not_not.mpr howns
  cases scope <;> exact hdelete

/-- A flush in the shard of its page breaks no rule. -/
theorem flush_unbroken (h : c.system.Steady) {scope : Scope l} {p : PageId}
    (howns : (l.stripe (scope.asked p)).Owns p) : (c.flush scope p).Unbroken := by
  have hflush := (Backed.flush_behaves (w := c.system.backed (scope.asked p)) (h.shard _)
    p).unbroken fun _ => not_not.mpr howns
  cases scope <;> exact hflush

/-- A flush of everything breaks no rule, of the pool or of one shard. -/
theorem flushAll_unbroken (h : c.system.Steady) (scope : Scope l) (visit : Visit) :
    (c.flushAll scope visit).Unbroken := by
  cases scope with
  | whole => exact System.flushShards_unbroken visit _ h
  | only i =>
    exact (Backed.flushAll_behaves (w := c.system.backed i) (h.shard i) visit).unbroken fun _ => id

/-! Guards -/

/-- A guard that is let go of has its pin taken in the shard of its page. -/
theorem hold_unbroken (hcomplete : l.Complete) (c : Client l size) (name : String)
    (g : Guard l size) : (c.hold name g).Unbroken := by
  rw [hold]
  split
  · exact unbroken_ok () _
  · exact fun v hv => absurd ((result_release (hcomplete _)).symm.trans hv) (by simp)

/-- Dropping a name breaks no rule. -/
theorem dropGuard_unbroken (hcomplete : l.Complete) (c : Client l size) (name : String) :
    (c.dropGuard name).Unbroken := by
  rw [dropGuard]
  split
  · exact unbroken_ok _ c
  · refine Unbroken.map (fun v hv => ?_) _
    exact absurd ((result_release (hcomplete _)).symm.trans hv) (by simp)

/-! The disk, past the pool -/

/-- The disk has no rules to break. -/
theorem disk_unbroken (d : Disk) (op : DiskOp) : (d.perform op).Unbroken := by
  cases op with
  | read p length =>
    refine Unbroken.map (o := d.medium.readBuffer p (Edit.fillBytes length Disk.bufferByte))
      (fun v => ?_) DiskReply.bytes
    rw [Medium.readBuffer]
    split
    · simp
    · dsimp only
      split <;> simp
  | write p length edits =>
    refine Unbroken.map
      (o := d.medium.writeBuffer p (Edit.applyAll edits (Edit.fillBytes length 0)))
      (fun v => ?_) fun () => DiskReply.done
    rw [Medium.writeBuffer]
    split <;> simp
  | _ => exact fun _ => by simp [Disk.perform]

/-! ## Steps -/

/-- A rule is broken only if a shard is asked about a page that is not its own. -/
theorem perform_unbroken (hcomplete : l.Complete) (h : c.system.Steady) (hpins : c.Unsaturated)
    (scope : Scope l) {op : Op}
    (howns : ∀ p, op.names? = some p → (l.stripe (scope.asked p)).Owns p) :
    (c.perform scope op).Unbroken := by
  -- what names a page asks the shard of that page; a guard that is let go was got there
  cases op with
  | disk op => exact Unbroken.map (disk_unbroken c.system.disk op) Reply.disk
  | newPage name => exact (newHandle_unbroken h scope).andThen fun _ _ => unbroken_ok _ _
  | newGuard name =>
    exact (newHandle_unbroken h scope).andThen fun _ _ => (hold_unbroken hcomplete _ name _).map _
  | fetch p name =>
    exact (fetchHandle_unbroken h hpins (howns p rfl)).andThen fun _ _ => unbroken_ok _ _
  | fetchGuard access p name =>
    exact (fetchHandle_unbroken h hpins (howns p rfl)).andThen
      fun _ _ => (hold_unbroken hcomplete _ name _).map _
  | unpin p dirty => exact (unpin_unbroken h (howns p rfl) dirty).map _
  | delete p => exact (delete_unbroken h (howns p rfl)).map _
  | flush p => exact (flush_unbroken h (howns p rfl)).map _
  | flushAll visit => exact (flushAll_unbroken h scope visit).map _
  | dropGuard name => exact dropGuard_unbroken hcomplete c name
  | readHandle | writeHandle | tellHandle | readGuard =>
    rw [perform]
    split <;> exact unbroken_ok _ _
  | writeGuard name edits =>
    rw [perform]
    split
    · exact unbroken_ok _ _
    · split <;> exact unbroken_ok _ _
  | capacity | shardCount | shardFacts | pins => exact unbroken_ok _ _

/-- Where a shard refuses and does nothing, so does the pool. -/
theorem lift_onShard_fail {α : Type} {i : Fin l.width} {e : Failure}
    (op : Stripe → Backed size Disk → Outcome (Backed size Disk) α)
    (h : op (l.stripe i) (c.system.backed i) = .fail e (c.system.backed i)) :
    (c.lift (c.system.onShard i op)).result = .error e ∧
      (c.lift (c.system.onShard i op)).state = c := by
  have hstate : (c.system.onShard i op).state = c.system := System.onShard_self (by rw [h]; rfl)
  refine ⟨?_, congrArg (fun system => { c with system }) hstate⟩
  show (op (l.stripe i) (c.system.backed i)).result = .error e
  rw [h]
  rfl

/-- A shard that is asked about a page of another one says so, and does nothing. -/
theorem perform_foreign {i : Fin l.width} {op : Op} {p : PageId} (hp : op.names? = some p)
    (howns : ¬ (l.stripe i).Owns p) :
    (c.perform (.only i) op).result = .error ((l.stripe i).foreign p) ∧
      (c.perform (.only i) op).state = c := by
  have hfetch : (c.fetchHandle (.only i) p).result = .error ((l.stripe i).foreign p) ∧
      (c.fetchHandle (.only i) p).state = c := by
    obtain ⟨hresult, hstate⟩ := lift_onShard_fail (fun s b => b.fetch s p) (if_neg howns)
    exact ⟨congrArg (Except.map fun f => (⟨p, i, f⟩ : Handle l size)) hresult, hstate⟩
  cases op with
  | fetch q name =>
    obtain rfl : q = p := Option.some.inj hp
    rw [perform, Outcome.andThen_of_error hfetch.1]
    exact ⟨rfl, hfetch.2⟩
  | fetchGuard access q name =>
    obtain rfl : q = p := Option.some.inj hp
    rw [perform, Outcome.andThen_of_error hfetch.1]
    exact ⟨rfl, hfetch.2⟩
  | unpin q dirty =>
    obtain rfl : q = p := Option.some.inj hp
    obtain ⟨hresult, hstate⟩ := lift_onShard_fail (fun s b => b.unpin s q dirty) (if_neg howns)
    exact ⟨congrArg (Except.map Reply.truth) hresult, hstate⟩
  | delete q =>
    obtain rfl : q = p := Option.some.inj hp
    obtain ⟨hresult, hstate⟩ := lift_onShard_fail (fun s b => b.delete s q) (if_neg howns)
    exact ⟨congrArg (Except.map Reply.truth) hresult, hstate⟩
  | flush q =>
    obtain rfl : q = p := Option.some.inj hp
    obtain ⟨hresult, hstate⟩ := lift_onShard_fail (fun s b => b.flush s q) (if_neg howns)
    exact ⟨congrArg (Except.map Reply.truth) hresult, hstate⟩
  | _ => exact absurd hp (by simp [Op.names?])

/-! ## Histories -/

/-- No rule is broken by whatever step comes next, unless a shard is spoken to about a page of
another shard. -/
structure Unbreakable (c : Client l size) : Prop where
  /-- What the recency list of a shard names is a frame of the shard. -/
  frames : ∀ (i : Fin l.width) (k : Nat),
    (c.system.pool.shard i).recency.contains k = true → k < size
  /-- The pages a shard has on record are its own, and so is the id of the next one it makes. -/
  owned : ∀ (i : Fin l.width) (p : PageId),
    (∃ f, (c.system.pool.shard i).table[p]? = some f) ∨
      (∃ f, ((c.system.pool.shard i).frame f).holds = some p) ∨
      (c.system.pool.shard i).nextId = some p → p.val % l.width = i.val
  pins : ∀ (i : Fin l.width) (f : Fin size),
    ((c.system.pool.shard i).frame f).pins < UInt32.size
  /-- Nothing that is asked of the pool breaks a rule. -/
  routed : ∀ op v, (c.take ⟨none, op⟩).result ≠ .error (.violation v)
  /-- A shard that is spoken to past the pool finds a rule broken exactly if it is asked about a
  page of another shard. -/
  direct : ∀ (i : Fin l.width) (op : Op),
    (∃ v, (c.take ⟨some i.val, op⟩).result = .error (.violation v)) ↔
      ∃ p, op.names? = some p ∧ p.val % l.width ≠ i.val
  /-- Then it does nothing. -/
  foreign : ∀ (i : Fin l.width) (op : Op) (p : PageId), op.names? = some p →
    p.val % l.width ≠ i.val →
      (c.take ⟨some i.val, op⟩).result =
          .error (.violation (.foreignPage p.val i.val l.width)) ∧
        (c.take ⟨some i.val, op⟩).state = c

/-- A step is taken where no page has all the pins it can have. -/
def LeavesPins (_ : List Entry) (c : Client l size) (_ : Step) : Prop :=
  c.Unsaturated

/-- A shard that there is can be spoken to. -/
theorem take_only (hdeals : l.deals = true) (c : Client l size) (i : Fin l.width) (op : Op) :
    c.take ⟨some i.val, op⟩ = c.perform (.only i) op := by
  have hscope : l.scope? (some i.val) = some (.only i) := by
    rw [Layout.scope?, if_pos hdeals, dif_pos i.isLt]
  rw [take, hscope]

/-- Where all shards are steady and no page has all the pins it can have, no step breaks a rule but
one that speaks to a shard about a page of another. -/
theorem unbreakable_of_steady (hdeals : l.deals = true) (h : c.system.Steady)
    (hpins : c.Unsaturated) : c.Unbreakable := by
  cases l with
  -- a shard by itself has no others to be spoken past
  | alone => exact absurd hdeals (by simp [Layout.deals])
  | split count hcount hle =>
    have hcomplete := Layout.complete_split hcount hle
    have hforeign (i : Fin count) (op : Op) {p : PageId} (hp : op.names? = some p)
        (hne : p.val % count ≠ i.val) :=
      perform_foreign (c := c) (i := i) hp hne
    refine ⟨fun i k => (h.shard i).recency.lt, fun i p => ?_, fun i f => ?_, fun op => ?_,
      fun i op => ?_, fun i op p hp hne => ?_⟩
    · rintro (⟨f, hp⟩ | ⟨f, hp⟩ | hp)
      · exact (h.confined i).table hp
      · exact (h.confined i).holds hp
      · exact (h.confined i).next hp
    · exact Nat.lt_of_le_of_lt ((h.shard i).pins f) (by decide)
    · exact perform_unbroken hcomplete h hpins .whole fun p _ => hcomplete p
    · rw [take_only hdeals]
      constructor
      · rintro ⟨v, hv⟩
        -- if the shard was asked about no page of another, nothing broke
        by_contra hnone
        refine perform_unbroken hcomplete h hpins (.only i) (fun p hp => ?_) v hv
        by_contra hne
        exact hnone ⟨p, hp, hne⟩
      · rintro ⟨p, hp, hne⟩
        exact ⟨_, (hforeign i op hp hne).1⟩
    · rw [take_only hdeals]
      exact hforeign i op hp hne

/-- The shards of a pool that was just built are steady. -/
theorem steady_of_build {b : Blueprint} {built : AnyPool} (hbuild : b.build = .ok built)
    (hdeals : built.layout.deals = true) (disk : Disk) :
    (⟨built.pool, disk⟩ : System built.layout built.size Disk).Steady := by
  -- only a shard that stands alone can be preloaded
  have hunloaded : b.Unloaded := by
    cases b with
    | alone size count index preload =>
      rw [Blueprint.build] at hbuild
      split at hbuild
      · exact absurd hbuild (by simp)
      · cases preload with
        | none =>
          obtain rfl := Except.ok.inj hbuild
          exact absurd hdeals (by simp [AnyPool.fresh, Layout.deals])
        | some preload =>
          obtain rfl := Except.ok.inj hbuild
          exact absurd hdeals (by simp [AnyPool.fresh, Layout.deals])
    | split | checked => trivial
  refine ⟨fun i => ?_, fun i => ?_⟩
  · show (built.pool.shard i).Steady
    rw [Blueprint.shard_of_build hbuild hunloaded i]
    exact .fresh _ _
  · show (built.pool.shard i).Confined _
    rw [Blueprint.shard_of_build hbuild hunloaded i]
    exact (Shard.Confined.fresh ..).withRecency _

/-- Whatever is asked of a pool of shards, of whatever pages, and whatever the disk does: no rule is
broken as long as no page has all the pins it can have. -/
theorem no_rule_broken {b : Blueprint} {built : AnyPool} (hbuild : b.build = .ok built)
    (hdeals : built.layout.deals = true) (disk : Disk) (durable : Option Lsn) {log : List Entry}
    {c : Client built.layout built.size}
    (h : History LeavesPins (built.start disk durable) log c) (hpins : c.Unsaturated) :
    c.Unbreakable ∧ ∀ entry ∈ log, ∀ v, entry.answer = .error (.violation v) →
      ∃ i p, entry.step.shard = some i ∧ i < built.layout.width ∧
        entry.step.op.names? = some p ∧ p.val % built.layout.width ≠ i := by
  have hkept : c.system.Steady ∧ ∀ entry ∈ log, ∀ v, entry.answer = .error (.violation v) →
      ∃ i p, entry.step.shard = some i ∧ i < built.layout.width ∧
        entry.step.op.names? = some p ∧ p.val % built.layout.width ≠ i := by
    -- both are kept together: what the next step answers depends on the shards being steady
    refine h.keeps (P := fun log c => c.system.Steady ∧ ∀ entry ∈ log, ∀ v,
      entry.answer = .error (.violation v) → ∃ i p, entry.step.shard = some i ∧
        i < built.layout.width ∧ entry.step.op.names? = some p ∧ p.val % built.layout.width ≠ i)
      ⟨steady_of_build hbuild hdeals disk, fun _ hentry => absurd hentry List.not_mem_nil⟩ ?_
    rintro log c ⟨shard, op⟩ ⟨hsteady, hlog⟩ hpins
    refine ⟨(c.evolves_take _).steady hsteady, fun entry hentry v hv => ?_⟩
    rcases List.mem_append.mp hentry with hentry | hentry
    · exact hlog entry hentry v hv
    obtain rfl := List.mem_singleton.mp hentry
    have hunbreakable := unbreakable_of_steady hdeals hsteady hpins
    cases shard with
    | none => exact absurd hv (hunbreakable.routed op v)
    | some i =>
      by_cases hi : i < built.layout.width
      · obtain ⟨p, hp, hne⟩ := (hunbreakable.direct ⟨i, hi⟩ op).mp ⟨v, hv⟩
        exact ⟨i, p, rfl, hi, hp, hne⟩
      · -- there is no such shard, and nobody answers
        have hscope : built.layout.scope? (some i) = none := by
          rw [Layout.scope?, if_pos hdeals, dif_neg hi]
        rw [take, hscope] at hv
        exact absurd hv (by simp)
  exact ⟨unbreakable_of_steady hdeals hkept.1 hpins, hkept.2⟩

/-- If no frame has all the pins it can have, then no page has. -/
theorem unsaturated_of_lt (h : ∀ i f, ((c.system.pool.shard i).frame f).pins < Frame.maxPins) :
    c.Unsaturated := by
  intro i p hp
  obtain ⟨f, -, hpins⟩ := Option.map_eq_some_iff.mp hp
  exact absurd hpins (Nat.ne_of_lt (h i f))

/-- Two shards of one frame: a page is created, unpinned too often, deleted, and a page that was
never created is fetched past the pool, first from the wrong shard and then from the right one. -/
theorem no_rule_broken_two_shards :
    ∃ (log : List Entry) (c : Client (.split 2 (by decide) (by decide)) 1),
      History LeavesPins
        ((AnyPool.fresh (.split 2 (by decide) (by decide)) 1).start
          (.onMedium (.memory .empty)) none) log c ∧
      log.map Entry.answer = [.ok (.placed ⟨0, by decide⟩ 0), .ok (.truth true),
        .ok (.truth false), .ok (.truth true), .error (.violation (.foreignPage 7 0 2)),
        .ok (.placed ⟨7, by decide⟩ 0)] ∧
      c.Unsaturated ∧ c.Unbreakable := by
  have hunsaturated {c : Client (.split 2 (by decide) (by decide)) 1}
      (h : ∀ (i : Fin 2) (f : Fin 1), ((c.system.pool.shard i).frame f).pins ≤ 1) : c.Unsaturated :=
    unsaturated_of_lt fun i f => Nat.lt_of_le_of_lt (h i f) (by decide)
  have h : History LeavesPins
    ((AnyPool.fresh (.split 2 (by decide) (by decide)) 1).start (.onMedium (.memory .empty)) none)
    [] _ := .start
  have h := h.step ⟨none, .newPage "a"⟩ (hunsaturated (by decide))
  have h := h.step ⟨none, .unpin ⟨0, by decide⟩ false⟩ (hunsaturated (by decide))
  have h := h.step ⟨none, .unpin ⟨0, by decide⟩ false⟩ (hunsaturated (by decide))
  have h := h.step ⟨none, .delete ⟨0, by decide⟩⟩ (hunsaturated (by decide))
  have h := h.step ⟨some 0, .fetch ⟨7, by decide⟩ "b"⟩ (hunsaturated (by decide))
  have h := h.step ⟨some 1, .fetch ⟨7, by decide⟩ "b"⟩ (hunsaturated (by decide))
  have hbuild : Blueprint.build (.split 1 2) =
    .ok (.fresh (.split 2 (by decide) (by decide)) 1) := rfl
  exact ⟨_, _, h, rfl, hunsaturated (by decide),
    (no_rule_broken hbuild rfl _ none h (hunsaturated (by decide))).1⟩

end Client

end PageCache
