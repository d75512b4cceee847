import PageCache.Proofs.Client.Failures
import PageCache.Proofs.Client.Journal
import PageCache.Proofs.Client.Lent
import PageCache.Proofs.Shard.Evictables

/-!
# Pins are counted exactly

A page comes in with one pin, has one more for each time it is fetched while it is there, and one
less for each unpin that was answered with true; nothing else counts (`PinnedBy`). Until all of its
pins were taken off it stays where it is (`HeldFast`). And where only guards take pins, the pins of
a page are the guards on it (`Client.GuardsExact`). This is `Client.pins_of_history`.
-/

namespace PageCache

variable {l : Layout} {size : Nat} {δ : Type} [PageStore δ]

/-! ## Counting -/

/-- A pin is taken off. -/
def Concern.isUnpin : Concern → Bool
  | unpins _ => true
  | _ => false

namespace Errand

variable {p : PageId} {es : List (Errand l size δ)} {e : Errand l size δ}

/-- How often page `p` was fetched and was there. -/
def hitsIn (p : PageId) (es : List (Errand l size δ)) : Nat :=
  es.countP fun e => e.concern p = .hits

/-- How often a pin was taken off page `p`. -/
def unpinsIn (p : PageId) (es : List (Errand l size δ)) : Nat :=
  es.countP fun e => (e.concern p).isUnpin

theorem hitsIn_concat (p : PageId) (es : List (Errand l size δ)) (e : Errand l size δ) :
    hitsIn p (es ++ [e]) = hitsIn p es + if e.concern p = .hits then 1 else 0 := by
  simp [hitsIn, List.countP_append, List.countP_cons]

theorem unpinsIn_concat (p : PageId) (es : List (Errand l size δ)) (e : Errand l size δ) :
    unpinsIn p (es ++ [e]) = unpinsIn p es + (e.concern p).isUnpin.toNat := by
  cases h : (e.concern p).isUnpin <;> simp [unpinsIn, List.countP_append, h]

end Errand

/-- A page that is there before and after has lost and gained the pins that the errand was for. -/
theorem RecordStep.pins_add {n n' k : Nat} {dirty dirty' : Bool} {concern : Concern}
    (h : RecordStep (some (n, dirty)) concern k (some (n', dirty'))) :
    n' + concern.isUnpin.toNat = n + if concern = .hits then 1 else 0 := by
  cases h with
  | hits | unpins => rfl
  | idles hidles => cases hidles <;> rfl

open Errand (hitsIn unpinsIn)

/-- Page `p` came in, with one pin, and by what happened while it was there it has `n` pins now. -/
def PinnedBy (p : PageId) (n : Nat) (es : List (Errand l size δ)) : Prop :=
  ∃ past e since, es = past ++ e :: since ∧ e.concern p = .brings ∧
    (∀ e' ∈ since, e'.found.shard.table[p]? ≠ none) ∧
      n + unpinsIn p since = 1 + hitsIn p since

namespace PinnedBy

variable {p : PageId} {n n' : Nat} {es : List (Errand l size δ)} {e : Errand l size δ}

/-- A page that just came in has one pin. -/
theorem brings (he : e.concern p = .brings) : PinnedBy p 1 (es ++ [e]) :=
  ⟨es, e, [], rfl, he, List.forall_mem_nil _, rfl⟩

/-- The balance goes on while the page is there. -/
theorem concat (h : PinnedBy p n es) (hp : e.found.shard.table[p]? ≠ none)
    (hpins : n' + (e.concern p).isUnpin.toNat = n + if e.concern p = .hits then 1 else 0) :
    PinnedBy p n' (es ++ [e]) := by
  obtain ⟨past, e₀, since, rfl, hbrings, hsince, hbalance⟩ := h
  refine ⟨past, e₀, since ++ [e], by simp, hbrings, ?_, ?_⟩
  · -- the page is there before the new errand, as before the others since it came in
    exact List.forall_mem_append.mpr ⟨hsince, List.forall_mem_singleton.mpr hp⟩
  · rw [Errand.unpinsIn_concat, Errand.hitsIn_concat]
    omega

end PinnedBy

/-! ## Pages that stay -/

/-- Where the last move is gentle they all are. -/
theorem Move.Ends.gentle {m : Move size} {ms : List (Move size)} (h : m.Ends ms) (hm : m.Gentle) :
    ∀ m' ∈ ms, m'.Gentle := by
  intro m' hm'
  rcases h.quiet_or_eq hm' with hquiet | rfl
  · exact Move.gentle_of_quiet hquiet
  · exact hm

/-- Whatever a shard is asked, a pinned page is in its frame afterwards. -/
theorem Backed.table_ask_of_pinned [LawfulStore δ] {w : Backed size δ} {s : Stripe} {capacity : Nat}
    (h : w.shard.Kept s capacity w.shard.free) {op : ShardOp size} (hspared : w.Spares s op)
    {p : PageId} {f : Fin size} (hp : w.shard.table[p]? = some f)
    (hpins : (w.shard.frame f).pins ≠ 0) : (w.ask s op).shard.table[p]? = some f := by
  -- a shard by itself is viewed over a rest without pages
  let rest : View size := ⟨fun _ => none, fun _ => .zero, fun _ => False⟩
  have howns := h.owned hp
  have hpinned : (w.view s rest).Pinned p f (w.shard.frame f).bytes :=
    ⟨_, slot_of_table howns hp, hpins, rfl⟩
  have hlies {w' : Backed size δ} {page : Page} (hlies : (w'.view s rest).Lies p f page) :
      w'.shard.table[p]? = some f := by
    obtain ⟨frame, hslot, -⟩ := hlies
    exact (Shard.slot_eq_some_iff.mp ((slot_view howns).symm.trans hslot)).1
  -- every operation is a path of moves, and of those only an unpin takes a pin off
  cases op with
  | fetch q =>
    obtain ⟨ms, hruns, hfetched⟩ := fetch_runs h q
    refine hlies ((hruns.path rest).pinned ?_ hpinned).lies
    cases hresult : (w.fetch s q).result with
    | error e =>
      rw [hresult] at hfetched
      exact fun m hm => Move.gentle_of_quiet (hfetched m hm)
    | ok g =>
      rw [hresult] at hfetched
      exact hfetched.elim (·.gentle trivial) (·.gentle trivial)
  | newPage =>
    obtain ⟨ms, hruns, hcreated⟩ := newPage_runs h hspared
    refine hlies ((hruns.path rest).pinned ?_ hpinned).lies
    cases hresult : (w.newPage s).result with
    | error e =>
      rw [hresult] at hcreated
      exact fun m hm => Move.gentle_of_quiet (hcreated m hm)
    | ok placed =>
      rw [hresult] at hcreated
      exact hcreated.gentle trivial
  | unpin q dirty =>
    obtain ⟨ms, hruns, hmoved⟩ := unpin_runs h q dirty
    exact hlies ((hruns.path rest).lies_of_unpin hmoved.nil_or_single hpinned.lies)
  | delete q =>
    obtain ⟨ms, hruns, hms⟩ := delete_runs h q
    refine hlies ((hruns.path rest).pinned ?_ hpinned).lies
    rcases hms with rfl | ⟨rfl, -⟩
    · exact List.forall_mem_nil _
    · exact List.forall_mem_singleton.mpr trivial
  | flush q =>
    obtain ⟨ms, hruns, hquiet⟩ := flush_runs h q
    exact hlies ((hruns.path rest).pinned_of_quiet hquiet hpinned).lies
  | flushAll visit =>
    obtain ⟨ms, hruns, hquiet, -⟩ := flushAll_runs visit h
    exact hlies ((hruns.path rest).pinned_of_quiet hquiet hpinned).lies
  | reach => exact hp

/-! ## One shard -/

/-- Page `p` had `n` pins, and then there were the errands `es` that led to `b`: until `n` pins were
taken off the page is in frame `f`, and nobody deletes it. -/
structure HeldFast (p : PageId) (f : Fin size) (n : Nat) (es : List (Errand l size δ))
    (b : Backed size δ) : Prop where
  stays : unpinsIn p es < n → b.shard.table[p]? = some f ∧
    ∃ m, b.shard.pinCount? p = some m ∧ m + unpinsIn p es = n + hitsIn p es
  meanwhile : ∀ {past since : List (Errand l size δ)} {e : Errand l size δ},
    es = past ++ e :: since → unpinsIn p past < n →
      e.left.shard.table[p]? = some f ∧ e.concern p ≠ .deletes

namespace Diary

variable {i : Fin l.width} {b₀ b : Backed size δ} {es past since : List (Errand l size δ)}
variable {e : Errand l size δ} {p : PageId} {f : Fin size} {n : Nat} {dirty : Bool}

/-- What came before an errand is a diary, too. -/
theorem found (h : Diary i b₀ es b) (hes : es = past ++ e :: since) :
    e.shard = i ∧ e.found.Spares e.stripe e.op ∧ Diary i b₀ past e.found := by
  induction h generalizing since with
  | start => exact absurd hes (by simp)
  | @errand es b h op hspared ih =>
    rcases split_of_concat hes with ⟨rfl, rfl, -⟩ | ⟨rest, -, hes⟩
    · exact ⟨rfl, hspared, h⟩
    · exact ih hes
  | beside _ _ ih => exact ih hes

/-- The pins of a page that is there come of what happened since it came in. -/
theorem pinnedBy (h : Diary i b₀ es b) (h₀ : b₀.shard.Mapped b₀.shard.free)
    (hp : b₀.shard.record? p = none) (hrecord : b.shard.record? p = some (n, dirty)) :
    PinnedBy p n es := by
  refine h.record (P := fun es r => ∀ n dirty, r = some (n, dirty) → PinnedBy p n es) h₀ ?_ ?_
    n dirty hrecord
  · rw [hp]
    exact fun _ _ hsome => absurd hsome (by simp)
  · rintro es e r ih - hstep n dirty rfl
    cases hfound : e.found.shard.record? p with
    | none =>
      rw [hfound] at hstep
      generalize hconcern : e.concern p = c, e.saved p = k at hstep
      cases hstep with
      | brings => exact .brings hconcern
      | idles hidles => exact absurd hidles.of_none.2 (by simp)
    | some r₀ =>
      rw [hfound] at hstep
      refine (ih _ _ hfound).concat (fun hnone => ?_) hstep.pins_add
      rw [Shard.record?_eq_none_iff.mpr hnone] at hfound
      exact absurd hfound (by simp)

/-- A page stays in its frame until as many pins were taken off as it had. -/
theorem stays [LawfulStore δ] {capacity : Nat} (h : Diary i b₀ es b)
    (h₀ : b₀.shard.Kept (l.stripe i) capacity b₀.shard.free) (hp : b₀.shard.table[p]? = some f)
    (hfew : unpinsIn p es < (b₀.shard.frame f).pins) :
    b.shard.table[p]? = some f ∧
      (b.shard.frame f).pins + unpinsIn p es = (b₀.shard.frame f).pins + hitsIn p es := by
  induction h with
  | start => exact ⟨hp, rfl⟩
  | beside _ _ ih => exact ih hfew
  | @errand es b h op hspared ih =>
    rw [Errand.unpinsIn_concat] at hfew ⊢
    rw [Errand.hitsIn_concat]
    obtain ⟨hb, hbalance⟩ := ih (Nat.lt_of_le_of_lt (Nat.le_add_right ..) hfew)
    have hleft := Backed.table_ask_of_pinned (h.kept h₀) hspared hb (by omega)
    have hstep : RecordStep (b.shard.record? p) _ _ ((b.ask (l.stripe i) op).shard.record? p) :=
      (Errand.accounted ⟨i, b, op⟩ (h.mapped h₀.mapped) hspared).record p
    rw [Shard.record?_of_table hb, Shard.record?_of_table hleft] at hstep
    have hpins := hstep.pins_add
    exact ⟨hleft, by omega⟩

/-- An errand leaves a pinned page where it is, and does not delete it. -/
theorem heldFast [LawfulStore δ] {capacity : Nat} (h : Diary i b₀ es b)
    (h₀ : b₀.shard.Kept (l.stripe i) capacity b₀.shard.free) (hp : b₀.shard.table[p]? = some f)
    (hpins : b₀.shard.pinCount? p = some n) : HeldFast p f n es b := by
  have hcount {b : Backed size δ} (hp : b.shard.table[p]? = some f) :
      b.shard.pinCount? p = some (b.shard.frame f).pins := by
    rw [Shard.pinCount?, hp]
    rfl
  obtain rfl := Option.some.inj ((hcount hp).symm.trans hpins)
  refine ⟨fun hfew => ?_, fun {past since e} hes hfew => ?_⟩
  · obtain ⟨hb, hbalance⟩ := h.stays h₀ hp hfew
    exact ⟨hb, _, hcount hb, hbalance⟩
  obtain ⟨rfl, hspared, hpast⟩ := h.found hes
  obtain ⟨hfound, hbalance⟩ := hpast.stays h₀ hp hfew
  have hpins : (e.found.shard.frame f).pins ≠ 0 := by omega
  refine ⟨Backed.table_ask_of_pinned (hpast.kept h₀) hspared hfound hpins, fun hdeletes => ?_⟩
  have hstep := (e.accounted (hpast.mapped h₀.mapped) hspared).record p
  rw [hdeletes, Shard.record?_of_table hfound] at hstep
  generalize (e.found.shard.frame f).pins = m, e.saved p = k, e.left.shard.record? p = r
    at hstep hpins
  cases hstep with
  | deletes => exact hpins rfl

end Diary

/-! ## Unpinning -/

omit [PageStore δ] in
/-- An unpin is true if there is a pin to take off. -/
theorem Backed.result_unpin_eq {w : Backed size δ} {s : Stripe} {p : PageId} (howns : s.Owns p)
    (dirty : Bool) :
    (w.unpin s p dirty).result = .ok (decide (0 < (w.shard.pinCount? p).getD 0)) := by
  rw [Shard.pinCount?]
  cases hp : w.shard.table[p]? with
  | none =>
    rw [unpin, if_pos howns, hp]
    rfl
  | some f =>
    show _ = Except.ok (decide (0 < (w.shard.frame f).pins))
    by_cases hpins : (w.shard.frame f).pins = 0
    · rw [unpin, if_pos howns, hp]
      simp [hpins]
    · rw [result_unpin howns hp hpins, decide_eq_true (Nat.pos_of_ne_zero hpins)]

namespace Client

variable {capacity : Nat} {c : Client l size} {i : Fin l.width} {p : PageId}

/-- In the pool of `c`, whose shard `i` was sent on the errands `es`, the pins of that shard are as
many as there should be, and tell what an unpin is answered, whether the pool is asked or the
shard. -/
structure PinsExact (i : Fin l.width) (es : List (Errand l size Disk)) (c : Client l size) :
    Prop where
  pinnedBy : ∀ {p : PageId} {n : Nat}, (c.system.pool.shard i).pinCount? p = some n →
    PinnedBy p n es
  unpin : ∀ {p : PageId}, (l.stripe i).Owns p → ∀ {scope : Scope l},
    scope = .whole ∨ scope = .only i → ∀ dirty, (c.unpin scope p dirty).result =
      .ok (decide (0 < ((c.system.pool.shard i).pinCount? p).getD 0))

/-- The pins of a shard that began without pages are as many as its errands account for. -/
theorem pinsExact {b₀ : Backed size Disk} {es : List (Errand l size Disk)}
    (h : Diary i b₀ es (c.system.backed i)) (h₀ : b₀.shard.Mapped b₀.shard.free)
    (hempty : ∀ p, b₀.shard.record? p = none) : PinsExact i es c where
  pinnedBy {p n} hn := by
    rw [Shard.pinCount?_eq] at hn
    obtain ⟨⟨_, dirty⟩, hrecord, rfl⟩ := Option.map_eq_some_iff.mp hn
    exact h.pinnedBy h₀ (hempty p) hrecord
  unpin {p} howns {scope} hscope dirty := by
    rcases hscope with rfl | rfl
    · obtain rfl := Layout.route_eq_of_owns howns
      exact Backed.result_unpin_eq (w := c.system.backed (l.route p)) howns dirty
    · exact Backed.result_unpin_eq (w := c.system.backed i) howns dirty

/-! ## Guards -/

/-- In a view a page has the pins that it has in its shard. -/
theorem pins_view (howns : (l.stripe i).Owns p) :
    c.system.view.pins p = ((c.system.pool.shard i).pinCount? p).getD 0 := by
  rw [View.pins, System.slot_view howns, Shard.slot, Shard.pinCount?]
  cases (c.system.pool.shard i).table[p]? <;> rfl

/-- Where pins are lent to guards and to nobody else, a page has as many as there are guards on it,
no guard has lost its pin, and without guards every frame is free or may be evicted. -/
structure GuardsExact (c : Client l size) : Prop where
  pins : ∀ {i : Fin l.width} {p : PageId}, (l.stripe i).Owns p →
    ((c.system.pool.shard i).pinCount? p).getD 0 = guardsOf (held c.guards) p
  unpin : ∀ g ∈ held c.guards, (c.unpin .whole g.handle.page g.modified).result = .ok true
  /-- Whatever step comes next, it finds no guard already unpinned. -/
  take : ∀ {log : List Entry} {step : Step}, NoTakeover log c step → step.op.PinsByGuards →
    (c.take step).FindsPinned
  /-- Nor is one found when all of them are dropped. -/
  close : ∀ access p, Event.guardUnpinned access p ∉ c.close.2
  evictable : held c.guards = [] → ∀ (i : Fin l.width) {p : PageId} {f : Fin size},
    (c.system.pool.shard i).table[p]? = some f → (c.system.pool.shard i).recency.contains f = true
  idle : held c.guards = [] → ∀ i : Fin l.width,
    (c.system.pool.shard i).evictableCount + (c.system.pool.shard i).freeCount = size

/-- No guard that is dropped has lost its pin, however many go before it. -/
theorem dropGuards_finds (names : List String) (hkept : c.Kept capacity) (h : c.Lends)
    (access : Access) (p : PageId) :
    Event.guardUnpinned access p ∉ (dropGuards names c).2 := by
  -- over the guards that are still to be dropped: each drop leaves the pins lent to the others
  induction names generalizing c with
  | nil => exact List.not_mem_nil
  | cons name rest ih =>
    obtain ⟨hlends, hfinds⟩ := dropGuard_lends hkept h name
    intro hmem
    rcases List.mem_append.mp hmem with hmem | hmem
    · exact hfinds access p hmem
    · exact ih (dropGuard_still hkept name).kept hlends hmem

/-- Where all pins are lent to guards, pins and guards match. -/
theorem Lends.exact (h : c.Lends) (hkept : c.Kept capacity) (hroomy : size ≤ capacity)
    (hrecency : ∀ i, (Recency.empty capacity).Becomes (c.system.pool.shard i).recency) :
    c.GuardsExact := by
  have hunpinned (hnone : held c.guards = []) {i : Fin l.width} {p : PageId} {f : Fin size}
      (hp : (c.system.pool.shard i).table[p]? = some f) :
      ((c.system.pool.shard i).frame f).pins = 0 := by
    have hslot := (System.slot_view ((hkept.system i).owned hp)).trans (Shard.slot_of_table hp)
    have hpins := h p
    rw [hnone] at hpins
    exact (View.pins_of_slot hslot).symm.trans hpins
  exact
    { pins := fun {i p} howns => (pins_view howns).symm.trans (h p)
      unpin := fun g hg => by
        obtain ⟨name, hname⟩ := exists_name_of_mem_held hg
        have howns := hkept.routed name g hname
        rw [← Layout.route_eq_of_owns howns] at howns
        obtain ⟨f, frame, hslot, hpins⟩ := h.slot_of_mem hg
        rw [System.slot_view howns] at hslot
        obtain ⟨hp, rfl⟩ := Shard.slot_eq_some_iff.mp hslot
        exact Backed.result_unpin howns hp hpins g.modified
      take := fun hspared hguards => (h.take hkept hguards hspared).2
      close := dropGuards_finds _ hkept h
      evictable := fun hnone i p f hp => (hkept.system i).evictable hroomy hp (hunpinned hnone hp)
      idle := fun hnone i =>
        (hkept.system i).evictableCount_add_freeCount (hrecency i).represents.1 hroomy
          (hunpinned hnone) }

/-- A history in which only guards take pins. -/
theorem lends_of_history {c₀ : Client l size} {log : List Entry} (h₀ : c₀.Kept capacity)
    (hlends₀ : c₀.Lends) (h : History NoTakeover c₀ log c)
    (hguards : ∀ entry ∈ log, entry.step.op.PinsByGuards) : c.Lends := by
  refine (h.keeps (P := fun log c => c.Kept capacity ∧
    ((∀ entry ∈ log, entry.step.op.PinsByGuards) → c.Lends)) ⟨h₀, fun _ => hlends₀⟩ ?_).2 hguards
  rintro log c step ⟨hkept, ih⟩ hspared
  refine ⟨(keeps_take hkept step hspared).kept, fun hguards => ?_⟩
  obtain ⟨hbefore, hlast⟩ := List.forall_mem_append.mp hguards
  exact ((ih hbefore).take hkept (hlast _ List.mem_cons_self) hspared).1

/-! ## Histories -/

/-- However a pool is used with recency lists that have room for every frame, short of creating a
page that is resident, and whatever its disk refuses to do: pins are counted exactly; a pinned page
stays where it is until, in whatever comes later, as many pins were taken off as it has; and if only
guards have taken pins, the pins are those of the guards. -/
theorem pins_of_history {b : Blueprint} {built : AnyPool} (hbuild : b.build = .ok built)
    (hunloaded : b.Unloaded) (hroomy : b.Roomy) (disk : Disk) (durable : Option Lsn)
    {log : List Entry} {c : Client built.layout built.size}
    (h : History NoTakeover (built.start disk durable) log c) :
    (∀ i, PinsExact i (Errand.of i ((built.start disk durable).errands log)) c) ∧
      (∀ (i : Fin built.layout.width) (p : PageId) (f : Fin built.size) (n : Nat),
        (c.system.pool.shard i).table[p]? = some f →
          (c.system.pool.shard i).pinCount? p = some n → ∀ {stretch : List Entry}
            {c' : Client built.layout built.size}, History NoTakeover c stretch c' →
              HeldFast p f n (Errand.of i (c.errands stretch)) (c'.system.backed i)) ∧
      ((∀ entry ∈ log, entry.step.op.PinsByGuards) → c.GuardsExact) := by
  have hstart := kept_of_build hbuild hunloaded disk durable
  have hkept := kept_of_history hstart h
  refine ⟨fun i => ?_, fun i p f n hp hpins {stretch c'} hstretch => ?_, fun hguards => ?_⟩
  · exact pinsExact (diary_of_history h i) (Blueprint.mapped_of_build hbuild i)
      (Blueprint.record?_of_build hbuild i)
  · exact (diary_of_history hstretch i).heldFast (hkept.system i) hp hpins
  · have hlends := lends_of_history hstart (lends_of_build hbuild hunloaded disk durable) h hguards
    exact hlends.exact hkept (Blueprint.size_le_capacity hbuild hunloaded hroomy)
      (recency_of_history hbuild hunloaded disk durable h)

/-- Two frames, and two guards on page `0`. When one of them has been dropped the page is still not
deleted, and lies where it lay. -/
theorem pins_of_history_two_guards :
    ∃ log c stretch c', History NoTakeover ((AnyPool.fresh (.alone .whole) 2).start
        (.onMedium (.memory .empty)) none) log c ∧
      log.map Entry.answer = [.ok (.newGuard ⟨0, by decide⟩ ⟨0, by decide⟩),
        .ok (.guarding ⟨0, by decide⟩)] ∧
      PinsExact ⟨0, by decide⟩ (Errand.of ⟨0, by decide⟩ (((AnyPool.fresh (.alone .whole) 2).start
        (.onMedium (.memory .empty)) none).errands log)) c ∧
      c.GuardsExact ∧ guardsOf (held c.guards) ⟨0, by decide⟩ = 2 ∧
      History NoTakeover c stretch c' ∧
      stretch.map Entry.answer = [.ok .nothing, .ok (.truth false)] ∧
      let es := Errand.of ⟨0, by decide⟩ (c.errands stretch)
      HeldFast ⟨0, by decide⟩ ⟨0, by decide⟩ 2 es (c'.system.backed ⟨0, by decide⟩) ∧
        unpinsIn ⟨0, by decide⟩ es = 1 := by
  have h : History FetchesCreated ((AnyPool.fresh (.alone .whole) 2).start
      (.onMedium (.memory .empty)) none) [] _ := .start
  have h := h.step ⟨none, .newGuard "a"⟩ trivial
  have h := h.step ⟨none, .fetchGuard .read ⟨0, by decide⟩ "b"⟩ List.mem_cons_self
  have hbuild : Blueprint.build (.alone 2 1 0 none) = .ok (.fresh (.alone .whole) 2) := rfl
  have h := (noTakeover_of_fetchesCreated (kept_of_build hbuild trivial _ none)
    (known_of_build hbuild trivial _ none) h).1
  have hstretch := (h.rest NoTakeover).step ⟨none, .dropGuard "a"⟩ (noTakeover_of_none rfl)
  have hstretch := hstretch.step ⟨none, .delete ⟨0, by decide⟩⟩ (noTakeover_of_none rfl)
  obtain ⟨hpins, hfast, hguards⟩ := pins_of_history hbuild trivial trivial _ none h
  exact ⟨_, _, _, _, h, rfl, hpins _, hguards (List.forall_mem_cons.mpr
    ⟨trivial, List.forall_mem_singleton.mpr trivial⟩), rfl, hstretch, rfl,
    hfast ⟨0, by decide⟩ ⟨0, by decide⟩ ⟨0, by decide⟩ 2 rfl rfl hstretch, rfl⟩

end Client

end PageCache
