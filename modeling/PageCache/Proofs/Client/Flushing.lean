import PageCache.Proofs.Client.Alike
import PageCache.Proofs.Client.Ideal

/-!
# Flushing is invisible

Over a memory without faults, flushes that are put into a history change nothing that replacement or
pins depend on, and no answer but for bytes and dirty flags (`Client.flushing_invisible`). Bytes may
change, for the disk may have what was flushed of a page that is deleted afterwards. A client that
works through guards and leaves deleted pages alone does not see it: whether or not it flushed, a
guard shows what the answers tell of its page (`Client.Attends.result_readGuard`).
-/

namespace PageCache

/-! ## Histories with flushes put in -/

/-- `log'` tells of the steps that `log` tells of, and of flushes among them. The answers to a step
that both tell of are related by `R`. -/
inductive AddsFlushes (R : Step → Except Failure Reply → Except Failure Reply → Prop) :
    List Entry → List Entry → Prop
  | nil : AddsFlushes R [] []
  | both {log log' : List Entry} (h : AddsFlushes R log log') (step : Step)
      {answer answer' : Except Failure Reply} (hanswer : R step answer answer') :
      AddsFlushes R (log ++ [⟨step, answer⟩]) (log' ++ [⟨step, answer'⟩])
  | flush {log log' : List Entry} (h : AddsFlushes R log log') (step : Step)
      (answer : Except Failure Reply) (hflush : step.op.Flushes) :
      AddsFlushes R log (log' ++ [⟨step, answer⟩])

/-- There may be any answers. -/
def AnyAnswers (_ : Step) (_ _ : Except Failure Reply) : Prop :=
  True

/-- The answers are the same, but for bytes and dirty flags. -/
def SameOutlines (_ : Step) (answer answer' : Except Failure Reply) : Prop :=
  answer.map Reply.outline = answer'.map Reply.outline

/-- The answers show the same bytes, if a guard was read. -/
def SameReads (step : Step) (answer answer' : Except Failure Reply) : Prop :=
  ∀ name, step.op = .readGuard name → answer = answer'

/-- A page is fetched only while it is in use: created, and not deleted since. -/
def Op.FetchesInUse (L : Ledger) : Op → Prop
  | .fetch p _ | .fetchGuard _ p _ => p ∈ L.created ∧ p ∉ L.deleted
  | _ => True

/-- Bytes and dirty flags tell the ledger nothing. -/
theorem Ledger.record_outline (L : Ledger) (step : Step) (answer : Except Failure Reply) :
    L.record ⟨step, answer.map Reply.outline⟩ = L.record ⟨step, answer⟩ := by
  have hbytes (page : Page) : L.record ⟨step, .ok (.bytes page)⟩ = L := by
    obtain ⟨shard, op⟩ := step
    cases op <;> rfl
  have hpins (states : List (Option Nat × Option Bool)) :
      L.record ⟨step, .ok (.pins states)⟩ = L := by
    obtain ⟨shard, op⟩ := step
    cases op <;> rfl
  cases answer with
  | error e => rfl
  | ok reply =>
    cases reply with
    | bytes page => exact (hbytes .zero).trans (hbytes page).symm
    | pins states => exact (hpins _).trans (hpins states).symm
    | _ => rfl

namespace Client

variable {l : Layout} {size : Nat} {capacity : Nat} {c c' : Client l size} {L : Ledger}

/-- The pool is asked, and not the disk past it. -/
def OnPool (_ : List Entry) (_ : Client l size) (step : Step) : Prop :=
  step.op.OnPool

/-- The step goes to a shard that exists, works through guards, and fetches pages in use only. -/
def UsesGuards (log : List Entry) (_ : Client l size) (step : Step) : Prop :=
  (l.scope? step.shard).isSome ∧ step.op.OnPool ∧ step.op.ThroughGuards ∧
    step.op.FetchesInUse (.current log)

/-- What holds of two clients at the start, and is kept by the steps that both of them take and by
the flushes that the second takes, holds at the end. -/
theorem History.beside {allowed allowed' : List Entry → Client l size → Step → Prop}
    {P : List Entry → List Entry → Client l size → Client l size → Prop} {c₀ : Client l size}
    {log log' : List Entry} (hadds : AddsFlushes AnyAnswers log log') (h : History allowed c₀ log c)
    (h' : History allowed' c₀ log' c') (hstart : P [] [] c₀ c₀)
    (hboth : ∀ {log log' : List Entry} {c c' : Client l size} (step : Step), P log log' c c' →
      allowed log c step →
        P (log ++ [⟨step, (c.take step).result⟩]) (log' ++ [⟨step, (c'.take step).result⟩])
          (c.take step).state (c'.take step).state)
    (hflush : ∀ {log log' : List Entry} {c c' : Client l size} (step : Step), P log log' c c' →
      step.op.Flushes →
        P log (log' ++ [⟨step, (c'.take step).result⟩]) c (c'.take step).state) :
    P log log' c c' := by
  induction hadds generalizing c c' with
  | nil =>
    rw [h.eq_of_nil, h'.eq_of_nil]
    exact hstart
  | @both _ _ _ step answer answer' _ ih =>
    obtain ⟨c₁, h₁, hallowed, hanswer, rfl⟩ := h.of_concat
    obtain ⟨c₁', h₁', -, hanswer', rfl⟩ := h'.of_concat
    obtain rfl : (c₁.take step).result = answer := hanswer
    obtain rfl : (c₁'.take step).result = answer' := hanswer'
    exact hboth step (ih h₁ h₁') hallowed
  | flush _ step answer hop ih =>
    obtain ⟨c₁', h₁', -, hanswer', rfl⟩ := h'.of_concat
    obtain rfl : (c₁'.take step).result = answer := hanswer'
    exact hflush step (ih h h₁') hop

/-! ## What flushes do not change -/

theorem alike_start (built : AnyPool) (store : MemoryStore) (durable : Option Lsn) :
    (built.start (.onMedium (.memory store)) durable).Alike
      (built.start (.onMedium (.memory store)) durable) :=
  ⟨⟨fun i => .refl (built.pool.shard i), rfl, .refl store⟩, rfl, rfl, rfl⟩

/-- Two histories of which one has more flushes leave clients that are alike, and have the same
outlines. -/
theorem alike_of_addsFlushes {allowed' : List Entry → Client l size → Step → Prop}
    {c₀ : Client l size} (h₀ : c₀.Alike c₀) {log log' : List Entry}
    (hadds : AddsFlushes AnyAnswers log log') (h : History OnPool c₀ log c)
    (h' : History allowed' c₀ log' c') : c.Alike c' ∧ AddsFlushes SameOutlines log log' := by
  refine h.beside (P := fun log log' c c' => c.Alike c' ∧ AddsFlushes SameOutlines log log') hadds
    h' ⟨h₀, .nil⟩ ?_ ?_
  · intro log log' c c' step hbeside hop
    have halike := take_alike hbeside.1 hop
    exact ⟨halike.state, hbeside.2.both step halike.result⟩
  · intro log log' c c' step hbeside hflush
    exact ⟨(take_idle hbeside.1.symm hflush).symm, hbeside.2.flush step _ hflush⟩

/-! ## What guards show -/

/-- What is true of a client of which the answers have told `L`, and that leaves deleted pages
alone. -/
structure Attends (capacity : Nat) (c : Client l size) (L : Ledger) : Prop where
  coherent : c.Coherent capacity L
  known : c.system.view.Known L.created
  live : L.Live

/-- The answer to a request for a new page tells of one that was not created before. -/
theorem not_mem_created_of_newGuard (h : c.system.Kept capacity)
    (hknown : c.system.view.Known L.created) {scope : Scope l} {name : String} {p q : PageId}
    (hresult : (c.perform scope (.newGuard name)).result = .ok (.newGuard p q)) :
    p ∉ L.created := by
  rw [perform] at hresult
  cases hnew : (c.newHandle scope).result with
  | error e =>
    rw [Outcome.andThen_of_error hnew] at hresult
    exact absurd hresult (by simp)
  | ok k =>
    rw [Outcome.andThen_of_ok hnew, Outcome.result_after, Outcome.result_map] at hresult
    have hp : k.page = p := by
      cases hhold : ((c.newHandle scope).state.hold name ⟨k, .write, false⟩).result with
      | error e =>
        rw [hhold] at hresult
        exact absurd hresult (by simp [Except.map])
      | ok =>
        rw [hhold] at hresult
        exact (Reply.newGuard.inj (Except.ok.inj hresult)).1
    exact hp ▸ hknown.fresh (unused_of_newHandle h hnew)

/-- A page that somebody holds a guard of is not deleted. -/
theorem Coherent.delete_refused (h : c.Coherent capacity L) {name : String} {p : PageId}
    {access : Access} (hheld : L.held name = some (p, access)) (i : Fin l.width) :
    ((c.system.backed i).delete (l.stripe i) p).result ≠ .ok true := by
  intro hresult
  rw [h.named name, Option.map_eq_some_iff] at hheld
  obtain ⟨g, hname, hg⟩ := hheld
  obtain ⟨rfl, -⟩ := Prod.mk.inj hg
  have hgrip := mem_grips (mem_held hname)
  obtain ⟨frame, hplace⟩ := (h.accounts g.handle.page).placed _ hgrip
  have hpins : 0 < frame.pins := by
    rw [(h.accounts g.handle.page).pins hplace]
    exact List.length_pos_of_mem hgrip
  rw [Backed.delete] at hresult
  split at hresult
  · next howns =>
    -- the shard that is asked is the one in which the page lies
    have hslot := (System.slot_view howns).symm.trans hplace
    obtain ⟨hp, rfl⟩ := Shard.slot_eq_some_iff.mp hslot
    have hp : (c.system.backed i).shard.table[g.handle.page]? = some g.handle.frame := hp
    have hpins : 0 < ((c.system.backed i).shard.frame g.handle.frame).pins := hpins
    simp only [Backed.discard, hp, Outcome.result_after, if_pos hpins] at hresult
    exact absurd hresult (by simp)
  · exact absurd hresult (by simp)

namespace Attends

/-- A page that somebody holds is not deleted. -/
theorem delete_refused (h : c.Attends capacity L) {name : String} {p : PageId} {access : Access}
    (hheld : L.held name = some (p, access)) (scope : Scope l) :
    (c.perform scope (.delete p)).result ≠ .ok (.truth true) := by
  have hshard (i : Fin l.width) :
      ((c.system.backed i).delete (l.stripe i) p).result.map Reply.truth ≠ .ok (.truth true) := by
    have hrefused := h.coherent.delete_refused hheld i
    cases hresult : ((c.system.backed i).delete (l.stripe i) p).result with
    | error e => simp [Except.map]
    | ok deleted =>
      rw [hresult] at hrefused
      intro hmap
      exact hrefused (congrArg _ (Reply.truth.inj (Except.ok.inj hmap)))
  cases scope with
  | whole => exact hshard (l.route p)
  | only i => exact hshard i

/-- A step of a client that fetches only what is in use. -/
theorem take (h : c.Attends capacity L) {step : Step} (hscope : (l.scope? step.shard).isSome)
    (hguards : step.op.ThroughGuards) (hfetch : step.op.FetchesInUse L) :
    (c.take step).state.Attends capacity (L.follow ⟨step, (c.take step).result⟩) := by
  have hcreated : step.op.FetchesCreated L := by
    obtain ⟨shard, op⟩ := step
    cases op with
    | fetch | fetchGuard => exact hfetch.1
    | _ => trivial
  have hspared : NoTakeover [] c step := by
    intro o k ho hok
    obtain ⟨scope, -, rfl⟩ := creation?_eq_some ho
    exact not_resident_of_unused h.coherent.kept h.known
      (unused_of_newHandle h.coherent.kept.system hok)
  have hkeeps := keeps_take h.coherent.kept step hspared
  have hcoherent := h.coherent.take step hscope hguards hcreated fun _ _ => h.known
  refine ⟨hcoherent.follow, hkeeps.known h.known hcreated, h.live.follow _ ?_ ?_ ?_⟩
  · obtain ⟨shard, op⟩ := step
    obtain ⟨scope, hscope⟩ := Option.isSome_iff_exists.mp hscope
    rintro name p q rfl hnew
    rw [Client.take, hscope] at hnew
    exact not_mem_created_of_newGuard h.coherent.kept.system h.known hnew
  · obtain ⟨shard, op⟩ := step
    rintro access p name rfl
    exact hfetch.2
  · obtain ⟨shard, op⟩ := step
    obtain ⟨scope, hscope⟩ := Option.isSome_iff_exists.mp hscope
    rintro p rfl hdelete name access hheld
    rw [Client.take, hscope] at hdelete
    exact h.delete_refused hheld scope hdelete

/-- The answers tell nothing new when pages are flushed. -/
theorem take_flush (h : c.Attends capacity L) {step : Step} (hflush : step.op.Flushes) :
    (c.take step).state.Attends capacity L := by
  obtain ⟨shard, op⟩ := step
  unfold Client.take
  split
  · exact h
  · next scope _ =>
    cases op with
    | flush p =>
      exact ⟨h.coherent.flush p, (c.flush_still h.coherent.kept scope p).known h.known, h.live⟩
    | flushAll visit =>
      exact ⟨h.coherent.flushAll visit,
        (c.flushAll_still h.coherent.kept scope visit).known h.known, h.live⟩
    | _ => exact hflush.elim

/-- A guard shows what the answers tell of its page. -/
theorem result_readGuard (h : c.Attends capacity L) (scope : Scope l) (name : String) :
    (c.perform scope (.readGuard name)).result =
      match L.held name with
      | none => .ok (.noSuchSlot name)
      | some (p, _) => .ok (.bytes (L.bytes p)) := by
  cases hheld : L.held name with
  | none =>
    have hname : c.guards[name]? = none := by
      have hnamed := h.coherent.named name
      rw [hheld] at hnamed
      exact Option.map_eq_none_iff.mp hnamed.symm
    rw [perform, hname]
    rfl
  | some held =>
    obtain ⟨p, access⟩ := held
    exact congrArg Outcome.result
      (h.coherent.take_readGuard hheld (h.live.held name p access hheld))

/-- A pool that was just built is in keeping with an empty ledger. -/
theorem of_build {b : Blueprint} {built : AnyPool} (hbuild : b.build = .ok built)
    (hunloaded : b.Unloaded) {disk : Disk} (hdisk : ∀ p, disk.contents p = .zero)
    (durable : Option Lsn) : (built.start disk durable).Attends b.capacity .empty where
  coherent := .of_build hbuild hunloaded durable (fun p _ => hdisk p) (fun p _ _ => hdisk p)
    fun _ => rfl
  known := known_of_build hbuild hunloaded disk durable
  live := ⟨fun _ hp => absurd hp List.not_mem_nil, fun _ _ _ _ => List.not_mem_nil⟩

end Attends

/-- Clients that are told the same, but for bytes and dirty flags, have the same ledger. -/
theorem follow_eq_of_alike (h : c.Alike c') (L : Ledger) {step : Step} (hop : step.op.OnPool) :
    L.follow ⟨step, (c.take step).result⟩ = L.follow ⟨step, (c'.take step).result⟩ := by
  have hrecord := calc L.record ⟨step, (c.take step).result⟩
      _ = L.record ⟨step, (c.take step).result.map Reply.outline⟩ := (L.record_outline ..).symm
      _ = L.record ⟨step, (c'.take step).result.map Reply.outline⟩ :=
        congrArg (fun answer => L.record ⟨step, answer⟩) (take_alike h hop).result
      _ = L.record ⟨step, (c'.take step).result⟩ := L.record_outline ..
  unfold Ledger.follow
  rw [hrecord]

/-- The reads of two such histories show the same. -/
theorem sameReads_of_addsFlushes {allowed' : List Entry → Client l size → Step → Prop}
    {c₀ : Client l size} (h₀ : c₀.Alike c₀) (hstart : c₀.Attends capacity .empty)
    {log log' : List Entry} (hadds : AddsFlushes AnyAnswers log log')
    (h : History UsesGuards c₀ log c) (h' : History allowed' c₀ log' c') :
    AddsFlushes SameReads log log' := by
  -- the answers tell both clients the same because they are alike
  have hbeside := h.beside (P := fun log log' c c' => c.Alike c' ∧
    c.Attends capacity (.current log) ∧ c'.Attends capacity (.current log) ∧
      AddsFlushes SameReads log log') hadds h' ⟨h₀, hstart, hstart, .nil⟩ ?_ ?_
  · exact hbeside.2.2.2
  · intro log log' c c' step hbeside hstep
    obtain ⟨halike, hattends, hattends', hreads⟩ := hbeside
    obtain ⟨hscope, hop, hguards, hfetch⟩ := hstep
    have hnext' := hattends'.take hscope hguards hfetch
    rw [← follow_eq_of_alike halike _ hop] at hnext'
    rw [Ledger.current_concat]
    refine ⟨(take_alike halike hop).state, hattends.take hscope hguards hfetch, hnext',
      hreads.both step ?_⟩
    obtain ⟨shard, op⟩ := step
    obtain ⟨scope, hscope⟩ := Option.isSome_iff_exists.mp hscope
    rintro name rfl
    rw [take, take, hscope]
    exact (hattends.result_readGuard scope name).trans (hattends'.result_readGuard scope name).symm
  · intro log log' c c' step hbeside hflush
    obtain ⟨halike, hattends, hattends', hreads⟩ := hbeside
    exact ⟨(take_idle halike.symm hflush).symm, hattends, hattends'.take_flush hflush,
      hreads.flush step _ hflush⟩

/-! ## Flushing is invisible -/

/-- Two histories of a client that asks nothing of the disk past the pool, on any pool over a memory
without faults: the second has flushes put in. Then the pools are the same but for bytes, dirty
flags, contents of the disk, marks and writes, and so is every answer but for bytes and dirty flags.
The beginnings of histories are histories, so this is true all along. If besides the memory was
empty, and so was the pool, and the client works through guards and leaves deleted pages alone, then
guards show the same. -/
theorem flushing_invisible {b : Blueprint} {built : AnyPool} (hbuild : b.build = .ok built)
    (store : MemoryStore) (durable : Option Lsn) {log log' : List Entry}
    {c c' : Client built.layout built.size}
    (h : History OnPool (built.start (.onMedium (.memory store)) durable) log c)
    (h' : History OnPool (built.start (.onMedium (.memory store)) durable) log' c')
    (hadds : AddsFlushes AnyAnswers log log') :
    c.Alike c' ∧ AddsFlushes SameOutlines log log' ∧
      (∀ i, (c.system.pool.shard i).TellsAlike (c'.system.pool.shard i)) ∧
      (b.Unloaded → (∀ p, store.bytes p = .zero) →
        History UsesGuards (built.start (.onMedium (.memory store)) durable) log c →
          AddsFlushes SameReads log log') := by
  have hstart := alike_start built store durable
  obtain ⟨halike, houtlines⟩ := alike_of_addsFlushes hstart hadds h h'
  refine ⟨halike, houtlines, fun i => (halike.system.shard i).tells, ?_⟩
  intro hunloaded hempty hguards
  have hcontents : ∀ p, (Disk.onMedium (.memory store)).contents p = .zero := hempty
  have hattends := Attends.of_build hbuild hunloaded hcontents durable
  exact sameReads_of_addsFlushes hstart hattends hadds hguards h'

/-- With one frame: a page is written to, makes room for another and comes back. The second client
flushes it before, and all pages afterwards. -/
theorem flushing_invisible_one_frame : ∃ log log' c c',
    History UsesGuards
        ((AnyPool.fresh (.alone .whole) 1).start (.onMedium (.memory .empty)) none) log c ∧
      History OnPool
        ((AnyPool.fresh (.alone .whole) 1).start (.onMedium (.memory .empty)) none) log' c' ∧
      log'.map Entry.answer = [.ok (.newGuard ⟨0, by decide⟩ ⟨0, by decide⟩), .ok .nothing,
        .ok .nothing, .ok (.truth true), .ok (.newGuard ⟨1, by decide⟩ ⟨1, by decide⟩),
        .ok .nothing, .ok .done, .ok (.guarding ⟨0, by decide⟩),
        .ok (.bytes (.edit [.put 7 [42]] .zero))] ∧
      c.Alike c' ∧ AddsFlushes SameReads log log' := by
  obtain ⟨log, log', c, c', h, h', hadds, hanswers⟩ : ∃ log log' c c',
      History UsesGuards
          ((AnyPool.fresh (.alone .whole) 1).start (.onMedium (.memory .empty)) none) log c ∧
        History OnPool
          ((AnyPool.fresh (.alone .whole) 1).start (.onMedium (.memory .empty)) none) log' c' ∧
        AddsFlushes AnyAnswers log log' ∧
        log'.map Entry.answer = [.ok (.newGuard ⟨0, by decide⟩ ⟨0, by decide⟩), .ok .nothing,
          .ok .nothing, .ok (.truth true), .ok (.newGuard ⟨1, by decide⟩ ⟨1, by decide⟩),
          .ok .nothing, .ok .done, .ok (.guarding ⟨0, by decide⟩),
          .ok (.bytes (.edit [.put 7 [42]] .zero))] := by
    have hused : (⟨0, by decide⟩ : PageId) ∈ [⟨1, by decide⟩, (⟨0, by decide⟩ : PageId)] ∧
        (⟨0, by decide⟩ : PageId) ∉ ([] : List PageId) := by decide
    have h : History UsesGuards
      ((AnyPool.fresh (.alone .whole) 1).start (.onMedium (.memory .empty)) none) [] _ := .start
    have h := h.step ⟨none, .newGuard "a"⟩ ⟨rfl, trivial, trivial, trivial⟩
    have h := h.step ⟨none, .writeGuard "a" [.put 7 [42]]⟩ ⟨rfl, trivial, trivial, trivial⟩
    have h := h.step ⟨none, .dropGuard "a"⟩ ⟨rfl, trivial, trivial, trivial⟩
    have h := h.step ⟨none, .newGuard "b"⟩ ⟨rfl, trivial, trivial, trivial⟩
    have h := h.step ⟨none, .dropGuard "b"⟩ ⟨rfl, trivial, trivial, trivial⟩
    have h := h.step ⟨none, .fetchGuard .read ⟨0, by decide⟩ "a"⟩ ⟨rfl, trivial, trivial, hused⟩
    have h := h.step ⟨none, .readGuard "a"⟩ ⟨rfl, trivial, trivial, trivial⟩
    have h' : History OnPool
      ((AnyPool.fresh (.alone .whole) 1).start (.onMedium (.memory .empty)) none) [] _ := .start
    have h' := h'.step ⟨none, .newGuard "a"⟩ trivial
    have h' := h'.step ⟨none, .writeGuard "a" [.put 7 [42]]⟩ trivial
    have h' := h'.step ⟨none, .dropGuard "a"⟩ trivial
    have h' := h'.step ⟨none, .flush ⟨0, by decide⟩⟩ trivial
    have h' := h'.step ⟨none, .newGuard "b"⟩ trivial
    have h' := h'.step ⟨none, .dropGuard "b"⟩ trivial
    have h' := h'.step ⟨none, .flushAll .ascending⟩ trivial
    have h' := h'.step ⟨none, .fetchGuard .read ⟨0, by decide⟩ "a"⟩ trivial
    have h' := h'.step ⟨none, .readGuard "a"⟩ trivial
    refine ⟨_, _, _, _, h, h', ?_, rfl⟩
    refine .both (.both (.flush (.both (.both ?_ _ trivial) _ trivial) ⟨none, .flushAll _⟩ _
      trivial) _ trivial) _ trivial
    exact .flush (.both (.both (.both .nil _ trivial) _ trivial) _ trivial) ⟨none, .flush _⟩ _
      trivial
  have hbuild : Blueprint.build (.alone 1 1 0 none) = .ok (.fresh (.alone .whole) 1) := rfl
  have hpool : History OnPool _ log c :=
    (h.allowing (P := fun _ _ => True) trivial fun _ _ hstep => ⟨hstep.2.1, trivial⟩).1
  obtain ⟨halike, -, -, hreads⟩ := flushing_invisible hbuild .empty none hpool h' hadds
  exact ⟨log, log', c, c', h, h', hanswers, halike, hreads trivial MemoryStore.bytes_empty h⟩

/-- With one frame: a page that was written to is deleted, and fetched again. If it was flushed
before, it shows what was flushed. -/
theorem not_same_bytes_after_delete : ∃ log log' c c',
    History OnPool
        ((AnyPool.fresh (.alone .whole) 1).start (.onMedium (.memory .empty)) none) log c ∧
      History OnPool
        ((AnyPool.fresh (.alone .whole) 1).start (.onMedium (.memory .empty)) none) log' c' ∧
      AddsFlushes AnyAnswers log log' ∧
      ∃ k, c.system.bytes k ≠ c'.system.bytes k := by
  have h : History OnPool
    ((AnyPool.fresh (.alone .whole) 1).start (.onMedium (.memory .empty)) none) [] _ := .start
  have h := h.step ⟨none, .newGuard "a"⟩ trivial
  have h := h.step ⟨none, .writeGuard "a" [.fill 7]⟩ trivial
  have h := h.step ⟨none, .dropGuard "a"⟩ trivial
  have h := h.step ⟨none, .delete ⟨0, by decide⟩⟩ trivial
  have h := h.step ⟨none, .fetchGuard .read ⟨0, by decide⟩ "b"⟩ trivial
  have h' : History OnPool
    ((AnyPool.fresh (.alone .whole) 1).start (.onMedium (.memory .empty)) none) [] _ := .start
  have h' := h'.step ⟨none, .newGuard "a"⟩ trivial
  have h' := h'.step ⟨none, .writeGuard "a" [.fill 7]⟩ trivial
  have h' := h'.step ⟨none, .dropGuard "a"⟩ trivial
  have h' := h'.step ⟨none, .flush ⟨0, by decide⟩⟩ trivial
  have h' := h'.step ⟨none, .delete ⟨0, by decide⟩⟩ trivial
  have h' := h'.step ⟨none, .fetchGuard .read ⟨0, by decide⟩ "b"⟩ trivial
  refine ⟨_, _, _, _, h, h', ?_, ⟨⟨0, by decide⟩, ⟨0, by decide⟩, ⟨0, by decide⟩⟩, ?_⟩
  · refine .both (.both (.flush ?_ ⟨none, .flush _⟩ _ trivial) _ trivial) _ trivial
    exact .both (.both (.both .nil _ trivial) _ trivial) _ trivial
  · show Page.zero ≠ Page.edit [.fill 7] .zero
    rw [Page.edit_fill]
    intro hbytes
    exact absurd (Page.fill_injective hbytes) (by decide)

end Client

end PageCache
