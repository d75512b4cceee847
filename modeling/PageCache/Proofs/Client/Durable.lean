import PageCache.Proofs.Client.Transparent
import PageCache.Store.Volume

/-!
# What outlives a session

When nobody holds a guard any more and every page was flushed, the disk has all there is to have: a
pool that is built on it in the next session, of whatever size and with whatever shards, shows the
same bytes (`Client.pages_survive`). Three things come together here.

* A flush of everything leaves nothing dirty, so the accounts of the pages say what the disk has
  (`Client.Coherent.contents_flushAll`).
* A disk is mounted again with its pages as they were (`Volume.mount_ofDisk`).
* A fetch finds a frame as long as nobody holds anything, and a disk without faults has every page
  whole (`Client.Coherent.result_fetchGuard`).
-/

namespace PageCache

/-! ## Volumes -/

/-- Nothing was written to the volume, or all of it goes when a file is created there. -/
def Volume.Blank : Volume → Prop
  | memory disk => disk.medium = .memory .empty
  | directory _ => True

/-- What is mounted of a blank volume reads as zeros. -/
theorem Volume.mount_of_blank {v : Volume} {disk : Disk} (h : v.Blank)
    (hmount : v.mount ⟨true, .pageFile⟩ = .ok disk) :
    (∀ p, disk.contents p = .zero) ∧ disk.medium.Whole := by
  cases v with
  | memory d =>
    have hmedium : d.medium = .memory .empty := h
    obtain rfl := Except.ok.inj hmount
    rw [Disk.contents, hmedium]
    exact ⟨MemoryStore.bytes_empty, trivial⟩
  | directory image =>
    have hdisk : disk = .onMedium (.file ⟨.empty, ∅⟩) := by
      cases image <;> exact (Except.ok.inj hmount).symm
    rw [hdisk]
    exact ⟨fun p => Image.empty.block_of_size_le (Nat.zero_le (p.val * _)), Nat.dvd_zero _⟩

/-- What is left of a disk can be mounted, and has every page it had. -/
theorem Volume.mount_ofDisk (d : Disk) :
    ∃ d', (Volume.ofDisk d).mount ⟨false, .pageFile⟩ = .ok d' ∧ d'.contents = d.contents ∧
      (d.medium.Whole → d'.medium.Whole) := by
  rw [Volume.ofDisk]
  cases hmedium : d.medium with
  | memory m => exact ⟨d, rfl, rfl, fun h => hmedium ▸ h⟩
  | file store =>
    refine ⟨.onMedium (.file ⟨store.image, ∅⟩), rfl, ?_, id⟩
    rw [Disk.contents, Disk.contents, hmedium]
    rfl

/-! ## Sessions that only look -/

/-- Pages are looked at through guards, and not changed. -/
def Op.Looks : Op → Prop
  | .fetchGuard .read _ _ | .readGuard _ | .dropGuard _ => True
  | .flush _ | .flushAll _ => True
  | .capacity | .shardCount | .shardFacts | .pins _ => True
  | _ => False

theorem Op.Looks.throughGuards {op : Op} (h : op.Looks) : op.ThroughGuards := by
  cases op with
  | fetchGuard | readGuard | dropGuard | flush | flushAll => trivial
  | capacity | shardCount | shardFacts | pins => trivial
  | _ => exact h.elim

namespace Ledger

/-- The ledger of a session in which pages are only looked at: that of the session before, but for
the guards. -/
def reopened (L : Ledger) (held : String → Option (PageId × Access)) : Ledger :=
  { L with held }

/-- Looking at pages changes the guards that the ledger has, and nothing else in it. -/
theorem record_reopened (L L' : Ledger) {entry : Entry} (h : entry.step.op.Looks) :
    (L.reopened L'.held).record entry = L.reopened (L'.record entry).held := by
  obtain ⟨⟨shard, op⟩, answer⟩ := entry
  cases op with
  | fetchGuard access p name =>
    cases access with
    | write => exact h.elim
    | read =>
      rcases answer with e | reply
      · rfl
      · cases reply <;> rfl
  | dropGuard name =>
    rcases answer with e | reply
    · rfl
    · cases reply <;> rfl
  | readGuard | flush | flushAll | capacity | shardCount | shardFacts | pins => rfl
  | _ => exact h.elim

end Ledger

namespace Client

variable {l : Layout} {size : Nat} {capacity : Nat} {c : Client l size} {L : Ledger}

/-- The step goes to a shard that exists, looks at pages without changing them, and fetches only
pages of which `L` tells that they were created. -/
def Rereads (L : Ledger) (_ : List Entry) (_ : Client l size) (step : Step) : Prop :=
  (l.scope? step.shard).isSome ∧ step.op.Looks ∧ step.op.FetchesCreated L

/-- Page `p` can be fetched. -/
def CanFetch (c : Client l size) (p : PageId) : Prop :=
  ∀ name, (c.take ⟨none, .fetchGuard .read p name⟩).result = .ok (.guarding p)

/-- If page `p` is fetched, the guard shows `page`. -/
def Shows (c : Client l size) (p : PageId) (page : Page) : Prop :=
  ∀ name, (c.take ⟨none, .fetchGuard .read p name⟩).result = .ok (.guarding p) →
    ((c.take ⟨none, .fetchGuard .read p name⟩).state.take ⟨none, .readGuard name⟩).result =
      .ok (.bytes page)

theorem noTakeover_of_looks (log : List Entry) (c : Client l size) {step : Step}
    (h : step.op.Looks) : NoTakeover log c step := by
  obtain ⟨shard, op⟩ := step
  intro o k ho
  cases op with
  | newPage | newGuard => exact h.elim
  | _ => exact absurd ho (by simp [creation?])

/-- Whatever the faults of a disk, a pool writes whole pages to it. -/
theorem whole_of_history {c₀ : Client l size} {log : List Entry} (h₀ : c₀.Kept capacity)
    (hknown₀ : c₀.system.view.Known []) (hwhole₀ : c₀.system.disk.medium.Whole)
    (h : History GuardBased c₀ log c) : c.system.disk.medium.Whole :=
  medium_of_history Disk.whole_of_serves h₀ hknown₀ hwhole₀ h

namespace Coherent

/-- One more step that only looks. -/
theorem take_of_looks (h : c.Coherent capacity L) {step : Step}
    (hscope : (l.scope? step.shard).isSome) (hlooks : step.op.Looks)
    (hcreated : step.op.FetchesCreated L) :
    (c.take step).state.Coherent capacity (L.record ⟨step, (c.take step).result⟩) ∧
      Serves c.system.disk (c.take step).state.system.disk := by
  refine ⟨h.take step hscope hlooks.throughGuards hcreated fun name hop => ?_, ?_⟩
  · exact (hop ▸ hlooks : (Op.newGuard name).Looks).elim
  · refine (keeps_take h.kept step (noTakeover_of_looks [] c hlooks)).serves fun op hop => ?_
    exact (hop ▸ hlooks : (Op.disk op).Looks).elim

/-- In a session that only looks, pages go on to show what the last session left. -/
theorem of_rereads {c₀ : Client l size} {log : List Entry}
    (h₀ : c₀.Coherent capacity (L.reopened fun _ => none)) (h : History (Rereads L) c₀ log c) :
    c.Coherent capacity (L.reopened (Ledger.ofLog log).held) ∧
      Serves c₀.system.disk c.system.disk := by
  refine h.keeps (P := fun log c => c.Coherent capacity (L.reopened (Ledger.ofLog log).held) ∧
    Serves c₀.system.disk c.system.disk) ⟨h₀, .refl⟩ ?_
  rintro log c step ⟨hcoherent, hserves⟩ ⟨hscope, hlooks, hcreated⟩
  obtain ⟨htaken, hserved⟩ := hcoherent.take_of_looks hscope hlooks hcreated
  rw [Ledger.ofLog_concat, ← Ledger.record_reopened L _ hlooks]
  exact ⟨htaken, hserves.trans hserved⟩

/-! ## Flushing everything -/

theorem held_eq_nil (h : c.Coherent capacity L) (hnobody : ∀ name, L.held name = none) :
    held c.guards = [] :=
  PageCache.held_eq_nil fun name =>
    Option.map_eq_none_iff.mp ((h.named name).symm.trans (hnobody name))

/-- When nobody holds a guard and everything was flushed, the disk has what the pages have to
show. -/
theorem contents_flushAll (h : c.Coherent capacity L) (hnobody : ∀ name, L.held name = none)
    {visit : Visit} (hok : (c.take ⟨none, .flushAll visit⟩).result = .ok .done) {p : PageId}
    (hcreated : p ∈ L.created) (hdeleted : p ∉ L.deleted) :
    (c.take ⟨none, .flushAll visit⟩).state.system.disk.contents p = L.bytes p := by
  have hresult : (c.system.flushAll visit).result = .ok () := by
    have hok : (c.system.flushAll visit).result.map (fun _ => Reply.done) = .ok .done := hok
    cases hresult : (c.system.flushAll visit).result with
    | error e =>
      rw [hresult] at hok
      exact absurd hok (by simp [Except.map])
    | ok _ => rfl
  obtain ⟨ms, -, -, hclean⟩ := System.flushAll_runs visit h.kept.system
  have hflushed : (c.flushAll .whole visit).state.Coherent capacity L := h.flushAll visit
  refine (hflushed.accounts p).stored_eq ?_ (hclean hresult p) hcreated hdeleted
  show grips (held _) p = []
  rw [hflushed.held_eq_nil hnobody]
  rfl

/-! ## Fetching -/

/-- Where nobody holds a guard, no page has a pin. -/
theorem pins_eq_zero (h : c.Coherent capacity L) (hnobody : ∀ name, L.held name = none)
    {i : Fin l.width} {p : PageId} {f : Fin size}
    (hp : (c.system.pool.shard i).table[p]? = some f) :
    ((c.system.pool.shard i).frame f).pins = 0 := by
  have hplace : c.system.view.slot p = some (f, (c.system.pool.shard i).frame f) :=
    (System.slot_view ((h.kept.system i).owned hp)).trans (Shard.slot_of_table hp)
  have hpins := (h.accounts p).pins hplace
  rw [h.held_eq_nil hnobody] at hpins
  exact hpins

/-- A page can be fetched where the disk does what it is asked to and the shard has room. -/
theorem canFetch (h : c.Coherent capacity L) (hnobody : ∀ name, L.held name = none)
    (hdisk : Reliable c.system.disk) {p : PageId} (howns : (l.stripe (l.route p)).Owns p)
    (hroom : (c.system.pool.shard (l.route p)).HasRoom) : c.CanFetch p := by
  intro name
  have hmax : 0 < Frame.maxPins := by decide
  obtain ⟨f, hf⟩ := Backed.result_fetch (w := c.system.backed (l.route p)) (h.kept.system _) hdisk
    hroom howns fun hp => h.pins_eq_zero hnobody hp ▸ hmax
  let k : Handle l size := ⟨p, l.route p, f⟩
  have hfetched : (c.fetchHandle .whole p).result = .ok k := by
    show (Backed.fetch _ _ p).result.map _ = _
    rw [hf]
    rfl
  have hkept := (c.fetchHandle_keeps h.kept .whole p).1
  have hheld := (hold_still hkept name (g := ⟨k, .read, false⟩) howns).2
  show (c.perform .whole (.fetchGuard .read p name)).result = _
  rw [Client.perform, Outcome.andThen_of_ok hfetched]
  simp only [Outcome.result_after, Outcome.result_map, hheld]
  rfl

/-- A page that was created and not deleted shows what the ledger has of it. -/
theorem shows (h : c.Coherent capacity L) {p : PageId} (hcreated : p ∈ L.created)
    (hdeleted : p ∉ L.deleted) : c.Shows p (L.bytes p) := by
  intro name hok
  have htaken := h.take ⟨none, .fetchGuard .read p name⟩ rfl trivial hcreated
    fun _ hop => absurd hop (by simp)
  rw [hok] at htaken
  exact congrArg Outcome.result (htaken.take_readGuard (Function.update_self ..) hdeleted)

end Coherent

/-- A pool that was just built has room in every shard, if it has frames at all. -/
theorem hasRoom_of_build {b : Blueprint} {built : AnyPool} (hbuild : b.build = .ok built)
    (hunloaded : b.Unloaded) (hsize : 0 < built.size) (disk : Disk) (durable : Option Lsn)
    (i : Fin built.layout.width) :
    ((built.start disk durable).system.pool.shard i).HasRoom := by
  show (built.pool.shard i).HasRoom
  rw [Blueprint.shard_of_build hbuild hunloaded i]
  exact .inl (List.ne_nil_of_mem (List.mem_finRange ⟨0, hsize⟩))

/-! ## The next session -/

/-- Over a disk in memory that is still empty, or a file that was just created, take any history of
a client that works through guards and fetches created pages only, whatever the faults of the disk,
and let it end with no guard held and a flush of everything that succeeded. What is left of the disk
can be mounted again, and on any pool that is built on it, of any size and with any shards, and
however pages have been looked at there, a page that was created in the first session and not
deleted shows what was last written to it, or zeros. As long as nobody holds a guard it can be
fetched: from the start, and at any time if the recency lists have room for every frame. -/
theorem pages_survive {b : Blueprint} {built : AnyPool} (hbuild : b.build = .ok built)
    (hunloaded : b.Unloaded) {v : Volume} (hblank : v.Blank) {disk : Disk}
    (hmount : v.mount ⟨true, .pageFile⟩ = .ok disk) {durable : Option Lsn} {log : List Entry}
    {visit : Visit} {c : Client built.layout built.size}
    (h : History GuardBased (built.start disk durable)
      (log ++ [⟨⟨none, .flushAll visit⟩, .ok .done⟩]) c)
    (hnobody : ∀ name, (Ledger.ofLog log).held name = none) :
    ∃ disk', (Volume.ofDisk c.system.disk).mount ⟨false, .pageFile⟩ = .ok disk' ∧
      ∀ {b' : Blueprint} {built' : AnyPool}, b'.build = .ok built' → b'.Unloaded →
      ∀ {durable' : Option Lsn} {log' : List Entry} {c' : Client built'.layout built'.size},
      History (Rereads (.ofLog log)) (built'.start { disk' with faults := .none } durable')
        log' c' →
      ∀ {p : PageId}, p ∈ (Ledger.ofLog log).created → p ∉ (Ledger.ofLog log).deleted →
        c'.Shows p ((Ledger.ofLog log).bytes p) ∧
          (0 < built'.size → (built'.layout.stripe (built'.layout.route p)).Owns p →
            (∀ name, (Ledger.ofLog log').held name = none) →
            (log' = [] ∨ built'.size ≤ b'.capacity) → c'.CanFetch p) := by
  obtain ⟨hzero, hwhole₀⟩ := Volume.mount_of_blank hblank hmount
  have hwhole := whole_of_history (kept_of_build hbuild hunloaded disk durable)
    (known_of_build hbuild hunloaded disk durable) hwhole₀ h
  -- the state before the last flush is the one nobody holds a guard in
  obtain ⟨c₁, h₁, -, hok, rfl⟩ := h.of_concat
  have hcoherent := coherent_of_build hbuild hunloaded hzero durable h₁
  obtain ⟨disk', hmount', hcontents, hwhole'⟩ := Volume.mount_ofDisk (c₁.take _).state.system.disk
  refine ⟨disk', hmount', ?_⟩
  intro b' built' hbuild' hunloaded' durable' log' c' h' p hcreated hdeleted
  -- the second session starts with the ledger of the first, but for the guards
  have hstart : (built'.start { disk' with faults := .none } durable').Coherent b'.capacity
      ((Ledger.ofLog log).reopened fun _ => none) := by
    refine .of_build hbuild' hunloaded' durable' (fun p hp => ?_) (fun p hp hp' => ?_) fun _ => rfl
    · have hflushed : (c₁.flushAll .whole visit).state.Coherent b.capacity (.ofLog log) :=
        hcoherent.flushAll visit
      exact (congrFun hcontents p).trans ((hflushed.accounts p).pristine hp)
    · exact (congrFun hcontents p).trans (hcoherent.contents_flushAll hnobody hok hp hp')
  obtain ⟨hcoherent', hserves⟩ := Coherent.of_rereads hstart h'
  refine ⟨hcoherent'.shows hcreated hdeleted, fun hsize howns hnobody' hroom => ?_⟩
  have hreliable : Reliable ({ disk' with faults := .none } : Disk) :=
    Disk.reliable_of_whole (d := { disk' with faults := .none }) rfl (hwhole' hwhole)
  refine hcoherent'.canFetch hnobody' (hreliable.serves hserves) howns ?_
  -- a pool that is new has all its frames free; later it takes a recency list that forgets nobody
  rcases hroom with rfl | hcapacity
  · obtain rfl := h'.eq_of_nil
    exact hasRoom_of_build hbuild' hunloaded' hsize _ durable' _
  · exact (hcoherent'.kept.system _).hasRoom hcapacity ⟨0, hsize⟩ fun q hq =>
      hcoherent'.pins_eq_zero hnobody' hq

/-- With two shards of one frame over a new file: page `0` is written to, makes room for page `2`,
and is read back by a pool of one shard when the file is opened again. -/
theorem pages_survive_two_shards :
    ∃ (log : List Entry) (c : Client (.split 2 (by decide) (by decide)) 1) (disk : Disk),
    History GuardBased
        ((AnyPool.fresh (.split 2 (by decide) (by decide)) 1).start
          (.onMedium (.file ⟨.empty, ∅⟩)) none) log c ∧
      log.map Entry.answer = [.ok (.newGuard ⟨0, by decide⟩ ⟨0, by decide⟩), .ok .nothing,
        .ok .nothing, .ok (.newGuard ⟨1, by decide⟩ ⟨1, by decide⟩), .ok .nothing,
        .ok (.newGuard ⟨2, by decide⟩ ⟨2, by decide⟩), .ok .nothing, .ok .done] ∧
      (Volume.ofDisk c.system.disk).mount ⟨false, .pageFile⟩ = .ok disk ∧
      ((AnyPool.fresh (.alone .whole) 1).start { disk with faults := .none } none).CanFetch
        ⟨0, by decide⟩ ∧
      ((AnyPool.fresh (.alone .whole) 1).start { disk with faults := .none } none).Shows
        ⟨0, by decide⟩ (.edit [.put 7 [42]] .zero) := by
  have h : History GuardBased
      ((AnyPool.fresh (.split 2 (by decide) (by decide)) 1).start
        (.onMedium (.file ⟨.empty, ∅⟩)) none) [] _ := .start
  have h := h.step ⟨none, .newGuard "a"⟩ ⟨rfl, trivial, trivial⟩
  have h := h.step ⟨none, .writeGuard "a" [.put 7 [42]]⟩ ⟨rfl, trivial, trivial⟩
  have h := h.step ⟨none, .dropGuard "a"⟩ ⟨rfl, trivial, trivial⟩
  have h := h.step ⟨none, .newGuard "a"⟩ ⟨rfl, trivial, trivial⟩
  have h := h.step ⟨none, .dropGuard "a"⟩ ⟨rfl, trivial, trivial⟩
  have h := h.step ⟨none, .newGuard "a"⟩ ⟨rfl, trivial, trivial⟩
  have h := h.step ⟨none, .dropGuard "a"⟩ ⟨rfl, trivial, trivial⟩
  have hflushed := h.step ⟨none, .flushAll .ascending⟩ ⟨rfl, trivial, trivial⟩
  have hbuild : Blueprint.build (.split 1 2) =
      .ok (.fresh (.split 2 (by decide) (by decide)) 1) := rfl
  have hbuild' : Blueprint.build (.alone 1 1 0 none) = .ok (.fresh (.alone .whole) 1) := rfl
  have hmount : (Volume.directory none).mount ⟨true, .pageFile⟩ =
      .ok (.onMedium (.file ⟨.empty, ∅⟩)) := rfl
  have hblank : (Volume.directory none).Blank := trivial
  obtain ⟨disk, hmount', hsurvive⟩ := pages_survive hbuild trivial hblank hmount hflushed
    fun name => by
      -- there is one name, and its last guard was dropped
      show Function.update (Function.update (Function.update (Function.update (Function.update
        (Function.update (fun _ => none) "a" _) "a" none) "a" _) "a" none) "a" _) "a" none name =
          none
      rw [Function.update_idem, Function.update_idem, Function.update_idem, Function.update_idem,
        Function.update_idem]
      exact congrFun (Function.update_eq_self "a" fun _ => none) name
  obtain ⟨hshows, hfetch⟩ := hsurvive hbuild' trivial
    (show History _ (AnyPool.start _ { disk with faults := .none } none) [] _ from .start)
    (show (⟨0, by decide⟩ : PageId) ∈ (Ledger.ofLog _).created from
      List.mem_cons_of_mem _ (List.mem_cons_of_mem _ List.mem_cons_self)) List.not_mem_nil
  have hcanFetch := hfetch Nat.one_pos (Stripe.owns_whole _) (fun _ => rfl) (.inl rfl)
  exact ⟨_, _, disk, hflushed, rfl, hmount', hcanFetch, hshows⟩

end Client

end PageCache
