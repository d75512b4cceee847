import PageCache.CommandLine.Program
import PageCache.Proofs.Pool.Build
import PageCache.Proofs.Store.Agreement
import PageCache.Proofs.Store.Readable
import PageCache.Proofs.Workload.Schedules
import PageCache.Proofs.Workload.Turns

/-!
# What workers deliver

Workers take turns as they like, on a pool over a medium that nobody has used before. Nobody ever
meets any trouble, and when all are done and the pool is flushed, every page that was created shows
its id and how often it was stamped (`workload_delivers`). If each shard has a frame for every
worker, nobody was turned away, and the pages are numbered without a gap. So the program, in which
they take turns in rounds, ends well (`execute_finished`).
-/

namespace PageCache

/-! ## Media that nobody has used -/

namespace Medium

/-- Nothing in memory, or a page file that was just made. -/
def New : Medium → Prop
  | memory m => m = .empty
  | file f => ∃ target, FileStore.create target = .ok f

variable {m : Medium}

/-- On a medium that is new nothing has been written. -/
theorem New.follows (h : m.New) : m.Follows [] := by
  cases m with
  | memory m =>
    obtain rfl : m = .empty := h
    exact follows_empty
  | file f =>
    obtain ⟨target, hcreate⟩ := h
    exact (follows_create hcreate).2

theorem New.fresh (h : m.New) : (Disk.onMedium m).Fresh :=
  ⟨rfl, h.follows.whole, h.follows.contents⟩

theorem New.extent (h : m.New) (S : PageId → Prop) : m.Extent S := by
  cases m with
  | memory m => trivial
  | file f =>
    obtain ⟨target, hcreate⟩ := h
    exact .inl (congrArg Image.size (follows_create hcreate).1)

end Medium

/-! ## The start -/

/-- Nothing was done to the pages of a pool that was just built. -/
theorem System.Tended.of_build {b : Blueprint} {built : AnyPool} (hbuild : b.build = .ok built)
    (hunloaded : b.Unloaded) (hcomplete : built.layout.Complete) {disk : Disk}
    (hdisk : disk.Fresh) :
    (⟨built.pool, disk⟩ : System built.layout built.size Disk).Tended b.capacity disk [] [] where
  kept := Blueprint.kept_of_build hbuild hunloaded disk
  reliable := Disk.reliable_of_whole hdisk.faults hdisk.whole
  served := .refl
  coherent p := .of_place_none (Blueprint.slot_of_build hbuild hunloaded disk p) rfl
    (fun _ => hdisk.contents p) fun hp => absurd hp List.not_mem_nil
  unused_iff p := by
    have hnumbered := System.Numbered.of_build hbuild hunloaded hcomplete disk
    exact iff_of_true ((hnumbered.unused_iff p).mpr (Nat.zero_le _)) List.not_mem_nil
  counted := counted_of_build hbuild disk
  inOrder _ hp := absurd hp List.not_mem_nil
  nodup := List.nodup_nil

namespace Workload

section Start

variable {l : Layout} {size : Nat} {δ : Type} [PageStore δ] [LawfulStore δ] {capacity : Nat}
variable {origin : δ} {system : System l size δ}

/-- Before the first turn no stamp is due. -/
theorem Sound.start (h : system.Tended capacity origin [] []) (workers jobs : Nat) :
    Sound capacity origin (workers * jobs) (State.start system workers jobs)
      (State.start system workers jobs).workers.toList [] := by
  have hworkers : (State.start system workers jobs).workers.toList =
      List.replicate workers ⟨jobs, .ready⟩ := Array.toList_replicate
  have hready {worker : Worker l size} (hworker : worker ∈ List.replicate workers ⟨jobs, .ready⟩) :
      worker = ⟨jobs, .ready⟩ := List.eq_of_mem_replicate hworker
  have hguards : (List.replicate workers ⟨jobs, .ready⟩).filterMap
      (Worker.guard? : Worker l size → _) = [] := List.filterMap_replicate_of_none rfl
  have huntold : (List.replicate workers ⟨jobs, .ready⟩).filterMap
      (Worker.untold? : Worker l size → _) = [] := List.filterMap_replicate_of_none rfl
  rw [hworkers]
  refine ⟨hguards ▸ h, fun worker hworker => ?_, fun worker hworker => ?_, ?_,
    fun p hp => absurd hp (by simp [State.start]), rfl, ?_, ?_⟩
  · rw [hready hworker]
    trivial
  · rw [hready hworker]
    exact absurd rfl
  · rw [huntold]
    rfl
  · rw [List.map_replicate, List.sum_replicate_nat]
    exact Nat.zero_add _
  · rw [List.map_replicate, List.sum_replicate_nat]
    exact Nat.le_of_eq (Nat.zero_add _)

omit [PageStore δ] [LawfulStore δ] in
/-- Before the first turn nobody has been turned away, and no turn was drawn. -/
theorem Unhindered.start (hcursor : system.pool.cursor = l.first) {workers : Nat} (jobs : Nat)
    (hfew : workers ≤ size) : Unhindered (State.start system workers jobs)
      (State.start system workers jobs).workers.toList [] 0 := by
  have hworkers : (State.start system workers jobs).workers.toList =
      List.replicate workers ⟨jobs, .ready⟩ := Array.toList_replicate
  have hturns : (List.replicate workers ⟨jobs, .ready⟩).filterMap
      (Worker.turn? : Worker l size → _) = [] := List.filterMap_replicate_of_none rfl
  rw [hworkers]
  refine ⟨?_, ?_, rfl, fun worker hworker => ?_, ?_⟩
  · rw [List.length_replicate]
    exact hfew
  · show system.pool.cursor.val = 0 % l.width
    rw [hcursor, Nat.zero_mod]
    rfl
  · rw [List.eq_of_mem_replicate hworker]
    simp
  · rw [hturns]
    rfl

end Start

/-! ## The end -/

variable {l : Layout} {size : Nat} {capacity total k : Nat} {origin : Disk} {w : State l size Disk}
variable {past : List Deed}

/-- `total` jobs are done, `past` is what was done to the pages, and `flushed` is what came of
writing them back. -/
structure Settled (total : Nat) (past : List Deed) (w : State l size Disk)
    (flushed : Outcome (System l size Disk) Unit) : Prop where
  jobs : w.tally.created + w.tally.visited + w.tally.poolFull = total
  tally_created : w.tally.created = w.known.size
  known : w.known.toList.Perm (created past)
  nodup : w.known.toList.Nodup
  written : flushed.result = .ok ()
  /-- A page that was created shows its id, then how often it was stamped, then zeros. -/
  stamped : ∀ p ∈ w.known, 1 ≤ stampsOn past p ∧ stampsOn past p ≤ total ∧
    ∃ page, flushed.state.disk.Reads p page ∧
      page.toList = LittleEndian.encode 4 p.val ++
        (LittleEndian.encode 8 (stampsOn past p) ++ List.replicate (pageSize - 12) 0)
  blank : ∀ p, p ∉ w.known → flushed.state.disk.Reads p .zero

/-- Nobody was turned away, and the pages that were created come first and without a gap. The disk
was `origin` in the beginning. -/
structure Gapless (origin : Disk) (w : State l size Disk)
    (flushed : Outcome (System l size Disk) Unit) : Prop where
  poolFull : w.tally.poolFull = 0
  mem_known_iff : ∀ p, p ∈ w.known ↔ p.val < w.tally.created
  /-- A page file has one page for each page that was created. -/
  fileSize : flushed.state.disk.medium.fileSize? =
    origin.medium.fileSize?.map fun _ => w.tally.created * pageSize

/-- A page that is known has been stamped. -/
theorem Sound.stampsOn_ne_zero (h : Sound capacity origin total w w.workers.toList past)
    {p : PageId} (hp : p ∈ w.known) : stampsOn past p ≠ 0 := by
  rw [Ne, stampsOn_eq_zero_iff]
  exact not_not_intro (h.stamped p (Array.mem_toList_iff.mpr hp))

/-- There were no more stamps than jobs. -/
theorem Sound.stampsOn_le (h : Sound capacity origin total w w.workers.toList past) (p : PageId) :
    stampsOn past p ≤ total :=
  calc stampsOn past p
      _ ≤ stampsIn past := Workload.stampsOn_le past p
      _ ≤ total := Nat.le_trans (Nat.le_add_right ..) h.stamps

/-- When all workers are done, a flush brings the stamps to the disk, and the tally is right. -/
theorem Sound.settled (h : Sound capacity origin total w w.workers.toList past)
    (hfinished : w.finished = true) (hwhole : origin.medium.Whole) (htotal : total < UInt64.size)
    (visit : Visit) : Settled total past w (w.system.flushAll visit) := by
  obtain ⟨htended, hknown, hjobs⟩ := h.of_finished hfinished
  obtain ⟨hok, hserved, hcontents⟩ := htended.contents_flushAll visit
  have hwhole' := Disk.whole_of_serves hserved.serves hwhole
  have hreads (p : PageId) :
      (w.system.flushAll visit).state.disk.Reads p (.stamps p (stampsOn past p)) := by
    rw [← hcontents p]
    exact Disk.reads_contents (Medium.result_read_of_whole hwhole') p
  refine ⟨hjobs, h.tally_created, hknown, hknown.nodup_iff.mpr htended.nodup, hok,
    fun p hp => ?_, fun p hp => ?_⟩
  · have hstamped := h.stampsOn_ne_zero hp
    exact ⟨Nat.pos_of_ne_zero hstamped, h.stampsOn_le p, _, hreads p,
      Page.toList_stamps p hstamped (Nat.lt_of_le_of_lt (h.stampsOn_le p) htotal)⟩
  · -- a page that was never created was never stamped
    have hnever : stampsOn past p = 0 := by
      rw [stampsOn_eq_zero_iff]
      intro hstamped
      exact hp (Array.mem_toList_iff.mp (hknown.mem_iff.mpr (htended.inOrder p hstamped)))
    have hread := hreads p
    rwa [hnever, Page.stamps_zero] at hread

/-- When all workers are done, and there was a frame for each, the pages are those from the first
on, without a gap. -/
theorem Unhindered.gapless (h : Unhindered w w.workers.toList past k)
    (hsound : Sound capacity origin total w w.workers.toList past) (hfinished : w.finished = true)
    (hcomplete : l.Complete) (hwhole : origin.medium.Whole)
    (hextent : origin.medium.Extent (· ∈ created past)) (htotal : total < UInt32.size)
    (visit : Visit) : Gapless origin w (w.system.flushAll visit) := by
  obtain ⟨htended, hknown, hjobs⟩ := hsound.of_finished hfinished
  obtain ⟨-, hserved, hcontents⟩ := htended.contents_flushAll visit
  have hturns := h.of_finished hsound hfinished
  have hlength : w.tally.created = k := by
    have hlength := hturns.length_eq
    rw [List.length_map, List.length_map, List.length_range, ← hknown.length_eq,
      Array.length_toList] at hlength
    exact hsound.tally_created.trans hlength
  have hmem (p : PageId) : p ∈ created past ↔ p.val < w.tally.created := by
    rw [hlength]
    exact htended.mem_created_iff_lt hcomplete hturns p
  have hmem_known (p : PageId) : p ∈ w.known ↔ p.val < w.tally.created := by
    rw [← hmem p, ← hknown.mem_iff, Array.mem_toList_iff]
  refine ⟨h.poolFull, hmem_known, ?_⟩
  -- a page that was created has a stamp, so the file does not end before it
  have hshown (p : PageId) (hp : p ∈ created past) :
      (w.system.flushAll visit).state.disk.medium.contents p ≠ .zero := by
    have hstamps : (w.system.flushAll visit).state.disk.medium.contents p =
        .stamps p (stampsOn past p) := hcontents p
    rw [hstamps]
    exact Page.stamps_ne_zero p (hsound.stampsOn_ne_zero ((hmem_known p).mpr ((hmem p).mp hp)))
      (Nat.lt_trans (Nat.lt_of_le_of_lt (hsound.stampsOn_le p) htotal) (by decide))
  have hcount : w.tally.created ≤ UInt32.size := by
    rw [Tally.total] at hjobs
    omega
  have hkind := Disk.isSome_fileSize?_of_servesOnly hserved
  have hextent' := Disk.extent_of_servesOnly hserved hextent
  have hwhole' := Disk.whole_of_serves hserved.serves hwhole
  cases hmedium : (w.system.flushAll visit).state.disk.medium with
  | memory m =>
    rw [hmedium, Medium.fileSize?, Option.isSome_none, eq_comm, Option.isSome_eq_false_iff,
      Option.isNone_iff_eq_none] at hkind
    rw [hkind]
    rfl
  | file f =>
    rw [hmedium] at hkind hextent' hwhole' hshown
    obtain ⟨n, hn⟩ := Option.isSome_iff_exists.mp hkind.symm
    rw [hn]
    exact congrArg some (FileStore.size_eq_of_extent hextent' hwhole' hmem hcount hshown)

/-- A page file without a gap is all stamped pages, and stands up to an audit. -/
theorem Settled.audit {flushed : Outcome (System l size Disk) Unit}
    (h : Settled total past w flushed) (hgapless : Gapless origin w flushed)
    (htotal : total < UInt32.size) {f : FileStore}
    (hfile : flushed.state.disk.medium = .file f) :
    f.image.wholePages = true ∧ f.image.pages = w.tally.created ∧ f.image.allStamped = true := by
  have hsize : f.image.size = w.tally.created * pageSize := by
    have hfileSize := hgapless.fileSize
    rw [hfile, eq_comm, Medium.fileSize?, Option.map_eq_some_iff] at hfileSize
    obtain ⟨-, -, hsize⟩ := hfileSize
    exact hsize.symm
  have hpages : f.image.pages = w.tally.created := by
    rw [Image.pages, hsize, Nat.mul_div_cancel _ pageSize_pos]
  refine ⟨?_, hpages, ?_⟩
  · rw [Image.wholePages, hsize, Nat.mul_mod_left]
    rfl
  · rw [Image.allStamped, List.all_eq_true, hpages]
    intro k hk
    rw [List.mem_range] at hk
    -- there are no more pages than jobs, so the block has an id
    have hid : k < UInt32.size := by
      have hjobs := h.jobs
      omega
    have hp : (⟨k, hid⟩ : PageId) ∈ w.known := (hgapless.mem_known_iff _).mpr hk
    obtain ⟨hpos, hle, page, hreads, hbytes⟩ := h.stamped _ hp
    have hcount : stampsOn past ⟨k, hid⟩ < UInt64.size :=
      Nat.lt_trans (Nat.lt_of_le_of_lt hle htotal) (by decide)
    have hne : stampsOn past ⟨k, hid⟩ ≠ 0 := Nat.ne_of_gt hpos
    -- the bytes that were read are those of the stamps
    have hpage : page = .stamps ⟨k, hid⟩ (stampsOn past ⟨k, hid⟩) :=
      Page.toList_injective (hbytes.trans (Page.toList_stamps _ hne hcount).symm)
    have hblock : f.image.block k = page := by
      have hcontents := hreads.contents_eq
      rw [Disk.contents, hfile] at hcontents
      exact hcontents
    rw [Image.stampedAt, PageId.ofNat?_eq_some_iff.mpr (rfl : (⟨k, hid⟩ : PageId).val = k), hblock,
      hpage]
    simp only [Page.stampCount_stamps _ hcount, ← Page.stamps_eq _ hne hcount, decide_true,
      Bool.and_true]
    exact decide_eq_true hpos

/-! ## All of it -/

/-- With at least one frame and one shard a pool is built, and every page has a shard in it. -/
theorem exists_built {config : Config} (hframes : config.frames ≠ 0) (hshards : config.shards ≠ 0) :
    ∃ built, AnyPool.ofConfig config = .ok built ∧ (Blueprint.checked config).build = .ok built ∧
      built.layout.width = config.shards.toNat ∧ built.size = config.frames.toNat ∧
      built.layout.Complete := by
  have hpos : 0 < config.shards.toNat := by
    rw [Nat.pos_iff_ne_zero, Ne, ← UInt32.toNat_zero, UInt32.toNat_inj]
    exact hshards
  have hvalid : config.validate = .ok () := by
    rw [Config.validate, if_neg hframes, if_neg hshards]
  have hbuilt : AnyPool.ofConfig config = .ok (.fresh (.split config.shards.toNat hpos
      (Stripe.toNat_le_size config.shards)) config.frames.toNat) := by
    simp only [AnyPool.ofConfig, hvalid, Layout.split?, dif_pos hpos]
  refine ⟨_, hbuilt, ?_, rfl, rfl, Layout.complete_split _ _⟩
  rw [Blueprint.build, hbuilt]

/-- On every pool that can be built, over a medium that nobody has used, and with enough ids for all
jobs: whoever takes the next step, and however chance falls out, nobody ever has any trouble; and
when all are done, the disk shows every page as it was stamped. -/
theorem workload_delivers (config : Config) (hframes : config.frames ≠ 0)
    (hshards : config.shards ≠ 0) {medium : Medium} (hnew : medium.New) (workers jobs : Nat)
    (hids : config.shards.toNat * (workers * jobs) < UInt32.size) :
    ∃ built, AnyPool.ofConfig config = .ok built ∧
      built.layout.width = config.shards.toNat ∧ built.size = config.frames.toNat ∧
      ∀ schedule : List (Nat × Dice),
        let start := State.start ⟨built.pool, Disk.onMedium medium⟩ workers jobs
        let w := start.run schedule
        (∀ worker ∈ w.workers, worker.trouble? = none) ∧
        (w.finished = true → ∀ visit,
          Settled (workers * jobs) (State.deeds schedule start) w (w.system.flushAll visit) ∧
          (workers ≤ config.frames.toNat →
            Gapless (Disk.onMedium medium) w (w.system.flushAll visit))) := by
  obtain ⟨built, hconfig, hbuild, hwidth, hsize, hcomplete⟩ := exists_built hframes hshards
  refine ⟨built, hconfig, hwidth, hsize, fun schedule => ?_⟩
  rw [← hwidth] at hids
  have htotal : workers * jobs < UInt32.size :=
    Nat.lt_of_le_of_lt (Nat.le_mul_of_pos_left _ built.layout.width_pos) hids
  have hwhole := hnew.fresh.whole
  have hstart := Sound.start (.of_build hbuild trivial hcomplete hnew.fresh) workers jobs
  have hsound := hstart.run hcomplete hids schedule
  rw [List.append_nil] at hsound
  refine ⟨fun worker hworker => hsound.trouble?_eq_none (Array.mem_toList_iff.mpr hworker),
    fun hfinished visit => ⟨?_, fun hfew => ?_⟩⟩
  · exact hsound.settled hfinished hwhole (Nat.lt_trans htotal (by decide)) visit
  · rw [← hsize] at hfew
    have hcursor := Blueprint.cursor_of_build hbuild trivial
    have hroomy := Blueprint.size_le_capacity hbuild trivial trivial
    obtain ⟨k, hunhindered⟩ :=
      (Unhindered.start hcursor jobs hfew).run hstart hcomplete hids hroomy schedule
    rw [List.append_nil] at hunhindered
    exact hunhindered.gapless hsound hfinished hcomplete hwhole (hnew.extent _) htotal visit

/-- Two workers take turns on two shards of two frames, over a page file that was just made. Each
creates a page, and then both stamp page `0`. -/
theorem workload_delivers_two_workers :
    ∃ built, AnyPool.ofConfig ⟨2, 2⟩ = .ok built ∧
      let start := State.start ⟨built.pool, Disk.onMedium (.file ⟨.empty, ∅⟩)⟩ 2 2
      let schedule := (List.range 28).map fun turn => (turn % 2, (⟨false, 0, true⟩ : Dice))
      let w := start.run schedule
      w.finished = true ∧ w.known = #[.wrap 0, .wrap 1] ∧
        stampsOn (State.deeds schedule start) (.wrap 0) = 3 ∧
        Settled 4 (State.deeds schedule start) w (w.system.flushAll .ascending) ∧
        Gapless (Disk.onMedium (.file ⟨.empty, ∅⟩)) w (w.system.flushAll .ascending) := by
  have hnew : (Medium.file ⟨.empty, ∅⟩).New := ⟨.vacant, rfl⟩
  obtain ⟨built, hconfig, -, -, hdelivers⟩ :=
    workload_delivers ⟨2, 2⟩ (by decide) (by decide) hnew 2 2 (by decide)
  obtain rfl := Except.ok.inj hconfig
  let schedule := (List.range 28).map fun turn => (turn % 2, (⟨false, 0, true⟩ : Dice))
  obtain ⟨-, hends⟩ := hdelivers schedule
  have hfinished : ((State.start ⟨Pool.fresh (.split 2 (by decide) (by decide)) 2,
      Disk.onMedium (.file ⟨.empty, ∅⟩)⟩ 2 2).run schedule).finished = true := by decide +kernel
  obtain ⟨hsettled, hgapless⟩ := hends hfinished .ascending
  exact ⟨_, hconfig, hfinished, by decide +kernel, by decide +kernel, hsettled,
    hgapless (by decide)⟩

end Workload

/-! ## The program -/

namespace CommandLine

open Workload

theorem firstTrouble?_eq_none {l : Layout} {size : Nat} {workers : List (Worker l size)}
    (h : ∀ worker ∈ workers, worker.trouble? = none) : firstTrouble? workers = none := by
  rw [firstTrouble?, List.findSome?_eq_none_iff]
  rintro ⟨worker, i⟩ hmem
  have hnone := h worker (List.fst_mem_of_mem_zipIdx hmem)
  simp only [hnone, Option.map_none]

/-- The medium that a run opens is new. -/
theorem new_of_openMedium {o : Options} {target : Target} {medium : Medium}
    (h : openMedium o target = .ok medium) : medium.New := by
  rw [openMedium] at h
  split at h
  · obtain rfl := Except.ok.inj h
    rfl
  · cases hcreate : FileStore.create target with
    | error e =>
      rw [hcreate] at h
      exact absurd h (by simp [Except.map])
    | ok f =>
      rw [hcreate] at h
      obtain rfl := Except.ok.inj h
      exact ⟨target, hcreate⟩

/-- Under the bound on ids the workers finish, with a tally of all they had to do. -/
theorem runWorkers_finished {config : Config} {built : AnyPool}
    (hbuild : (Blueprint.checked config).build = .ok built) (hcomplete : built.layout.Complete)
    {medium : Medium} (hnew : medium.New) (o : Options)
    (hids : built.layout.width * (o.threads * o.ops) < UInt32.size) (seed : Seed) :
    ∃ tally, (runWorkers o built medium seed).2.1 = .finished tally ∧
      tally.total = o.threads * o.ops := by
  let start := State.start ⟨built.pool, Disk.onMedium medium⟩ o.threads o.ops
  let w := start.runJobs o.ops seed
  obtain ⟨schedule, hrun⟩ : ∃ schedule, w = start.run schedule :=
    start.exists_schedule_rounds _ seed
  have hstart : Sound _ _ _ start _ _ :=
    Sound.start (.of_build hbuild trivial hcomplete hnew.fresh) o.threads o.ops
  have hsound := hstart.run hcomplete hids schedule
  rw [← hrun] at hsound
  have htrouble := firstTrouble?_eq_none fun worker hworker => hsound.trouble?_eq_none hworker
  obtain ⟨htended, -, htotal⟩ := hsound.of_finished (State.finished_runJobs _ _ _ seed)
  have hflushed := (htended.contents_flushAll .ascending).1
  refine ⟨w.tally, ?_, htotal⟩
  simp only [runWorkers]
  rw [htrouble]
  simp only
  rw [hflushed]

/-- With a configuration that makes a pool, a page file that can be made if one is asked for, and
enough ids for all jobs, the program ends well. -/
theorem execute_finished {o : Options} {target : Target} {medium : Medium}
    (hopen : openMedium o target = .ok medium) (hframes : UInt64.ofNat o.poolSize ≠ 0)
    (hshards : UInt32.ofNat o.instances ≠ 0)
    (hids : (UInt32.ofNat o.instances).toNat * (o.threads * o.ops) < UInt32.size) (seed : Seed) :
    ∃ tally, (execute o target seed).ending = .finished tally ∧
      tally.total = o.threads * o.ops := by
  let config : Config := ⟨UInt64.ofNat o.poolSize, UInt32.ofNat o.instances⟩
  obtain ⟨built, hconfig, hbuild, hwidth, -, hcomplete⟩ :=
    @exists_built config hframes hshards
  rw [← hwidth] at hids
  obtain ⟨tally, hending, htotal⟩ :=
    runWorkers_finished hbuild hcomplete (new_of_openMedium hopen) o hids seed
  refine ⟨tally, ?_, htotal⟩
  simp only [execute, hopen]
  rw [hconfig]
  exact hending

end CommandLine

end PageCache
