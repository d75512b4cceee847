import PageCache.Proofs.Client.Kept

/-!
# Pages that are in use when a page is created

The id of a new page comes from a counter that knows nothing of pages somebody fetched by id, so the
new page may be one that is resident. `Client.SparesPages` is what ought to hold of every creation:
the page was not resident, and pages that are pinned stay as they are. It holds throughout a history
exactly if no resident page is ever created (`Client.sparesPages_iff`), in particular if only
created pages are fetched.
-/

namespace PageCache.Client

open PageCache.System (Runs)

variable {l : Layout} {size : Nat} {capacity : Nat} {c : Client l size}

/-- The frame in which page `q` of shard `i` lies in `c` has it in `c'`, with its pins and bytes. -/
def Unmoved (c c' : Client l size) (i : Fin l.width) (q : PageId) (f : Fin size) : Prop :=
  (c'.system.pool.shard i).table[q]? = some f ∧
    ((c'.system.pool.shard i).frame f).pins = ((c.system.pool.shard i).frame f).pins ∧
    ((c'.system.pool.shard i).frame f).bytes = ((c.system.pool.shard i).frame f).bytes

/-- If the step creates a page, the page was not resident, and every page that was pinned is where
it was, with its pins and its bytes. -/
def SparesPages (_ : List Entry) (c : Client l size) (step : Step) : Prop :=
  ∀ (o : Outcome (Client l size) (Handle l size)) (h : Handle l size),
    c.creation? step = some o → o.result = .ok h →
      ¬ c.Resident h.page ∧
        ∀ (i : Fin l.width) (q : PageId) (f : Fin size),
          (c.system.pool.shard i).table[q]? = some f → ((c.system.pool.shard i).frame f).pins ≠ 0 →
            Unmoved c o.state i q f

/-- Making room for a page that is not resident moves no page that is pinned. -/
theorem sparesPages_of_noTakeover (h : c.Kept capacity) {log : List Entry} {step : Step}
    (hspared : NoTakeover log c step) : SparesPages log c step := by
  intro o k ho hok
  obtain ⟨scope, -, rfl⟩ := creation?_eq_some ho
  have hnew := hspared _ k ho hok
  refine ⟨hnew, fun i q f hq hpins => ?_⟩
  -- quiet moves make room for the page, and leave pinned pages alone
  obtain ⟨ms, hruns, hcreated⟩ := c.newHandle_runs h.system scope fun hk => by
    obtain rfl := Except.ok.inj (hok.symm.trans hk)
    exact slot_none_of_not_resident hnew
  rw [hok] at hcreated
  obtain ⟨quiet, v, hquiet, hpath, hstep⟩ := hruns.path.of_ends hcreated.2
  have howns := (h.system i).owned hq
  have hslot : c.system.view.slot q = some (f, (c.system.pool.shard i).frame f) :=
    (System.slot_view howns).trans (Shard.slot_of_table hq)
  obtain ⟨frame, hframe, hpins', hbytes⟩ := hpath.slot_of_pinned hquiet hslot hpins
  -- the new page is another one
  have hne : q ≠ k.page := by
    rintro rfl
    exact hnew ⟨i, f, hq⟩
  have hafter := (hstep.elsewhere hne).1.trans hframe
  rw [System.slot_view howns] at hafter
  obtain ⟨htable, rfl⟩ := Shard.slot_eq_some_iff.mp hafter
  exact ⟨htable, hpins', hbytes⟩

theorem noTakeover_of_sparesPages {log : List Entry} {step : Step}
    (h : SparesPages log c step) : NoTakeover log c step :=
  fun o k ho hok => (h o k ho hok).1

/-- Every creation of a history spares the pages that are in use exactly if no creation is of a page
that is resident. It can only come to that by fetching pages that were never created. -/
theorem sparesPages_iff {b : Blueprint} {built : AnyPool} (hbuild : b.build = .ok built)
    (hunloaded : b.Unloaded) (disk : Disk) (durable : Option Lsn) {log : List Entry}
    {c : Client built.layout built.size} :
    (History SparesPages (built.start disk durable) log c ↔
        History NoTakeover (built.start disk durable) log c) ∧
      (History FetchesCreated (built.start disk durable) log c →
        History SparesPages (built.start disk durable) log c) := by
  have hkept := kept_of_build hbuild hunloaded disk durable
  have hknown := known_of_build hbuild hunloaded disk durable
  have hspares {log : List Entry} {c : Client built.layout built.size}
      (h : History NoTakeover (built.start disk durable) log c) :
      History SparesPages (built.start disk durable) log c := by
    refine (h.allowing (P := fun _ c => c.Kept b.capacity) hkept ?_).1
    intro log c step hc hspared
    exact ⟨sparesPages_of_noTakeover hc hspared, (keeps_take hc step hspared).kept⟩
  refine ⟨⟨fun h => ?_, hspares⟩, fun h => hspares (noTakeover_of_fetchesCreated hkept hknown h).1⟩
  refine (h.allowing (P := fun _ _ => True) trivial ?_).1
  intro log c step _ hsteps
  exact ⟨noTakeover_of_sparesPages hsteps, trivial⟩

/-- With two frames: the second page is created while the first is pinned, and the third in the
frame of the second, which goes to the disk. -/
theorem sparesPages_two_frames : ∃ log c,
    History SparesPages
        ((AnyPool.fresh (.alone .whole) 2).start (.onMedium (.memory .empty)) none) log c ∧
      History NoTakeover
        ((AnyPool.fresh (.alone .whole) 2).start (.onMedium (.memory .empty)) none) log c ∧
      log.map Entry.answer = [.ok (.placed ⟨0, by decide⟩ 0), .ok (.placed ⟨1, by decide⟩ 1),
        .ok (.truth true), .ok (.placed ⟨2, by decide⟩ 1)] := by
  have h : History FetchesCreated
      ((AnyPool.fresh (.alone .whole) 2).start (.onMedium (.memory .empty)) none) [] _ := .start
  have h := h.step ⟨none, .newPage "a"⟩ trivial
  have h := h.step ⟨none, .newPage "b"⟩ trivial
  have h := h.step ⟨none, .unpin ⟨1, by decide⟩ true⟩ trivial
  have h := h.step ⟨none, .newPage "c"⟩ trivial
  have hbuild : Blueprint.build (.alone 2 1 0 none) = .ok (.fresh (.alone .whole) 2) := rfl
  have hspares := (sparesPages_iff hbuild trivial (.onMedium (.memory .empty)) none).2 h
  have htakeover := (sparesPages_iff hbuild trivial (.onMedium (.memory .empty)) none).1.mp hspares
  exact ⟨_, _, hspares, htakeover, rfl⟩

/-- A page that was fetched, and is pinned, is taken over by the next page that is created. -/
theorem not_sparesPages_of_fetch : ∃ log c,
    History (fun _ _ _ => True)
        ((AnyPool.fresh (.alone .whole) 2).start (.onMedium (.memory .empty)) none) log c ∧
      log.map Entry.answer = [.ok (.placed ⟨0, by decide⟩ 0)] ∧
      (c.take ⟨none, .newPage "b"⟩).result = .ok (.placed ⟨0, by decide⟩ 1) ∧
      ¬ SparesPages log c ⟨none, .newPage "b"⟩ := by
  have h : History (fun _ _ _ => True)
      ((AnyPool.fresh (.alone .whole) 2).start (.onMedium (.memory .empty)) none) [] _ := .start
  have h := h.step ⟨none, .fetch ⟨0, by decide⟩ "a"⟩ trivial
  refine ⟨_, _, h, rfl, rfl, fun hspares => ?_⟩
  -- page `0` lies in frame `0` when it is created in frame `1`
  have hnew := (hspares _ ⟨⟨0, by decide⟩, ⟨0, by decide⟩, ⟨1, by decide⟩⟩ rfl rfl).1
  exact hnew ⟨⟨0, by decide⟩, ⟨0, by decide⟩, rfl⟩

end PageCache.Client
