import PageCache.Proofs.Workload.Tended
import PageCache.Workload.Worker

/-!
# Workers at work

However workers take turns, at every moment (`Sound`) the pool is as their deeds left it, the guards
they hold being all that are held; a page is known only after it was stamped; every job is accounted
for, done or not; and nobody has met any trouble. Each step keeps this (`Sound.step`), whoever takes
it and however chance falls out, and so does a run (`Sound.run`).

What a step does to others is nothing but what it does to the pool and to what is known. So a state
is looked at with the worker whose turn it is put first, and the others in any order.
-/

namespace PageCache.Workload

variable {l : Layout} {size : Nat} {δ : Type}

/-! ## What a worker has in hand -/

/-- Page `q`, if the job it was had for is to create it. -/
def Job.creates? (job : Job) (q : PageId) : Option PageId :=
  match job with
  | .create => some q
  | .visit _ _ => none

namespace Worker

/-- The guard it holds, be it with the latch or without. -/
def guard? (worker : Worker l size) : Option (Guard l size) :=
  match worker.phase with
  | .latching job h | .holding job h => some ⟨h, job.access, false⟩
  | .unpinning job h _ => some ⟨h, job.access, job.access = .write⟩
  | _ => none

/-- The page it has created and not told of. -/
def untold? (worker : Worker l size) : Option PageId :=
  match worker.phase with
  | .latching job h | .holding job h | .unpinning job h _ | .telling job h => job.creates? h.page
  | _ => none

/-- How many stamps it may still put on pages: one a job, while the job has not come past that. -/
def stampsLeft (worker : Worker l size) : Nat :=
  match worker.phase with
  | .unpinning .. | .telling .. => worker.left - 1
  | _ => worker.left

/-- It has a job, and nothing in hand yet. -/
structure EmptyHanded (worker : Worker l size) : Prop where
  guard : worker.guard? = none
  untold : worker.untold? = none
  stamps : worker.stampsLeft = worker.left
  left : 0 < worker.left

/-- Whoever has something in hand has a job. -/
def Busy (worker : Worker l size) : Prop :=
  worker.phase ≠ .ready → 0 < worker.left

/-- What only workers with a job can have, there is no more of than jobs that are left. -/
theorem length_filterMap_le {β : Type} (f : Worker l size → Option β)
    (hready : ∀ {worker b}, f worker = some b → worker.phase ≠ .ready)
    {crew : List (Worker l size)} (hbusy : ∀ worker ∈ crew, worker.Busy) :
    (crew.filterMap f).length ≤ (crew.map Worker.left).sum := by
  induction crew with
  | nil => exact Nat.le_refl _
  | cons worker crew ih =>
    obtain ⟨hworker, hcrew⟩ := List.forall_mem_cons.mp hbusy
    have hle := ih hcrew
    rw [List.map_cons, List.sum_cons]
    cases hf : f worker with
    | none =>
      rw [List.filterMap_cons_none hf]
      omega
    | some b =>
      -- whoever has something has a job, and that is one of those left
      have hleft := hworker (hready hf)
      rw [List.filterMap_cons_some hf, List.length_cons]
      omega

/-- Whoever holds a guard is at a job. -/
theorem not_ready_of_guard? {worker : Worker l size} {g : Guard l size}
    (h : worker.guard? = some g) : worker.phase ≠ .ready := by
  intro hready
  rw [guard?, hready] at h
  exact absurd h (by simp)

/-- Whoever has a page to tell of is at a job. -/
theorem not_ready_of_untold? {worker : Worker l size} {p : PageId}
    (h : worker.untold? = some p) : worker.phase ≠ .ready := by
  intro hready
  rw [untold?, hready] at h
  exact absurd h (by simp)

end Worker

/-! ## What is true of a worker -/

/-- The page of a job that is done on page `q`, `known` being the pages that were told of. -/
def Job.On (known : List PageId) (job : Job) (q : PageId) : Prop :=
  match job with
  | .create => True
  | .visit p _ => q = p ∧ p ∈ known

/-- A worker may be in this phase after the deeds of `past`. -/
def Phase.Fits (known : List PageId) (past : List Deed) : Phase l size → Prop
  | .ready | .seeking _ | .asking .create => True
  | .asking (.visit p _) => p ∈ known
  | .latching job h | .holding job h =>
    (l.stripe h.shard).Owns h.page ∧ job.On known h.page
  | .unpinning job h trouble =>
    (l.stripe h.shard).Owns h.page ∧ job.On known h.page ∧ trouble = none ∧
      (job.access = .write → .stamped h.page ∈ past)
  | .telling job h => job.On known h.page ∧ (job.access = .write → .stamped h.page ∈ past)
  | .stopped _ => False

/-- A page that was known stays known. -/
theorem Job.On.mono {known known' : List PageId} {job : Job} {q : PageId} (h : job.On known q)
    (hknown : known ⊆ known') : job.On known' q := by
  cases job with
  | create => trivial
  | visit p access => exact ⟨h.1, hknown h.2⟩

/-- More pages and more deeds change nothing. -/
theorem Phase.Fits.mono {known known' : List PageId} {past past' : List Deed}
    {phase : Phase l size} (h : phase.Fits known past) (hknown : known ⊆ known')
    (hpast : past ⊆ past') : phase.Fits known' past' := by
  cases phase with
  | ready | seeking => trivial
  | asking job =>
    cases job with
    | create => trivial
    | visit p access => exact hknown h
  | latching job k | holding job k => exact ⟨h.1, h.2.mono hknown⟩
  | unpinning job k trouble =>
    obtain ⟨howns, hon, htrouble, hstamped⟩ := h
    exact ⟨howns, hon.mono hknown, htrouble, fun hwrite => hpast (hstamped hwrite)⟩
  | telling job k => exact ⟨h.1.mono hknown, fun hwrite => hpast (h.2 hwrite)⟩
  | stopped => exact h

/-! ## Deeds of a run -/

namespace State

variable [PageStore δ]

/-- What `worker` does to a page when it takes its next step. -/
def deedOf (w : State l size δ) (worker : Worker l size) : Option Deed :=
  match worker.phase with
  | .seeking (shard :: _) =>
    match (w.system.newPageIn shard).result with
    | .ok h => some (.created h.page)
    | .error _ => none
  | .holding job h => if job.access = .write then some (.stamped h.page) else none
  | _ => none

/-- What worker `i` does to a page when it takes its next step. -/
def deed? (w : State l size δ) (i : Nat) : Option Deed :=
  w.workers[i]?.bind w.deedOf

/-- What is done to the pages in a run, the last deed first. -/
def deeds : List (Nat × Dice) → State l size δ → List Deed
  | [], _ => []
  | turn :: schedule, w =>
    deeds schedule (w.step turn.1 turn.2) ++ (w.deed? turn.1).toList

end State

/-! ## One worker among the others -/

/-- The worker whose turn it is can be put first, before and after. -/
theorem exists_others {α : Type} {all : Array α} {i : Nat} {a : α} (h : all[i]? = some a) :
    ∃ rest, all.toList.Perm (a :: rest) ∧
      ∀ b, (all.setIfInBounds i b).toList.Perm (b :: rest) := by
  have hi : i < all.toList.length := by
    obtain ⟨hlt, -⟩ := Array.getElem?_eq_some_iff.mp h
    exact hlt
  have ha : getElem all.toList i hi = a := by
    -- the array is looked at as a list, so that the worker can be taken out
    obtain ⟨hlt, ha⟩ := Array.getElem?_eq_some_iff.mp h
    exact ha
  refine ⟨all.toList.eraseIdx i, ?_, fun b => ?_⟩
  · rw [← ha]
    exact (List.getElem_cons_eraseIdx_perm hi).symm
  · have hset : i < (all.toList.set i b).length := by
      rw [List.length_set]
      exact hi
    have hperm := (List.getElem_cons_eraseIdx_perm hset).symm
    rw [List.getElem_set_self, List.eraseIdx_set_eq] at hperm
    rw [Array.toList_setIfInBounds]
    exact hperm

/-! ## Soundness -/

/-- The state `w` with the workers `crew`, in any order, is one that a pool, `total` jobs and the
deeds of `past` lead to. -/
structure Sound [PageStore δ] [LawfulStore δ] (capacity : Nat) (origin : δ) (total : Nat)
    (w : State l size δ) (crew : List (Worker l size)) (past : List Deed) : Prop where
  tended : w.system.Tended capacity origin (crew.filterMap Worker.guard?) past
  fits : ∀ worker ∈ crew, worker.phase.Fits w.known.toList past
  busy : ∀ worker ∈ crew, worker.Busy
  /-- The pages that were created are known, but for those that are still to be told of. -/
  told : (w.known.toList ++ crew.filterMap Worker.untold?).Perm (created past)
  stamped : ∀ p ∈ w.known.toList, .stamped p ∈ past
  tally_created : w.tally.created = w.known.size
  /-- Every job is counted, or still to be done. -/
  jobs : w.tally.total + (crew.map Worker.left).sum = total
  stamps : stampsIn past + (crew.map Worker.stampsLeft).sum ≤ total

namespace Sound

variable [PageStore δ] [LawfulStore δ] {capacity total : Nat} {origin : δ} {w w' : State l size δ}
variable {crew crew' rest : List (Worker l size)} {past past' : List Deed}
variable {worker worker' : Worker l size} {i : Nat}

/-- In what order the workers are looked at does not matter. -/
theorem perm (h : Sound capacity origin total w crew past) (hperm : crew.Perm crew') :
    Sound capacity origin total w crew' past where
  tended := h.tended.perm (hperm.filterMap _)
  fits worker hworker := h.fits worker (hperm.mem_iff.mpr hworker)
  busy worker hworker := h.busy worker (hperm.mem_iff.mpr hworker)
  told := ((hperm.filterMap _).append_left _).symm.trans h.told
  stamped := h.stamped
  tally_created := h.tally_created
  jobs := by rw [← (hperm.map _).sum_eq, h.jobs]
  stamps := by rw [← (hperm.map _).sum_eq]; exact h.stamps

/-- One worker goes on, and nothing is taken from the others. -/
theorem replace (h : Sound capacity origin total w (worker :: rest) past)
    (htended : w'.system.Tended capacity origin ((worker' :: rest).filterMap Worker.guard?) past')
    (hknown : w.known.toList ⊆ w'.known.toList) (hpast : past ⊆ past')
    (hfits : worker'.phase.Fits w'.known.toList past') (hbusy : worker'.Busy)
    (htold : (w'.known.toList ++ (worker' :: rest).filterMap Worker.untold?).Perm (created past'))
    (hstamped : ∀ p ∈ w'.known.toList, .stamped p ∈ past')
    (hcreated : w'.tally.created = w'.known.size)
    (hjobs : w'.tally.total + worker'.left = w.tally.total + worker.left)
    (hstamps : stampsIn past' + worker'.stampsLeft ≤ stampsIn past + worker.stampsLeft) :
    Sound capacity origin total w' (worker' :: rest) past' where
  tended := htended
  fits := by
    obtain ⟨-, hrest⟩ := List.forall_mem_cons.mp h.fits
    exact List.forall_mem_cons.mpr
      ⟨hfits, fun other hother => (hrest other hother).mono hknown hpast⟩
  busy := by
    obtain ⟨-, hrest⟩ := List.forall_mem_cons.mp h.busy
    exact List.forall_mem_cons.mpr ⟨hbusy, hrest⟩
  told := htold
  stamped := hstamped
  tally_created := hcreated
  jobs := by
    have hall := h.jobs
    rw [List.map_cons, List.sum_cons] at hall ⊢
    omega
  stamps := by
    have hall := h.stamps
    rw [List.map_cons, List.sum_cons] at hall ⊢
    omega

/-! ### How much there is at most -/

/-- A worker that is about to ask has nothing in hand. -/
theorem emptyHanded_of_asking (h : Sound capacity origin total w (worker :: rest) past) {job : Job}
    (hphase : worker.phase = .asking job) : worker.EmptyHanded where
  guard := by rw [Worker.guard?, hphase]
  untold := by rw [Worker.untold?, hphase]
  stamps := by rw [Worker.stampsLeft, hphase]
  left := h.busy worker List.mem_cons_self (by rw [hphase]; simp)

/-- A worker that seeks a page has nothing in hand yet. -/
theorem emptyHanded_of_seeking (h : Sound capacity origin total w (worker :: rest) past)
    {shards : List (Fin l.width)} (hphase : worker.phase = .seeking shards) :
    worker.EmptyHanded where
  guard := by rw [Worker.guard?, hphase]
  untold := by rw [Worker.untold?, hphase]
  stamps := by rw [Worker.stampsLeft, hphase]
  left := h.busy worker List.mem_cons_self (by rw [hphase]; simp)

/-- Of a worker with empty hands the pool knows nothing. -/
theorem tended_rest (h : Sound capacity origin total w (worker :: rest) past)
    (hempty : worker.EmptyHanded) :
    w.system.Tended capacity origin (rest.filterMap Worker.guard?) past := by
  have htended := h.tended
  rw [List.filterMap_cons_none hempty.guard] at htended
  exact htended

/-- A worker with empty hands has no page to tell of. -/
theorem told_rest (h : Sound capacity origin total w (worker :: rest) past)
    (hempty : worker.EmptyHanded) :
    (w.known.toList ++ rest.filterMap Worker.untold?).Perm (created past) := by
  have htold := h.told
  rw [List.filterMap_cons_none hempty.untold] at htold
  exact htold

/-- A worker that has a job and nothing in hand leaves an id for a page, and a pin. -/
theorem length_lt (h : Sound capacity origin total w (worker :: rest) past)
    (hempty : worker.EmptyHanded) :
    (created past).length < total ∧ (rest.filterMap Worker.guard?).length < total := by
  obtain ⟨-, hbusy⟩ := List.forall_mem_cons.mp h.busy
  have hguards := Worker.length_filterMap_le Worker.guard? Worker.not_ready_of_guard? hbusy
  have huntolds := Worker.length_filterMap_le Worker.untold? Worker.not_ready_of_untold? hbusy
  have htold := (h.told_rest hempty).length_eq
  have hleft := hempty.left
  have hjobs := h.jobs
  have hcreated := h.tally_created
  rw [List.length_append, Array.length_toList] at htold
  rw [List.map_cons, List.sum_cons, Tally.total] at hjobs
  -- created pages are told of or still to be told of, and each of the others takes one of the jobs
  omega

/-! ### The steps of a job -/

/-- Nothing happens but that the worker is in another phase, with the same in hand. -/
theorem setPhase (h : Sound capacity origin total w (worker :: rest) past) {phase : Phase l size}
    (hguard : ({ worker with phase } : Worker l size).guard? = worker.guard?)
    (huntold : ({ worker with phase } : Worker l size).untold? = worker.untold?)
    (hstamps : ({ worker with phase } : Worker l size).stampsLeft ≤ worker.stampsLeft)
    (hfits : phase.Fits w.known.toList past) (hleft : 0 < worker.left) (i : Nat) :
    Sound capacity origin total (w.setPhase i worker phase) ({ worker with phase } :: rest)
      past := by
  refine h.replace ?_ (List.Subset.refl _) (List.Subset.refl _) hfits (fun _ => hleft) ?_ h.stamped
    h.tally_created rfl (Nat.add_le_add_left hstamps _)
  · show w.system.Tended capacity origin _ past
    rw [List.filterMap_cons, hguard, ← List.filterMap_cons]
    exact h.tended
  · rw [List.filterMap_cons, huntold, ← List.filterMap_cons]
    exact h.told

/-- A job that found the pool full is counted, and done. -/
theorem proceed_full (h : Sound capacity origin total w (worker :: rest) past)
    (hempty : worker.EmptyHanded) (i : Nat) (job : Job) :
    Sound capacity origin total (w.proceed i worker job (.error (.storage .poolFull)))
      (worker.next :: rest) past := by
  have hleft := hempty.left
  refine h.replace (h.tended_rest hempty) (List.Subset.refl _) (List.Subset.refl _) trivial
    (absurd rfl) (h.told_rest hempty) h.stamped h.tally_created ?_ ?_
  · -- one job less to do, and one more that is counted
    show w.tally.created + w.tally.visited + (w.tally.poolFull + 1) + (worker.left - 1) =
      w.tally.created + w.tally.visited + w.tally.poolFull + worker.left
    omega
  · show stampsIn past + (worker.left - 1) ≤ stampsIn past + worker.stampsLeft
    rw [hempty.stamps]
    omega

/-- A worker that seeks a page gets one from the next shard, or passes over that shard because it is
full. -/
theorem seek_cases (h : Sound capacity origin total w (worker :: rest) past) {shard : Fin l.width}
    {shards : List (Fin l.width)} (hphase : worker.phase = .seeking (shard :: shards))
    (hcomplete : l.Complete) (hids : l.width * total < UInt32.size) (i : Nat) :
    (∃ k : Handle l size, w.deedOf worker = some (.created k.page) ∧
      (l.stripe k.shard).Owns k.page ∧ l.route k.page = shard ∧
      (w.system.newPageIn shard).state.Tended capacity origin
        (⟨k, .write, false⟩ :: rest.filterMap Worker.guard?) (.created k.page :: past) ∧
      w.seek i worker (shard :: shards) =
        ({ w with system := (w.system.newPageIn shard).state } : State l size δ).setPhase i worker
          (.latching .create k)) ∨
    (w.system.Full shard ∧ w.deedOf worker = none ∧
      w.seek i worker (shard :: shards) = w.setPhase i worker (.seeking shards)) := by
  have hempty := h.emptyHanded_of_seeking hphase
  have htended := h.tended_rest hempty
  cases hresult : (w.system.newPageIn shard).result with
  | ok k =>
    obtain ⟨-, howns, hroute, htended'⟩ := htended.newPageIn_ok hresult .write
    refine .inl ⟨k, ?_, howns, hroute, htended', ?_⟩
    · rw [State.deedOf, hphase]
      simp only [hresult]
    · simp only [State.seek, hresult, State.proceed]
  | error e =>
    -- each shard has an id left for everyone who seeks one
    have hroom : l.width * ((created past).length + 1) < UInt32.size :=
      Nat.lt_of_le_of_lt (Nat.mul_le_mul_left _ (h.length_lt hempty).1) hids
    obtain ⟨rfl, hstate⟩ := htended.newPageIn_error hcomplete hroom hresult
    refine .inr ⟨hresult, ?_, ?_⟩
    · rw [State.deedOf, hphase]
      simp only [hresult]
    · simp only [State.seek, hresult, hstate]

/-- A worker that seeks gets a page, passes over a shard, or gives up because all are full. -/
theorem seek (h : Sound capacity origin total w (worker :: rest) past)
    {shards : List (Fin l.width)} (hphase : worker.phase = .seeking shards)
    (hcomplete : l.Complete) (hids : l.width * total < UInt32.size) (i : Nat) :
    ∃ worker', (w.seek i worker shards).workers = w.workers.setIfInBounds i worker' ∧
      Sound capacity origin total (w.seek i worker shards) (worker' :: rest)
        ((w.deedOf worker).toList ++ past) := by
  have hempty := h.emptyHanded_of_seeking hphase
  cases shards with
  -- all shards were full
  | nil =>
    have hdeed : w.deedOf worker = none := by rw [State.deedOf, hphase]
    rw [hdeed]
    exact ⟨worker.next, rfl, h.proceed_full hempty i .create⟩
  | cons shard shards =>
    rcases h.seek_cases hphase hcomplete hids i with
      ⟨k, hdeed, howns, -, htended, hseek⟩ | ⟨-, hdeed, hseek⟩
    · have hstamps : stampsIn (.created k.page :: past) + worker.left ≤
          stampsIn past + worker.stampsLeft := by
        rw [stampsIn_created, hempty.stamps]
      rw [hdeed, hseek]
      refine ⟨⟨worker.left, .latching .create k⟩, rfl, h.replace htended (List.Subset.refl _)
        (List.subset_cons_self ..) ⟨howns, trivial⟩ (fun _ => hempty.left) ?_
        (fun p hp => List.mem_cons_of_mem _ (h.stamped p hp)) h.tally_created rfl hstamps⟩
      -- the page comes first now among those that are to be told of
      exact List.perm_middle.trans ((h.told_rest hempty).cons k.page)
    · rw [hdeed, hseek]
      have hfits : (Phase.seeking shards : Phase l size).Fits w.known.toList past := trivial
      refine ⟨⟨worker.left, .seeking shards⟩, rfl, h.setPhase ?_ ?_ ?_ hfits hempty.left i⟩
      · rw [hempty.guard]
        rfl
      · rw [hempty.untold]
        rfl
      · rw [hempty.stamps]
        exact Nat.le_refl _

/-- A worker that asks for a known page gets it, or the pool is full. -/
theorem visit_cases (h : Sound capacity origin total w (worker :: rest) past) {p : PageId}
    {access : Access} (hphase : worker.phase = .asking (.visit p access)) (hcomplete : l.Complete)
    (hids : l.width * total < UInt32.size) (i : Nat) :
    (∃ k : Handle l size, (l.stripe k.shard).Owns k.page ∧ k.page = p ∧
      (w.system.fetch p).state.Tended capacity origin
        (⟨k, access, false⟩ :: rest.filterMap Worker.guard?) past ∧
      w.ask i worker (.visit p access) =
        ({ w with system := (w.system.fetch p).state } : State l size δ).setPhase i worker
          (.latching (.visit p access) k)) ∨
    ((w.system.fetch p).result = .error (.storage .poolFull) ∧
      (w.system.fetch p).state.Tended capacity origin (rest.filterMap Worker.guard?) past ∧
      w.ask i worker (.visit p access) =
        ({ w with system := (w.system.fetch p).state } : State l size δ).proceed i worker
          (.visit p access) (.error (.storage .poolFull))) := by
  have hempty := h.emptyHanded_of_asking hphase
  have htended := h.tended_rest hempty
  have hknown := h.fits worker List.mem_cons_self
  rw [hphase] at hknown
  have hp : p ∈ created past := h.told.mem_iff.mp (List.mem_append_left _ hknown)
  cases hresult : (w.system.fetch p).result with
  | ok k =>
    obtain ⟨hpage, howns, htended'⟩ := htended.fetch_ok hp hresult access
    refine .inl ⟨k, howns, hpage, htended', ?_⟩
    simp only [State.ask, hresult, State.proceed]
  | error e =>
    -- others have few enough guards
    have hfew : (rest.filterMap Worker.guard?).length < Frame.maxPins := by
      have hlt : (rest.filterMap Worker.guard?).length < l.width * total :=
        Nat.lt_of_lt_of_le (h.length_lt hempty).2 (Nat.le_mul_of_pos_left total l.width_pos)
      rw [Frame.maxPins]
      omega
    obtain ⟨rfl, htended'⟩ := htended.fetch_error (hcomplete p) hfew hresult
    refine .inr ⟨rfl, htended', ?_⟩
    simp only [State.ask, hresult]

/-- A worker that asks for a page starts to seek one, or gets the known page, or gives up because
there is no room. -/
theorem ask (h : Sound capacity origin total w (worker :: rest) past) {job : Job}
    (hphase : worker.phase = .asking job) (hcomplete : l.Complete)
    (hids : l.width * total < UInt32.size) (i : Nat) :
    ∃ worker', (w.ask i worker job).workers = w.workers.setIfInBounds i worker' ∧
      Sound capacity origin total (w.ask i worker job) (worker' :: rest) past := by
  have hempty := h.emptyHanded_of_asking hphase
  have hstamps : stampsIn past + worker.left ≤ stampsIn past + worker.stampsLeft := by
    rw [hempty.stamps]
  cases job with
  | create =>
    refine ⟨⟨worker.left, .seeking (l.tour w.system.pool.cursor)⟩, rfl, h.replace
      ((h.tended_rest hempty).withCursor (l.next w.system.pool.cursor)) (List.Subset.refl _)
      (List.Subset.refl _) trivial (fun _ => hempty.left) (h.told_rest hempty) h.stamped
      h.tally_created rfl hstamps⟩
  | visit p access =>
    rcases h.visit_cases hphase hcomplete hids i with ⟨k, howns, rfl, htended, hask⟩ |
      ⟨-, htended, hask⟩
    · have hknown := h.fits worker List.mem_cons_self
      rw [hphase] at hknown
      rw [hask]
      exact ⟨⟨worker.left, .latching (.visit k.page access) k⟩, rfl, h.replace htended
        (List.Subset.refl _) (List.Subset.refl _) ⟨howns, rfl, hknown⟩ (fun _ => hempty.left)
        (h.told_rest hempty) h.stamped h.tally_created rfl hstamps⟩
    · rw [← List.filterMap_cons_none hempty.guard] at htended
      have hsame : Sound capacity origin total { w with system := (w.system.fetch p).state }
          (worker :: rest) past :=
        ⟨htended, h.fits, h.busy, h.told, h.stamped, h.tally_created, h.jobs, h.stamps⟩
      rw [hask]
      exact ⟨worker.next, rfl, hsame.proceed_full hempty i _⟩

/-- A worker that may write stamps the page. -/
theorem work_write (h : Sound capacity origin total w (worker :: rest) past) {job : Job}
    {k : Handle l size} (hphase : worker.phase = .holding job k) (haccess : job.access = .write)
    (i : Nat) :
    ∃ worker', (w.work i worker job k).workers = w.workers.setIfInBounds i worker' ∧
      Sound capacity origin total (w.work i worker job k) (worker' :: rest)
        (.stamped k.page :: past) := by
  have hguard : worker.guard? = some ⟨k, job.access, false⟩ := by rw [Worker.guard?, hphase]
  have hguard' : (⟨worker.left, .unpinning job k none⟩ : Worker l size).guard? =
      some ⟨k, job.access, true⟩ := by
    simp only [Worker.guard?, haccess, decide_true]
  have huntold : (⟨worker.left, .unpinning job k none⟩ : Worker l size).untold? =
      worker.untold? := by
    rw [Worker.untold?.eq_def worker, hphase]
    rfl
  have hstamps : worker.stampsLeft = worker.left := by rw [Worker.stampsLeft, hphase]
  have hleft : 0 < worker.left := h.busy worker List.mem_cons_self (by rw [hphase]; simp)
  have hfits := h.fits worker List.mem_cons_self
  rw [hphase] at hfits
  obtain ⟨howns, hon⟩ := hfits
  have htended := h.tended
  rw [List.filterMap_cons_some hguard] at htended
  -- what the worker does to its page is one edit, and its guard is marked for it
  have hwork : w.work i worker job k =
      ({ w with system := w.system.modifyBytes k (Page.stamp k.page) } : State l size δ).setPhase
        i worker (.unpinning job k none) := by
    simp only [State.work, haccess]
  rw [hwork]
  refine ⟨⟨worker.left, .unpinning job k none⟩, rfl, h.replace ?_ (List.Subset.refl _)
    (List.subset_cons_self ..) ⟨howns, hon, rfl, fun _ => List.mem_cons_self⟩ (fun _ => hleft) ?_
    (fun p hp => List.mem_cons_of_mem _ (h.stamped p hp)) h.tally_created rfl ?_⟩
  · rw [List.filterMap_cons_some hguard']
    exact htended.stamp howns
  · rw [List.filterMap_cons, huntold, ← List.filterMap_cons]
    exact h.told
  · show stampsIn (.stamped k.page :: past) + (worker.left - 1) ≤
      stampsIn past + worker.stampsLeft
    rw [stampsIn_stamped, hstamps]
    omega

/-- A worker that may only read finds the stamp it looks for. -/
theorem work_read (h : Sound capacity origin total w (worker :: rest) past) {job : Job}
    {k : Handle l size} (hphase : worker.phase = .holding job k) (haccess : job.access = .read)
    (i : Nat) :
    ∃ worker', (w.work i worker job k).workers = w.workers.setIfInBounds i worker' ∧
      Sound capacity origin total (w.work i worker job k) (worker' :: rest) past := by
  have hguard : worker.guard? = some ⟨k, job.access, false⟩ := by rw [Worker.guard?, hphase]
  have hleft : 0 < worker.left := h.busy worker List.mem_cons_self (by rw [hphase]; simp)
  have hfits := h.fits worker List.mem_cons_self
  rw [hphase] at hfits
  obtain ⟨howns, hon⟩ := hfits
  have htended := h.tended
  rw [List.filterMap_cons_some hguard] at htended
  -- the page was known, so it had been stamped
  have hstamped : .stamped k.page ∈ past := by
    cases job with
    | create => exact absurd haccess (by simp [Job.access])
    | visit p access =>
      obtain ⟨hpage, hknown⟩ := hon
      rw [hpage]
      exact h.stamped p hknown
  have hown : (w.system.bytes k).stampedFor = k.page.val := by
    rw [htended.bytes_eq List.mem_cons_self howns]
    apply Page.stampedFor_stamps
    rw [Ne, stampsOn_eq_zero_iff]
    exact not_not_intro hstamped
  have hwork : w.work i worker job k = w.setPhase i worker (.unpinning job k none) := by
    simp only [State.work, haccess, hown, if_true]
  have hfits : (Phase.unpinning job k none : Phase l size).Fits w.known.toList past :=
    ⟨howns, hon, rfl, fun _ => hstamped⟩
  rw [hwork]
  refine ⟨⟨worker.left, .unpinning job k none⟩, rfl, h.setPhase ?_ ?_ ?_ hfits hleft i⟩
  · rw [hguard]
    simp [Worker.guard?, haccess]
  · rw [Worker.untold?.eq_def worker, hphase]
    rfl
  · show worker.left - 1 ≤ worker.stampsLeft
    rw [Worker.stampsLeft, hphase]
    exact Nat.sub_le ..

/-- A worker that has its page stamps it, or finds the stamp there. -/
theorem work (h : Sound capacity origin total w (worker :: rest) past) {job : Job}
    {k : Handle l size} (hphase : worker.phase = .holding job k) (i : Nat) :
    ∃ worker', (w.work i worker job k).workers = w.workers.setIfInBounds i worker' ∧
      Sound capacity origin total (w.work i worker job k) (worker' :: rest)
        ((w.deedOf worker).toList ++ past) := by
  have hdeed : w.deedOf worker =
      if job.access = .write then some (.stamped k.page) else none := by
    rw [State.deedOf, hphase]
  rw [hdeed]
  cases haccess : job.access with
  | write => exact h.work_write hphase haccess i
  | read => exact h.work_read hphase haccess i

/-- A worker that is done with its page gives the pin back, and is told that it had one. -/
theorem unpin (h : Sound capacity origin total w (worker :: rest) past) {job : Job}
    {k : Handle l size} {trouble : Option Trouble}
    (hphase : worker.phase = .unpinning job k trouble) (i : Nat) :
    ∃ worker', (w.unpin i worker job k trouble).workers = w.workers.setIfInBounds i worker' ∧
      Sound capacity origin total (w.unpin i worker job k trouble) (worker' :: rest) past := by
  have hguard : worker.guard? = some ⟨k, job.access, job.access = .write⟩ := by
    rw [Worker.guard?, hphase]
  have huntold : ({ worker with phase := .telling job k } : Worker l size).untold? =
      worker.untold? := by
    rw [Worker.untold?.eq_def worker, hphase]
    rfl
  have hstamps : worker.stampsLeft = worker.left - 1 := by rw [Worker.stampsLeft, hphase]
  have hleft : 0 < worker.left := h.busy worker List.mem_cons_self (by rw [hphase]; simp)
  have hfits := h.fits worker List.mem_cons_self
  rw [hphase] at hfits
  obtain ⟨howns, hon, rfl, hstamped⟩ := hfits
  have htended := h.tended
  rw [List.filterMap_cons_some hguard] at htended
  refine ⟨⟨worker.left, .telling job k⟩, rfl, h.replace (htended.unpin howns) (List.Subset.refl _)
    (List.Subset.refl _) ⟨hon, hstamped⟩ (fun _ => hleft) ?_ h.stamped h.tally_created rfl ?_⟩
  · rw [List.filterMap_cons, huntold, ← List.filterMap_cons]
    exact h.told
  · rw [hstamps]
    exact Nat.le_refl _

/-- A job that is done is counted, and if a page was created it is known from then on. -/
theorem tell (h : Sound capacity origin total w (worker :: rest) past) {job : Job}
    {k : Handle l size} (hphase : worker.phase = .telling job k) (i : Nat) :
    ∃ worker', (w.tell i worker job k).workers = w.workers.setIfInBounds i worker' ∧
      Sound capacity origin total (w.tell i worker job k) (worker' :: rest) past := by
  have hguard : worker.guard? = none := by rw [Worker.guard?, hphase]
  have huntold : worker.untold? = job.creates? k.page := by rw [Worker.untold?, hphase]
  have hleft : 0 < worker.left := h.busy worker List.mem_cons_self (by rw [hphase]; simp)
  -- the job is off the count of those that are left, and on the tally
  have hstamps : stampsIn past + (worker.left - 1) ≤ stampsIn past + worker.stampsLeft := by
    rw [Worker.stampsLeft, hphase]
  have hfits := h.fits worker List.mem_cons_self
  rw [hphase] at hfits
  obtain ⟨-, hstamped⟩ := hfits
  have htended := h.tended
  rw [List.filterMap_cons_none hguard] at htended
  have htold := h.told
  cases job with
  | create =>
    rw [List.filterMap_cons_some huntold] at htold
    refine ⟨worker.next, rfl, h.replace htended ?_ (List.Subset.refl _) trivial (absurd rfl) ?_ ?_
      ?_ ?_ hstamps⟩
    · show w.known.toList ⊆ (w.known.push k.page).toList
      rw [Array.toList_push]
      exact List.subset_append_left ..
    · show ((w.known.push k.page).toList ++ rest.filterMap Worker.untold?).Perm (created past)
      rw [Array.toList_push, List.append_assoc]
      exact htold
    · intro p hp
      have hp : p ∈ (w.known.push k.page).toList := hp
      rw [Array.toList_push] at hp
      -- the page that becomes known was stamped in this job
      rcases List.mem_append.mp hp with hp | hp
      · exact h.stamped p hp
      · obtain rfl := List.mem_singleton.mp hp
        exact hstamped rfl
    · show w.tally.created + 1 = (w.known.push k.page).size
      rw [Array.size_push, h.tally_created]
    · show w.tally.created + 1 + w.tally.visited + w.tally.poolFull + (worker.left - 1) =
        w.tally.created + w.tally.visited + w.tally.poolFull + worker.left
      omega
  | visit p access =>
    rw [List.filterMap_cons_none huntold] at htold
    refine ⟨worker.next, rfl, h.replace htended (List.Subset.refl _) (List.Subset.refl _) trivial
      (absurd rfl) htold h.stamped h.tally_created ?_ hstamps⟩
    show w.tally.created + (w.tally.visited + 1) + w.tally.poolFull + (worker.left - 1) =
      w.tally.created + w.tally.visited + w.tally.poolFull + worker.left
    omega

omit [PageStore δ] [LawfulStore δ] in
/-- Only known pages are visited. -/
theorem fits_deal (w : State l size δ) (dice : Dice) (past : List Deed) :
    (Phase.asking (w.deal dice) : Phase l size).Fits w.known.toList past := by
  rw [State.deal]
  split
  · split
    · trivial
    · exact Array.mem_toList_iff.mpr (Array.getElem_mem _)
  · trivial

/-! ### One step, and all of them -/

/-- Whoever takes a step, and however chance falls out. -/
theorem step (h : Sound capacity origin total w w.workers.toList past) (hcomplete : l.Complete)
    (hids : l.width * total < UInt32.size) (i : Nat) (dice : Dice) :
    Sound capacity origin total (w.step i dice) (w.step i dice).workers.toList
      ((w.deed? i).toList ++ past) := by
  cases hi : w.workers[i]? with
  | none =>
    simp only [State.step, State.deed?, hi]
    exact h
  | some worker =>
    obtain ⟨rest, hperm, hset⟩ := exists_others hi
    have hfirst := h.perm hperm
    have hdeed : w.deed? i = w.deedOf worker := by rw [State.deed?, hi, Option.bind_some]
    have hgoes {w' : State l size δ} {past' : List Deed} (hgoes : ∃ worker',
        w'.workers = w.workers.setIfInBounds i worker' ∧
          Sound capacity origin total w' (worker' :: rest) past') :
        Sound capacity origin total w' w'.workers.toList past' := by
      obtain ⟨worker', hworkers, hsound⟩ := hgoes
      rw [hworkers]
      exact hsound.perm (hset worker').symm
    have hleft (hphase : worker.phase ≠ .ready) : 0 < worker.left :=
      hfirst.busy worker List.mem_cons_self hphase
    rw [hdeed]
    -- in most phases a step is no deed
    cases hphase : worker.phase with
    | ready =>
      have hnone : w.deedOf worker = none := by rw [State.deedOf, hphase]
      simp only [State.step, hi, hphase, hnone]
      split
      · exact h
      · next hjob =>
        refine hgoes ⟨_, rfl, hfirst.setPhase ?_ ?_ ?_ (fits_deal w dice past) (by omega) i⟩
        · simp only [Worker.guard?, hphase]
        · simp only [Worker.untold?, hphase]
        · simp only [Worker.stampsLeft, hphase, Nat.le_refl]
    | asking job =>
      have hnone : w.deedOf worker = none := by rw [State.deedOf, hphase]
      simp only [State.step, hi, hphase, hnone]
      exact hgoes (hfirst.ask hphase hcomplete hids i)
    | seeking shards =>
      simp only [State.step, hi, hphase]
      exact hgoes (hfirst.seek hphase hcomplete hids i)
    | latching job k =>
      have hnone : w.deedOf worker = none := by rw [State.deedOf, hphase]
      have hfits := hfirst.fits worker List.mem_cons_self
      rw [hphase] at hfits
      have hfits' : (Phase.holding job k : Phase l size).Fits w.known.toList past := hfits
      have hbusy : 0 < worker.left := hleft (by rw [hphase]; simp)
      simp only [State.step, hi, hphase, hnone]
      split
      · exact h
      · refine hgoes ⟨_, rfl, hfirst.setPhase ?_ ?_ ?_ hfits' hbusy i⟩
        · simp only [Worker.guard?, hphase]
        · simp only [Worker.untold?, hphase]
        · simp only [Worker.stampsLeft, hphase, Nat.le_refl]
    | holding job k =>
      simp only [State.step, hi, hphase]
      exact hgoes (hfirst.work hphase i)
    | unpinning job k trouble =>
      have hnone : w.deedOf worker = none := by rw [State.deedOf, hphase]
      simp only [State.step, hi, hphase, hnone]
      exact hgoes (hfirst.unpin hphase i)
    | telling job k =>
      have hnone : w.deedOf worker = none := by rw [State.deedOf, hphase]
      simp only [State.step, hi, hphase, hnone]
      exact hgoes (hfirst.tell hphase i)
    | stopped trouble =>
      have hfits := hfirst.fits worker List.mem_cons_self
      rw [hphase] at hfits
      exact hfits.elim

theorem run (h : Sound capacity origin total w w.workers.toList past) (hcomplete : l.Complete)
    (hids : l.width * total < UInt32.size) (schedule : List (Nat × Dice)) :
    Sound capacity origin total (w.run schedule) (w.run schedule).workers.toList
      (State.deeds schedule w ++ past) := by
  induction schedule generalizing w past with
  | nil => exact h
  | cons turn schedule ih =>
    have hstep := h.step hcomplete hids turn.1 turn.2
    have hrun := ih hstep
    rw [State.deeds, List.append_assoc]
    exact hrun

/-! ### At the end -/

theorem trouble?_eq_none (h : Sound capacity origin total w crew past) (hworker : worker ∈ crew) :
    worker.trouble? = none := by
  have hfits := h.fits worker hworker
  rw [Worker.trouble?]
  split
  · next trouble hphase =>
    rw [hphase] at hfits
    exact hfits.elim
  · rfl

/-- Workers that are done are ready, and have no more jobs. -/
theorem ready_of_finished (h : Sound capacity origin total w crew past) (hworker : worker ∈ crew)
    (hfinished : worker.finished = true) : worker.phase = .ready ∧ worker.left = 0 := by
  have hfits := h.fits worker hworker
  rw [Worker.finished] at hfinished
  split at hfinished
  · next hphase => exact ⟨hphase, by simpa using hfinished⟩
  · next hphase =>
    rw [hphase] at hfits
    exact hfits.elim
  · exact absurd hfinished (by simp)

/-- When all are done, nobody holds anything, all is told, and all is counted. -/
theorem of_finished (h : Sound capacity origin total w w.workers.toList past)
    (hfinished : w.finished = true) :
    w.system.Tended capacity origin [] past ∧ w.known.toList.Perm (created past) ∧
      w.tally.total = total := by
  -- a worker that is done is between jobs and has none left, so it holds no guard and has nothing
  -- to tell
  have hdone : ∀ worker ∈ w.workers.toList, worker.phase = .ready ∧ worker.left = 0 := by
    intro worker hworker
    rw [State.finished, Array.all_eq_true_iff_forall_mem] at hfinished
    exact h.ready_of_finished hworker (hfinished worker (Array.mem_toList_iff.mp hworker))
  have hguards : w.workers.toList.filterMap Worker.guard? = [] := by
    rw [List.filterMap_eq_nil_iff]
    intro worker hworker
    rw [Worker.guard?, (hdone worker hworker).1]
  have huntolds : w.workers.toList.filterMap Worker.untold? = [] := by
    rw [List.filterMap_eq_nil_iff]
    intro worker hworker
    rw [Worker.untold?, (hdone worker hworker).1]
  have hleft : (w.workers.toList.map Worker.left).sum = 0 := by
    apply List.sum_eq_zero_iff_forall_eq_nat.mpr
    intro n hn
    obtain ⟨worker, hworker, rfl⟩ := List.mem_map.mp hn
    exact (hdone worker hworker).2
  refine ⟨hguards ▸ h.tended, ?_, ?_⟩
  · have htold := h.told
    rw [huntolds, List.append_nil] at htold
    exact htold
  · have hjobs := h.jobs
    rw [hleft] at hjobs
    exact hjobs

end Sound

end PageCache.Workload
