import PageCache.Proofs.Pool.Creation
import PageCache.Proofs.Workload.Crew
import PageCache.Workload.Rounds

/-!
# Schedules

If nobody else takes a step, a worker that is to create a page gets what the pool would have given
it in one call (`State.run_create`): the steps of a worker are the calls of the pool, cut where
others can come between.

Rounds are a run like any other (`State.exists_schedule_rounds`), and the rounds that are run for a
number of jobs are enough for them (`State.finished_runJobs`): a step brings its worker nearer to
the end, or the worker is done, or it waits for a latch; and whoever keeps a latch from another does
not wait for one.
-/

namespace PageCache.Workload

variable {l : Layout} {size : Nat} {δ : Type}

/-! ## A worker on its own -/

namespace State

variable [PageStore δ] {w : State l size δ} {i : Nat} {worker : Worker l size}

omit [PageStore δ] in
/-- In what phase a worker was before makes no difference to how it goes on. -/
theorem proceed_setPhase (w : State l size δ) (i : Nat) (worker : Worker l size)
    (phase : Phase l size) (job : Job) (answer : Except Failure (Handle l size)) :
    (w.setPhase i worker phase).proceed i worker job answer = w.proceed i worker job answer := by
  unfold proceed
  split <;> simp only [setPhase, finish, Array.setIfInBounds_setIfInBounds]

/-- While nobody else takes a step, a worker tries the shards as the pool does. -/
theorem run_seeking (dice : Dice) (shards : List (Fin l.width))
    (hi : w.workers[i]? = some ⟨worker.left, .seeking shards⟩) :
    ∃ n, w.run (List.replicate n (i, dice)) =
      ({ w with system := (System.newPageAmong shards w.system).state } : State l size δ).proceed i
        worker .create (System.newPageAmong shards w.system).result := by
  induction shards generalizing w with
  | nil =>
    refine ⟨1, ?_⟩
    show w.step i dice = _
    rw [step, hi]
    rfl
  | cons shard rest ih =>
    have hstep : w.step i dice = w.seek i worker (shard :: rest) := by
      rw [step, hi]
      rfl
    by_cases hfull : w.system.Full shard
    · -- the worker stays in its place, with one shard less to try
      have hseek : w.step i dice = w.setPhase i worker (.seeking rest) := by
        have hresult : (w.system.newPageIn shard).result = .error (.storage .poolFull) := hfull
        simp only [hstep, seek, hresult, System.state_newPageIn_of_full hfull]
      obtain ⟨hlt, -⟩ := Array.getElem?_eq_some_iff.mp hi
      obtain ⟨n, hrun⟩ := ih (w := w.setPhase i worker (.seeking rest))
        (Array.getElem?_setIfInBounds_self_of_lt hlt)
      refine ⟨n + 1, ?_⟩
      show (w.step i dice).run (List.replicate n (i, dice)) = _
      rw [hseek, hrun, System.newPageAmong_of_full hfull, System.state_newPageIn_of_full hfull]
      exact proceed_setPhase { w with system := (System.newPageAmong rest w.system).state } i worker
        (.seeking rest) .create (System.newPageAmong rest w.system).result
    · obtain ⟨hresult, hstate⟩ := System.newPageAmong_cons hfull rest
      refine ⟨1, ?_⟩
      show w.step i dice = _
      rw [hstep, hresult, hstate, seek]
      split
      · next hfull' => exact absurd hfull' hfull
      · rfl

/-- So it gets what the pool would have given it. -/
theorem run_create (dice : Dice) (hi : w.workers[i]? = some ⟨worker.left, .asking .create⟩) :
    ∃ n, w.run (List.replicate n (i, dice)) =
      ({ w with system := w.system.newPage.state } : State l size δ).proceed i worker .create
        w.system.newPage.result := by
  obtain ⟨hresult, hstate⟩ := w.system.newPage_eq_among
  have hstep : w.step i dice = w.draw i worker := by
    rw [step, hi]
    rfl
  obtain ⟨hlt, -⟩ := Array.getElem?_eq_some_iff.mp hi
  obtain ⟨n, hrun⟩ := run_seeking (w := w.draw i worker) dice (l.tour w.system.pool.cursor)
    (Array.getElem?_setIfInBounds_self_of_lt hlt)
  refine ⟨n + 1, ?_⟩
  show (w.step i dice).run (List.replicate n (i, dice)) = _
  rw [hstep, hrun, hresult, hstate]
  let o := System.newPageAmong (l.tour w.system.pool.cursor) w.system.turned
  exact proceed_setPhase { w with system := o.state } i worker
    (.seeking (l.tour w.system.pool.cursor)) .create o.result

end State

/-! ## Rounds are a run -/

namespace State

variable [PageStore δ]

theorem run_append (w : State l size δ) (turns turns' : List (Nat × Dice)) :
    w.run (turns ++ turns') = (w.run turns).run turns' :=
  List.foldl_append

/-- A round is one step of each worker, with the dice as they fall. -/
theorem exists_schedule_round (w : State l size δ) (seed : Seed) :
    ∃ schedule, (w.round seed).1 = w.run schedule := by
  have hfold (is : List Nat) (w : State l size δ) (seed : Seed) : ∃ schedule,
      (is.foldl (fun a i => (a.1.step i a.2.dice.1, a.2.dice.2)) (w, seed)).1 =
        w.run schedule := by
    induction is generalizing w seed with
    | nil => exact ⟨[], rfl⟩
    | cons i is ih =>
      obtain ⟨schedule, hrun⟩ := ih (w.step i seed.dice.1) seed.dice.2
      exact ⟨(i, seed.dice.1) :: schedule, hrun⟩
  exact hfold (List.range w.workers.size) w seed

/-- Rounds are a schedule, one among many. -/
theorem exists_schedule_rounds (n : Nat) (w : State l size δ) (seed : Seed) :
    ∃ schedule, w.rounds n seed = w.run schedule := by
  -- over the rounds, each of which is a schedule of its own
  induction n generalizing w seed with
  | zero => exact ⟨[], rfl⟩
  | succ n ih =>
    rw [rounds]
    split
    · exact ⟨[], rfl⟩
    · obtain ⟨schedule, hround⟩ := w.exists_schedule_round seed
      obtain ⟨schedule', hrounds⟩ := ih (w.round seed).1 (w.round seed).2
      refine ⟨schedule ++ schedule', ?_⟩
      rw [run_append, ← hround]
      exact hrounds

end State

/-! ## Rounds come to an end -/

/-- How many steps of its own a worker needs at most until it is done. -/
def Worker.stepsLeft (worker : Worker l size) : Nat :=
  match worker.phase with
  | .ready => (l.width + 7) * worker.left
  | .asking _ => (l.width + 7) * (worker.left - 1) + (l.width + 6)
  | .seeking shards => (l.width + 7) * (worker.left - 1) + (shards.length + 5)
  | .latching .. => (l.width + 7) * (worker.left - 1) + 4
  | .holding .. => (l.width + 7) * (worker.left - 1) + 3
  | .unpinning .. => (l.width + 7) * (worker.left - 1) + 2
  | .telling .. => (l.width + 7) * (worker.left - 1) + 1
  | .stopped _ => 0

/-- A worker that has no steps left is done. -/
theorem Worker.finished_of_stepsLeft {worker : Worker l size} (h : worker.stepsLeft = 0) :
    worker.finished = true := by
  obtain ⟨left, phase⟩ := worker
  cases phase with
  | ready =>
    have hleft : (l.width + 7) * left = 0 := h
    rw [Nat.mul_eq_zero, or_iff_right (Nat.succ_ne_zero _)] at hleft
    exact decide_eq_true hleft
  | stopped => rfl
  | asking | seeking | latching | holding | unpinning | telling =>
    simp only [stepsLeft] at h
    omega

theorem Layout.length_tour (l : Layout) (start : Fin l.width) :
    (l.tour start).length = l.width := by
  rw [Layout.tour, List.length_map, List.length_range]

namespace State

def stepsLeft (w : State l size δ) : Nat :=
  (w.workers.toList.map Worker.stepsLeft).sum

/-- When one worker gets on, there are fewer steps left in all. -/
theorem stepsLeft_lt {w w' : State l size δ} {i : Nat} {worker worker' : Worker l size}
    (hi : w.workers[i]? = some worker) (hworkers : w'.workers = w.workers.setIfInBounds i worker')
    (hlt : worker'.stepsLeft < worker.stepsLeft) : w'.stepsLeft < w.stepsLeft := by
  obtain ⟨rest, hperm, hset⟩ := exists_others hi
  rw [stepsLeft, stepsLeft, hworkers, ((hset worker').map _).sum_eq, (hperm.map _).sum_eq,
    List.map_cons, List.map_cons, List.sum_cons, List.sum_cons]
  exact Nat.add_lt_add_right hlt _

/-- The latch that the worker wants is kept from it. -/
def Waits (w : State l size δ) (worker : Worker l size) : Prop :=
  ∃ job h, worker.phase = .latching job h ∧ w.workers.any (·.keepsOut h job.access) = true

/-- A worker that has its answer goes on to less than it had to do. -/
theorem proceed_cases (w : State l size δ) (i : Nat) (worker : Worker l size) (job : Job)
    (answer : Except Failure (Handle l size)) :
    ∃ worker', (w.proceed i worker job answer).workers = w.workers.setIfInBounds i worker' ∧
      worker'.stepsLeft ≤ (l.width + 7) * (worker.left - 1) + 4 := by
  rw [proceed.eq_def]
  split
  · exact ⟨_, rfl, Nat.le_refl _⟩
  · exact ⟨_, rfl, Nat.le_add_right ..⟩
  · exact ⟨_, rfl, Nat.zero_le _⟩

variable [PageStore δ]

/-- In its turn a worker gets on, unless it is done or waits. -/
theorem step_cases {w : State l size δ} {i : Nat} {worker : Worker l size}
    (hi : w.workers[i]? = some worker) (dice : Dice) :
    (w.step i dice = w ∧ (worker.finished = true ∨ w.Waits worker)) ∨
      ∃ worker', (w.step i dice).workers = w.workers.setIfInBounds i worker' ∧
        worker'.stepsLeft < worker.stepsLeft := by
  obtain ⟨left, phase⟩ := worker
  cases phase with
  | ready =>
    simp only [step, hi]
    split
    · next hleft => exact .inl ⟨rfl, .inl (decide_eq_true hleft)⟩
    · next hleft =>
      refine .inr ⟨_, rfl, ?_⟩
      obtain ⟨m, rfl⟩ := Nat.exists_eq_succ_of_ne_zero hleft
      -- a job is as many steps as it can take at most: a tour of the shards and seven more
      show (l.width + 7) * m + (l.width + 6) < (l.width + 7) * (m + 1)
      rw [Nat.mul_succ]
      omega
  | asking job =>
    simp only [step, hi]
    cases job with
    | create =>
      refine .inr ⟨_, rfl, ?_⟩
      show (l.width + 7) * (left - 1) + ((l.tour w.system.pool.cursor).length + 5) <
        (l.width + 7) * (left - 1) + (l.width + 6)
      rw [Layout.length_tour]
      omega
    | visit p access =>
      obtain ⟨worker', hworkers, hle⟩ := proceed_cases
        { w with system := (w.system.fetch p).state } i ⟨left, .asking (.visit p access)⟩
        (.visit p access) (w.system.fetch p).result
      refine .inr ⟨worker', hworkers, Nat.lt_of_le_of_lt hle ?_⟩
      exact Nat.add_lt_add_left (by omega : 4 < l.width + 6) _
  | seeking shards =>
    simp only [step, hi]
    cases shards with
    | nil =>
      obtain ⟨worker', hworkers, hle⟩ := w.proceed_cases i ⟨left, .seeking []⟩ .create
        (.error (.storage .poolFull))
      exact .inr ⟨worker', hworkers, Nat.lt_of_le_of_lt hle (Nat.lt_succ_self _)⟩
    | cons shard rest =>
      rw [seek]
      split
      · exact .inr ⟨_, rfl, Nat.lt_succ_self _⟩
      · obtain ⟨worker', hworkers, hle⟩ := proceed_cases
          { w with system := (w.system.newPageIn shard).state } i ⟨left, .seeking (shard :: rest)⟩
          .create (w.system.newPageIn shard).result
        refine .inr ⟨worker', hworkers, Nat.lt_of_le_of_lt hle ?_⟩
        exact Nat.add_lt_add_left (by omega : 4 < rest.length + 1 + 5) _
  | latching job h =>
    simp only [step, hi]
    split
    · -- the worker waits for the latch of the frame
      next hany => exact .inl ⟨rfl, .inr ⟨job, h, rfl, hany⟩⟩
    · exact .inr ⟨_, rfl, Nat.lt_succ_self _⟩
  | holding job h =>
    simp only [step, hi, work]
    split <;> exact .inr ⟨_, rfl, Nat.lt_succ_self _⟩
  | unpinning job h trouble =>
    simp only [step, hi]
    cases trouble with
    | none => exact .inr ⟨_, rfl, Nat.lt_succ_self _⟩
    | some trouble => exact .inr ⟨_, rfl, Nat.succ_pos _⟩
  | telling job h =>
    simp only [step, hi]
    cases job <;> exact .inr ⟨_, rfl, Nat.lt_succ_self _⟩
  | stopped trouble =>
    simp only [step, hi]
    exact .inl ⟨trivial, .inl rfl⟩

/-- Worker `i` cannot get on, be it done or waiting. -/
def Stuck (w : State l size δ) (i : Nat) : Prop :=
  ∀ worker, w.workers[i]? = some worker → worker.finished = true ∨ w.Waits worker

/-- Every turn gets the work on, or is that of a worker who is stuck. -/
theorem step_progress (w : State l size δ) (i : Nat) (dice : Dice) :
    (w.step i dice = w ∧ w.Stuck i) ∨ (w.step i dice).stepsLeft < w.stepsLeft := by
  cases hi : w.workers[i]? with
  | none =>
    refine .inl ⟨?_, fun worker hworker => absurd (hi.symm.trans hworker) (by simp)⟩
    simp only [step, hi]
  | some worker =>
    rcases step_cases hi dice with ⟨hsame, hstuck⟩ | ⟨worker', hworkers, hlt⟩
    · refine .inl ⟨hsame, fun other hother => ?_⟩
      obtain rfl := Option.some.inj (hi.symm.trans hother)
      exact hstuck
    · exact .inr (stepsLeft_lt hi hworkers hlt)

omit [PageStore δ] in
/-- Not everybody waits: who keeps a latch from others has it already. -/
theorem finished_of_stuck {w : State l size δ} (h : ∀ i < w.workers.size, w.Stuck i) :
    w.finished = true := by
  have hstuck (worker : Worker l size) (hworker : worker ∈ w.workers) :
      worker.finished = true ∨ w.Waits worker := by
    obtain ⟨i, hi, hget⟩ := Array.mem_iff_getElem.mp hworker
    exact h i hi worker (Array.getElem?_eq_some_iff.mpr ⟨hi, hget⟩)
  rw [finished, Array.all_eq_true_iff_forall_mem]
  intro worker hworker
  rcases hstuck worker hworker with hfinished | ⟨job, k, -, hany⟩
  · exact hfinished
  · obtain ⟨other, hother, hkeeps⟩ := Array.any_eq_true'.mp hany
    have hholds : ∃ job' mine, other.phase = .holding job' mine := by
      rw [Worker.keepsOut.eq_def] at hkeeps
      split at hkeeps
      · next job' mine hphase => exact ⟨job', mine, hphase⟩
      · exact absurd hkeeps (by simp)
    obtain ⟨job', mine, hphase⟩ := hholds
    rcases hstuck other hother with hdone | ⟨job'', k', hlatching, -⟩
    · rw [Worker.finished, hphase] at hdone
      exact absurd hdone (by simp)
    · exact absurd (hphase.symm.trans hlatching) (by simp)

/-- In a round somebody gets on, unless all are done. -/
theorem round_progress (w : State l size δ) (seed : Seed) :
    w.finished = true ∨ (w.round seed).1.stepsLeft < w.stepsLeft := by
  -- either somebody gets on in the course of the round, or nobody moves and all the turns are taken
  -- in one state
  have hfold (is : List Nat) (w : State l size δ) (seed : Seed) :
      (is.foldl (fun a i => (a.1.step i a.2.dice.1, a.2.dice.2)) (w, seed)).1.stepsLeft <
          w.stepsLeft ∨
        (is.foldl (fun a i => (a.1.step i a.2.dice.1, a.2.dice.2)) (w, seed)).1 = w ∧
          ∀ i ∈ is, w.Stuck i := by
    induction is generalizing w seed with
    | nil => exact .inr ⟨rfl, fun i hi => absurd hi List.not_mem_nil⟩
    | cons i is ih =>
      rcases w.step_progress i seed.dice.1 with ⟨hsame, hstuck⟩ | hlt
      · rw [List.foldl_cons, hsame]
        exact (ih w seed.dice.2).imp_right fun ⟨hrest, hall⟩ =>
          ⟨hrest, List.forall_mem_cons.mpr ⟨hstuck, hall⟩⟩
      · rw [List.foldl_cons]
        rcases ih (w.step i seed.dice.1) seed.dice.2 with hlt' | ⟨hrest, -⟩
        · exact .inl (Nat.lt_trans hlt' hlt)
        · rw [hrest]
          exact .inl hlt
  rcases hfold (List.range w.workers.size) w seed with hlt | ⟨-, hstuck⟩
  · exact .inr hlt
  · exact .inl (finished_of_stuck fun i hi => hstuck i (List.mem_range.mpr hi))

/-- After as many rounds as there are steps left, the work is done. -/
theorem finished_rounds {n : Nat} {w : State l size δ} (h : w.stepsLeft ≤ n) (seed : Seed) :
    (w.rounds n seed).finished = true := by
  -- over the rounds; while there is work left, somebody gets on in each of them
  induction n generalizing w seed with
  | zero =>
    rw [rounds, finished, Array.all_eq_true_iff_forall_mem]
    intro worker hworker
    apply Worker.finished_of_stepsLeft
    have hmem : worker.stepsLeft ∈ w.workers.toList.map Worker.stepsLeft :=
      List.mem_map_of_mem (Array.mem_toList_iff.mpr hworker)
    exact List.sum_eq_zero_iff_forall_eq_nat.mp (Nat.le_zero.mp h) _ hmem
  | succ n ih =>
    rw [rounds]
    split
    · next hfinished => exact hfinished
    · next hrunning =>
      have hlt := (w.round_progress seed).resolve_left hrunning
      exact ih (Nat.le_of_lt_succ (Nat.lt_of_lt_of_le hlt h)) _

/-- However chance falls out, everybody comes to an end. -/
theorem finished_runJobs (system : System l size δ) (workers jobs : Nat) (seed : Seed) :
    ((start system workers jobs).runJobs jobs seed).finished = true := by
  apply finished_rounds
  have hworkers : (start system workers jobs).workers.toList =
      List.replicate workers ⟨jobs, .ready⟩ := Array.toList_replicate
  have hsize : (start system workers jobs).workers.size = workers := Array.size_replicate
  have hsteps : (⟨jobs, .ready⟩ : Worker l size).stepsLeft = (l.width + 7) * jobs := rfl
  rw [stepsLeft, hworkers, hsize, List.map_replicate, List.sum_replicate_nat, hsteps,
    Nat.mul_left_comm, ← Nat.mul_assoc]
  exact Nat.le_succ _

end State

end PageCache.Workload
