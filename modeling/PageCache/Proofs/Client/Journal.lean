import PageCache.Proofs.Client.Errands
import PageCache.Proofs.Client.Placed

/-!
# The errands of a history

What a client asks of a pool comes down to errands of its shards. `Client.errands` lists those of a
history, in order and each with the shard as it was found; they can be told from the steps alone. A
`Journal` is such a list together with what it has led to, and a `Diary` is what there is in it of
one shard. So what is to be said of the errands of a history is proved by induction on diaries
(`Client.diary_of_history`).
-/

namespace PageCache

variable {l : Layout} {size : Nat} {δ : Type} [PageStore δ]

/-- What is in a list with one more at its end is the last there, or was there before. -/
theorem split_of_concat {α : Type} {xs past since : List α} {x last : α}
    (h : xs ++ [last] = past ++ x :: since) :
    (past = xs ∧ x = last ∧ since = []) ∨
      ∃ rest, since = rest ++ [last] ∧ xs = past ++ x :: rest := by
  -- nothing came after it, or the last one is the last of what came after
  rcases List.eq_nil_or_concat since with rfl | ⟨rest, y, rfl⟩
  · obtain ⟨rfl, hlast⟩ := List.append_inj' h rfl
    exact .inl ⟨rfl, (List.singleton_inj.mp hlast).symm, rfl⟩
  · rw [List.concat_eq_append, ← List.cons_append, ← List.append_assoc] at h
    obtain ⟨hxs, hlast⟩ := List.append_inj' h rfl
    obtain rfl := List.singleton_inj.mp hlast
    exact .inr ⟨rest, List.concat_eq_append, hxs⟩

/-- Records that agree tell the same of table and frames. -/
theorem Shard.Kept.mapped {sh : Shard size} {s : Stripe} {capacity : Nat} {spare : List (Fin size)}
    (h : sh.Kept s capacity spare) : sh.Mapped spare :=
  ⟨h.holds, fun _ _ _ => h.table_of_holds, h.spare_nodup, fun hf => (h.spare_idle hf).holds⟩

/-! ## Pools to start with -/

namespace Blueprint

/-- In a pool that was just built no page lies anywhere. -/
theorem mapped_of_build {b : Blueprint} {built : AnyPool} (hbuild : b.build = .ok built)
    (i : Fin built.layout.width) :
    (built.pool.shard i).Mapped (built.pool.shard i).free := by
  obtain ⟨recency, hshard⟩ := fresh_of_build hbuild i
  rw [hshard]
  exact .fresh _ recency

/-- In a pool that was just built no page has a record. -/
theorem record?_of_build {b : Blueprint} {built : AnyPool} (hbuild : b.build = .ok built)
    (i : Fin built.layout.width) (p : PageId) : (built.pool.shard i).record? p = none := by
  obtain ⟨recency, hshard⟩ := fresh_of_build hbuild i
  rw [hshard, Shard.record?_eq_none_iff]
  exact Std.ExtTreeMap.getElem?_empty

end Blueprint

/-! ## One shard -/

/-- Shard `i` was `b₀`, was sent on these errands, the first of them first, and is `b` now. The disk
may have changed in between. No page was created that was resident. -/
inductive Diary (i : Fin l.width) (b₀ : Backed size δ) :
    List (Errand l size δ) → Backed size δ → Prop
  | start : Diary i b₀ [] b₀
  | errand {es : List (Errand l size δ)} {b : Backed size δ} (h : Diary i b₀ es b)
      (op : ShardOp size) (hspared : b.Spares (l.stripe i) op) :
      Diary i b₀ (es ++ [⟨i, b, op⟩]) (b.ask (l.stripe i) op)
  | beside {es : List (Errand l size δ)} {b : Backed size δ} (h : Diary i b₀ es b) (disk : δ) :
      Diary i b₀ es { b with disk }

namespace Errand

/-- The errands of shard `i`. -/
def of (i : Fin l.width) (es : List (Errand l size δ)) : List (Errand l size δ) :=
  es.filter fun e => e.shard = i

omit [PageStore δ] in
/-- The errands of a shard in two parts of a list are those in the whole. -/
theorem of_append (i : Fin l.width) (es es' : List (Errand l size δ)) :
    of i (es ++ es') = of i es ++ of i es' :=
  List.filter_append ..

omit [PageStore δ] in
theorem of_self (e : Errand l size δ) : of e.shard [e] = [e] := by
  simp [of]

omit [PageStore δ] in
theorem of_of_ne {e : Errand l size δ} {i : Fin l.width} (hi : e.shard ≠ i) : of i [e] = [] := by
  simp [of, hi]

end Errand

namespace Backed

/-- A page that is not resident before a frame is sought for it is not resident after that. -/
theorem makesAbsent_of_spares {s : Stripe} {b : Backed size δ} (h : b.Spares s .newPage) :
    b.MakesAbsent s :=
  fun hresult => b.search.table_none (h hresult)

/-- A shard that is asked keeps each resident page to one frame, unless it creates a page that it
has. -/
theorem mapped_ask {s : Stripe} {b : Backed size δ} (h : b.shard.Mapped b.shard.free)
    {op : ShardOp size} (hspared : b.Spares s op) :
    (b.ask s op).shard.Mapped (b.ask s op).shard.free := by
  refine placed_ask h fun _ hop => ?_
  subst hop
  exact makesAbsent_of_spares hspared

end Backed

namespace Diary

variable {i : Fin l.width} {b₀ b : Backed size δ} {es : List (Errand l size δ)}

/-- In the course of a diary each resident page keeps to one frame. -/
theorem mapped (h : Diary i b₀ es b) (h₀ : b₀.shard.Mapped b₀.shard.free) :
    b.shard.Mapped b.shard.free := by
  induction h with
  | start => exact h₀
  | errand _ _ hspared ih => exact Backed.mapped_ask ih hspared
  | beside _ _ ih => exact ih

/-- In the course of a diary the records stay in agreement. -/
theorem kept [LawfulStore δ] {capacity : Nat} (h : Diary i b₀ es b)
    (h₀ : b₀.shard.Kept (l.stripe i) capacity b₀.shard.free) :
    b.shard.Kept (l.stripe i) capacity b.shard.free := by
  induction h with
  | start => exact h₀
  | errand _ _ hspared ih => exact Backed.kept_ask ih hspared
  | beside _ _ ih => exact ih

/-- What the record of a page was at each errand, and what it is now: `P` may say of the errands and
the record whatever the steps of a record keep. -/
theorem record {P : List (Errand l size δ) → Option (Nat × Bool) → Prop} {p : PageId}
    (h : Diary i b₀ es b) (h₀ : b₀.shard.Mapped b₀.shard.free)
    (hstart : P [] (b₀.shard.record? p))
    (hstep : ∀ {es : List (Errand l size δ)} {e : Errand l size δ} {r : Option (Nat × Bool)},
      P es (e.found.shard.record? p) → e.Accounted →
      RecordStep (e.found.shard.record? p) (e.concern p) (e.saved p) r → P (es ++ [e]) r) :
    P es (b.shard.record? p) := by
  induction h with
  | start => exact hstart
  | @errand es b h op hspared ih =>
    -- the record is that of before, and takes the step that the errand accounts for
    have haccounted := Errand.accounted ⟨i, b, op⟩ (h.mapped h₀) hspared
    exact hstep ih haccounted (haccounted.record p)
  | beside _ _ ih => exact ih

/-- Every errand in a diary is accounted for by the record of each page. -/
theorem accounted (h : Diary i b₀ es b) (h₀ : b₀.shard.Mapped b₀.shard.free) :
    ∀ e ∈ es, e.Accounted := by
  induction h with
  | start => simp
  | @errand es b h op hspared ih =>
    refine List.forall_mem_append.mpr ⟨ih, ?_⟩
    exact List.forall_mem_singleton.mpr (Errand.accounted ⟨i, b, op⟩ (h.mapped h₀) hspared)
  | beside _ _ ih => exact ih

end Diary

/-! ## All shards -/

/-- The pool was `w₀`, its shards were sent on these errands, and it is `w` now. Past the shards,
the disk changes as `B` allows. -/
inductive Journal (B : δ → δ → Prop) (w₀ : System l size δ) :
    List (Errand l size δ) → System l size δ → Prop
  | start : Journal B w₀ [] w₀
  | errand {es : List (Errand l size δ)} {w : System l size δ} (h : Journal B w₀ es w)
      (i : Fin l.width) (op : ShardOp size) (hspared : (w.backed i).Spares (l.stripe i) op) :
      Journal B w₀ (es ++ [⟨i, w.backed i, op⟩]) (w.serve i op).state
  | turn {es : List (Errand l size δ)} {w : System l size δ} (h : Journal B w₀ es w)
      (cursor : Fin l.width) : Journal B w₀ es ⟨{ w.pool with cursor }, w.disk⟩
  | beside {es : List (Errand l size δ)} {w : System l size δ} (h : Journal B w₀ es w) (disk : δ)
      (hdisk : B w.disk disk) : Journal B w₀ es ⟨w.pool, disk⟩

namespace System

/-- The errands that a log of exchanges comes to. -/
def errandsOf : List (Exchange l size) → System l size δ → List (Errand l size δ)
  | [], _ => []
  | e :: log, w =>
    ⟨e.shard, w.backed e.shard, e.op⟩ :: errandsOf log (w.serve e.shard e.op).state

/-- The errands that calls come to, one call after the other. -/
def errands : List (PoolOp l size) → System l size δ → List (Errand l size δ)
  | [], _ => []
  | call :: calls, w =>
    errandsOf (w.exchanges call) (w.turnedBy call) ++ errands calls (w.call call).state

/-- No exchange of the log creates a page that its shard has. -/
def Spared : List (Exchange l size) → System l size δ → Prop
  | [], _ => True
  | e :: log, w => (w.backed e.shard).Spares (l.stripe e.shard) e.op ∧
      Spared log (w.serve e.shard e.op).state

/-- The call creates no page that is resident. -/
def SparesPages (w : System l size δ) : PoolOp l size → Prop
  | .newPage => ∀ k, w.newPage.result = .ok k → ∀ i, (w.pool.shard i).table[k.page]? = none
  | .direct i op => (w.backed i).Spares (l.stripe i) op
  | _ => True

variable {w : System l size δ}

/-- What creates no pages asks for none that are there. -/
theorem spared_scanned (op : ShardOp size)
    (hop : ∀ (s : Stripe) (b : Backed size δ), b.Spares s op)
    (goesOn : Except Failure (ShardReply size) → Bool) (shards : List (Fin l.width))
    (w : System l size δ) : Spared (scanned op goesOn shards w) w := by
  induction shards generalizing w with
  | nil => trivial
  | cons i rest ih =>
    rw [scanned]
    refine ⟨hop _ _, ?_⟩
    split
    · exact ih _
    · trivial

/-- Shards that are full create nothing, and the one that creates a page is the last to be asked. -/
theorem spared_scanned_newPage (shards : List (Fin l.width))
    (h : ∀ k, (newPageAmong shards w).result = .ok k →
      ∀ i, (w.pool.shard i).table[k.page]? = none) :
    Spared (scanned .newPage saysFull shards w) w := by
  induction shards with
  | nil => trivial
  | cons i rest ih =>
    rw [scanned]
    refine ⟨fun {p f} hresult => ?_, ?_⟩
    · -- this is the shard that creates the page: nobody has it yet
      have hin : (w.newPageIn i).result = .ok ⟨p, i, f⟩ := by
        rw [result_newPageIn, hresult]
        rfl
      rw [newPageAmong_of_ok hin] at h
      exact h _ rfl i
    · split
      · next hgo =>
        -- it is full, so it was left as it was, and the rest is asked
        have hfull := (w.saysFull_serve i).mp hgo
        have hstate : (w.serve i .newPage).state = w := state_newPageIn_of_full hfull
        rw [newPageAmong_of_full hfull, state_newPageIn_of_full hfull] at h
        rw [hstate]
        exact ih h
      · trivial

/-- A call that creates no resident page has none created by its exchanges. -/
theorem spared_exchanges {call : PoolOp l size} (h : w.SparesPages call) :
    Spared (w.exchanges call) (w.turnedBy call) := by
  cases call with
  | newPage =>
    refine spared_scanned_newPage (w := w.turned) _ fun k hk => h k ?_
    exact w.newPage_eq_among.1.trans hk
  | direct i op => exact ⟨h, trivial⟩
  | fetch p => exact spared_scanned (.fetch p) (fun _ _ => trivial) _ _ _
  | unpin p dirty => exact spared_scanned (.unpin p dirty) (fun _ _ => trivial) _ _ _
  | delete p => exact spared_scanned (.delete p) (fun _ _ => trivial) _ _ _
  | flush p => exact spared_scanned (.flush p) (fun _ _ => trivial) _ _ _
  | flushAll visit => exact spared_scanned (.flushAll visit) (fun _ _ => trivial) _ _ _

end System

namespace Journal

variable {B : δ → δ → Prop} {w₀ w : System l size δ} {es : List (Errand l size δ)}

/-- What there is in it of one shard. -/
theorem diary (h : Journal B w₀ es w) (i : Fin l.width) :
    Diary i (w₀.backed i) (Errand.of i es) (w.backed i) := by
  induction h with
  | start => exact .start
  | @errand es w _ j op hspared ih =>
    rw [Errand.of_append]
    -- an errand of this shard is entered; of another, only the disk is seen to change
    by_cases hji : j = i
    · subst hji
      have hself : Errand.of j [⟨j, w.backed j, op⟩] = [⟨j, w.backed j, op⟩] := Errand.of_self _
      rw [hself, System.backed_serve, Backed.state_serve]
      exact ih.errand op hspared
    · have hnone : Errand.of i [⟨j, w.backed j, op⟩] = [] := Errand.of_of_ne hji
      have hbacked : (w.serve j op).state.backed i =
          { w.backed i with disk := (w.serve j op).state.disk } :=
        congrArg (Backed.mk · _) (w.shard_serve_of_ne op hji)
      rw [hnone, List.append_nil, hbacked]
      exact ih.beside _
  | turn _ _ ih => exact ih
  | beside _ disk _ ih => exact ih.beside disk

/-- What is asked of the shards is entered, one errand after the other. -/
theorem replay {log : List (Exchange l size)} (h : Journal B w₀ es w) (hlog : System.Spared log w) :
    Journal B w₀ (es ++ System.errandsOf log w) (w.replay log) := by
  induction log generalizing w es with
  | nil =>
    rw [System.errandsOf, List.append_nil]
    exact h
  | cons e log ih =>
    obtain ⟨hspared, hlog⟩ := hlog
    have hnext := ih (h.errand e.shard e.op hspared) hlog
    rw [List.append_assoc] at hnext
    exact hnext

/-- A call turns the cursor, and is entered as the errands of its exchanges. -/
theorem call {c : PoolOp l size} (h : Journal B w₀ es w) (hc : w.SparesPages c) :
    Journal B w₀ (es ++ System.errandsOf (w.exchanges c) (w.turnedBy c)) (w.call c).state := by
  rw [(w.call_told c).state]
  have hturned : Journal B w₀ es (w.turnedBy c) := h.turn (c.turn w.pool.cursor)
  exact hturned.replay (System.spared_exchanges hc)

end Journal

/-! ## What a client asks of a pool -/

/-- What is asked of all of the pool, or of the one shard that is addressed. -/
def Scope.call (scope : Scope l) (whole : PoolOp l size) (one : ShardOp size) : PoolOp l size :=
  match scope with
  | .whole => whole
  | .only i => .direct i one

namespace System

/-- None of the calls creates a page that is resident. -/
def SparesAll : List (PoolOp l size) → System l size δ → Prop
  | [], _ => True
  | call :: calls, w => w.SparesPages call ∧ SparesAll calls (w.call call).state

end System

/-- Calls one after the other are entered, each as the errands it comes to. -/
theorem Journal.after {B : δ → δ → Prop} {w₀ w : System l size δ} {es : List (Errand l size δ)}
    {calls : List (PoolOp l size)} (h : Journal B w₀ es w) (hcalls : System.SparesAll calls w) :
    Journal B w₀ (es ++ w.errands calls) (w.after calls) := by
  induction calls generalizing w es with
  | nil =>
    rw [System.errands, List.append_nil]
    exact h
  | cons call calls ih =>
    have hnext := ih (h.call hcalls.1) hcalls.2
    rw [List.append_assoc] at hnext
    exact hnext

namespace Client

/-- What it takes to let go of the guard of that name. -/
def lettingGo (c : Client l size) (name : String) : List (PoolOp l size) :=
  match c.guards[name]? with
  | none => []
  | some g => [.unpin g.handle.page g.modified]

/-- The calls of the pool that an operation comes to. The requests to the disk are none. -/
def asksFor (c : Client l size) (scope : Scope l) : Op → List (PoolOp l size)
  | .newPage _ => [scope.call .newPage .newPage]
  | .fetch p _ => [scope.call (.fetch p) (.fetch p)]
  | .unpin p dirty => [scope.call (.unpin p dirty) (.unpin p dirty)]
  | .delete p => [scope.call (.delete p) (.delete p)]
  | .flush p => [scope.call (.flush p) (.flush p)]
  | .flushAll visit => [scope.call (.flushAll visit) (.flushAll visit)]
  | .newGuard name =>
    scope.call .newPage .newPage ::
      if (c.newHandle scope).result.isOk then c.lettingGo name else []
  | .fetchGuard _ p name =>
    scope.call (.fetch p) (.fetch p) ::
      if (c.fetchHandle scope p).result.isOk then c.lettingGo name else []
  | .dropGuard name => c.lettingGo name
  | .writeHandle name edits =>
    match c.handles[name]? with
    | none => []
    | some h => [.direct h.shard (.reach h.frame (Page.edit edits))]
  | .writeGuard name edits =>
    match c.guards[name]? with
    | none => []
    | some g =>
      match g.access with
      | .read => []
      | .write => [.direct g.handle.shard (.reach g.handle.frame (Page.edit edits))]
  | _ => []

def asks (c : Client l size) (step : Step) : List (PoolOp l size) :=
  match l.scope? step.shard with
  | none => []
  | some scope => c.asksFor scope step.op

/-- The state that the steps of a log lead to. -/
def afterLog (log : List Entry) (c : Client l size) : Client l size :=
  log.foldl (fun c entry => (c.take entry.step).state) c

/-- The errands that the steps of a log come to, the first of them first. -/
def errands : List Entry → Client l size → List (Errand l size Disk)
  | [], _ => []
  | entry :: log, c =>
    c.system.errands (c.asks entry.step) ++ errands log (c.take entry.step).state

variable {c : Client l size} {scope : Scope l}

/-- One more step adds the errands that it comes to in the state it finds. -/
theorem errands_concat (log : List Entry) (entry : Entry) (c : Client l size) :
    c.errands (log ++ [entry]) =
      c.errands log ++ (afterLog log c).system.errands ((afterLog log c).asks entry.step) := by
  -- the steps before it are the same ones
  induction log generalizing c with
  | nil => exact List.append_nil _
  | cons first log ih =>
    show _ ++ errands (log ++ [entry]) _ = _
    rw [ih, ← List.append_assoc]
    rfl

/-- The steps of a history lead to its last state. -/
theorem History.afterLog_eq {allowed : List Entry → Client l size → Step → Prop}
    {c₀ : Client l size} {log : List Entry} (h : History allowed c₀ log c) :
    afterLog log c₀ = c := by
  induction h with
  | start => rfl
  | @step log _ _ step _ ih =>
    have hconcat (entry : Entry) :
        afterLog (log ++ [entry]) c₀ = ((afterLog log c₀).take entry.step).state :=
      List.foldl_append
    rw [hconcat, ih]

/-! ## Nothing else is asked -/

/-- Creating a page is one call of the pool. -/
theorem state_newHandle (c : Client l size) (scope : Scope l) :
    (c.newHandle scope).state.system =
      (c.system.call (scope.call .newPage .newPage)).state := by
  cases scope <;> rfl

/-- Fetching a page is one call of the pool. -/
theorem state_fetchHandle (c : Client l size) (scope : Scope l) (p : PageId) :
    (c.fetchHandle scope p).state.system =
      (c.system.call (scope.call (.fetch p) (.fetch p))).state := by
  cases scope <;> rfl

/-- Giving a guard a name is to let go of the one that had it. -/
theorem state_hold (c : Client l size) (name : String) (g : Guard l size) :
    (c.hold name g).state.system = c.system.after (c.lettingGo name) := by
  rw [hold, lettingGo]
  cases c.guards[name]? with
  | none => rfl
  | some old => rw [state_release]; rfl

/-- Dropping a name is to let go of its guard. -/
theorem state_dropGuard (c : Client l size) (name : String) :
    (c.dropGuard name).state.system = c.system.after (c.lettingGo name) := by
  rw [dropGuard, lettingGo]
  cases c.guards[name]? with
  | none => rfl
  | some old =>
    rw [Outcome.state_map, state_release]
    rfl

/-- A handle is had, and put under a name. -/
theorem state_andThen_hold {α : Type} {o : Outcome (Client l size) α} {call : PoolOp l size}
    (ho : o.state.system = (c.system.call call).state) (hguards : o.state.guards = c.guards)
    {name : String} {next : α → Client l size → Outcome (Client l size) Reply}
    (hnext : ∀ a c', (next a c').state.system = c'.system.after (c'.lettingGo name)) :
    (o.andThen next).state.system =
      c.system.after (call :: if o.result.isOk then c.lettingGo name else []) := by
  show _ = (c.system.call call).state.after _
  -- no handle, no guard: nobody has to let go of anything
  cases hresult : o.result with
  | error e =>
    rw [Outcome.andThen_of_error hresult]
    exact ho
  | ok a =>
    rw [Outcome.andThen_of_ok hresult, Outcome.state_after, hnext, ho, lettingGo, hguards]
    rfl

/-- But for requests to the disk, nothing becomes of the pool that its calls do not make of it. -/
theorem system_perform (c : Client l size) (scope : Scope l) {op : Op}
    (hop : ∀ r, op ≠ .disk r) :
    (c.perform scope op).state.system = c.system.after (c.asksFor scope op) := by
  cases op with
  | disk r => exact absurd rfl (hop r)
  | newPage name =>
    refine Outcome.state_andThen (P := fun c' : Client l size => c'.system = _) ?_ fun _ _ => ?_
    all_goals exact state_newHandle c scope
  | fetch p name =>
    refine Outcome.state_andThen (P := fun c' : Client l size => c'.system = _) ?_ fun _ _ => ?_
    all_goals exact state_fetchHandle c scope p
  | newGuard name =>
    exact state_andThen_hold (state_newHandle c scope) (guards_newHandle c scope)
      fun h c' => state_hold c' name _
  | fetchGuard access p name =>
    exact state_andThen_hold (state_fetchHandle c scope p) (guards_fetchHandle c scope p)
      fun h c' => state_hold c' name _
  | unpin | delete | flush | flushAll => cases scope <;> rfl
  | dropGuard name => exact state_dropGuard c name
  | writeHandle name edits =>
    rw [perform, asksFor]
    cases c.handles[name]? <;> rfl
  | writeGuard name edits =>
    rw [perform, asksFor]
    cases c.guards[name]? with
    | none => rfl
    | some g =>
      dsimp only
      cases g.access <;> rfl
  -- whoever only looks asks the pool for nothing
  | readHandle name | tellHandle name =>
    rw [perform]
    cases c.handles[name]? <;> rfl
  | readGuard name =>
    rw [perform]
    cases c.guards[name]? <;> rfl
  | capacity | shardCount | shardFacts | pins => rfl

/-! ## Histories -/

/-- Letting go of a guard creates nothing. -/
theorem spares_lettingGo (c : Client l size) (name : String) (w : System l size Disk) :
    System.SparesAll (c.lettingGo name) w := by
  rw [lettingGo]
  cases c.guards[name]? <;> simp [System.SparesAll, System.SparesPages]

/-- A page that a shard creates is the one that the step creates. -/
theorem spares_newHandle {log : List Entry} {step : Step} (h : NoTakeover log c step)
    (hstep : c.creation? step = some (c.newHandle scope)) :
    c.system.SparesPages (scope.call .newPage .newPage) := by
  -- a step that took over nothing created a page that no shard had
  have habsent {k : Handle l size} (hk : (c.newHandle scope).result = .ok k) (i : Fin l.width) :
      (c.system.pool.shard i).table[k.page]? = none :=
    Option.eq_none_iff_forall_not_mem.mpr fun f hf => h _ k hstep hk ⟨i, f, hf⟩
  cases scope with
  | whole => exact fun k hk i => habsent hk i
  | only i =>
    intro p f hresult
    have hin : (c.system.newPageIn i).result = .ok ⟨p, i, f⟩ := by
      rw [System.result_newPageIn, hresult]
      rfl
    exact habsent hin i

/-- A step that takes over no page has no call create one that is resident. -/
theorem spares_of_noTakeover {log : List Entry} {step : Step} (h : NoTakeover log c step) :
    System.SparesAll (c.asks step) c.system := by
  rw [asks]
  cases hscope : l.scope? step.shard with
  | none => trivial
  | some scope =>
    obtain ⟨shard, op⟩ := step
    dsimp only at hscope ⊢
    -- only a new page can be resident before; letting go of the guard that had the name creates
    -- nothing
    cases op with
    | newPage name => exact ⟨spares_newHandle h (by simp only [creation?, hscope]), trivial⟩
    | newGuard name =>
      refine ⟨spares_newHandle h (by simp only [creation?, hscope]), ?_⟩
      split
      · exact spares_lettingGo c name _
      · trivial
    | fetchGuard access p name =>
      refine ⟨by cases scope <;> trivial, ?_⟩
      split
      · exact spares_lettingGo c name _
      · trivial
    | fetch | unpin | delete | flush | flushAll => exact ⟨by cases scope <;> trivial, trivial⟩
    | dropGuard name => exact spares_lettingGo c name _
    | writeHandle name edits =>
      rw [asksFor]
      cases c.handles[name]? with
      | none => trivial
      | some k => exact ⟨trivial, trivial⟩
    | writeGuard name edits =>
      rw [asksFor]
      cases c.guards[name]? with
      | none => trivial
      | some g =>
        dsimp only
        cases g.access with
        | read => trivial
        | write => exact ⟨trivial, trivial⟩
    | disk | readHandle | tellHandle | readGuard | capacity | shardCount | shardFacts | pins =>
      trivial

variable {B : Disk → Disk → Prop} {c₀ : Client l size} {es : List (Errand l size Disk)}

/-- A step is entered as the errands of its calls; a request to the disk changes what is beside
them. -/
theorem journal_take {log : List Entry} {step : Step} (h : Journal B c₀.system es c.system)
    (hspared : NoTakeover log c step)
    (hbeside : ∀ r, step.op = .disk r → B c.system.disk (c.system.disk.perform r).state) :
    Journal B c₀.system (es ++ c.system.errands (c.asks step)) (c.take step).state.system := by
  have hcalls := h.after (spares_of_noTakeover hspared)
  obtain ⟨shard, op⟩ := step
  rw [take]
  rw [asks] at hcalls ⊢
  cases hscope : l.scope? shard with
  | none =>
    rw [hscope] at hcalls
    exact hcalls
  | some scope =>
    rw [hscope] at hcalls
    dsimp only at hcalls ⊢
    -- past the pool, or through it
    by_cases hop : ∃ r, op = .disk r
    · obtain ⟨r, rfl⟩ := hop
      have hnone : c.system.errands (c.asksFor scope (.disk r)) = [] := rfl
      rw [hnone, List.append_nil]
      exact h.beside _ (hbeside r rfl)
    · rw [system_perform c scope fun r hr => hop ⟨r, hr⟩]
      exact hcalls

/-- The errands of a history lead from the pool as it was to the pool as it is. -/
theorem journal_of_history {allowed : List Entry → Client l size → Step → Prop}
    {log : List Entry} (h : History allowed c₀ log c)
    (hspared : ∀ {log c step}, allowed log c step → NoTakeover log c step)
    (hbeside : ∀ {log c step}, allowed log c step → ∀ r, step.op = .disk r →
      B c.system.disk (c.system.disk.perform r).state) :
    Journal B c₀.system (c₀.errands log) c.system := by
  induction h with
  | start => exact .start
  | @step log c h step hallowed ih =>
    -- one step more at the end of the log
    rw [errands_concat, h.afterLog_eq]
    exact journal_take ih (hspared hallowed) (hbeside hallowed)

/-- What there is in them of one shard. -/
theorem diary_of_history {log : List Entry} (h : History NoTakeover c₀ log c) (i : Fin l.width) :
    Diary i (c₀.system.backed i) (Errand.of i (c₀.errands log)) (c.system.backed i) :=
  (journal_of_history (B := fun _ _ => True) h id fun _ _ _ => trivial).diary i

end Client

end PageCache
