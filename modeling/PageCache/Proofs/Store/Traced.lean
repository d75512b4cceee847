import Mathlib.Data.List.Induction
import PageCache.Proofs.Shard.Simulation

/-!
# A store with a list of the calls made

`Traced δ` is a store like `δ` that lists the calls that succeeded, in order. It answers as `δ`
does. From the list can be told which pages a disk has marked as handed back
(`Disk.isDeallocated_after`, `markedAfter`): a page is marked when it is handed back, and the mark
goes when the page is written.
-/

namespace PageCache

open PageStore (answer after)

/-- A store, with the calls that it was asked and that succeeded. -/
structure Traced (δ : Type) where
  disk : δ
  /-- The calls that succeeded, the first of them first. -/
  calls : List (PageId × PageCall)

namespace Traced

variable {δ : Type} [PageStore δ]

/-- The store after a call, which is put on the list if it succeeds. -/
def note (t : Traced δ) (p : PageId) (call : PageCall) : Traced δ where
  disk := after t.disk p call
  calls := if (answer t.disk p call).1.isOk then t.calls ++ [(p, call)] else t.calls

instance : PageStore (Traced δ) where
  read t p buffer := (PageStore.read t.disk p buffer).map fun _ => t.note p (.read buffer)
  write t p bytes := ((PageStore.write t.disk p bytes).1, t.note p (.write bytes))
  deallocate t p := (t.note p .deallocate, (PageStore.deallocate t.disk p).2)

theorem answer_eq (t : Traced δ) (p : PageId) (call : PageCall) :
    answer t p call = answer t.disk p call := by
  cases call <;> rfl

theorem after_eq (t : Traced δ) (p : PageId) (call : PageCall) :
    after t p call = t.note p call := by
  cases call <;> rfl

end Traced

/-! ## Marks -/

/-- Whether a page is marked after a call that names it, if it was `marked` before. -/
def PageCall.marks (marked : Bool) : PageCall → Bool
  | read _ => marked
  | write _ => false
  | deallocate => true

/-- Whether page `p` is marked after the calls, if it was `marked` before. -/
def markedAfter (p : PageId) (calls : List (PageId × PageCall)) (marked : Bool) : Bool :=
  calls.foldl (fun marked (q, call) => if q = p then call.marks marked else marked) marked

/-- Page `p` is written by one of the calls. -/
def Writes (p : PageId) (calls : List (PageId × PageCall)) : Prop :=
  ∃ bytes, (p, .write bytes) ∈ calls

theorem not_writes_nil (p : PageId) : ¬ Writes p [] :=
  fun ⟨_, hmem⟩ => List.not_mem_nil hmem

theorem writes_append {p : PageId} {calls calls' : List (PageId × PageCall)} :
    Writes p (calls ++ calls') ↔ Writes p calls ∨ Writes p calls' := by
  simp only [Writes, List.mem_append, exists_or]

section Marks

variable (p : PageId) (calls : List (PageId × PageCall)) (marked : Bool)

/-- The last call has the last word on the page that it names. -/
theorem markedAfter_concat (q : PageId) (call : PageCall) :
    markedAfter p (calls ++ [(q, call)]) marked =
      if q = p then call.marks (markedAfter p calls marked) else markedAfter p calls marked :=
  List.foldl_append

/-- A page that is not written keeps its mark. -/
theorem markedAfter_of_not_writes {p : PageId} {calls : List (PageId × PageCall)}
    (h : ¬ Writes p calls) :
    markedAfter p calls marked = (marked || markedAfter p calls false) := by
  -- over the calls, the last of them split off: it leaves the mark as it is or it hands the page
  -- back, and then the page is marked either way
  induction calls using List.reverseRecOn with
  | nil => exact (Bool.or_false marked).symm
  | append_singleton calls entry ih =>
    obtain ⟨q, call⟩ := entry
    have hcalls : ¬ Writes p calls :=
      fun ⟨bytes, hmem⟩ => h ⟨bytes, List.mem_append_left _ hmem⟩
    rw [markedAfter_concat, markedAfter_concat, ih hcalls]
    split
    · next hq =>
      cases call with
      | read => rfl
      | write bytes => exact absurd ⟨bytes, by simp [hq]⟩ h
      | deallocate => exact (Bool.or_true marked).symm
    · rfl

/-- After it was written there is no telling whether a page was marked before. -/
theorem markedAfter_of_writes {p : PageId} {calls : List (PageId × PageCall)} (h : Writes p calls)
    (marked marked' : Bool) : markedAfter p calls marked = markedAfter p calls marked' := by
  induction calls using List.reverseRecOn with
  | nil =>
    obtain ⟨bytes, hmem⟩ := h
    exact absurd hmem List.not_mem_nil
  | append_singleton calls entry ih =>
    obtain ⟨q, call⟩ := entry
    rw [markedAfter_concat, markedAfter_concat]
    by_cases hcalls : Writes p calls
    · rw [ih hcalls]
    · -- the last of the calls wrote it
      obtain ⟨bytes, hmem⟩ := h
      have hlast : (p, PageCall.write bytes) = (q, call) := by
        rcases List.mem_append.mp hmem with hmem | hmem
        · exact absurd ⟨bytes, hmem⟩ hcalls
        · exact List.mem_singleton.mp hmem
      obtain ⟨rfl, rfl⟩ := Prod.mk.inj hlast
      rw [if_pos rfl, if_pos rfl]
      rfl

end Marks

namespace Disk

/-- A call that succeeds marks the page it names, or takes the mark away, as the call has it. -/
theorem isDeallocated_after (d : Disk) (p q : PageId) (call : PageCall) :
    (after d p call).medium.isDeallocated q =
      if p = q ∧ (answer d p call).1.isOk then call.marks (d.medium.isDeallocated q)
      else d.medium.isDeallocated q := by
  rw [Medium.isDeallocated_eq, pagePart_after, Medium.isDeallocated_eq]
  -- what a fault on the page's writes prevents is known from the answer, so each kind of call is
  -- looked at with its answer
  cases call with
  | read buffer => simp only [PagePart.after, PageCall.marks, ite_self]
  | write bytes =>
    show _ = if p = q ∧ (d.write p bytes).1.isOk then _ else _
    rw [Disk.write]
    by_cases hpq : p = q
    · cases hfault : d.faults.write p with
      | true => simp [faulty, hfault, Except.isOk, Except.toBool]
      | false => simp [hpq, faulty, hpq ▸ hfault, PagePart.after, PageCall.marks, Except.isOk,
          Except.toBool]
    · rw [if_neg fun h => hpq h.1.symm, if_neg fun h => hpq h.1]
  | deallocate =>
    show _ = if p = q ∧ (Except.ok () : Except IoError Unit).isOk then _ else _
    by_cases hpq : p = q
    · simp [hpq, faulty, PagePart.after, PageCall.marks, Except.isOk, Except.toBool]
    · rw [if_neg fun h => hpq h.1.symm, if_neg fun h => hpq h.1]

end Disk

namespace Traced

/-- The disk is the one that is traced, and where it began with the marks `marked` it has the marks
that its calls tell. -/
structure Tells (marked : PageId → Bool) (t : Traced Disk) (d : Disk) : Prop where
  disk : t.disk = d
  isDeallocated : ∀ p, d.medium.isDeallocated p = markedAfter p t.calls (marked p)

/-- One call more, and the list still tells the marks of the disk. -/
theorem simulation_tells (P : PageId → Prop) (marked : PageId → Bool) :
    StoreSimulation P (Tells marked) where
  answer h _ _ := by rw [answer_eq, h.disk]
  after {t d p} h _ call := by
    obtain ⟨rfl, hmarked⟩ := h
    rw [after_eq]
    refine ⟨rfl, fun q => ?_⟩
    rw [Disk.isDeallocated_after, hmarked, note]
    -- a call that fails is not noted, and leaves the marks alone
    cases (answer t.disk p call).1.isOk with
    | true => rw [if_pos rfl, markedAfter_concat]; simp only [and_true]
    | false => simp

end Traced

/-! ## Disks that differ in their marks -/

/-- The same but for the marks on pages, and `n` more times that a page was handed back. -/
inductive Medium.SameBut (n : Nat) : Medium → Medium → Prop
  | memory {m m' : MemoryStore} (pages : m.pages = m'.pages) (nextId : m.nextId = m'.nextId)
      (reads : m.reads = m'.reads) (writes : m.writes = m'.writes)
      (deallocations : m.deallocations = m'.deallocations + n) :
      SameBut n (.memory m) (.memory m')
  | file {f f' : FileStore} (image : f.image = f'.image) : SameBut n (.file f) (.file f')

/-- Media that differ so, and the same faults. -/
structure Disk.SameBut (n : Nat) (d d' : Disk) : Prop where
  medium : d.medium.SameBut n d'.medium
  faults : d.faults = d'.faults

/-- What a read gives depends on the file alone. -/
theorem FileStore.read_congr {f f' : FileStore} (h : f.image = f'.image) (p : PageId)
    (buffer : Page) : (f.read p buffer).result = (f'.read p buffer).result ∧
      (f.read p buffer).buffer = (f'.read p buffer).buffer := by
  rw [FileStore.read, FileStore.read, FileStore.fillAvailable, FileStore.fillAvailable, h]
  split
  · exact ⟨rfl, rfl⟩
  · split <;> exact ⟨rfl, rfl⟩

namespace Medium.SameBut

variable {n : Nat} {m m' : Medium}

theorem refl (m : Medium) : m.SameBut 0 m := by
  cases m with
  | memory => exact .memory rfl rfl rfl rfl rfl
  | file => exact .file rfl

/-- Both are read alike, and differ as before. -/
theorem read (h : m.SameBut n m') (p : PageId) (buffer : Page) :
    (m.read p buffer).result = (m'.read p buffer).result ∧
      (m.read p buffer).buffer = (m'.read p buffer).buffer ∧
      (m.read p buffer).store.SameBut n (m'.read p buffer).store := by
  cases h with
  | @memory m m' pages nextId reads writes deallocations =>
    refine ⟨rfl, ?_, .memory pages nextId (congrArg (· + 1) reads) writes deallocations⟩
    show m.bytes p = m'.bytes p
    rw [MemoryStore.bytes, MemoryStore.bytes, pages]
  | @file f f' image =>
    obtain ⟨hresult, hbuffer⟩ := FileStore.read_congr image p buffer
    refine ⟨hresult, hbuffer, ?_⟩
    show Medium.SameBut n (.file (f.read p buffer).store) (.file (f'.read p buffer).store)
    rw [f.store_read, f'.store_read]
    exact .file image

/-- A page that is written to both of them leaves them as different as before. -/
theorem write (h : m.SameBut n m') (p : PageId) (page : Page) :
    (m.write p page).SameBut n (m'.write p page) := by
  cases h with
  | @memory m m' pages nextId reads writes deallocations =>
    exact .memory (congrArg (·.insert p page) pages) nextId reads (congrArg (· + 1) writes)
      deallocations
  | @file f f' image => exact .file (congrArg (·.writeBlock p.val page) image)

/-- A page that is handed back on both sides leaves them as different as before. -/
theorem deallocate (h : m.SameBut n m') (p : PageId) :
    (m.deallocate p).1.SameBut n (m'.deallocate p).1 := by
  cases h with
  | @memory m m' pages nextId reads writes deallocations =>
    refine .memory pages nextId reads writes ?_
    show m.deallocations + 1 = m'.deallocations + 1 + n
    omega
  | @file f f' image => exact .file image

/-- The page is handed back once more on one side. -/
theorem deallocate_left (h : m.SameBut n m') (p : PageId) :
    (m.deallocate p).1.SameBut (n + 1) m' := by
  cases h with
  | @memory m m' pages nextId reads writes deallocations =>
    refine .memory pages nextId reads writes ?_
    show m.deallocations + 1 = m'.deallocations + (n + 1)
    omega
  | @file f f' image => exact .file image

end Medium.SameBut

/-- Disks that differ in marks and in the count of hand-backs answer alike, and go on to differ by
no more. -/
theorem Disk.simulation_sameBut (P : PageId → Prop) (n : Nat) :
    StoreSimulation P (Disk.SameBut n) where
  answer {d d' p} h _ call := by
    cases call with
    | read buffer =>
      obtain ⟨hresult, hbuffer, -⟩ := h.medium.read p buffer
      show ((d.read p buffer).result, (d.read p buffer).buffer) =
        ((d'.read p buffer).result, (d'.read p buffer).buffer)
      -- a fault turns the read away on both sides, for the faults are the same
      rw [Disk.read, Disk.read, h.faults]
      split
      · rfl
      · exact Prod.ext hresult hbuffer
    | write bytes =>
      show ((d.write p bytes).1, bytes) = ((d'.write p bytes).1, bytes)
      rw [Disk.write, Disk.write, h.faults]
      split <;> rfl
    | deallocate => rfl
  after {d d' p} h _ call := by
    refine ⟨?_, by rw [Disk.faults_after, Disk.faults_after, h.faults]⟩
    cases call with
    | read buffer =>
      show (d.read p buffer).store.medium.SameBut n (d'.read p buffer).store.medium
      rw [Disk.read, Disk.read, h.faults]
      split
      · exact h.medium
      · exact (h.medium.read p buffer).2.2
    | write bytes =>
      show (d.write p bytes).2.medium.SameBut n (d'.write p bytes).2.medium
      rw [Disk.write, Disk.write, h.faults]
      split
      · exact h.medium
      · exact h.medium.write p bytes
    | deallocate => exact h.medium.deallocate p

/-- The same, with lists of calls that are the same. -/
structure Traced.SameBut (n : Nat) (t t' : Traced Disk) : Prop where
  disk : t.disk.SameBut n t'.disk
  calls : t.calls = t'.calls

/-- Disks that are traced differ by no more, either, and their lists grow alike. -/
theorem Traced.simulation_sameBut (P : PageId → Prop) (n : Nat) :
    StoreSimulation P (Traced.SameBut n) where
  answer h hp _ := by
    rw [answer_eq, answer_eq, (Disk.simulation_sameBut P n).answer h.disk hp]
  after h hp call := by
    rw [after_eq, after_eq]
    refine ⟨(Disk.simulation_sameBut P n).after h.disk hp call, ?_⟩
    rw [note, note, (Disk.simulation_sameBut P n).answer h.disk hp, h.calls]

end PageCache
