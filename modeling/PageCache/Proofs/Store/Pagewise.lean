import PageCache.Proofs.Store.Lawful

/-!
# Stores that keep their pages apart

Several pools, or several shards, can work on one store and not notice each other, if each keeps to
pages of its own and the store keeps the pages apart: what comes of a call must not depend on what
was done to other pages. `PagewiseStore` is that contract. A disk fulfils it, whatever pages its
faults are on, as long as no page of a file is half there; and so does a disk on which faults follow
a plan that goes by the page and by the calls there were on it (`PlannedDisk`).
-/

namespace PageCache

/-- What a store may be asked about a page. -/
inductive PageCall
  /-- Read the page into a buffer that holds `buffer`. -/
  | read (buffer : Page)
  | write (bytes : Page)
  | deallocate

namespace PageStore

variable {δ : Type} [PageStore δ]

/-- What a call leaves behind. -/
def after (d : δ) (p : PageId) : PageCall → δ
  | .read buffer => (read d p buffer).store
  | .write bytes => (write d p bytes).2
  | .deallocate => (deallocate d p).1

/-- Whether a call succeeds, and what is in the caller's buffer then. -/
def answer (d : δ) (p : PageId) : PageCall → Except IoError Unit × Page
  | .read buffer => ((read d p buffer).result, (read d p buffer).buffer)
  | .write bytes => ((write d p bytes).1, bytes)
  | .deallocate => (.ok (), .zero)

end PageStore

open PageStore (after answer)

class PagewiseStore (δ : Type) [PageStore δ] where
  /-- All that there can be of one page. -/
  Part : Type
  part : δ → PageId → Part
  /-- The pages are in a state to be kept apart. -/
  Apart : δ → Prop
  answer_congr : ∀ {d e : δ} {p : PageId} (call : PageCall), Apart d → Apart e →
    part d p = part e p → answer d p call = answer e p call
  part_congr : ∀ {d e : δ} {p : PageId} (call : PageCall), Apart d → Apart e →
    part d p = part e p → part (after d p call) p = part (after e p call) p
  part_of_ne : ∀ (d : δ) {p q : PageId} (call : PageCall), q ≠ p →
    part (after d p call) q = part d q
  apart_after : ∀ {d : δ} (p : PageId) (call : PageCall), Apart d → Apart (after d p call)

/-! ## Disks -/

/-- What a medium has of one page. -/
structure PagePart where
  /-- The bytes, where there are any. -/
  kept : Option Page
  deallocated : Bool

/-- What a call makes of the page it names, if no fault is in its way. -/
def PagePart.after (part : PagePart) : PageCall → PagePart
  | .read _ => part
  | .write bytes => ⟨some bytes, false⟩
  | .deallocate => { part with deallocated := true }

/-- A read leaves a file as it is, whatever comes of it. -/
theorem FileStore.store_read (f : FileStore) (p : PageId) (buffer : Page) :
    (f.read p buffer).store = f := by
  rw [FileStore.read]
  split
  · rfl
  · split <;> rfl

namespace Medium

variable {m : Medium} {p q : PageId}

/-- Memory has no bytes of a page that was never written; what a file has not reads as zeros. -/
def pagePart : Medium → PageId → PagePart
  | memory m, p => ⟨m.pages[p]?, m.isDeallocated p⟩
  | file f, p => ⟨some (f.image.block p.val), f.isDeallocated p⟩

theorem contents_eq (m : Medium) (p : PageId) : m.contents p = (m.pagePart p).kept.getD .zero := by
  cases m <;> rfl

theorem isDeallocated_eq (m : Medium) (p : PageId) :
    m.isDeallocated p = (m.pagePart p).deallocated := by
  cases m <;> rfl

/-- A read leaves every part as it is. -/
theorem pagePart_read (m : Medium) (p q : PageId) (buffer : Page) :
    (m.read p buffer).store.pagePart q = m.pagePart q := by
  cases m with
  | memory m => rfl
  | file f =>
    show (Medium.file (f.read p buffer).store).pagePart q = _
    unfold FileStore.read
    split
    · rfl
    · split <;> rfl

/-- A write changes the part of the page that it names. -/
theorem pagePart_write (m : Medium) (p q : PageId) (bytes : Page) :
    (m.write p bytes).pagePart q =
      if q = p then (m.pagePart q).after (.write bytes) else m.pagePart q := by
  -- memory has a table of pages and a file one run of bytes, so for another page the reasons
  -- differ: another key, another block
  cases m with
  | memory m =>
    by_cases hqp : q = p
    · subst hqp
      simp [write, pagePart, PagePart.after, MemoryStore.write, MemoryStore.isDeallocated]
    · have hkept : (m.write p bytes).pages[q]? = m.pages[q]? := by
        simp [MemoryStore.write, Std.ExtTreeMap.getElem?_insert, Ne.symm hqp]
      simp [write, pagePart, hqp, hkept, MemoryStore.isDeallocated_write, Ne.symm hqp]
  | file f =>
    by_cases hqp : q = p
    · subst hqp
      simp [write, pagePart, PagePart.after, FileStore.write, FileStore.isDeallocated,
        Image.block_writeBlock]
    · have hval : p.val ≠ q.val := fun h => hqp (PageId.ext h.symm)
      simp [write, pagePart, hqp, FileStore.write, FileStore.isDeallocated,
        Image.block_writeBlock, hval, Std.ExtTreeSet.contains_erase, Ne.symm hqp]

/-- Handing a page back changes the part of the page that it names. -/
theorem pagePart_deallocate (m : Medium) (p q : PageId) :
    (m.deallocate p).1.pagePart q =
      if q = p then (m.pagePart q).after .deallocate else m.pagePart q := by
  cases m with
  | memory m =>
    show (⟨m.pages[q]?, (m.deallocate p).isDeallocated q⟩ : PagePart) = _
    by_cases hqp : q = p
    · simp [pagePart, PagePart.after, hqp, MemoryStore.isDeallocated_deallocate]
    · simp [pagePart, hqp, Ne.symm hqp, MemoryStore.isDeallocated_deallocate]
  | file f =>
    show (Medium.file (f.deallocate p)).pagePart q = _
    by_cases hqp : q = p
    · simp [pagePart, PagePart.after, hqp, FileStore.isDeallocated, FileStore.deallocate]
    · simp [pagePart, hqp, Ne.symm hqp, FileStore.isDeallocated, FileStore.deallocate,
        Std.ExtTreeSet.contains_insert]

end Medium

namespace Disk

variable {d e : Disk} {p q : PageId}

/-- There is a fault in the way of the call. -/
def faulty (d : Disk) (p : PageId) : PageCall → Bool
  | .read _ => d.faults.read p
  | .write _ => d.faults.write p
  | .deallocate => false

/-- A call fails if there is a fault in its way, and in no other case. -/
theorem answer_eq (hd : d.medium.Whole) (p : PageId) (call : PageCall) : answer d p call =
    match call with
    | .read _ =>
      if d.faulty p call then (.error .readFault, .fill scribble) else (.ok (), d.contents p)
    | .write bytes => (if d.faulty p call then .error .writeFault else .ok (), bytes)
    | .deallocate => (.ok (), .zero) := by
  cases call with
  | read buffer =>
    show ((d.read p buffer).result, (d.read p buffer).buffer) = if d.faults.read p then _ else _
    rw [Disk.read]
    split
    · rfl
    · have hok := Medium.result_read_of_whole hd p buffer
      exact Prod.ext hok (Medium.buffer_read hok)
  | write bytes =>
    show ((d.write p bytes).1, bytes) = (if d.faults.write p then _ else _, bytes)
    rw [Disk.write]
    split <;> rfl
  | deallocate => rfl

/-- On a disk a call changes the part of the page that it names, unless a fault is in its way. -/
theorem pagePart_after (d : Disk) (p q : PageId) (call : PageCall) :
    (after d p call).medium.pagePart q =
      if q = p ∧ d.faulty p call = false then (d.medium.pagePart q).after call
      else d.medium.pagePart q := by
  -- a read and a write may meet a fault; handing a page back has none to meet
  cases call with
  | read buffer =>
    show (d.read p buffer).store.medium.pagePart q = _
    have hsame : (d.read p buffer).store.medium.pagePart q = d.medium.pagePart q := by
      rw [Disk.read]
      split
      · rfl
      · exact d.medium.pagePart_read p q buffer
    simp [hsame, PagePart.after]
  | write bytes =>
    show (d.write p bytes).2.medium.pagePart q =
      if q = p ∧ d.faults.write p = false then _ else _
    rw [Disk.write]
    split
    · next hfault => simp [hfault]
    · next hfault => simp [hfault, Medium.pagePart_write]
  | deallocate =>
    show (d.medium.deallocate p).1.pagePart q = if q = p ∧ false = false then _ else _
    simp [Medium.pagePart_deallocate]

/-- A call leaves the faults as they are. -/
theorem faults_after (d : Disk) (p : PageId) (call : PageCall) :
    (after d p call).faults = d.faults := by
  cases call with
  | read buffer => exact faults_of_serves (Serves.refl.read p buffer)
  | write bytes => exact faults_of_serves (Serves.refl.write p bytes)
  | deallocate => exact faults_of_serves (Serves.refl.deallocate p)

/-- A file of whole pages stays one. -/
theorem whole_after (hd : d.medium.Whole) (p : PageId) (call : PageCall) :
    (after d p call).medium.Whole := by
  cases call with
  | read buffer => exact whole_of_serves (Serves.refl.read p buffer) hd
  | write bytes => exact whole_of_serves (Serves.refl.write p bytes) hd
  | deallocate => exact whole_of_serves (Serves.refl.deallocate p) hd

theorem faulty_after (d : Disk) (p q : PageId) (call : PageCall) :
    (after d p call).faulty q = d.faulty q := by
  have hfaults := d.faults_after p call
  funext call'
  cases call' with
  | read => exact congrArg (fun faults => faults.read q) hfaults
  | write => exact congrArg (fun faults => faults.write q) hfaults
  | deallocate => rfl

/-- Where two disks have the same of a page and a fault in the way of the same call, they do the
same about it. -/
theorem congr_of_pagePart {call : PageCall} (hd : d.medium.Whole) (he : e.medium.Whole)
    (hpart : d.medium.pagePart p = e.medium.pagePart p)
    (hfaulty : d.faulty p call = e.faulty p call) :
    answer d p call = answer e p call ∧
      (after d p call).medium.pagePart p = (after e p call).medium.pagePart p := by
  have hcontents : d.contents p = e.contents p := by
    rw [contents, contents, Medium.contents_eq, Medium.contents_eq, hpart]
  constructor
  · rw [answer_eq hd, answer_eq he, hfaulty, hcontents]
  · rw [pagePart_after, pagePart_after, hfaulty, hpart]

/-- A call leaves the parts of other pages alone. -/
theorem pagePart_after_of_ne (d : Disk) (call : PageCall) (hqp : q ≠ p) :
    (after d p call).medium.pagePart q = d.medium.pagePart q := by
  rw [pagePart_after, if_neg]
  exact fun h => hqp h.1

instance : PagewiseStore Disk where
  Part := PagePart × (PageCall → Bool)
  part d p := (d.medium.pagePart p, d.faulty p)
  Apart d := d.medium.Whole
  answer_congr call hd he h := by
    obtain ⟨hpart, hfaulty⟩ := Prod.mk.inj h
    exact (congr_of_pagePart hd he hpart (congrFun hfaulty call)).1
  part_congr {d e p} call hd he h := by
    obtain ⟨hpart, hfaulty⟩ := Prod.mk.inj h
    refine Prod.ext (congr_of_pagePart hd he hpart (congrFun hfaulty call)).2 ?_
    exact (d.faulty_after p p call).trans (hfaulty.trans (e.faulty_after p p call).symm)
  part_of_ne d p q call hqp := Prod.ext (d.pagePart_after_of_ne call hqp) (d.faulty_after p q call)
  apart_after p call hd := whole_after hd p call

end Disk

/-! ## Faults that follow a plan -/

/-- A medium on which it goes by a plan whether there is a fault in the way of a call. The plan
knows the page and all the calls there were on it, the last being the one in question. -/
structure PlannedDisk where
  medium : Medium
  plan : PageId → List PageCall → Bool
  past : PageId → List PageCall

namespace PlannedDisk

/-- The disk as the call on page `p` finds it. -/
def now (d : PlannedDisk) (p : PageId) (call : PageCall) : Disk :=
  let fault := d.plan p (d.past p ++ [call])
  ⟨d.medium, ⟨fun _ => fault, fun _ => fault⟩⟩

/-- The call was made, and the medium is as it left it. -/
def next (d : PlannedDisk) (p : PageId) (call : PageCall) (e : Disk) : PlannedDisk :=
  ⟨e.medium, d.plan, Function.update d.past p (d.past p ++ [call])⟩

instance : PageStore PlannedDisk where
  read d p buffer := ((d.now p (.read buffer)).read p buffer).map (d.next p (.read buffer))
  write d p bytes :=
    let (result, e) := (d.now p (.write bytes)).write p bytes
    (result, d.next p (.write bytes) e)
  deallocate d p :=
    let (e, events) := (d.now p .deallocate).deallocate p
    (d.next p .deallocate e, events)

/-- An empty memory that does not write page `p` at the first attempt. -/
def reluctant (p : PageId) : PlannedDisk :=
  ⟨.memory .empty, fun q past => q = p ∧ past.length = 1, fun _ => []⟩

variable {d e : PlannedDisk} {p q : PageId}

theorem answer_now (d : PlannedDisk) (p : PageId) (call : PageCall) :
    answer d p call = answer (d.now p call) p call := by
  cases call <;> rfl

theorem after_now (d : PlannedDisk) (p : PageId) (call : PageCall) :
    after d p call = d.next p call (after (d.now p call) p call) := by
  cases call <;> rfl

/-- The same plan and the same past make the same fault. -/
theorem congr_now {call : PageCall} (hd : d.medium.Whole) (he : e.medium.Whole)
    (hpart : d.medium.pagePart p = e.medium.pagePart p) (hplan : d.plan p = e.plan p)
    (hpast : d.past p = e.past p) :
    answer d p call = answer e p call ∧
      (after d p call).medium.pagePart p = (after e p call).medium.pagePart p := by
  have hfault : d.plan p (d.past p ++ [call]) = e.plan p (e.past p ++ [call]) := by
    rw [hplan, hpast]
  have hfaulty : (d.now p call).faulty p call = (e.now p call).faulty p call := by
    cases call with
    | read | write => exact hfault
    | deallocate => rfl
  rw [answer_now, answer_now e, after_now, after_now e]
  exact Disk.congr_of_pagePart hd he hpart hfaulty

instance : PagewiseStore PlannedDisk where
  Part := PagePart × (List PageCall → Bool) × List PageCall
  part d p := (d.medium.pagePart p, d.plan p, d.past p)
  Apart d := d.medium.Whole
  answer_congr call hd he h := by
    obtain ⟨hpart, h⟩ := Prod.mk.inj h
    obtain ⟨hplan, hpast⟩ := Prod.mk.inj h
    exact (congr_now hd he hpart hplan hpast).1
  part_congr {d e p} call hd he h := by
    obtain ⟨hpart, h⟩ := Prod.mk.inj h
    obtain ⟨hplan, hpast⟩ := Prod.mk.inj h
    refine Prod.ext (congr_now hd he hpart hplan hpast).2 (Prod.ext ?_ ?_)
    · rw [after_now, after_now]
      exact hplan
    · rw [after_now, after_now]
      show Function.update d.past p (d.past p ++ [call]) p =
        Function.update e.past p (e.past p ++ [call]) p
      rw [Function.update_self, Function.update_self, hpast]
  part_of_ne d p q call hqp := by
    rw [after_now]
    refine Prod.ext ((d.now p call).pagePart_after_of_ne call hqp) (Prod.ext rfl ?_)
    exact Function.update_of_ne hqp _ _
  apart_after {d} p call hd := by
    rw [after_now]
    exact Disk.whole_after (d := d.now p call) hd p call

end PlannedDisk

end PageCache
