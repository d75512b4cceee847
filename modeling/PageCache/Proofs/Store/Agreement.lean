import Mathlib.Data.List.Induction
import PageCache.Proofs.Store.FileBytes
import PageCache.Proofs.Store.Pagewise
import PageCache.Store.Request

/-!
# The two media agree

Whoever uses a medium without a pool brings buffers of any length (`StoreCall`). A new memory and a
page file that was just created answer such calls alike, whatever the calls are and in whatever
order they come (`new_media_agree`): what they answer is told by the calls there were before
(`answerAfter`). The file's bytes are those the calls would leave in a plain vector of bytes.

The invariant is `Follows past m`: of every page the medium has the bytes that were saved last, it
has the page marked if it was handed back since, and it can be read.
-/

namespace PageCache

inductive StoreCall
  /-- Read a page into `buffer`. -/
  | read (p : PageId) (buffer : ByteArray)
  | write (p : PageId) (data : ByteArray)
  | deallocate (p : PageId)
  | isDeallocated (p : PageId)

namespace Medium

def call (m : Medium) : StoreCall → Outcome Medium DiskReply
  | .read p buffer => (m.readBuffer p buffer).map .bytes
  | .write p data => (m.writeBuffer p data).map fun () => .done
  | .deallocate p =>
    let (m, events) := m.deallocate p
    .after events (.ok .nothing m)
  | .isDeallocated p => .ok (.truth (m.isDeallocated p)) m

/-- The answers to calls in turn, and the medium after them. -/
def serve (m : Medium) : List StoreCall → List (Except Failure DiskReply) × Medium
  | [] => ([], m)
  | c :: rest =>
    let o := m.call c
    let (answers, m) := o.state.serve rest
    (o.result :: answers, m)

end Medium

/-- The requests that are made of a disk past its pool are such calls. -/
def DiskOp.storeCall? : DiskOp → Option StoreCall
  | .read p length => some (.read p (Edit.fillBytes length Disk.bufferByte))
  | .write p length edits => some (.write p (Edit.applyAll edits (Edit.fillBytes length 0)))
  | .deallocate p => some (.deallocate p)
  | .isDeallocated p => some (.isDeallocated p)
  | _ => none

/-- Past its pool a disk is asked what its medium is. -/
theorem Disk.perform_eq_call {op : DiskOp} {c : StoreCall} (h : op.storeCall? = some c)
    (d : Disk) : d.perform op = (d.medium.call c).inside d.withMedium := by
  cases op with
  | read | write | deallocate | isDeallocated => cases h; rfl
  | _ => simp [DiskOp.storeCall?] at h

/-! ## What the answers should be -/

/-- The page that the call leaves as the bytes of page `p`, if it is a write of that page with a
buffer of the right size. -/
def StoreCall.saves? (p : PageId) : StoreCall → Option Page
  | .write q data => if q = p then Page.ofBytes? data else none
  | _ => none

/-- A buffer of the right size is saved for its page, and for no other. -/
theorem StoreCall.saves?_write (p q : PageId) {data : ByteArray} (h : data.size = pageSize) :
    (write p data).saves? q = if p = q then some ⟨data, h⟩ else none := by
  rw [saves?, Page.ofBytes?, dif_pos h]

/-- A buffer of another size is saved for no page. -/
theorem StoreCall.saves?_write_of_ne (p q : PageId) {data : ByteArray} (h : data.size ≠ pageSize) :
    (write p data).saves? q = none := by
  rw [saves?, Page.ofBytes?, dif_neg h, ite_self]

/-- The bytes page `p` was last given, or zeros. -/
def lastSaved (past : List StoreCall) (p : PageId) : Page :=
  (past.reverse.findSome? fun c => c.saves? p).getD .zero

/-- Whether page `p` counts as handed back after the call, if it did before. -/
def StoreCall.marks (p : PageId) (marked : Bool) : StoreCall → Bool
  | deallocate q => q == p || marked
  | c => (c.saves? p).isNone && marked

/-- Page `p` was handed back, and no bytes were saved for it since. -/
def handedBack (past : List StoreCall) (p : PageId) : Bool :=
  past.foldl (StoreCall.marks p) false

/-- The answer to a call, after the calls `past`. -/
def answerAfter (past : List StoreCall) : StoreCall → Except Failure DiskReply
  | .read p buffer =>
    if buffer.size = pageSize then .ok (.bytes (lastSaved past p).bytes)
    else .error (.storage (.bufferSize buffer.size))
  | .write _ data =>
    if data.size = pageSize then .ok .done else .error (.storage (.bufferSize data.size))
  | .deallocate _ => .ok .nothing
  | .isDeallocated p => .ok (.truth (handedBack past p))

/-- The answers to calls in turn, after the calls `past`. -/
def answersAfter (past : List StoreCall) : List StoreCall → List (Except Failure DiskReply)
  | [] => []
  | c :: rest => answerAfter past c :: answersAfter (past ++ [c]) rest

/-- What the calls make of the bytes of a file. -/
def StoreCall.onBytes (file : List UInt8) : StoreCall → List UInt8
  | .write p data =>
    if data.size = pageSize then FileBytes.writePage p data.data.toList file else file
  | _ => file

section Past

variable (past : List StoreCall) (p : PageId)

/-- The last call saves the page, or it has what it had before. -/
theorem lastSaved_concat (c : StoreCall) :
    lastSaved (past ++ [c]) p = (c.saves? p).getD (lastSaved past p) := by
  rw [lastSaved, List.reverse_append, List.reverse_singleton, List.singleton_append,
    List.findSome?_cons]
  cases c.saves? p with
  | none => rw [Option.getD_none, lastSaved]
  | some page => rw [Option.getD_some, Option.getD_some]

/-- The last call decides from what was so before it. -/
theorem handedBack_concat (c : StoreCall) :
    handedBack (past ++ [c]) p = c.marks p (handedBack past p) :=
  List.foldl_append

/-- A page counts as handed back after the call that does it, and after those that do not save it.
-/
theorem StoreCall.marks_iff (marked : Bool) (c : StoreCall) :
    c.marks p marked = true ↔ c = .deallocate p ∨ c.saves? p = none ∧ marked = true := by
  cases c with
  | deallocate q => simp [marks, saves?]
  | read | write | isDeallocated => simp [marks, saves?]

/-- A page counts as handed back if it was, and if no bytes were saved for it since. -/
theorem handedBack_iff :
    handedBack past p = true ↔
      ∃ before since, past = before ++ .deallocate p :: since ∧ ∀ c ∈ since, c.saves? p = none := by
  induction past using List.reverseRecOn with
  | nil => simp [handedBack]
  | append_singleton past c ih =>
    rw [handedBack_concat, StoreCall.marks_iff, ih]
    constructor
    · -- it was handed back just now, or before and the last call did not save it
      rintro (rfl | ⟨hc, before, since, rfl, hsince⟩)
      · exact ⟨past, [], rfl, fun c hc => absurd hc List.not_mem_nil⟩
      · refine ⟨before, since ++ [c], by rw [List.append_assoc, List.cons_append], ?_⟩
        rintro c' hc'
        rcases List.mem_append.mp hc' with hmem | hmem
        · exact hsince c' hmem
        · rwa [List.mem_singleton.mp hmem]
    · rintro ⟨before, since, hpast, hsince⟩
      rcases List.eq_nil_or_concat since with rfl | ⟨since, last, rfl⟩
      · -- the last call of all is the one that handed the page back
        obtain ⟨-, hlast⟩ := List.append_inj' hpast rfl
        exact .inl (List.cons.inj hlast).1
      · rw [List.concat_eq_append, ← List.cons_append, ← List.append_assoc] at hpast
        obtain ⟨rfl, hlast⟩ := List.append_inj' hpast rfl
        obtain rfl := (List.cons.inj hlast).1
        exact .inr ⟨hsince c (by simp), before, since, rfl,
          fun c' hc' => hsince c' (by simp [hc'])⟩

end Past

/-! ## The invariant -/

namespace Medium

/-- What the medium shows is told by the calls there were. -/
structure Follows (m : Medium) (past : List StoreCall) : Prop where
  contents : ∀ p, m.contents p = lastSaved past p
  marked : ∀ p, m.isDeallocated p = handedBack past p
  whole : m.Whole

/-- A buffer of the right size is written. -/
theorem writeBuffer_of_size (m : Medium) (p : PageId) {data : ByteArray}
    (h : data.size = pageSize) : m.writeBuffer p data = .ok () (m.write p ⟨data, h⟩) := by
  rw [writeBuffer, Page.ofBytes?, dif_pos h]

/-- A buffer of another size is refused, and nothing is written. -/
theorem writeBuffer_of_size_ne (m : Medium) (p : PageId) {data : ByteArray}
    (h : data.size ≠ pageSize) :
    m.writeBuffer p data = .fail (.storage (.bufferSize data.size)) m := by
  rw [writeBuffer, Page.ofBytes?, dif_neg h]

/-- A read into a buffer of another size is refused. -/
theorem readBuffer_of_size_ne (m : Medium) (p : PageId) {buffer : ByteArray}
    (h : buffer.size ≠ pageSize) :
    m.readBuffer p buffer = .fail (.storage (.bufferSize buffer.size)) m := by
  rw [readBuffer, Page.ofBytes?, dif_neg h]

/-- A page that is all there is read as it is, and nothing else about the medium changes. -/
theorem readBuffer_of_whole {m : Medium} (hm : m.Whole) (p : PageId) {buffer : ByteArray}
    (h : buffer.size = pageSize) :
    (m.readBuffer p buffer).result = .ok (m.contents p).bytes ∧
      (m.readBuffer p buffer).state = (m.read p ⟨buffer, h⟩).store := by
  have hok := result_read_of_whole hm p ⟨buffer, h⟩
  rw [readBuffer, Page.ofBytes?, dif_pos h]
  simp only [hok, Outcome.result_after, Outcome.state_after, Outcome.result_ok, Outcome.state_ok,
    buffer_read hok, and_self]

namespace Follows

variable {m : Medium} {past : List StoreCall}

/-- A call is answered by what there was before. -/
theorem result_call (h : m.Follows past) (c : StoreCall) :
    (m.call c).result = answerAfter past c := by
  -- what a page has and whether it is marked is in the invariant; the size of the buffer decides
  -- the rest
  cases c with
  | read p buffer =>
    rw [call, Outcome.result_map, answerAfter]
    split
    · next hsize => rw [(readBuffer_of_whole h.whole p hsize).1, h.contents]; rfl
    · next hsize => rw [readBuffer_of_size_ne m p hsize]; rfl
  | write p data =>
    rw [call, Outcome.result_map, answerAfter]
    split
    · next hsize => rw [writeBuffer_of_size m p hsize]; rfl
    · next hsize => rw [writeBuffer_of_size_ne m p hsize]; rfl
  | deallocate p => rfl
  | isDeallocated p => rw [answerAfter, ← h.marked]; rfl

/-- A call that changes no page is no news. -/
theorem keep (h : m.Follows past) {c : StoreCall} {m' : Medium}
    (hcontents : m'.contents = m.contents) (hmarked : ∀ p, m'.isDeallocated p = m.isDeallocated p)
    (hwhole : m'.Whole) (hsaves : ∀ p, c.saves? p = none)
    (hmarks : ∀ p marked, c.marks p marked = marked) : m'.Follows (past ++ [c]) where
  contents p := by rw [hcontents, h.contents, lastSaved_concat, hsaves, Option.getD_none]
  marked p := by rw [hmarked, h.marked, handedBack_concat, hmarks]
  whole := hwhole

/-- A write is remembered: the page has the new bytes, and is not handed back any more. -/
theorem write (h : m.Follows past) (p : PageId) {data : ByteArray} (hsize : data.size = pageSize) :
    (m.write p ⟨data, hsize⟩).Follows (past ++ [.write p data]) where
  contents q := by
    rw [contents_write, lastSaved_concat, StoreCall.saves?_write p q hsize, Function.update_apply]
    by_cases hqp : q = p
    · rw [if_pos hqp, if_pos hqp.symm, Option.getD_some]
    · rw [if_neg hqp, if_neg (Ne.symm hqp), Option.getD_none, h.contents]
  marked q := by
    rw [handedBack_concat, isDeallocated_eq, pagePart_write]
    show _ = (((StoreCall.write p data).saves? q).isNone && handedBack past q)
    rw [StoreCall.saves?_write p q hsize]
    by_cases hqp : q = p
    · rw [if_pos hqp, if_pos hqp.symm]
      rfl
    · rw [if_neg hqp, if_neg (Ne.symm hqp), ← isDeallocated_eq, h.marked]
      rfl
  whole := whole_write h.whole p _

/-- A page that is handed back keeps its bytes, and is marked. -/
theorem deallocate (h : m.Follows past) (p : PageId) :
    (m.deallocate p).1.Follows (past ++ [.deallocate p]) where
  contents q := by
    have hnone : (StoreCall.deallocate p).saves? q = none := rfl
    rw [contents_deallocate, lastSaved_concat, hnone, Option.getD_none, h.contents]
  marked q := by
    rw [handedBack_concat, isDeallocated_eq, pagePart_deallocate]
    show _ = (p == q || handedBack past q)
    by_cases hqp : q = p
    · rw [if_pos hqp, hqp, beq_self_eq_true, Bool.true_or]
      rfl
    · rw [if_neg hqp, beq_eq_false_iff_ne.mpr (Ne.symm hqp), Bool.false_or, ← isDeallocated_eq,
        h.marked]
  whole := whole_deallocate h.whole p

/-- One call keeps the invariant. -/
theorem call (h : m.Follows past) (c : StoreCall) : (m.call c).state.Follows (past ++ [c]) := by
  cases c with
  | read p buffer =>
    by_cases hsize : buffer.size = pageSize
    · have hstate : (m.call (.read p buffer)).state = (m.read p ⟨buffer, hsize⟩).store :=
        (readBuffer_of_whole h.whole p hsize).2
      rw [hstate]
      exact h.keep (contents_read ..) (fun q => by rw [isDeallocated_eq, isDeallocated_eq,
        pagePart_read]) (whole_read h.whole p _) (fun _ => rfl) (fun _ _ => rfl)
    · have hstate : (m.call (.read p buffer)).state = m := by
        rw [Medium.call, Outcome.state_map, readBuffer_of_size_ne m p hsize, Outcome.state_fail]
      rw [hstate]
      exact h.keep rfl (fun _ => rfl) h.whole (fun _ => rfl) (fun _ _ => rfl)
  | write p data =>
    rw [Medium.call, Outcome.state_map]
    by_cases hsize : data.size = pageSize
    · rw [writeBuffer_of_size m p hsize]
      exact h.write p hsize
    · rw [writeBuffer_of_size_ne m p hsize, Outcome.state_fail]
      have hnone : ∀ q, (StoreCall.write p data).saves? q = none :=
        fun q => StoreCall.saves?_write_of_ne p q hsize
      refine h.keep rfl (fun _ => rfl) h.whole hnone fun q marked => ?_
      show (((StoreCall.write p data).saves? q).isNone && marked) = marked
      rw [hnone, Option.isNone_none, Bool.true_and]
  | deallocate p => exact h.deallocate p
  | isDeallocated p => exact h.keep rfl (fun _ => rfl) h.whole (fun _ => rfl) (fun _ _ => rfl)

/-- Calls in turn are answered as what came before them tells, and keep the invariant. -/
theorem serve (h : m.Follows past) (calls : List StoreCall) :
    (m.serve calls).1 = answersAfter past calls ∧ (m.serve calls).2.Follows (past ++ calls) := by
  induction calls generalizing m past with
  | nil => exact ⟨rfl, by rwa [List.append_nil]⟩
  | cons c rest ih =>
    obtain ⟨hanswers, hfollows⟩ := ih (h.call c)
    refine ⟨?_, ?_⟩
    · show (m.call c).result :: ((m.call c).state.serve rest).1 = _
      rw [h.result_call, hanswers, answersAfter]
    · rwa [List.append_assoc] at hfollows

end Follows

/-- A memory without pages is one to which no calls were made. -/
theorem follows_empty : (memory .empty).Follows [] where
  contents p := MemoryStore.bytes_empty p
  marked p := (Std.ExtTreeSet.contains_empty : (∅ : Std.ExtTreeSet PageId).contains p = false)
  whole := trivial

/-- A file that was just created is one to which no calls were made, and empty. -/
theorem follows_create {target : Target} {f : FileStore} (h : FileStore.create target = .ok f) :
    f.image = .empty ∧ (file f).Follows [] := by
  have hf : f = ⟨.empty, ∅⟩ := by
    cases target with
    | file | vacant => exact (Except.ok.inj h).symm
    | directory | nowhere | overlong => cases h
  subst hf
  exact ⟨rfl, fun p => Image.block_of_size_le .empty (Nat.zero_le _),
    fun p => (Std.ExtTreeSet.contains_empty : (∅ : Std.ExtTreeSet PageId).contains p = false),
    Nat.dvd_zero _⟩

/-- A call that fails leaves the medium alone. -/
theorem state_call_of_error {m : Medium} (hm : m.Whole) {c : StoreCall} {cause : Failure}
    (h : (m.call c).result = .error cause) : (m.call c).state = m := by
  cases c with
  | read p buffer =>
    -- a buffer of the right size is not refused
    by_cases hsize : buffer.size = pageSize
    · rw [call, Outcome.result_map, (readBuffer_of_whole hm p hsize).1] at h
      cases h
    · rw [call, Outcome.state_map, readBuffer_of_size_ne m p hsize, Outcome.state_fail]
  | write p data =>
    by_cases hsize : data.size = pageSize
    · rw [call, Outcome.result_map, writeBuffer_of_size m p hsize] at h
      cases h
    · rw [call, Outcome.state_map, writeBuffer_of_size_ne m p hsize, Outcome.state_fail]
  | deallocate p => cases h
  | isDeallocated p => rfl

end Medium

/-! ## The bytes of the file -/

namespace FileStore

/-- A call makes of the bytes of a page file what it makes of a vector of bytes. -/
theorem bytes_call (f : FileStore) (c : StoreCall) :
    ∃ g, ((Medium.file f).call c).state = .file g ∧ g.image.bytes = c.onBytes f.image.bytes := by
  cases c with
  | read p buffer =>
    refine ⟨f, ?_, rfl⟩
    rw [Medium.call, Outcome.state_map, Medium.readBuffer]
    -- reading changes no byte, whether the buffer fits or not
    cases Page.ofBytes? buffer with
    | none => rfl
    | some page =>
      have hstore : ((Medium.file f).read p page).store = .file f :=
        congrArg Medium.file (f.store_read p page)
      simp only
      split <;> exact hstore
  | write p data =>
    rw [Medium.call, Outcome.state_map, StoreCall.onBytes]
    by_cases hsize : data.size = pageSize
    · rw [Medium.writeBuffer_of_size _ p hsize, if_pos hsize]
      exact ⟨f.write p ⟨data, hsize⟩, rfl, f.bytes_write p ⟨data, hsize⟩⟩
    · rw [Medium.writeBuffer_of_size_ne _ p hsize, if_neg hsize]
      exact ⟨f, rfl, rfl⟩
  | deallocate p => exact ⟨f.deallocate p, rfl, rfl⟩
  | isDeallocated p => exact ⟨f, rfl, rfl⟩

/-- Calls in turn make of the bytes of a page file what they make of a vector of bytes. -/
theorem bytes_serve (f : FileStore) (calls : List StoreCall) :
    ∃ g, ((Medium.file f).serve calls).2 = .file g ∧
      g.image.bytes = calls.foldl StoreCall.onBytes f.image.bytes := by
  induction calls generalizing f with
  | nil => exact ⟨f, rfl, rfl⟩
  | cons c rest ih =>
    obtain ⟨g, hg, hbytes⟩ := f.bytes_call c
    obtain ⟨g', hg', hbytes'⟩ := ih g
    refine ⟨g', ?_, by rw [hbytes', hbytes, List.foldl_cons]⟩
    show (((Medium.file f).call c).state.serve rest).2 = _
    rw [hg, hg']

end FileStore

/-! ## Agreement -/

/-- How two media stand to each other after both served `calls`, each with the answers it gave. -/
structure Agreement (calls : List StoreCall)
    (memory onFile : List (Except Failure DiskReply) × Medium) : Prop where
  answers : memory.1 = answersAfter [] calls ∧ onFile.1 = answersAfter [] calls
  /-- A page is marked as handed back if it was and if no bytes were saved for it since. -/
  marked : ∀ p, (memory.2.isDeallocated p = true ↔
      ∃ before since, calls = before ++ .deallocate p :: since ∧ ∀ c ∈ since, c.saves? p = none) ∧
    onFile.2.isDeallocated p = memory.2.isDeallocated p
  /-- What is refused leaves both alone. -/
  refused : ∀ c cause, answerAfter calls c = .error cause →
    (memory.2.call c).state = memory.2 ∧ (onFile.2.call c).state = onFile.2
  /-- The file is the vector of bytes that the calls make of an empty one. It is a number of pages
  long, and each page reads from it as the bytes that were saved for it last. -/
  bytes : ∃ f, onFile.2 = .file f ∧ f.image.bytes = calls.foldl StoreCall.onBytes [] ∧
    4096 ∣ f.image.size ∧ f.image.bytes.length = f.image.size ∧
    ∀ p, FileBytes.readPage? p f.image.bytes = some (lastSaved calls p).toList

/-- A new memory and a page file that was just created answer any calls alike, with buffers of any
length and in any order. The pages that are marked are told by the calls, what is refused changes
nothing, and the file holds the bytes that the calls make of an empty vector. -/
theorem new_media_agree {target : Target} {f : FileStore}
    (hcreate : FileStore.create target = .ok f) (calls : List StoreCall) :
    Agreement calls ((Medium.memory .empty).serve calls) ((Medium.file f).serve calls) := by
  obtain ⟨hempty, hfile⟩ := Medium.follows_create hcreate
  obtain ⟨hmemAnswers, hmem⟩ := Medium.follows_empty.serve calls
  obtain ⟨hfileAnswers, hfile⟩ := hfile.serve calls
  rw [List.nil_append] at hmem hfile
  obtain ⟨g, hg, hbytes⟩ := f.bytes_serve calls
  refine ⟨⟨hmemAnswers, hfileAnswers⟩, fun p => ⟨?_, ?_⟩, fun c cause herror => ⟨?_, ?_⟩,
    g, hg, ?_, ?_, g.image.length_bytes, fun p => ?_⟩
  · rw [hmem.marked, handedBack_iff]
  · rw [hfile.marked, hmem.marked]
  · exact Medium.state_call_of_error hmem.whole ((hmem.result_call c).trans herror)
  · exact Medium.state_call_of_error hfile.whole ((hfile.result_call c).trans herror)
  · rw [hbytes, hempty]
    rfl
  · have hwhole := hfile.whole
    rw [hg] at hwhole
    exact pageSize_eq ▸ hwhole
  · rw [hg] at hfile
    -- every page of the file can be read, the last ones of it and those beyond as well
    have hread := Medium.result_read_of_whole hfile.whole p .zero
    have hbuffer : (g.read p .zero).buffer = lastSaved calls p :=
      (Medium.buffer_read hread).trans (hfile.contents p)
    have hresult : (g.read p .zero).result = .ok () := hread
    rw [g.readPage?_bytes p .zero, hresult, hbuffer]

/-- A page is written far beyond the end of the file, one before it is read, a short buffer is
refused, and a page is handed back. -/
theorem new_media_agree_vacant :
    FileStore.create .vacant = .ok ⟨.empty, ∅⟩ ∧
      let calls : List StoreCall := [.write (.wrap 7) (Page.fill 1).bytes,
        .read (.wrap 3) (Page.fill 2).bytes, .write (.wrap 7) ⟨#[1, 2, 3]⟩,
        .deallocate (.wrap 7), .isDeallocated (.wrap 7)]
      Agreement calls ((Medium.memory .empty).serve calls)
        ((Medium.file ⟨.empty, ∅⟩).serve calls) :=
  have hcreate : FileStore.create .vacant = .ok ⟨.empty, ∅⟩ := rfl
  ⟨hcreate, new_media_agree hcreate _⟩

end PageCache
