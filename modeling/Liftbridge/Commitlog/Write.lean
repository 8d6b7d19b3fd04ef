import Liftbridge.Commitlog.Segment

/-!
# Writing to a segment

`WriteMessageSet` writes the bytes to the log, then the entries to the index; `write` keeps the
offsets, write times and position in memory.  This file says what a call does in each of its
outcomes, and proves two things about runs of calls.

* **Successful writes** (`successfulWrites_fields`).  After every call the first offset and write
  time are those of the first entry the segment ever received, the last ones those of the last
  entry, the position is the size of the log file, and reopening the segment reads the same
  values back from its index.  Two things bound this.  The index keeps offsets relative to the
  base offset in 32 bits (`reopen_wraps`), so the offsets must stay below `BaseOffset + 2 ^ 32`.
  And `write` takes a first write to be one made while `firstWriteTime == 0`, so a first entry
  stamped `0` lets the next call take its place; the theorem is for segments whose first entry
  has another timestamp.
* **Failed writes** (`writeMessageSet_error_cases`).  Nothing is undone.  A closed segment is left
  as it is, and so is one whose log a failed `Close()` released: it is not closed, but every write
  fails on the closed file before a byte gets out.  A log write that fails after `n` bytes leaves
  them in the file, with the position behind it; an index append that fails leaves the log write
  and every field `write` set in place, and the index with the records appended before the
  failure.

`FilesAgree` is what it is for a segment to agree with its files; `WriteInv` adds that the first
entry is not stamped `0`, which successful writes need and keep.
-/

set_option autoImplicit false

namespace Liftbridge.Commitlog

open Segment

/-! ## What one call does -/

section Spec

variable {w : World} {s : Segment} {p : List UInt8} {entries : List Entry}

theorem write_of_closed (h : s.closed = true) (fault : Option ℕ) :
    s.write w p entries fault = (.error .segmentClosed, w, s) := by
  simp [write, h]

/-- A log released by a failed `Close()` takes no byte: the call fails and changes nothing. -/
theorem write_of_released (hc : s.closed = false) (ho : s.log.isOpen = false) (fault : Option ℕ) :
    s.write w p entries fault = (.error (.os .closed), w, s) := by
  simp [write, hc, File.write, ho]

theorem write_of_log_fault (hc : s.closed = false) (ho : s.log.isOpen = true) (n : ℕ) :
    s.write w p entries (some n) =
      (.error (.os .failed), { w with disk := w.disk.appendLog s.log.inode (p.take n) }, s) := by
  simp [write, hc, File.write, ho]

/-- The segment after a successful `write` of `p` with entries from `first` to `last`. -/
theorem write_of_ok (hc : s.closed = false) (ho : s.log.isOpen = true) {first last : Entry}
    (hf : entries.head? = some first) (hl : entries.getLast? = some last) :
    s.write w p entries none =
      (.ok p.length, ⟨w.disk.appendLog s.log.inode p, (s.notifyWaiters w.chans).1⟩,
        { s with position := s.position + p.length,
                 firstOffset := if s.firstWriteTime = 0 then first.offset else s.firstOffset,
                 firstWriteTime := if s.firstWriteTime = 0 then first.timestamp else s.firstWriteTime,
                 lastOffset := last.offset, lastWriteTime := last.timestamp, waiters := [] }) := by
  simp only [write, hc, File.write, ho, hf, hl, if_true, Bool.false_eq_true, if_false]
  split <;> rfl

theorem writeMessageSet_of_write_error {fault : Option WriteFault} {e : SegError} {w' : World}
    {s' : Segment} (h : s.write w p entries (WriteFault.logFault fault) = (.error e, w', s')) :
    writeMessageSet w s p entries fault = (.error e, w', s') := by
  simp [writeMessageSet, h]

section Written

variable {w' : World} {s' : Segment} {n : ℕ} (h : s.write w p entries none = (.ok n, w', s'))
include h

theorem writeMessageSet_of_ok :
    writeMessageSet w s p entries none =
      (.ok (), { w' with disk := w'.disk.appendIndex s'.index.inode (entries.map (·.toRel s'.baseOffset)) },
        s') := by
  simp [writeMessageSet, WriteFault.logFault, WriteFault.indexFault, h, writeEntries]

theorem writeMessageSet_of_index_fault (k : ℕ) :
    writeMessageSet w s p entries (some (.index k)) =
      (.error (.os .failed),
        { w' with disk := w'.disk.appendIndex s'.index.inode ((entries.map (·.toRel s'.baseOffset)).take k) },
        s') := by
  simp [writeMessageSet, WriteFault.logFault, WriteFault.indexFault, h, writeEntries]

end Written

end Spec

/-! ## Failed writes -/

/-- A failed `WriteMessageSet` undoes nothing: a closed segment is left as it is, and so is one
whose log was released by a failed `Close()`, which fails every write before a byte gets out; a
failed log write leaves the bytes it got out in the file, and the segment's fields as they were; a
failed index append leaves the log write, every field `write` set, and the records appended
before it. -/
theorem writeMessageSet_error_cases (w : World) (s : Segment) (ms : List UInt8) (entries : List Entry) :
    (s.closed = true → ∀ fault, writeMessageSet w s ms entries fault = (.error .segmentClosed, w, s)) ∧
    (s.closed = false → s.log.isOpen = false → ∀ fault,
      writeMessageSet w s ms entries fault = (.error (.os .closed), w, s)) ∧
    (s.closed = false → s.log.isOpen = true → ∀ n,
      writeMessageSet w s ms entries (some (.log n)) =
        (.error (.os .failed), { w with disk := w.disk.appendLog s.log.inode (ms.take n) }, s)) ∧
    (s.closed = false → s.log.isOpen = true → ∀ first last, entries.head? = some first →
      entries.getLast? = some last → ∀ k,
      writeMessageSet w s ms entries (some (.index k)) =
        (.error (.os .failed),
          ⟨(w.disk.appendLog s.log.inode ms).appendIndex s.index.inode
              ((entries.map (·.toRel s.baseOffset)).take k), (s.notifyWaiters w.chans).1⟩,
          { s with position := s.position + ms.length,
                   firstOffset := if s.firstWriteTime = 0 then first.offset else s.firstOffset,
                   firstWriteTime := if s.firstWriteTime = 0 then first.timestamp else s.firstWriteTime,
                   lastOffset := last.offset, lastWriteTime := last.timestamp, waiters := [] })) := by
  refine ⟨fun hc fault ↦ ?_, fun hc ho fault ↦ ?_, fun hc ho n ↦ ?_, fun hc ho first last hf hl k ↦ ?_⟩
  · exact writeMessageSet_of_write_error (write_of_closed hc _)
  · exact writeMessageSet_of_write_error (write_of_released hc ho _)
  · exact writeMessageSet_of_write_error (write_of_log_fault hc ho n)
  · exact writeMessageSet_of_index_fault (write_of_ok hc ho hf hl) k

/-- The log write of the fresh segment failing after one byte of two; and any write to the fresh
segment after a `Close()` whose log close failed, which released the log and left the segment
open in name. -/
theorem freshSegment_write_fails :
    writeMessageSet freshState.1 freshState.2 [1, 2] [⟨0, 5, 0⟩] (some (.log 1)) =
      (.error (.os .failed), { freshState.1 with disk := freshState.1.disk.appendLog 0 [1] }, freshState.2) ∧
    ((freshSegment.close (some .log)).1 = .error (.os .failed) ∧
      ∀ fault, writeMessageSet freshState.1 (freshSegment.close (some .log)).2 [1, 2] [⟨0, 5, 0⟩] fault =
        (.error (.os .closed), freshState.1, (freshSegment.close (some .log)).2)) :=
  ⟨(writeMessageSet_error_cases freshState.1 freshState.2 [1, 2] [⟨0, 5, 0⟩]).2.2.1 rfl rfl 1,
    rfl, (writeMessageSet_error_cases freshState.1 (freshSegment.close (some .log)).2 [1, 2]
      [⟨0, 5, 0⟩]).2.1 rfl rfl⟩

/-- Two bytes and one entry, written to the fresh segment when the log write fails after one byte,
and when the index append fails before its record. -/
theorem freshSegment_partial_writes :
    let r := writeMessageSet freshState.1 freshState.2 [1, 2] [⟨0, 5, 0⟩] (some (.log 1))
    let r' := writeMessageSet freshState.1 freshState.2 [1, 2] [⟨0, 5, 0⟩] (some (.index 0))
    r.1 = .error (.os .failed) ∧ r.2.1.disk.logData 0 = [1] ∧ r.2.2.position = 0 ∧
      r'.1 = .error (.os .failed) ∧ r'.2.1.disk.logData 0 = [1, 2] ∧ r'.2.1.disk.indexData 1 = [] ∧
      r'.2.2.position = 2 ∧ r'.2.2.lastOffset = 0 :=
  ⟨rfl, rfl, rfl, rfl, rfl, rfl, rfl, rfl⟩

/-! ## Successful writes -/

/-- A segment open for writing whose fields agree with its files: the position is the size of the
log, and the offsets and write times are those of the index's first and last entries, as
`setupIndex` reads them, or `newSegment`'s defaults when the index is empty. -/
structure FilesAgree (d : Disk) (s : Segment) : Prop where
  closed : s.closed = false
  logOpen : s.log.isOpen = true
  indexOpen : s.index.isOpen = true
  logName : d.names s.logPath = some s.log.inode
  indexName : d.names s.indexPath = some s.index.inode
  position : s.position = (d.logData s.log.inode).length
  empty : d.indexEntries s.index s.baseOffset = [] →
    s.firstOffset = -1 ∧ s.firstWriteTime = 0 ∧ s.lastOffset = -1 ∧ s.lastWriteTime = 0
  first : ∀ e ∈ (d.indexEntries s.index s.baseOffset).head?,
    s.firstOffset = e.offset ∧ s.firstWriteTime = e.timestamp
  last : ∀ e ∈ (d.indexEntries s.index s.baseOffset).getLast?,
    s.lastOffset = e.offset ∧ s.lastWriteTime = e.timestamp

/-- A segment that agrees with its files and whose first entry's timestamp is not `0`, which is how
`write` tells a segment that has been written to.  This is what successful writes keep. -/
structure WriteInv (d : Disk) (s : Segment) extends FilesAgree d s : Prop where
  stamped : ∀ e ∈ (d.indexEntries s.index s.baseOffset).head?, e.timestamp ≠ 0

/-- A segment `newSegment` opens, new or on existing files, agrees with its files. -/
theorem newSegment_filesAgree {d d' : Disk} {path : String} {baseOffset maxBytes : Int} {isNew : Bool}
    {suffix : String} {s : Segment}
    (h : newSegment d path baseOffset maxBytes isNew suffix none = (.ok s, d')) : FilesAgree d' s := by
  obtain ⟨li, d₁, hlog, hln, -, -, -⟩ := d.openFile_spec ⟨path, baseOffset, .log, suffix⟩
  obtain ⟨ii, d₂, hidx, hin, hother, hld, -⟩ := d₁.openFile_spec ⟨path, baseOffset, .index, suffix⟩
  have hln₂ : d₂.names ⟨path, baseOffset, .log, suffix⟩ = some li := (hother _ (by simp)).trans hln
  simp only [newSegment] at h
  split at h
  · simp at h
  simp only [logPath, reduceCtorEq, decide_False, hlog, if_false, NewFault.setupFault] at h
  cases hix : d₂.indexData ii with
  | nil =>
    rw [setupIndex_of_nil hidx hix, Prod.mk.injEq, Except.ok.injEq] at h
    obtain ⟨rfl, rfl⟩ := h
    exact ⟨rfl, rfl, rfl, hln₂, hin, by simp [hld], fun _ ↦ ⟨rfl, rfl, rfl, rfl⟩,
      by simp [Disk.indexEntries, hix], by simp [Disk.indexEntries, hix]⟩
  | cons r rs =>
    rw [setupIndex_of_cons hidx hix, Prod.mk.injEq, Except.ok.injEq] at h
    obtain ⟨rfl, rfl⟩ := h
    refine ⟨rfl, rfl, rfl, hln₂, hin, by simp [hld], by simp [Disk.indexEntries, hix], ?_, ?_⟩
    · intro e he
      simp only [Disk.indexEntries, hix, List.map_cons, List.head?_cons, Option.mem_def,
        Option.some.injEq] at he
      subst he
      exact ⟨rfl, rfl⟩
    · intro e he
      rw [Disk.indexEntries, hix, List.getLast?_map, List.getLast?_eq_getLast _ (List.cons_ne_nil _ _),
        Option.map_some', Option.mem_def] at he
      obtain rfl := Option.some.inj he
      exact ⟨rfl, rfl⟩

/-- A segment `newSegment` opens keeps the invariant of writes, unless the index it finds starts
with an entry stamped `0`. -/
theorem newSegment_writeInv {d d' : Disk} {path : String} {baseOffset maxBytes : Int} {isNew : Bool}
    {suffix : String} {s : Segment}
    (h : newSegment d path baseOffset maxBytes isNew suffix none = (.ok s, d'))
    (hts : ∀ e ∈ (d'.indexEntries s.index s.baseOffset).head?, e.timestamp ≠ 0) : WriteInv d' s :=
  ⟨newSegment_filesAgree h, hts⟩

/-- `setupIndex` of a segment on the index of one that agrees with its files reads back that
segment's offsets and write times (or leaves its own, the defaults, when the index is empty). -/
theorem FilesAgree.setupIndex {d d' : Disk} {s t : Segment} (h : FilesAgree d s)
    (hn : d'.names t.indexPath = some s.index.inode)
    (hdata : d'.indexData s.index.inode = d.indexData s.index.inode) (hb : t.baseOffset = s.baseOffset)
    (hempty : d.indexData s.index.inode = [] →
      t.firstOffset = -1 ∧ t.firstWriteTime = 0 ∧ t.lastOffset = -1 ∧ t.lastWriteTime = 0) :
    t.setupIndex d' none =
      (.ok (), d', { t with index := s.index, firstOffset := s.firstOffset, firstWriteTime := s.firstWriteTime,
                            lastOffset := s.lastOffset, lastWriteTime := s.lastWriteTime }) := by
  have ho : d'.openFile t.indexPath false = .ok (s.index, d') := by
    rw [Disk.openFile_of_names hn, ← h.indexOpen]
  cases hix : d.indexData s.index.inode with
  | nil =>
    rw [setupIndex_of_nil ho (hdata.trans hix)]
    obtain ⟨h1, h2, h3, h4⟩ := h.empty (by simp [Disk.indexEntries, hix])
    obtain ⟨t1, t2, t3, t4⟩ := hempty hix
    simp only [h1, h2, h3, h4, t1, t2, t3, t4]
  | cons r rs =>
    rw [setupIndex_of_cons ho (hdata.trans hix), hb]
    obtain ⟨h1, h2⟩ := h.first (r.toEntry s.baseOffset) (by simp [Disk.indexEntries, hix])
    obtain ⟨h3, h4⟩ := h.last (((r :: rs).getLast (List.cons_ne_nil _ _)).toEntry s.baseOffset) (by
      rw [Disk.indexEntries, hix, List.getLast?_map, List.getLast?_eq_getLast _ (List.cons_ne_nil _ _)]; rfl)
    rw [h1, h2, h3, h4]

/-- Reopening a segment that agrees with its files reads back the same segment, with no waiters. -/
theorem FilesAgree.reopen {d : Disk} {s : Segment} (h : FilesAgree d s) :
    newSegment d s.path s.baseOffset s.maxBytes false s.suffix none =
      (.ok { s with waiters := [], sealed := false, replaced := false }, d) := by
  have hlog : d.openFile ⟨s.path, s.baseOffset, .log, s.suffix⟩ false = .ok (s.log, d) := by
    have := Disk.openFile_of_names h.logName
    rwa [← h.logOpen] at this
  simp only [newSegment, logPath, Bool.false_and, Bool.false_eq_true, if_false, reduceCtorEq, decide_False, hlog,
    NewFault.setupFault]
  rw [h.setupIndex ?hn rfl ?hb ?hempty]
  case hn => exact h.indexName
  case hb => rfl
  case hempty => exact fun _ ↦ ⟨rfl, rfl, rfl, rfl⟩
  simp [h.position, h.closed]

/-- What the index keeps of an entry, and `setupIndex` reads back: its offset and timestamp. -/
def Entry.stamp (e : Entry) : Int × Int := (e.offset, e.timestamp)

/-- A successful `WriteMessageSet` keeps a segment in agreement with its files, when the entries'
offsets fit the index's 32 bits and a first entry is not stamped `0`; the index gains the
entries. -/
theorem WriteInv.writeMessageSet {w : World} {s : Segment} {ms : List UInt8} {entries : List Entry}
    {first last : Entry} (h : WriteInv w.disk s) (hf : entries.head? = some first)
    (hl : entries.getLast? = some last)
    (hrange : ∀ e ∈ entries, s.baseOffset ≤ e.offset ∧ e.offset < s.baseOffset + 2 ^ 32)
    (hts : w.disk.indexEntries s.index s.baseOffset = [] → first.timestamp ≠ 0) :
    let r := writeMessageSet w s ms entries none
    r.1 = .ok () ∧ WriteInv r.2.1.disk r.2.2 ∧ r.2.2.baseOffset = s.baseOffset ∧
      (r.2.1.disk.indexEntries r.2.2.index r.2.2.baseOffset).map Entry.stamp =
        (w.disk.indexEntries s.index s.baseOffset ++ entries).map Entry.stamp := by
  rw [writeMessageSet_of_ok (write_of_ok h.closed h.logOpen hf hl)]
  have hne : entries ≠ [] := by rintro rfl; simp at hf
  have hfirst := hrange first (List.mem_of_mem_head? hf)
  have hlast := hrange last (List.mem_of_mem_getLast? hl)
  -- the first entry is the old one, or the first written when the index was empty
  have hhead : ∀ e ∈ (((w.disk.appendLog s.log.inode ms).appendIndex s.index.inode
      (entries.map (·.toRel s.baseOffset))).indexEntries s.index s.baseOffset).head?,
      ((if s.firstWriteTime = 0 then first.offset else s.firstOffset) = e.offset ∧
        (if s.firstWriteTime = 0 then first.timestamp else s.firstWriteTime) = e.timestamp) ∧
      e.timestamp ≠ 0 := by
    intro e he
    rw [Disk.indexEntries_appendIndex_self, Disk.indexEntries_appendLog, List.map_map,
      List.head?_append] at he
    cases hold : w.disk.indexEntries s.index s.baseOffset with
    | nil =>
      obtain ⟨-, hfw, -, -⟩ := h.empty hold
      rw [hold, List.head?_nil, Option.none_or, List.head?_map, hf, Option.map_some', Option.mem_def,
        Option.some.injEq] at he
      subst he
      rw [hfw, if_pos rfl, if_pos rfl]
      exact ⟨⟨(Entry.toRel_toEntry_offset hfirst.1 hfirst.2).symm, rfl⟩, hts hold⟩
    | cons e₀ es =>
      rw [hold, List.head?_cons, Option.or_some, Option.mem_def, Option.some.injEq] at he
      subst he
      have hts₀ := h.stamped e₀ (by simp [hold])
      obtain ⟨hfo, hfw⟩ := h.first e₀ (by simp [hold])
      rw [hfw, if_neg hts₀, if_neg hts₀]
      exact ⟨⟨hfo, rfl⟩, hts₀⟩
  refine ⟨rfl, ⟨⟨h.closed, h.logOpen, h.indexOpen, h.logName, h.indexName, ?position, ?empty,
    fun e he ↦ (hhead e he).1, ?last⟩, fun e he ↦ (hhead e he).2⟩, rfl, ?stamps⟩
  all_goals dsimp only
  case position => simp [h.position]
  case empty => simp [hne]
  case last =>
    intro e he
    rw [Disk.indexEntries_appendIndex_self, Disk.indexEntries_appendLog, List.map_map, List.getLast?_append,
      List.getLast?_map, hl, Option.map_some', Option.or_some, Option.mem_def, Option.some.injEq] at he
    subst he
    exact ⟨(Entry.toRel_toEntry_offset hlast.1 hlast.2).symm, rfl⟩
  case stamps =>
    rw [Disk.indexEntries_appendIndex_self, Disk.indexEntries_appendLog, List.map_map, List.map_append,
      List.map_append, List.map_map]
    congr 1
    exact List.map_congr_left fun e he ↦
      Prod.ext (Entry.toRel_toEntry_offset (hrange e he).1 (hrange e he).2) rfl

/-- A run of successful `WriteMessageSet` calls, each with its bytes and its entries. -/
inductive Writes : World × Segment → List (List UInt8 × List Entry) → World × Segment → Prop
  | nil (st : World × Segment) : Writes st [] st
  | snoc {st st' : World × Segment} {calls : List (List UInt8 × List Entry)} (ms : List UInt8)
      (entries : List Entry) (h : Writes st calls st')
      (hok : (writeMessageSet st'.1 st'.2 ms entries none).1 = .ok ()) :
      Writes st (calls ++ [(ms, entries)]) (writeMessageSet st'.1 st'.2 ms entries none).2

/-- A call succeeds only on an open segment, with an open log and at least one entry. -/
theorem writeMessageSet_ok_inv {w : World} {s : Segment} {ms : List UInt8} {entries : List Entry}
    (h : (writeMessageSet w s ms entries none).1 = .ok ()) :
    s.closed = false ∧ s.log.isOpen = true ∧ entries ≠ [] := by
  cases hc : s.closed
  · cases ho : s.log.isOpen
    · simp [writeMessageSet, write, hc, File.write, ho, WriteFault.logFault] at h
    · refine ⟨rfl, rfl, ?_⟩
      rintro rfl
      simp [writeMessageSet, write, hc, File.write, ho, WriteFault.logFault] at h
  · simp [writeMessageSet, write, hc] at h

/-- What a successful call does to the files: the log gains the bytes and the index the entries'
records; the segment keeps its files and its base offset. -/
theorem writeMessageSet_files {w : World} {s : Segment} {ms : List UInt8} {entries : List Entry}
    (h : (writeMessageSet w s ms entries none).1 = .ok ()) :
    let r := (writeMessageSet w s ms entries none).2
    r.2.log = s.log ∧ r.2.index = s.index ∧ r.2.baseOffset = s.baseOffset ∧ r.2.closed = s.closed ∧
      r.1.disk.logData s.log.inode = w.disk.logData s.log.inode ++ ms ∧
      r.1.disk.indexData s.index.inode =
        w.disk.indexData s.index.inode ++ entries.map (·.toRel s.baseOffset) := by
  obtain ⟨hc, ho, hne⟩ := writeMessageSet_ok_inv h
  obtain ⟨first, es, rfl⟩ := List.exists_cons_of_ne_nil hne
  have hf : (first :: es).head? = some first := rfl
  rw [writeMessageSet_of_ok (write_of_ok hc ho hf (List.getLast?_eq_getLast _ (List.cons_ne_nil _ _)))]
  simp

/-- A run of writes appends every call's bytes to the log and every call's records to the index. -/
theorem Writes.files {st st' : World × Segment} {calls : List (List UInt8 × List Entry)}
    (h : Writes st calls st') :
    st'.2.log = st.2.log ∧ st'.2.index = st.2.index ∧ st'.2.baseOffset = st.2.baseOffset ∧
      st'.2.closed = st.2.closed ∧
      st'.1.disk.logData st.2.log.inode = st.1.disk.logData st.2.log.inode ++ (calls.map (·.1)).flatten ∧
      st'.1.disk.indexData st.2.index.inode = st.1.disk.indexData st.2.index.inode ++
        (calls.map fun call ↦ call.2.map (·.toRel st.2.baseOffset)).flatten := by
  induction h with
  | nil => simp
  | snoc ms entries _ hok ih =>
    obtain ⟨hl, hi, hb, hc, hld, hid⟩ := ih
    obtain ⟨hl', hi', hb', hc', hld', hid'⟩ := writeMessageSet_files hok
    refine ⟨hl'.trans hl, hi'.trans hi, hb'.trans hb, hc'.trans hc, ?_, ?_⟩
    · rw [← hl, hld', hl, hld]
      simp
    · rw [← hi, hid', hi, hid, hb]
      simp

theorem head?_mem_of_append {l l' : List Entry} {e : Entry} (h : e ∈ l.head?) : e ∈ (l ++ l').head? := by
  cases l with
  | nil => simp at h
  | cons a t => simpa using h

/-- A run of writes keeps a segment in agreement with its files, and its index gains every entry
of the run, in order. -/
theorem Writes.writeInv {st st' : World × Segment} {calls : List (List UInt8 × List Entry)}
    (h : Writes st calls st') (hinv : WriteInv st.1.disk st.2) (hne : ∀ c ∈ calls, c.2 ≠ [])
    (hrange : ∀ e ∈ (calls.map (·.2)).flatten, st.2.baseOffset ≤ e.offset ∧ e.offset < st.2.baseOffset + 2 ^ 32)
    (hts : ∀ e ∈ (st.1.disk.indexEntries st.2.index st.2.baseOffset ++ (calls.map (·.2)).flatten).head?,
      e.timestamp ≠ 0) :
    WriteInv st'.1.disk st'.2 ∧ st'.2.baseOffset = st.2.baseOffset ∧
      (st'.1.disk.indexEntries st'.2.index st'.2.baseOffset).map Entry.stamp =
        (st.1.disk.indexEntries st.2.index st.2.baseOffset ++ (calls.map (·.2)).flatten).map Entry.stamp := by
  induction h with
  | nil => exact ⟨hinv, rfl, by simp⟩
  | @snoc st₂ calls ms entries _ _ ih =>
    simp only [List.map_append, List.map_cons, List.map_nil, List.flatten_append, List.flatten_cons,
      List.flatten_nil, List.append_nil, List.mem_append, List.mem_singleton] at hne hrange hts ⊢
    obtain ⟨hi, hb, hst⟩ := ih (fun c hc ↦ hne c (.inl hc)) (fun e he ↦ hrange e (.inl he))
      (fun e he ↦ hts e (by rw [← List.append_assoc]; exact head?_mem_of_append he))
    cases entries with
    | nil => exact absurd rfl (hne _ (.inr rfl))
    | cons first es =>
      have hts' : st₂.1.disk.indexEntries st₂.2.index st₂.2.baseOffset = [] → first.timestamp ≠ 0 := by
        intro h0
        rw [h0, List.map_nil, eq_comm, List.map_eq_nil_iff] at hst
        exact hts first (by rw [← List.append_assoc, hst]; rfl)
      obtain ⟨-, hi', hb', hst'⟩ := @WriteInv.writeMessageSet st₂.1 st₂.2 ms (first :: es) first _ hi rfl
        (List.getLast?_eq_getLast _ (List.cons_ne_nil _ _)) (fun e he ↦ hb ▸ hrange e (.inr he)) hts'
      exact ⟨hi', hb'.trans hb, by
        simp only [hst', List.map_append, hst, List.append_assoc]⟩

theorem setupIndex_baseOffset (d : Disk) (s : Segment) (fault : Option SetupFault) :
    (s.setupIndex d fault).2.2.baseOffset = s.baseOffset := by
  unfold setupIndex
  split
  · rfl
  dsimp only
  split
  · rfl
  · rfl
  split <;> rfl

theorem newSegment_baseOffset {d d' : Disk} {path : String} {baseOffset maxBytes : Int} {isNew : Bool}
    {suffix : String} {fault : Option NewFault} {s : Segment}
    (h : newSegment d path baseOffset maxBytes isNew suffix fault = (.ok s, d')) : s.baseOffset = baseOffset := by
  dsimp only [newSegment] at h
  split at h
  · simp at h
  split at h
  · simp at h
  split at h
  · simp at h
  split at h
  · rename_i heq
    simp only [Prod.mk.injEq, Except.ok.injEq] at h
    obtain ⟨rfl, -⟩ := h
    exact (congrArg (fun r : Except SegError Unit × Disk × Segment ↦ r.2.2.baseOffset) heq).symm.trans
      (setupIndex_baseOffset _ _ _)
  · simp at h

theorem Disk.base_le_of_mem_indexEntries {d : Disk} {idx : File} {base : Int} {e : Entry}
    (h : e ∈ d.indexEntries idx base) : base ≤ e.offset := by
  obtain ⟨r, -, rfl⟩ := List.mem_map.1 h
  simp only [RelEntry.toEntry]
  omega

theorem offset_head_le_getLast {l : List Entry} (hs : l.Pairwise (·.offset < ·.offset)) {a b : Entry}
    (ha : a ∈ l.head?) (hb : b ∈ l.getLast?) : a.offset ≤ b.offset := by
  cases l with
  | nil => simp at ha
  | cons x t =>
    obtain rfl := Option.some.inj ha
    rcases List.mem_cons.1 (List.mem_of_mem_getLast? hb) with rfl | hbt
    · exact Int.le_refl _
    · exact Int.le_of_lt (List.rel_of_pairwise_cons hs hbt)

/-- Every run of successful writes on a segment `newSegment` opened, new or on existing files:
the index holds every entry the segment received, the offsets and write times are those of the
first and the last of them, the position is the size of the log, and reopening the segment reads
the same segment back.  This holds when the offsets fit the index's 32 bits above the base offset,
and when the first entry the segment ever received is not stamped `0`. -/
theorem successfulWrites_fields {d d₀ : Disk} {c : Chans} {path : String} {baseOffset maxBytes : Int}
    {isNew : Bool} {suffix : String} {s : Segment} {calls : List (List UInt8 × List Entry)}
    {st : World × Segment} (hnew : newSegment d path baseOffset maxBytes isNew suffix none = (.ok s, d₀))
    (hrun : Writes (⟨d₀, c⟩, s) calls st) (hbase : 0 ≤ baseOffset) (hne : ∀ call ∈ calls, call.2 ≠ [])
    (hrange : ∀ e ∈ (calls.map (·.2)).flatten, baseOffset ≤ e.offset ∧ e.offset < baseOffset + 2 ^ 32)
    (hsorted : (d₀.indexEntries s.index baseOffset ++ (calls.map (·.2)).flatten).Pairwise
      (·.offset < ·.offset))
    (hts : ∀ e ∈ (d₀.indexEntries s.index baseOffset ++ (calls.map (·.2)).flatten).head?,
      e.timestamp ≠ 0) :
    let hist := d₀.indexEntries s.index baseOffset ++ (calls.map (·.2)).flatten
    (st.1.disk.indexEntries st.2.index st.2.baseOffset).map Entry.stamp = hist.map Entry.stamp ∧
      st.2.position = (st.1.disk.logData st.2.log.inode).length ∧
      (∀ first ∈ hist.head?, ∀ last ∈ hist.getLast?,
        st.2.firstOffset = first.offset ∧ st.2.firstWriteTime = first.timestamp ∧
        st.2.lastOffset = last.offset ∧ st.2.lastWriteTime = last.timestamp ∧
        baseOffset ≤ st.2.firstOffset ∧ st.2.firstOffset ≤ st.2.lastOffset ∧
        st.2.isEmpty = false ∧ st.2.nextOffset = st.2.lastOffset + 1) ∧
      newSegment st.1.disk st.2.path st.2.baseOffset st.2.maxBytes false st.2.suffix none =
        (.ok { st.2 with waiters := [], sealed := false, replaced := false }, st.1.disk) := by
  intro hist
  have hb₀ := newSegment_baseOffset hnew
  subst hb₀
  have hinv := newSegment_writeInv hnew fun e he ↦ hts e (head?_mem_of_append he)
  obtain ⟨hi, hb, hst⟩ := hrun.writeInv hinv hne hrange hts
  refine ⟨hst, hi.position, fun first hfirst last hlast ↦ ?_, hi.reopen⟩
  have hh := congrArg List.head? hst
  have hl := congrArg List.getLast? hst
  rw [List.head?_map, List.head?_map, Option.mem_def.1 hfirst, Option.map_some',
    Option.map_eq_some'] at hh
  rw [List.getLast?_map, List.getLast?_map, Option.mem_def.1 hlast, Option.map_some',
    Option.map_eq_some'] at hl
  obtain ⟨e, he, hes⟩ := hh
  obtain ⟨e', he', hes'⟩ := hl
  obtain ⟨hfo, hfw⟩ := hi.first e he
  obtain ⟨hlo, hlw⟩ := hi.last e' he'
  simp only [Entry.stamp, Prod.mk.injEq] at hes hes'
  have hbase' : s.baseOffset ≤ e.offset := hb ▸ Disk.base_le_of_mem_indexEntries (List.mem_of_mem_head? he)
  have hle := offset_head_le_getLast hsorted hfirst hlast
  refine ⟨hfo.trans hes.1, hfw.trans hes.2, hlo.trans hes'.1, hlw.trans hes'.2, hfo ▸ hbase', by omega,
    ?_, ?_⟩
  · simp only [Segment.isEmpty, decide_eq_false_iff_not]
    omega
  · simp only [nextOffset]
    rw [if_neg (by omega)]

/-- Two bytes and one entry, at offset `7` and stamped `5`, written to the fresh segment. -/
theorem freshSegment_written :
    let st := (writeMessageSet freshState.1 freshState.2 [1, 2] [⟨7, 5, 0⟩] none).2
    st.2.firstOffset = 7 ∧ st.2.lastWriteTime = 5 ∧ st.2.nextOffset = 8 ∧ st.2.position = 2 ∧
      newSegment st.1.disk "/data" 0 1024 false "" none =
        (.ok { st.2 with waiters := [], sealed := false, replaced := false }, st.1.disk) := by
  have h := @successfulWrites_fields emptyDisk _ freshState.1.chans "/data" 0 1024 true "" freshSegment _ _ rfl
    (.snoc [1, 2] [⟨7, 5, 0⟩] (.nil _) rfl) (by decide) (by decide) (by decide) (by decide) (by decide)
  obtain ⟨-, hpos, hfields, hreopen⟩ := h
  obtain ⟨hfo, -, -, hlw, -, -, -, hnext⟩ := hfields ⟨7, 5, 0⟩ rfl ⟨7, 5, 0⟩ rfl
  exact ⟨hfo, hlw, hnext, hpos, hreopen⟩

/-- The two bounds.  An entry at offset `2 ^ 32` of a segment based at `0` is read back at
offset `0`.  A first entry stamped `0` leaves `firstWriteTime` at `0`, so the next write
takes its place as the first. -/
theorem reopen_wraps :
    let st := (writeMessageSet freshState.1 freshState.2 [1] [⟨2 ^ 32, 5, 0⟩] none).2
    let st₀ := (writeMessageSet freshState.1 freshState.2 [1] [⟨0, 0, 0⟩] none).2
    let st' := (writeMessageSet st₀.1 st₀.2 [2] [⟨1, 5, 1⟩] none).2
    st.2.lastOffset = 2 ^ 32 ∧
      (newSegment st.1.disk "/data" 0 1024 false "" none).1.map (·.lastOffset) = .ok 0 ∧
      st'.2.firstOffset = 1 ∧ st'.2.firstWriteTime = 5 ∧
      (newSegment st'.1.disk "/data" 0 1024 false "" none).1.map (·.firstOffset) = .ok 0 :=
  ⟨rfl, rfl, rfl, rfl, rfl⟩

end Liftbridge.Commitlog
