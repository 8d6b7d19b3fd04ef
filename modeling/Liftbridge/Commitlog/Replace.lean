import Liftbridge.Commitlog.Write

/-!
# Replacing a segment

`s.Replace(old)` is how compaction and truncation swap a segment for the one they built beside it
(`Cleaned`, `Truncated`): close both, rename the new segment's files over the old one's, reopen the
log under the plain name and read the index back.

`replace_cases` says what a call leaves behind at each step that can fail.  When every step
succeeds, the old segment's names hold the new segment's files, the new segment is the same one
under them, and every read of the old segment says `ErrSegmentReplaced`.  Nothing is undone when a
step fails.  A failed close of `old` leaves it open in name with its log released, so every read of
it fails; a failure after that leaves `old` closed and not replaced, so its reads say
`ErrSegmentClosed`; a failure between the two renames leaves the old log name on the new log and
the old index name on the old index; and `setupIndex` runs after `old.replaced` is set.
-/

set_option autoImplicit false

namespace Liftbridge.Commitlog

open Segment

/-! ## The steps -/

namespace Segment

variable {d : Disk} {s : Segment}

/-- `ReadAt` on a closed segment: `ErrSegmentReplaced` if it was replaced, `ErrSegmentClosed` if
not. -/
theorem readAt_of_closed (h : s.closed = true) (len : ℕ) (off : Int) :
    s.readAt d len off = .error (if s.replaced then .segmentReplaced else .segmentClosed) := by
  simp only [readAt, h, if_true]
  split <;> simp_all

/-- `ReadAt` on a segment that is open but whose log was released: the file is closed. -/
theorem readAt_of_released (hc : s.closed = false) (hl : s.log.isOpen = false) (len : ℕ) (off : Int) :
    s.readAt d len off = .error (.os .closed) := by
  simp [readAt, hc, File.readAt, hl, Except.mapError]

/-- `close()` of an open segment: both files released, and the segment closed. -/
theorem close_of_open (hc : s.closed = false) (hl : s.log.isOpen = true) (hi : s.index.isOpen = true) :
    s.close none = (.ok (), { s with log := { s.log with isOpen := false },
                                     index := { s.index with isOpen := false }, closed := true }) := by
  simp [close, hc, File.close, hl, hi]

/-- `close()` failing on an open segment: it stays open in name, with its log released. -/
theorem close_of_fault (hc : s.closed = false) (hl : s.log.isOpen = true) (hi : s.index.isOpen = true)
    (f : CloseFault) :
    (s.close (some f)).1 = .error (.os .failed) ∧ (s.close (some f)).2.closed = false ∧
      (s.close (some f)).2.log.isOpen = false := by
  cases f <;> simp [close, hc, File.close, hl, hi]

end Segment

/-- `setupIndex` on an index file that is there leaves the disk as it is. -/
theorem Segment.setupIndex_disk {d : Disk} {s : Segment} {i : ℕ} (h : d.names s.indexPath = some i)
    (fault : Option SetupFault) : (s.setupIndex d fault).2.1 = d := by
  unfold setupIndex newIndex
  split
  · rfl
  · rename_i heq
    simp only [Disk.openFile, h] at heq
    split at heq
    · simp at heq
    · obtain ⟨-, rfl⟩ := Prod.mk.inj (Except.ok.inj heq)
      dsimp only
      split
      · rfl
      · rfl
      · split <;> rfl

/-- What `s.Replace(old)` leaves behind, for each step that can fail. -/
def ReplaceOutcome (d : Disk) (s old : Segment) :
    Option ReplaceFault → Except SegError Unit × Disk × Segment × Segment → Prop
  | none, (r, d', s', old') =>
    r = .ok () ∧ s' = { s with suffix := "" } ∧ FilesAgree d' s' ∧
      d'.names old.logPath = some s.log.inode ∧ d'.names old.indexPath = some s.index.inode ∧
      ∀ len off, old'.readAt d' len off = .error .segmentReplaced
  | some (.closeOld _), (r, d', _, old') =>
    r = .error (.os .failed) ∧ d' = d ∧ ∀ len off, old'.readAt d' len off = .error (.os .closed)
  | some (.closeNew _), (r, d', _, old') | some .renameLog, (r, d', _, old') =>
    r = .error (.os .failed) ∧ d' = d ∧ ∀ len off, old'.readAt d' len off = .error .segmentClosed
  | some .renameIndex, (r, d', _, old') =>
    r = .error (.os .failed) ∧ d'.names old.logPath = some s.log.inode ∧
      d'.names old.indexPath = d.names old.indexPath ∧ ∀ len off, old'.readAt d' len off = .error .segmentClosed
  | some .openLog, (r, d', _, old') =>
    r = .error (.os .failed) ∧ d'.names old.logPath = some s.log.inode ∧
      d'.names old.indexPath = some s.index.inode ∧ ∀ len off, old'.readAt d' len off = .error .segmentClosed
  | some (.setupIndex _), (_, d', _, old') =>
    d'.names old.logPath = some s.log.inode ∧ d'.names old.indexPath = some s.index.inode ∧
      ∀ len off, old'.readAt d' len off = .error .segmentReplaced

/-- What `s.Replace(old)` does, at each step that can fail, when `s` is a segment built beside `old`
(same directory and base offset, a suffix of its own) whose position, offsets and write times agree
with its files, whatever its first entry's timestamp, and `old` is open under the plain names. -/
theorem replace_cases {d : Disk} {s old : Segment} (hs : FilesAgree d s) (hold : old.closed = false)
    (holl : old.log.isOpen = true) (holi : old.index.isOpen = true) (holr : old.replaced = false)
    (hpath : s.path = old.path)
    (hbase : s.baseOffset = old.baseOffset) (hsuf : old.suffix = "") (hsuf' : s.suffix ≠ "")
    (fault : Option ReplaceFault) : ReplaceOutcome d s old fault (replace d s old fault) := by
  have hfo := close_of_fault hold holl holi
  have hfs := close_of_fault hs.closed hs.logOpen hs.indexOpen
  obtain ⟨⟨li, lo⟩, ⟨ii, io⟩, base, fo, lo', fw, lw, pos, mb, path, sfx, ws, sealed, closed, replaced⟩ := s
  obtain ⟨⟨oli, olo⟩, ⟨oii, oio⟩, obase, ofo, olo', ofw, olw, opos, omb, opath, osfx, ows, osealed, oclosed,
    oreplaced⟩ := old
  have hc := hs.closed
  have hlo := hs.logOpen
  have hio := hs.indexOpen
  have hln := hs.logName
  have hin := hs.indexName
  dsimp only [logPath, indexPath] at hold holl holi holr hpath hbase hsuf hsuf' hc hlo hio hln hin
  subst hold holl holi holr hsuf hpath hbase hc hlo hio
  rcases fault with _ | ⟨f | f | _ | _ | _ | f⟩
  all_goals simp only [replace, ReplaceFault.closeOldFault, ReplaceFault.closeNewFault, close_of_open,
    reduceCtorEq, decide_False, decide_True, logPath, indexPath, Disk.rename, hln, Function.update_apply,
    Bool.not_true, Bool.false_eq_true, if_false, ite_false, if_true, FilePath.mk.injEq, and_false, false_and,
    hin, Disk.openFile, hsuf', and_true, true_and, ReplaceOutcome, Option.some.injEq, ReplaceFault.setupFault]
  case none =>
    rw [hs.setupIndex ?hn ?hd ?hb ?he]
    case hn => simp [indexPath, Function.update_apply, hsuf']
    case hd => rfl
    case hb => rfl
    case he => exact fun hix ↦ hs.empty (by simp [Disk.indexEntries, hix])
    dsimp only
    refine ⟨rfl, rfl, ⟨rfl, rfl, rfl, ?_, ?_, hs.position, hs.empty, hs.first, hs.last⟩, ?_⟩ <;>
      simp [logPath, indexPath, Function.update_apply, hsuf', readAt_of_closed]
  case closeOld =>
    obtain ⟨h1, h2, h3⟩ := hfo f
    split <;> rename_i heq <;> rw [heq] at h1 h2 h3 <;> cases h1
    exact ⟨rfl, rfl, readAt_of_released h2 h3⟩
  case closeNew =>
    obtain ⟨h1, -⟩ := hfs f
    split <;> rename_i heq <;> rw [heq] at h1 <;> cases h1
    simp [readAt_of_closed]
  case setupIndex =>
    rw [@Segment.setupIndex_disk _ _ ii ?h]
    case h => simp [indexPath, Function.update_apply]
    simp [Function.update_apply, hsuf', readAt_of_closed]
  all_goals simp [readAt_of_closed]

/-- What `Cleaned()` of the fresh segment returns: new files, under the `.cleaned` names. -/
def cleanedSegment : Segment :=
  { freshSegment with log := ⟨2, true⟩, index := ⟨3, true⟩, suffix := cleanedSuffix }

/-- The fresh segment replaced by its cleaned copy. -/
theorem freshSegment_replaced :
    let d := (freshSegment.cleaned freshState.1.disk none).2
    let r := replace d cleanedSegment freshSegment none
    r.1 = .ok () ∧ r.2.2.1 = { cleanedSegment with suffix := "" } ∧
      ∀ len off, r.2.2.2.readAt r.2.1 len off = .error .segmentReplaced := by
  have hc : freshSegment.cleaned freshState.1.disk none =
      (.ok cleanedSegment, (freshSegment.cleaned freshState.1.disk none).2) := rfl
  have h := @replace_cases _ cleanedSegment freshSegment (newSegment_filesAgree hc)
    rfl rfl rfl rfl rfl rfl rfl (by decide) none
  exact ⟨h.1, h.2.1, h.2.2.2.2.2⟩

/-- A failed rename leaves the fresh segment closed and not replaced; between the two renames, its
log name is on the cleaned log and its index name on its own index. -/
theorem replace_fails_closed :
    let d := (freshSegment.cleaned freshState.1.disk none).2
    let r := replace d cleanedSegment freshSegment (some .renameLog)
    let r' := replace d cleanedSegment freshSegment (some .renameIndex)
    r.1 = .error (.os .failed) ∧ r.2.2.2.readAt r.2.1 1 0 = .error .segmentClosed ∧
      r'.1 = .error (.os .failed) ∧ r'.2.1.names ⟨"/data", 0, .log, ""⟩ = some 2 ∧
      r'.2.1.names ⟨"/data", 0, .index, ""⟩ = some 1 :=
  ⟨rfl, rfl, rfl, rfl, rfl⟩

end Liftbridge.Commitlog
