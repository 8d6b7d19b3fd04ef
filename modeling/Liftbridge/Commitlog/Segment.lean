import Mathlib.Logic.Function.Basic
import Mathlib.Algebra.Group.Int

/-!
# A commit-log segment

A segment is one log file and one index file, named after its base offset, with the offsets,
write times and write position kept in memory, and a map of readers waiting for data.  This file
translates `segment.go`: `newSegment` and `setupIndex`, `WriteMessageSet`, `ReadAt`, the waiters
(`WaitForLEO`, `WaitForData`, `removeWaiter`, `notifyWaiters`), `Seal`, `Close`, and the rename
ceremony of `Replace`.

What the segment touches outside its own fields is made explicit:

* **The disk.**  File names map to inodes, and inodes hold the data; an open `*os.File` refers to
  an inode, so after a rename it still reads the data it was opened on, and after `Close` it
  reads nothing.  A path is kept as its parts, the directory, the base offset and the extension,
  which `filepath.Join` and `fileFormat` print injectively.
* **The index.**  `index.go` is not in the sources; its operations are modelled from the spec
  (§4.1, §6): fixed-width records of a 32-bit relative offset, a 32-bit position and a 64-bit
  timestamp, appended in order.
* **Channels.**  Only the segment closes a waiter's channel, so a channel is its number and the
  number of times it was closed; closing one twice is the panic the waiters must avoid.
* **Failures.**  Every call that can fail takes its outcome as an argument: how many bytes a
  failing write got out, which of the steps of a close or of `Replace` failed.  A theorem that
  holds for every outcome holds whatever the disk does.
-/

set_option autoImplicit false

namespace Liftbridge.Commitlog

/-! ## Files -/

/-- The two extensions of `fileFormat`, `logSuffix` and `indexSuffix`. -/
inductive FileKind
  | log
  | index
deriving DecidableEq, Repr

/-- `filepath.Join(path, fmt.Sprintf(fileFormat, baseOffset, suffix))`, kept as its parts. -/
structure FilePath where
  dir : String
  base : Int
  kind : FileKind
  suffix : String
deriving DecidableEq, Repr

def cleanedSuffix : String := ".cleaned"

def truncatedSuffix : String := ".truncated"

/-- Modelled from the spec: a record of the index file (§6: a 4-byte offset relative to the base
offset, a 4-byte position, an 8-byte timestamp); `index.go` is not in the sources. -/
structure RelEntry where
  offset : UInt32
  position : UInt32
  timestamp : Int
deriving DecidableEq, Repr

/-- `entry`: an index entry as the segment writes and reads it. -/
structure Entry where
  offset : Int
  timestamp : Int
  position : Int
deriving DecidableEq, Repr

/-- Modelled from the spec: the record the index stores for an entry; `uint32` wraps. -/
def Entry.toRel (baseOffset : Int) (e : Entry) : RelEntry :=
  ⟨UInt32.ofNat ((e.offset - baseOffset) % 2 ^ 32).toNat, UInt32.ofNat (e.position % 2 ^ 32).toNat,
    e.timestamp⟩

/-- Modelled from the spec: the entry read back from a record (absolute offset
`baseOffset + relative_offset`). -/
def RelEntry.toEntry (baseOffset : Int) (r : RelEntry) : Entry :=
  ⟨baseOffset + r.offset.toNat, r.timestamp, r.position.toNat⟩

/-- A record gives back the offset it was made from when the offset is in the 32 bits above the
base offset. -/
theorem Entry.toRel_toEntry_offset {base : Int} {e : Entry} (h0 : base ≤ e.offset)
    (h1 : e.offset < base + 2 ^ 32) : ((e.toRel base).toEntry base).offset = e.offset := by
  have : ((UInt32.ofNat ((e.offset - base) % 2 ^ 32).toNat).toNat : ℤ) = e.offset - base := by
    show ((((e.offset - base) % 2 ^ 32).toNat % 2 ^ 32 : ℕ) : ℤ) = _
    rw [Int.emod_eq_of_lt (by omega) (by omega), Nat.mod_eq_of_lt (by omega)]
    omega
  simp only [Entry.toRel, RelEntry.toEntry, this]
  omega

@[simp] theorem Entry.toRel_toEntry_timestamp (base : Int) (e : Entry) :
    ((e.toRel base).toEntry base).timestamp = e.timestamp := rfl

/-- A record gives back the entry it was made from when the offset and the position fit. -/
theorem Entry.toRel_toEntry {base : Int} {e : Entry} (h0 : base ≤ e.offset) (h1 : e.offset < base + 2 ^ 32)
    (hp0 : 0 ≤ e.position) (hp1 : e.position < 2 ^ 32) : (e.toRel base).toEntry base = e := by
  have hoff := Entry.toRel_toEntry_offset h0 h1
  have hpos : ((UInt32.ofNat (e.position % 2 ^ 32).toNat).toNat : ℤ) = e.position := by
    show (((e.position % 2 ^ 32).toNat % 2 ^ 32 : ℕ) : ℤ) = _
    rw [Int.emod_eq_of_lt hp0 hp1, Nat.mod_eq_of_lt (by omega)]
    omega
  obtain ⟨o, t, p⟩ := e
  simp only [Entry.toRel, RelEntry.toEntry] at hoff hpos ⊢
  rw [hoff, hpos]

/-- The file system: names to inodes, and the data of each inode.  A log inode holds bytes, an
index inode records. -/
structure Disk where
  names : FilePath → Option ℕ
  logData : ℕ → List UInt8
  indexData : ℕ → List RelEntry
  nextInode : ℕ

/-- An `*os.File` (or the index's mapped file): the inode it was opened on, and whether it is still
open. -/
structure File where
  inode : ℕ
  isOpen : Bool
deriving DecidableEq, Repr

/-- Why a file-system call fails. -/
inductive OSError
  /-- The call failed (the outcome the environment chose). -/
  | failed
  /-- The file was closed. -/
  | closed
  /-- `os.Rename` of a name that is not there. -/
  | notExist
  /-- `io.EOF`: a read past the end of the file. -/
  | eof
  /-- `ReadAt` at a negative offset. -/
  | negativeOffset
deriving DecidableEq, Repr

namespace Disk

/-- `os.OpenFile(p, os.O_RDWR|os.O_CREATE|os.O_APPEND, 0666)`: the file named `p`, created empty if
there is none. -/
def openFile (d : Disk) (p : FilePath) (fails : Bool) : Except OSError (File × Disk) :=
  if fails then .error .failed
  else
    match d.names p with
    | some i => .ok (⟨i, true⟩, d)
    | none =>
      .ok (⟨d.nextInode, true⟩,
        { d with names := Function.update d.names p (some d.nextInode), nextInode := d.nextInode + 1 })

/-- `os.Rename(src, dst)`: `dst` now names what `src` named, and `src` nothing. -/
def rename (d : Disk) (src dst : FilePath) (fails : Bool) : Except OSError Disk :=
  if fails then .error .failed
  else
    match d.names src with
    | none => .error .notExist
    | some i => .ok { d with names := Function.update (Function.update d.names src none) dst (some i) }

/-- `exists(p)`. -/
def exists_ (d : Disk) (p : FilePath) : Bool := (d.names p).isSome

/-- `os.Remove(p)`: the name is gone; the inode keeps its data for the files still open on it. -/
def remove (d : Disk) (p : FilePath) (fails : Bool) : Except OSError Disk :=
  if fails then .error .failed
  else
    match d.names p with
    | none => .error .notExist
    | some _ => .ok { d with names := Function.update d.names p none }

/-- Append bytes to a log inode. -/
def appendLog (d : Disk) (i : ℕ) (p : List UInt8) : Disk :=
  { d with logData := Function.update d.logData i (d.logData i ++ p) }

/-- Append records to an index inode. -/
def appendIndex (d : Disk) (i : ℕ) (rs : List RelEntry) : Disk :=
  { d with indexData := Function.update d.indexData i (d.indexData i ++ rs) }

@[simp] theorem appendLog_logData_self (d : Disk) (i : ℕ) (p : List UInt8) :
    (d.appendLog i p).logData i = d.logData i ++ p := by simp [appendLog]

@[simp] theorem appendLog_logData_of_ne (d : Disk) {i j : ℕ} (h : j ≠ i) (p : List UInt8) :
    (d.appendLog i p).logData j = d.logData j := by simp [appendLog, h]

@[simp] theorem appendLog_indexData (d : Disk) (i : ℕ) (p : List UInt8) :
    (d.appendLog i p).indexData = d.indexData := rfl

@[simp] theorem appendLog_names (d : Disk) (i : ℕ) (p : List UInt8) :
    (d.appendLog i p).names = d.names := rfl

@[simp] theorem appendIndex_indexData_self (d : Disk) (i : ℕ) (rs : List RelEntry) :
    (d.appendIndex i rs).indexData i = d.indexData i ++ rs := by simp [appendIndex]

@[simp] theorem appendIndex_indexData_of_ne (d : Disk) {i j : ℕ} (h : j ≠ i) (rs : List RelEntry) :
    (d.appendIndex i rs).indexData j = d.indexData j := by simp [appendIndex, h]

@[simp] theorem appendIndex_logData (d : Disk) (i : ℕ) (rs : List RelEntry) :
    (d.appendIndex i rs).logData = d.logData := rfl

@[simp] theorem appendIndex_names (d : Disk) (i : ℕ) (rs : List RelEntry) :
    (d.appendIndex i rs).names = d.names := rfl

/-- Opening a file whose name is there: a handle on its inode, and the disk as it was. -/
theorem openFile_of_names {d : Disk} {p : FilePath} {i : ℕ} (h : d.names p = some i) :
    d.openFile p false = .ok (⟨i, true⟩, d) := by
  simp [openFile, h]

/-- Opening a file that can be opened: an open handle on the inode the name now has; only that
name changes. -/
theorem openFile_spec (d : Disk) (p : FilePath) :
    ∃ i d', d.openFile p false = .ok (⟨i, true⟩, d') ∧ d'.names p = some i ∧
      (∀ q, q ≠ p → d'.names q = d.names q) ∧ d'.logData = d.logData ∧ d'.indexData = d.indexData := by
  unfold openFile
  cases h : d.names p with
  | some i => exact ⟨i, d, by simp [h]⟩
  | none => exact ⟨d.nextInode, _, rfl, by simp, fun q hq ↦ by simp [hq], rfl, rfl⟩

/-- The entries an index file holds, as a segment with base offset `base` reads them. -/
def indexEntries (d : Disk) (idx : File) (base : Int) : List Entry :=
  (d.indexData idx.inode).map (·.toEntry base)

@[simp] theorem indexEntries_appendIndex_self (d : Disk) (idx : File) (base : Int) (rs : List RelEntry) :
    (d.appendIndex idx.inode rs).indexEntries idx base = d.indexEntries idx base ++ rs.map (·.toEntry base) := by
  simp [indexEntries]

@[simp] theorem indexEntries_appendLog (d : Disk) (idx : File) (base : Int) (i : ℕ) (p : List UInt8) :
    (d.appendLog i p).indexEntries idx base = d.indexEntries idx base := rfl

end Disk

/-- `(*os.File).Write(p)` on a log file opened with `O_APPEND`, when the write gets out all of `p`
(`fault = none`) or fails after `n < len(p)` bytes (`fault = some n`).  A closed file writes
nothing. -/
def File.write (d : Disk) (f : File) (p : List UInt8) (fault : Option ℕ) :
    Except OSError ℕ × Disk :=
  if f.isOpen then
    match fault with
    | none => (.ok p.length, d.appendLog f.inode p)
    | some n => (.error .failed, d.appendLog f.inode (p.take n))
  else (.error .closed, d)

/-- `(*os.File).Close()`: the file is released even when the call reports an error. -/
def File.close (f : File) (fails : Bool) : Except OSError Unit × File :=
  if !f.isOpen then (.error .closed, f)
  else (if fails then .error .failed else .ok (), { f with isOpen := false })

/-- `(*os.File).ReadAt(p, off)`: `len(p)` bytes at `off`, or `io.EOF` short of them. -/
def File.readAt (d : Disk) (f : File) (len : ℕ) (off : Int) : Except OSError (List UInt8) :=
  if !f.isOpen then .error .closed
  else if off < 0 then .error .negativeOffset
  else if off.toNat + len ≤ (d.logData f.inode).length then
    .ok (((d.logData f.inode).drop off.toNat).take len)
  else .error .eof

/-! ## The index

Modelled from the spec (§4.1): `index.go` is not in the sources.  The index is its file; the
records in use are the inode's data, in the order they were appended. -/

/-- Which step of `setupIndex` fails: `newIndex`, `InitializePosition`, or the read of the first
entry. -/
inductive SetupFault
  | newIndex
  | initializePosition
  | readFirstEntry
deriving DecidableEq, Repr

/-- Modelled from the spec: `newIndex(options{path, baseOffset})`, the index file at `path`,
created empty if there is none. -/
def newIndex (d : Disk) (path : FilePath) (fails : Bool) : Except OSError (File × Disk) :=
  d.openFile path fails

/-- Modelled from the spec: `InitializePosition()`, the last entry of the index, `nil` when it is
empty. -/
def initializePosition (d : Disk) (idx : File) (baseOffset : Int) (fails : Bool) :
    Except OSError (Option Entry) :=
  if fails then .error .failed else .ok ((d.indexData idx.inode).getLast?.map (·.toEntry baseOffset))

/-- Modelled from the spec: `ReadEntryAtFileOffset(&e, 0)`, the first entry of the index. -/
def readFirstEntry (d : Disk) (idx : File) (baseOffset : Int) (fails : Bool) : Except OSError Entry :=
  if fails then .error .failed
  else
    match (d.indexData idx.inode).head? with
    | some r => .ok (r.toEntry baseOffset)
    | none => .error .eof

/-- Modelled from the spec: `writeEntries(entries)`, appending the records one by one; with
`fault = some k` the append fails after `k` of them. -/
def writeEntries (d : Disk) (idx : File) (baseOffset : Int) (entries : List Entry)
    (fault : Option ℕ) : Except OSError Unit × Disk :=
  let rs := entries.map (·.toRel baseOffset)
  match fault with
  | none => (.ok (), d.appendIndex idx.inode rs)
  | some k => (.error .failed, d.appendIndex idx.inode (rs.take k))

/-! ## Channels -/

/-- The waiters' channels: how many times each was closed, and how many were made. -/
structure Chans where
  closes : ℕ → ℕ
  next : ℕ

namespace Chans

/-- `make(chan struct{})`. -/
def make (c : Chans) : ℕ × Chans := (c.next, { c with next := c.next + 1 })

@[simp] theorem make_fst (c : Chans) : c.make.1 = c.next := rfl

@[simp] theorem make_next (c : Chans) : c.make.2.next = c.next + 1 := rfl

@[simp] theorem make_closes (c : Chans) : c.make.2.closes = c.closes := rfl

/-- `close(ch)`; a second close of one channel is a panic. -/
def close (c : Chans) (ch : ℕ) : Chans :=
  { c with closes := Function.update c.closes ch (c.closes ch + 1) }

@[simp] theorem close_closes_self (c : Chans) (ch : ℕ) : (c.close ch).closes ch = c.closes ch + 1 := by
  simp [close]

@[simp] theorem close_closes_of_ne (c : Chans) {ch ch' : ℕ} (h : ch' ≠ ch) :
    (c.close ch).closes ch' = c.closes ch' := by simp [close, h]

@[simp] theorem close_next (c : Chans) (ch : ℕ) : (c.close ch).next = c.next := rfl

end Chans

/-! ## The segment -/

/-- `segment`.  `writer` and `reader` are `log` itself and are not kept apart; the lock is what
makes each exported method one step.  `Position()`, `FirstOffset()` and `LastOffset()` read the
fields `position`, `firstOffset` and `lastOffset`. -/
structure Segment where
  log : File
  /-- The index's file; its records are the inode's data on the disk. -/
  index : File
  baseOffset : Int
  firstOffset : Int
  lastOffset : Int
  firstWriteTime : Int
  lastWriteTime : Int
  position : Int
  maxBytes : Int
  path : String
  suffix : String
  /-- `waiters map[interface{}]chan struct{}`: a waiter's key and its channel. -/
  waiters : List (ℕ × ℕ)
  sealed : Bool
  closed : Bool
  replaced : Bool

/-- The errors of `segment.go`, and the file-system errors it passes on. -/
inductive SegError
  | segmentClosed
  | segmentExists
  | segmentReplaced
  | os (e : OSError)
  /-- `entries[0]` or `entries[len(entries)-1]` of an empty `entries`: a runtime panic. -/
  | indexOutOfRange
deriving DecidableEq, Repr

namespace Segment

def logPath (s : Segment) : FilePath := ⟨s.path, s.baseOffset, .log, s.suffix⟩

def indexPath (s : Segment) : FilePath := ⟨s.path, s.baseOffset, .index, s.suffix⟩

/-- `setupIndex()`: open the index, and read the offsets and write times back from its first and
last entries. -/
def setupIndex (d : Disk) (s : Segment) (fault : Option SetupFault) :
    Except SegError Unit × Disk × Segment :=
  match newIndex d s.indexPath (fault = some .newIndex) with
  | .error e => (.error (.os e), d, s)
  | .ok (idx, d) =>
    let s := { s with index := idx }
    match initializePosition d idx s.baseOffset (fault = some .initializePosition) with
    | .error e => (.error (.os e), d, s)
    | .ok none => (.ok (), d, s) -- the index is empty
    | .ok (some lastEntry) =>
      let s := { s with lastOffset := lastEntry.offset, lastWriteTime := lastEntry.timestamp }
      match readFirstEntry d idx s.baseOffset (fault = some .readFirstEntry) with
      | .error e => (.error (.os e), d, s)
      | .ok firstEntry =>
        (.ok (), d, { s with firstOffset := firstEntry.offset, firstWriteTime := firstEntry.timestamp })

/-- `setupIndex` on an empty index: only the index file is set. -/
theorem setupIndex_of_nil {d d' : Disk} {s : Segment} {idx : File}
    (ho : d.openFile s.indexPath false = .ok (idx, d')) (he : d'.indexData idx.inode = []) :
    s.setupIndex d none = (.ok (), d', { s with index := idx }) := by
  simp [setupIndex, newIndex, ho, initializePosition, he]

/-- `setupIndex` on an index with records: the offsets and write times of the first and last. -/
theorem setupIndex_of_cons {d d' : Disk} {s : Segment} {idx : File} {r : RelEntry} {rs : List RelEntry}
    (ho : d.openFile s.indexPath false = .ok (idx, d')) (he : d'.indexData idx.inode = r :: rs) :
    s.setupIndex d none = (.ok (), d',
      { s with index := idx, firstOffset := (r.toEntry s.baseOffset).offset,
               firstWriteTime := (r.toEntry s.baseOffset).timestamp,
               lastOffset := (((r :: rs).getLast (List.cons_ne_nil _ _)).toEntry s.baseOffset).offset,
               lastWriteTime := (((r :: rs).getLast (List.cons_ne_nil _ _)).toEntry s.baseOffset).timestamp }) := by
  simp [setupIndex, newIndex, ho, initializePosition, he, readFirstEntry, List.getLast?_eq_getLast]

/-- Which step of `newSegment` fails. -/
inductive NewFault
  | openLog
  | stat
  | setupIndex (f : SetupFault)
deriving DecidableEq, Repr

/-- The failing step of `setupIndex`, if that is where `newSegment` fails. -/
def NewFault.setupFault : Option NewFault → Option SetupFault
  | some (.setupIndex f) => some f
  | _ => none

end Segment

/-- `newSegment(path, baseOffset, maxBytes, isNew, suffix)`. -/
def newSegment (d : Disk) (path : String) (baseOffset maxBytes : Int) (isNew : Bool) (suffix : String)
    (fault : Option Segment.NewFault) : Except SegError Segment × Disk :=
  let s : Segment :=
    { log := ⟨0, false⟩, index := ⟨0, false⟩, baseOffset := baseOffset, firstOffset := -1,
      lastOffset := -1, firstWriteTime := 0, lastWriteTime := 0, position := 0, maxBytes := maxBytes,
      path := path, suffix := suffix, waiters := [], sealed := false, closed := false,
      replaced := false }
  -- If this is a new segment, ensure the file doesn't already exist.
  if isNew && d.exists_ s.logPath then (.error .segmentExists, d)
  else
    match d.openFile s.logPath (fault = some .openLog) with
    | .error e => (.error (.os e), d)
    | .ok (log, d) =>
      if fault = some .stat then (.error (.os .failed), d)
      else
        let s := { s with log := log, position := (d.logData log.inode).length }
        match s.setupIndex d (Segment.NewFault.setupFault fault) with
        | (.ok (), d, s) => (.ok s, d)
        | (.error e, d, _) => (.error e, d)

/-- What the segment shares with the rest of the process: the disk and the channels. -/
structure World where
  disk : Disk
  chans : Chans

/-- Which write of `WriteMessageSet` fails: the log write after `n` bytes, or the index append
after `k` records. -/
inductive WriteFault
  | log (n : ℕ)
  | index (k : ℕ)
deriving DecidableEq, Repr

/-- How many bytes the failing log write gets out, if it is the one that fails. -/
def WriteFault.logFault : Option WriteFault → Option ℕ
  | some (.log n) => some n
  | _ => none

/-- How many records the failing index append gets in, if it is the one that fails. -/
def WriteFault.indexFault : Option WriteFault → Option ℕ
  | some (.index k) => some k
  | _ => none

/-- Which step of `close()` fails: closing the log or closing the index. -/
inductive CloseFault
  | log
  | index
deriving DecidableEq, Repr

namespace Segment

/-- `NextOffset()`. -/
def nextOffset (s : Segment) : Int :=
  -- If the segment hasn't been written to, the next offset should be the base offset.
  if s.lastOffset = -1 then s.baseOffset else s.lastOffset + 1

/-- `IsEmpty()`. -/
def isEmpty (s : Segment) : Bool := s.firstOffset = -1

/-- `MessageCount()`: modelled from the spec, the index's `CountEntries()`, the records in use. -/
def messageCount (d : Disk) (s : Segment) : ℕ := (d.indexData s.index.inode).length

/-- `a - b` on `int64`s, which wraps. -/
def int64Sub (a b : Int) : Int := Int.bmod (a - b) (2 ^ 64)

/-- `CheckSplit(logRollTime)`, when `timestamp()` reads `now`: roll when the segment is full, or
when `logRollTime` has passed since the first write. -/
def checkSplit (s : Segment) (logRollTime now : Int) : Bool :=
  if s.position ≥ s.maxBytes then true
  else if logRollTime = 0 ∨ s.firstWriteTime = 0 then
    -- Don't roll a new segment if there have been no writes to the segment or LogRollTime is
    -- disabled.
    false
  else int64Sub now s.firstWriteTime ≥ logRollTime

/-- `notifyWaiters()`: close every waiter's channel and forget the waiter. -/
def notifyWaiters (c : Chans) (s : Segment) : Chans × Segment :=
  (s.waiters.foldl (fun c w ↦ c.close w.2) c, { s with waiters := [] })

/-- `write(p, entries)`: the log write, then the offsets, times and position, then the waiters. -/
def write (w : World) (s : Segment) (p : List UInt8) (entries : List Entry) (fault : Option ℕ) :
    Except SegError ℕ × World × Segment :=
  if s.closed then (.error .segmentClosed, w, s)
  else
    match File.write w.disk s.log p fault with
    | (.error e, d) => (.error (.os e), { w with disk := d }, s)
    | (.ok n, d) =>
      let s : Segment := { s with position := s.position + n }
      match entries.head?, entries.getLast? with
      | some first, some last =>
        let s : Segment := if s.firstWriteTime = 0 then
          { s with firstOffset := first.offset, firstWriteTime := first.timestamp } else s
        let s := { s with lastOffset := last.offset, lastWriteTime := last.timestamp }
        let (c, s) := notifyWaiters w.chans s
        (.ok n, ⟨d, c⟩, s)
      | _, _ => (.error .indexOutOfRange, { w with disk := d }, s)

/-- `WriteMessageSet(ms, entries)`: `write`, then the index entries. -/
def writeMessageSet (w : World) (s : Segment) (ms : List UInt8) (entries : List Entry)
    (fault : Option WriteFault) : Except SegError Unit × World × Segment :=
  match write w s ms entries (WriteFault.logFault fault) with
  | (.error e, w, s) => (.error e, w, s)
  | (.ok _, w, s) =>
    match writeEntries w.disk s.index s.baseOffset entries (WriteFault.indexFault fault) with
    | (.error e, d) => (.error (.os e), { w with disk := d }, s)
    | (.ok (), d) => (.ok (), { w with disk := d }, s)

/-- `ReadAt(p, off)`. -/
def readAt (d : Disk) (s : Segment) (len : ℕ) (off : Int) : Except SegError (List UInt8) :=
  if s.closed then
    if s.replaced then .error .segmentReplaced else .error .segmentClosed
  else (File.readAt d s.log len off).mapError .os

/-- `waitForData(waiter, pos)`, which `WaitForData` calls under the lock: the waiter's channel; a
new one is closed at once if data past `pos` is there or the segment is full, and registered
otherwise. -/
def waitForData (c : Chans) (s : Segment) (waiter : ℕ) (pos : Int) : ℕ × Chans × Segment :=
  -- Check if we're already registered.
  match s.waiters.lookup waiter with
  | some wait => (wait, c, s)
  | none =>
    let (wait, c) := c.make
    -- Check if data has been written and/or the segment was filled.
    if s.position > pos ∨ s.position ≥ s.maxBytes then (wait, c.close wait, s)
    else (wait, c, { s with waiters := (waiter, wait) :: s.waiters })

/-- `WaitForLEO(waiter, leo)`: a closed channel if the last offset is no longer `leo`. -/
def waitForLEO (c : Chans) (s : Segment) (waiter : ℕ) (leo : Int) : ℕ × Chans × Segment :=
  if s.lastOffset ≠ leo then
    let (ch, c) := c.make
    (ch, c.close ch, s)
  else waitForData c s waiter s.position

/-- `removeWaiter(waiter)`: `delete(s.waiters, waiter)`. -/
def removeWaiter (s : Segment) (waiter : ℕ) : Segment :=
  { s with waiters := s.waiters.filter (·.1 ≠ waiter) }

/-- `Seal()`, under its Go name since Lean reserves `seal`: mark the segment sealed and notify the
waiters; a no-op on a sealed segment.  The index's `Shrink` only frees unused space, which the
model does not keep. -/
def Seal (c : Chans) (s : Segment) : Chans × Segment :=
  if s.sealed then (c, s) else notifyWaiters c { s with sealed := true }

/-- `close()`, which `Close()` calls under the lock: close the log, then the index; a no-op on a
closed segment. -/
def close (s : Segment) (fault : Option CloseFault) : Except SegError Unit × Segment :=
  if s.closed then (.ok (), s)
  else
    match File.close s.log (fault = some .log) with
    | (.error e, log) => (.error (.os e), { s with log := log })
    | (.ok (), log) =>
      -- Modelled from the spec: the index's `Close` closes its file.
      match File.close s.index (fault = some .index) with
      | (.error e, idx) => (.error (.os e), { s with log := log, index := idx })
      | (.ok (), idx) => (.ok (), { s with log := log, index := idx, closed := true })

/-- `Cleaned()`. -/
def cleaned (d : Disk) (s : Segment) (fault : Option NewFault) : Except SegError Segment × Disk :=
  newSegment d s.path s.baseOffset s.maxBytes false cleanedSuffix fault

/-- `Truncated()`. -/
def truncated (d : Disk) (s : Segment) (fault : Option NewFault) : Except SegError Segment × Disk :=
  newSegment d s.path s.baseOffset s.maxBytes false truncatedSuffix fault

/-- Which step of `Delete` fails: closing the segment, or removing its log or its index. -/
inductive DeleteFault
  | close (f : CloseFault)
  | removeLog
  | removeIndex
deriving DecidableEq, Repr

/-- The failing step of closing the segment, if that is where `Delete` fails. -/
def DeleteFault.closeFault : Option DeleteFault → Option CloseFault
  | some (.close f) => some f
  | _ => none

/-- `Delete()`: close the segment, then remove its log and its index if they exist.  The model's
`File` does not keep the name it was opened under, so the names `s.log.Name()` and
`s.Index.Name()` return are arguments. -/
def delete (d : Disk) (s : Segment) (logName indexName : FilePath) (fault : Option DeleteFault) :
    Except SegError Unit × Disk × Segment :=
  match s.close (DeleteFault.closeFault fault) with
  | (.error e, s) => (.error e, d, s)
  | (.ok (), s) =>
    let removeLog : Except OSError Disk :=
      if d.exists_ logName then d.remove logName (fault = some .removeLog) else .ok d
    match removeLog with
    | .error e => (.error (.os e), d, s)
    | .ok d =>
      if d.exists_ indexName then
        match d.remove indexName (fault = some .removeIndex) with
        | .error e => (.error (.os e), d, s)
        | .ok d => (.ok (), d, s)
      else (.ok (), d, s)

/-- Which step of `Replace` fails. -/
inductive ReplaceFault
  | closeOld (f : CloseFault)
  | closeNew (f : CloseFault)
  | renameLog
  | renameIndex
  | openLog
  | setupIndex (f : SetupFault)
deriving DecidableEq, Repr

namespace ReplaceFault

/-- The failing step of closing `old`, if that is where `Replace` fails. -/
def closeOldFault : Option ReplaceFault → Option CloseFault
  | some (.closeOld f) => some f
  | _ => none

/-- The failing step of closing the replacing segment, if that is where `Replace` fails. -/
def closeNewFault : Option ReplaceFault → Option CloseFault
  | some (.closeNew f) => some f
  | _ => none

/-- The failing step of `setupIndex`, if that is where `Replace` fails. -/
def setupFault : Option ReplaceFault → Option SetupFault
  | some (.setupIndex f) => some f
  | _ => none

end ReplaceFault

/-- `s.Replace(old)`: close both, rename `s`'s files over `old`'s, reopen `s` under the plain
names and read its index back.  Returns the error, the disk, `s` and `old`. -/
def replace (d : Disk) (s old : Segment) (fault : Option ReplaceFault) :
    Except SegError Unit × Disk × Segment × Segment :=
  match old.close (ReplaceFault.closeOldFault fault) with
  | (.error e, old) => (.error e, d, s, old)
  | (.ok (), old) =>
    match s.close (ReplaceFault.closeNewFault fault) with
    | (.error e, s) => (.error e, d, s, old)
    | (.ok (), s) =>
      match d.rename s.logPath old.logPath (fault = some .renameLog) with
      | .error e => (.error (.os e), d, s, old)
      | .ok d =>
        match d.rename s.indexPath old.indexPath (fault = some .renameIndex) with
        | .error e => (.error (.os e), d, s, old)
        | .ok d =>
          let s : Segment := { s with suffix := "" }
          match d.openFile s.logPath (fault = some .openLog) with
          | .error e => (.error (.os e), d, s, old)
          | .ok (log, d) =>
            let s : Segment := { s with log := log, closed := false }
            let old : Segment := { old with replaced := true }
            let r := s.setupIndex d (ReplaceFault.setupFault fault)
            (r.1, r.2.1, r.2.2, old)

end Segment

/-! ## A fresh segment -/

/-- An empty directory. -/
def emptyDisk : Disk := ⟨fun _ ↦ none, fun _ ↦ [], fun _ ↦ [], 0⟩

/-- What `newSegment("/data", 0, 1024, true, "")` returns on an empty directory. -/
def freshSegment : Segment :=
  { log := ⟨0, true⟩, index := ⟨1, true⟩, baseOffset := 0, firstOffset := -1, lastOffset := -1,
    firstWriteTime := 0, lastWriteTime := 0, position := 0, maxBytes := 1024, path := "/data",
    suffix := "", waiters := [], sealed := false, closed := false, replaced := false }

/-- The fresh segment on the empty directory, with no channel made yet. -/
def freshState : World × Segment :=
  (⟨(newSegment emptyDisk "/data" 0 1024 true "" none).2, ⟨fun _ ↦ 0, 0⟩⟩, freshSegment)

end Liftbridge.Commitlog
