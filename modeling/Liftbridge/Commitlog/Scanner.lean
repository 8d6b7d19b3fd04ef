import Liftbridge.Commitlog.Write

/-!
# Scanning a segment

`segmentScanner` walks the segment's index from its first record and reads, for each, the message
set at the record's position in the log: a header of `msgSetHeaderLen` bytes, then as many bytes as
the header's `Size()`.  Neither `index.go` nor the message-set format is in the sources: the index
scanner is modelled from the spec, and `msgSetHeaderLen` and `Size` are parameters.

`scanAll_writes` proves the round trip.  On a new segment, after successful writes whose bytes are
message sets and whose entries point at them, the scanner returns every message set with its entry,
in the order they were written, and then `io.EOF`.  The index keeps an entry's offset (relative to
the base offset) and its position in 32 bits, so an entry comes back as it was written only when
both fit (`scan_wraps`).
-/

set_option autoImplicit false

namespace Liftbridge.Commitlog

open Segment

/-! ## The scanners -/

/-- Modelled from the spec: `indexScanner`, reading an index's records in file order. -/
structure IndexScanner where
  index : File
  baseOffset : Int
  /-- How many records have been read. -/
  next : ℕ

/-- Modelled from the spec: `newIndexScanner(idx)`. -/
def newIndexScanner (idx : File) (baseOffset : Int) : IndexScanner := ⟨idx, baseOffset, 0⟩

/-- Modelled from the spec: `indexScanner.Scan()`, the next record as an entry, or `io.EOF` after
the last. -/
def IndexScanner.scan (d : Disk) (is : IndexScanner) : Except OSError Entry × IndexScanner :=
  match (d.indexData is.index.inode)[is.next]? with
  | some r => (.ok (r.toEntry is.baseOffset), { is with next := is.next + 1 })
  | none => (.error .eof, is)

/-- `segmentScanner`: the segment, as it is while it is scanned, and a scanner of its index. -/
structure SegmentScanner where
  s : Segment
  is : IndexScanner

/-- `newSegmentScanner(segment)`. -/
def newSegmentScanner (segment : Segment) : SegmentScanner :=
  ⟨segment, newIndexScanner segment.index segment.baseOffset⟩

section Format

/-! `msgSetHeaderLen`, and the payload length `messageSet.Size()` reads from a header: neither is in
the sources, so both are parameters. -/

variable (msgSetHeaderLen : ℕ) (Size : List UInt8 → ℕ)

/-- `segmentScanner.Scan()`: the next entry of the index, and the message set at its position. -/
def SegmentScanner.scan (d : Disk) (sc : SegmentScanner) :
    Except SegError (List UInt8 × Entry) × SegmentScanner :=
  match sc.is.scan d with
  | (.error e, is) => (.error (.os e), { sc with is := is })
  | (.ok entry, is) =>
    let sc := { sc with is := is }
    match sc.s.readAt d msgSetHeaderLen entry.position with
    | .error e => (.error e, sc)
    | .ok header =>
      match sc.s.readAt d (Size header) (entry.position + msgSetHeaderLen) with
      | .error e => (.error e, sc)
      | .ok payload => (.ok (header ++ payload, entry), sc)

/-- Calling `Scan` until it fails, at most `fuel` times: what it returned, and the error it stopped
on (`none` if the fuel ran out first). -/
def SegmentScanner.scanAll (d : Disk) : ℕ → SegmentScanner → List (List UInt8 × Entry) × Option SegError
  | 0, _ => ([], none)
  | fuel + 1, sc =>
    match sc.scan msgSetHeaderLen Size d with
    | (.ok m, sc) => let r := scanAll d fuel sc; (m :: r.1, r.2)
    | (.error e, _) => ([], some e)

/-- A message set: a header of `msgSetHeaderLen` bytes whose `Size()` is the length of the payload
that follows it. -/
def IsMessageSet (m : List UInt8) : Prop :=
  msgSetHeaderLen ≤ m.length ∧ Size (m.take msgSetHeaderLen) = m.length - msgSetHeaderLen

instance : DecidablePred (IsMessageSet msgSetHeaderLen Size) :=
  fun _ ↦ inferInstanceAs (Decidable (_ ∧ _))

end Format

/-- Where each of a run of message sets starts, the first at `pos`. -/
def starts (pos : Int) : List (List UInt8) → List Int
  | [] => []
  | m :: ms => pos :: starts (pos + m.length) ms

/-! ## One scan -/

section Format

variable {msgSetHeaderLen : ℕ} {Size : List UInt8 → ℕ}

/-- The next record points at a message set of the log: `Scan` returns it with the record's entry. -/
theorem SegmentScanner.scan_of_located {d : Disk} {s : Segment} {idx : File} {base : Int} {k : ℕ}
    {m : List UInt8} {e : Entry} (hc : s.closed = false) (ho : s.log.isOpen = true)
    (hr : (d.indexData idx.inode)[k]? = some (e.toRel base)) (hdec : (e.toRel base).toEntry base = e)
    (hm : IsMessageSet msgSetHeaderLen Size m) (hp : 0 ≤ e.position)
    (hlen : e.position.toNat + m.length ≤ (d.logData s.log.inode).length)
    (hat : ((d.logData s.log.inode).drop e.position.toNat).take m.length = m) :
    SegmentScanner.scan msgSetHeaderLen Size d ⟨s, ⟨idx, base, k⟩⟩ = (.ok (m, e), ⟨s, ⟨idx, base, k + 1⟩⟩) := by
  obtain ⟨hH, hS⟩ := hm
  have hheader : ((d.logData s.log.inode).drop e.position.toNat).take msgSetHeaderLen =
      m.take msgSetHeaderLen := by
    rw [← hat, List.take_take, Nat.min_eq_left hH]
  have hpayload : ((d.logData s.log.inode).drop (e.position + msgSetHeaderLen).toNat).take
      (m.length - msgSetHeaderLen) = m.drop msgSetHeaderLen := by
    rw [Int.toNat_add hp (Int.ofNat_nonneg _), Int.toNat_ofNat, ← List.drop_drop, ← List.drop_take, hat]
  have hn : ¬ e.position < 0 := Int.not_lt.2 hp
  have hn' : ¬ e.position + msgSetHeaderLen < 0 := by omega
  have hlen₁ : e.position.toNat + msgSetHeaderLen ≤ (d.logData s.log.inode).length := by omega
  have hlen₂ : (e.position + msgSetHeaderLen).toNat + (m.length - msgSetHeaderLen) ≤
      (d.logData s.log.inode).length := by omega
  simp only [scan, IndexScanner.scan, hr, hdec, readAt, hc, File.readAt, ho, Bool.not_true,
    Bool.false_eq_true, if_false, hn, hn', hlen₁, hlen₂, if_true, Except.mapError, hheader, hS, hpayload,
    List.take_append_drop]

/-- A run of message sets, each at its start in the log, after what the log held before. -/
theorem located_of_starts (pre : List UInt8) (pairs : List (List UInt8 × Entry))
    (hpos : pairs.map (·.2.position) = starts pre.length (pairs.map (·.1))) :
    ∀ p ∈ pairs, 0 ≤ p.2.position ∧
      p.2.position.toNat + p.1.length ≤ (pre ++ (pairs.map (·.1)).flatten).length ∧
      ((pre ++ (pairs.map (·.1)).flatten).drop p.2.position.toNat).take p.1.length = p.1 := by
  induction pairs generalizing pre with
  | nil => simp
  | cons q pairs ih =>
    obtain ⟨m, e⟩ := q
    simp only [List.map_cons, starts, List.cons.injEq] at hpos
    obtain ⟨he, hrest⟩ := hpos
    have hrest' : pairs.map (·.2.position) = starts (pre ++ m).length (pairs.map (·.1)) := by
      rw [hrest, List.length_append]
      congr 1
    intro p hp
    rcases List.mem_cons.1 hp with rfl | hp
    · have : (0 : ℤ) ≤ pre.length := by omega
      simp [he, List.drop_left', this]
    · have := ih (pre ++ m) hrest' p hp
      simpa only [List.map_cons, List.flatten_cons, List.append_assoc] using this

/-! ## The whole scan -/

/-- Scanning from the `k`-th record of an index that holds the records of `pairs`, each pointing
at its message set in the log: the message sets from the `k`-th on, then `io.EOF`. -/
theorem scanAll_of_located {d : Disk} {s : Segment} {idx : File} {base : Int}
    (pairs : List (List UInt8 × Entry)) (hc : s.closed = false) (ho : s.log.isOpen = true)
    (hidx : d.indexData idx.inode = pairs.map (·.2.toRel base))
    (hdec : ∀ p ∈ pairs, (p.2.toRel base).toEntry base = p.2)
    (hsets : ∀ p ∈ pairs, IsMessageSet msgSetHeaderLen Size p.1)
    (hloc : ∀ p ∈ pairs, 0 ≤ p.2.position ∧
      p.2.position.toNat + p.1.length ≤ (d.logData s.log.inode).length ∧
      ((d.logData s.log.inode).drop p.2.position.toNat).take p.1.length = p.1) (fuel : ℕ) :
    ∀ k, pairs.length - k < fuel →
      SegmentScanner.scanAll msgSetHeaderLen Size d fuel ⟨s, ⟨idx, base, k⟩⟩ =
        (pairs.drop k, some (.os .eof)) := by
  induction fuel with
  | zero => intro k hk; omega
  | succ fuel ih =>
    intro k hk
    by_cases hlt : k < pairs.length
    · have hp := List.getElem_mem hlt
      have hr : (d.indexData idx.inode)[k]? = some (pairs[k].2.toRel base) := by simp [hidx, hlt]
      rw [SegmentScanner.scanAll, SegmentScanner.scan_of_located hc ho hr (hdec _ hp) (hsets _ hp)
        (hloc _ hp).1 (hloc _ hp).2.1 (hloc _ hp).2.2]
      dsimp only
      rw [ih (k + 1) (by omega), List.drop_eq_getElem_cons hlt]
    · have hr : (d.indexData idx.inode)[k]? = none := by
        rw [hidx]
        exact List.getElem?_eq_none (by simp; omega)
      simp [SegmentScanner.scanAll, SegmentScanner.scan, IndexScanner.scan, hr,
        List.drop_eq_nil_of_le (Nat.le_of_not_lt hlt)]

/-- The round trip.  Write to a new segment, whose files are empty, message sets with entries
that point at them: the scanner returns each message set with its entry, in the order they were
written, and then `io.EOF`.  The index keeps the entries' offsets and positions in 32 bits, so the
offsets are in the 32 bits above the base offset and the positions below `2 ^ 32`. -/
theorem scanAll_writes {d d₀ : Disk} {c : Chans} {path : String} {baseOffset maxBytes : Int}
    {isNew : Bool} {suffix : String} {s : Segment}
    (hnew : newSegment d path baseOffset maxBytes isNew suffix none = (.ok s, d₀))
    (hlog : d₀.logData s.log.inode = []) (hidx : d₀.indexData s.index.inode = [])
    {batches : List (List (List UInt8 × Entry))} {st : World × Segment}
    (hrun : Writes (⟨d₀, c⟩, s) (batches.map fun b ↦ ((b.map (·.1)).flatten, b.map (·.2))) st)
    (hsets : ∀ p ∈ batches.flatten, IsMessageSet msgSetHeaderLen Size p.1)
    (hpos : batches.flatten.map (·.2.position) = starts 0 (batches.flatten.map (·.1)))
    (hrange : ∀ p ∈ batches.flatten,
      baseOffset ≤ p.2.offset ∧ p.2.offset < baseOffset + 2 ^ 32 ∧ p.2.position < 2 ^ 32)
    (fuel : ℕ) (hfuel : batches.flatten.length < fuel) :
    (newSegmentScanner st.2).scanAll msgSetHeaderLen Size st.1.disk fuel = (batches.flatten, some (.os .eof)) := by
  have hb := newSegment_baseOffset hnew
  have hinv := newSegment_writeInv hnew (by simp [Disk.indexEntries, hidx])
  obtain ⟨hl, hi, hbo, hc, hld, hid⟩ := hrun.files
  dsimp only at hl hi hbo hc hld hid
  have hloc := located_of_starts [] batches.flatten hpos
  rw [List.nil_append] at hloc
  have hL : st.1.disk.logData st.2.log.inode = (batches.flatten.map (·.1)).flatten := by
    rw [hl, hld, hlog]
    simp [List.map_flatten, List.flatten_flatten, Function.comp_def]
  have hI : st.1.disk.indexData st.2.index.inode = batches.flatten.map (·.2.toRel st.2.baseOffset) := by
    rw [hi, hid, hidx, hbo]
    simp [List.map_flatten, List.flatten_flatten, Function.comp_def]
  have hdec : ∀ p ∈ batches.flatten, (p.2.toRel st.2.baseOffset).toEntry st.2.baseOffset = p.2 := by
    intro p hp
    obtain ⟨h0, h1, h2⟩ := hrange p hp
    rw [hbo, hb]
    exact Entry.toRel_toEntry h0 h1 (hloc p hp).1 h2
  rw [← hL] at hloc
  rw [newSegmentScanner, newIndexScanner, scanAll_of_located batches.flatten (hc.trans hinv.closed)
    (hl ▸ hinv.logOpen) hI hdec hsets hloc fuel 0 (by omega), List.drop_zero]

end Format

/-- A one-byte header holding the payload's length, as the concrete format of the examples. -/
def byteHeaderSize (header : List UInt8) : ℕ := (header.headD 0).toNat

/-- Two message sets written to the fresh segment in one call, and scanned back. -/
theorem freshSegment_scanned :
    let st := (writeMessageSet freshState.1 freshState.2 [2, 7, 8, 0] [⟨0, 5, 0⟩, ⟨1, 5, 3⟩] none).2
    (newSegmentScanner st.2).scanAll 1 byteHeaderSize st.1.disk 3 =
      ([([2, 7, 8], ⟨0, 5, 0⟩), ([0], ⟨1, 5, 3⟩)], some (.os .eof)) :=
  @scanAll_writes 1 byteHeaderSize emptyDisk _ freshState.1.chans "/data" 0 1024 true "" freshSegment rfl
    rfl rfl [[([2, 7, 8], ⟨0, 5, 0⟩), ([0], ⟨1, 5, 3⟩)]] _
    (.snoc [2, 7, 8, 0] [⟨0, 5, 0⟩, ⟨1, 5, 3⟩] (.nil _) rfl) (by decide) (by decide) (by decide) 3 (by decide)

/-- A message set whose entry is at offset `2 ^ 32` of a segment based at `0` is scanned back with
its entry at offset `0`. -/
theorem scan_wraps :
    let st := (writeMessageSet freshState.1 freshState.2 [0] [⟨2 ^ 32, 5, 0⟩] none).2
    (newSegmentScanner st.2).scanAll 1 byteHeaderSize st.1.disk 2 = ([([0], ⟨0, 5, 0⟩)], some (.os .eof)) :=
  rfl

end Liftbridge.Commitlog
