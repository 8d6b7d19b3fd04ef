import Mathlib.Data.List.Nodup
import Liftbridge.Commitlog.Segment

/-!
# The waiters of a segment

A reader at the end of a segment asks for a channel (`WaitForData`, `WaitForLEO`) and blocks on it;
the segment closes the channels of all its waiters when data arrives or when it is sealed.  Each
exported method runs under the segment's lock, so the runs are the interleavings of the methods,
one after the other: `Step` is one method, with every argument and every failure outcome.

Closing a Go channel twice panics.  `reachable_chans_closed_once` proves it never happens: every channel
that is stored is open and stored under one waiter, and `notifyWaiters` closes each one once as it
drops it.  That needs only what each method does to the channels and the waiters map, which
`Step.effect` says once, as a `WaiterEffect`.

Being woken is another matter.  `Close` and `Replace` do not touch the waiters, and
`waitForData` registers a waiter without looking at `sealed`, `closed` or `replaced`; so a
reader can register on a segment that has been sealed and that no one will write again
(`sealedWaiter_reachable`).

`WaitForLEO(waiter, leo)` compares `leo` with `lastOffset`, which is `-1` until the segment is
written to, where the log's end offset is `NextOffset() - 1`, which is then `BaseOffset - 1`.  The
two agree on a segment that has been written to and on one based at `0` (`waitForLEO_at_end`),
but not on the empty segment a roll leaves (`rolledSegment_waitForLEO`).
-/

set_option autoImplicit false

namespace Liftbridge.Commitlog

open Segment

/-- One method of the segment, under its lock, with its arguments and the outcome of every call
that can fail.  `Replace` is there for both of its segments: the segment replaced (`old`) and the
one replacing it. -/
inductive Step : World × Segment → World × Segment → Prop
  | waitForData (w : World) (s : Segment) (waiter : ℕ) (pos : Int) :
      Step (w, s) (⟨w.disk, (s.waitForData w.chans waiter pos).2.1⟩, (s.waitForData w.chans waiter pos).2.2)
  | waitForLEO (w : World) (s : Segment) (waiter : ℕ) (leo : Int) :
      Step (w, s) (⟨w.disk, (s.waitForLEO w.chans waiter leo).2.1⟩, (s.waitForLEO w.chans waiter leo).2.2)
  | removeWaiter (w : World) (s : Segment) (waiter : ℕ) : Step (w, s) (w, s.removeWaiter waiter)
  | writeMessageSet (w : World) (s : Segment) (ms : List UInt8) (entries : List Entry)
      (fault : Option WriteFault) : Step (w, s) (writeMessageSet w s ms entries fault).2
  | Seal (w : World) (s : Segment) : Step (w, s) (⟨w.disk, (s.Seal w.chans).1⟩, (s.Seal w.chans).2)
  | close (w : World) (s : Segment) (fault : Option CloseFault) : Step (w, s) (w, (s.close fault).2)
  | replaceOld (w : World) (s new : Segment) (fault : Option ReplaceFault) :
      Step (w, s) (⟨(replace w.disk new s fault).2.1, w.chans⟩, (replace w.disk new s fault).2.2.2)
  | replaceNew (w : World) (s old : Segment) (fault : Option ReplaceFault) :
      Step (w, s) (⟨(replace w.disk s old fault).2.1, w.chans⟩, (replace w.disk s old fault).2.2.1)

/-- A segment as `newSegment` returns it, with no channel made yet, and every state the methods
lead to from there. -/
inductive Reachable : World × Segment → Prop
  | new (d : Disk) (path : String) (baseOffset maxBytes : Int) (isNew : Bool) (suffix : String)
      (fault : Option NewFault) {s : Segment}
      (h : (newSegment d path baseOffset maxBytes isNew suffix fault).1 = .ok s) :
      Reachable (⟨(newSegment d path baseOffset maxBytes isNew suffix fault).2, ⟨fun _ ↦ 0, 0⟩⟩, s)
  | step {st st' : World × Segment} : Reachable st → Step st st' → Reachable st'

/-! ## What each method does to the waiters -/

/-- Everything a method can do to the channels and the waiters map: nothing; close every stored
channel and empty the map (`notifyWaiters`); make a channel and close it at once; make a channel
and store it under a new waiter; or drop a waiter, leaving its channel open. -/
inductive WaiterEffect : Chans → Chans → List (ℕ × ℕ) → List (ℕ × ℕ) → Prop
  | none (c : Chans) (ws : List (ℕ × ℕ)) : WaiterEffect c c ws ws
  | notify (c : Chans) (ws : List (ℕ × ℕ)) : WaiterEffect c (ws.foldl (fun c w ↦ c.close w.2) c) ws []
  | closedFresh (c : Chans) (ws : List (ℕ × ℕ)) : WaiterEffect c (c.make.2.close c.next) ws ws
  | register (c : Chans) (ws : List (ℕ × ℕ)) (k : ℕ) (hk : ws.lookup k = none) :
      WaiterEffect c c.make.2 ws ((k, c.next) :: ws)
  | remove (c : Chans) (ws : List (ℕ × ℕ)) (k : ℕ) : WaiterEffect c c ws (ws.filter (·.1 ≠ k))

namespace Segment

variable {c : Chans} {s : Segment}

theorem waitForData_effect (waiter : ℕ) (pos : Int) :
    WaiterEffect c (s.waitForData c waiter pos).2.1 s.waiters (s.waitForData c waiter pos).2.2.waiters := by
  unfold waitForData
  cases h : s.waiters.lookup waiter with
  | some wait => exact .none _ _
  | none =>
    dsimp only
    split
    · exact .closedFresh _ _
    · exact .register _ _ _ h

theorem waitForLEO_effect (waiter : ℕ) (leo : Int) :
    WaiterEffect c (s.waitForLEO c waiter leo).2.1 s.waiters (s.waitForLEO c waiter leo).2.2.waiters := by
  unfold waitForLEO
  split
  · exact .closedFresh _ _
  · exact waitForData_effect _ _

theorem seal_effect : WaiterEffect c (s.Seal c).1 s.waiters (s.Seal c).2.waiters := by
  unfold Seal
  split
  · exact .none _ _
  · exact .notify _ _

theorem close_waiters {fault : Option CloseFault} {r : Except SegError Unit} {s' : Segment}
    (h : s.close fault = (r, s')) : s'.waiters = s.waiters := by
  unfold close at h
  split at h
  · cases h; rfl
  · split at h
    · cases h; rfl
    · split at h <;> cases h <;> rfl

theorem setupIndex_waiters {d d' : Disk} {fault : Option SetupFault} {r : Except SegError Unit}
    {s' : Segment} (h : s.setupIndex d fault = (r, d', s')) : s'.waiters = s.waiters := by
  unfold setupIndex at h
  split at h
  · cases h; rfl
  · dsimp only at h
    split at h
    · cases h; rfl
    · cases h; rfl
    · split at h <;> cases h <;> rfl

theorem write_effect {w : World} {p : List UInt8} {entries : List Entry} {fault : Option ℕ} :
    WaiterEffect w.chans (s.write w p entries fault).2.1.chans s.waiters (s.write w p entries fault).2.2.waiters := by
  unfold write
  split
  · exact .none _ _
  · split
    · exact .none _ _
    · split
      · dsimp only [notifyWaiters]
        split <;> exact .notify _ _
      · exact .none _ _

theorem writeMessageSet_effect {w : World} {ms : List UInt8} {entries : List Entry}
    {fault : Option WriteFault} :
    WaiterEffect w.chans (writeMessageSet w s ms entries fault).2.1.chans s.waiters
      (writeMessageSet w s ms entries fault).2.2.waiters := by
  have h := @write_effect s w ms entries (WriteFault.logFault fault)
  unfold writeMessageSet
  split
  · rename_i heq; rw [heq] at h; exact h
  · rename_i heq
    rw [heq] at h
    split <;> exact h

theorem replace_waiters {d : Disk} {old : Segment} {fault : Option ReplaceFault} :
    (replace d s old fault).2.2.1.waiters = s.waiters ∧ (replace d s old fault).2.2.2.waiters = old.waiters := by
  unfold replace
  split
  · rename_i hold; exact ⟨rfl, close_waiters hold⟩
  · rename_i hold
    split
    · rename_i hs; exact ⟨close_waiters hs, close_waiters hold⟩
    · rename_i hs
      have hs' := close_waiters hs
      have hold' := close_waiters hold
      split
      · exact ⟨hs', hold'⟩
      · split
        · exact ⟨hs', hold'⟩
        · dsimp only
          split
          · exact ⟨hs', hold'⟩
          · exact ⟨(setupIndex_waiters rfl).trans hs', hold'⟩

end Segment

/-- **What a step does to the waiters**, said once. -/
theorem Step.effect {st st' : World × Segment} (h : Step st st') :
    WaiterEffect st.1.chans st'.1.chans st.2.waiters st'.2.waiters := by
  cases h with
  | waitForData w s waiter pos => exact waitForData_effect waiter pos
  | waitForLEO w s waiter leo => exact waitForLEO_effect waiter leo
  | removeWaiter w s waiter => exact .remove _ _ _
  | writeMessageSet w s ms entries fault => exact writeMessageSet_effect
  | Seal w s => exact seal_effect
  | close w s fault =>
    have := @close_waiters s fault _ _ rfl
    exact this ▸ .none _ _
  | replaceOld w s new fault => exact replace_waiters.2 ▸ .none _ _
  | replaceNew w s old fault => exact replace_waiters.1 ▸ .none _ _


/-! ## No channel is closed twice -/

/-- `notifyWaiters` closes each stored channel as many times as it is stored. -/
theorem foldl_close_closes (ws : List (ℕ × ℕ)) (c : Chans) (ch : ℕ) :
    (ws.foldl (fun c w ↦ c.close w.2) c).closes ch = c.closes ch + (ws.map (·.2)).count ch := by
  induction ws generalizing c with
  | nil => rfl
  | cons w ws ih =>
    rw [List.foldl_cons, ih, List.map_cons, List.count_cons]
    by_cases h : ch = w.2
    · subst h; simp; omega
    · simp [Chans.close_closes_of_ne _ h, Ne.symm h]

theorem foldl_close_next (ws : List (ℕ × ℕ)) (c : Chans) :
    (ws.foldl (fun c w ↦ c.close w.2) c).next = c.next := by
  induction ws generalizing c with
  | nil => rfl
  | cons w ws ih => rw [List.foldl_cons, ih]; rfl

/-- What keeps channels from being closed twice: none is closed more than once, the ones not made
yet are untouched, and each stored channel was made, is open and is stored under one waiter. -/
structure ChanInv (c : Chans) (ws : List (ℕ × ℕ)) : Prop where
  closed_once : ∀ ch, c.closes ch ≤ 1
  unmade : ∀ ch, c.next ≤ ch → c.closes ch = 0
  stored : ∀ w ∈ ws, w.2 < c.next ∧ c.closes w.2 = 0
  keys_nodup : (ws.map (·.1)).Nodup
  chans_nodup : (ws.map (·.2)).Nodup

/-- **Every method keeps the invariant.** -/
theorem ChanInv.effect {c c' : Chans} {ws ws' : List (ℕ × ℕ)} (inv : ChanInv c ws)
    (h : WaiterEffect c c' ws ws') : ChanInv c' ws' := by
  cases h with
  | none => exact inv
  | notify =>
    refine ⟨fun ch ↦ ?_, fun ch hch ↦ ?_, by simp, by simp, by simp⟩
    · rw [foldl_close_closes]
      by_cases hm : ch ∈ ws.map (·.2)
      · obtain ⟨w, hw, rfl⟩ := List.mem_map.1 hm
        rw [(inv.stored w hw).2, List.count_eq_one_of_mem inv.chans_nodup hm]
      · rw [List.count_eq_zero_of_not_mem hm]; exact inv.closed_once ch
    · rw [foldl_close_next] at hch
      rw [foldl_close_closes, inv.unmade ch hch, List.count_eq_zero_of_not_mem]
      intro hm
      obtain ⟨w, hw, rfl⟩ := List.mem_map.1 hm
      exact absurd hch (Nat.not_le.2 (inv.stored w hw).1)
  | closedFresh =>
    have hfresh := inv.unmade c.next le_rfl
    refine ⟨fun ch ↦ ?_, fun ch hch ↦ ?_, fun w hw ↦ ?_, inv.keys_nodup, inv.chans_nodup⟩
    · by_cases h : ch = c.next
      · subst h; simp [hfresh]
      · simpa [h] using inv.closed_once ch
    · simp only [Chans.close_next, Chans.make_next] at hch
      simpa [show ch ≠ c.next by omega] using inv.unmade ch (by omega)
    · obtain ⟨hlt, hopen⟩ := inv.stored w hw
      exact ⟨by simp; omega, by simp [hlt.ne, hopen]⟩
  | register _ k hk =>
    have hk' : k ∉ ws.map (·.1) := by
      rw [List.lookup_eq_none_iff] at hk
      intro hm
      obtain ⟨w, hw, rfl⟩ := List.mem_map.1 hm
      simpa using hk w hw
    refine ⟨inv.closed_once, fun ch hch ↦ inv.unmade ch (by simp at hch; omega),
      fun w hw ↦ ?_, List.nodup_cons.2 ⟨hk', inv.keys_nodup⟩, List.nodup_cons.2 ⟨?_, inv.chans_nodup⟩⟩
    · rcases List.mem_cons.1 hw with rfl | hw
      · exact ⟨by simp, inv.unmade _ le_rfl⟩
      · exact ⟨by simp; have := (inv.stored w hw).1; omega, (inv.stored w hw).2⟩
    · intro hm
      obtain ⟨w, hw, hwc⟩ := List.mem_map.1 hm
      exact absurd (inv.stored w hw).1 (by simp at hwc; omega)
  | remove _ k =>
    have hsub : (ws.filter (·.1 ≠ k)).Sublist ws := List.filter_sublist _
    exact ⟨inv.closed_once, inv.unmade, fun w hw ↦ inv.stored w (hsub.subset hw),
      inv.keys_nodup.sublist (hsub.map _), inv.chans_nodup.sublist (hsub.map _)⟩

theorem newSegment_waiters {d : Disk} {path : String} {baseOffset maxBytes : Int} {isNew : Bool}
    {suffix : String} {fault : Option NewFault} {s : Segment}
    (h : (newSegment d path baseOffset maxBytes isNew suffix fault).1 = .ok s) : s.waiters = [] := by
  dsimp only [newSegment] at h
  split at h
  · cases h
  · split at h
    · cases h
    · split at h
      · cases h
      · split at h
        · rename_i hsetup; cases h; exact setupIndex_waiters hsetup
        · cases h

theorem Reachable.chanInv {st : World × Segment} (h : Reachable st) : ChanInv st.1.chans st.2.waiters := by
  induction h with
  | new d path baseOffset maxBytes isNew suffix fault h =>
    rw [newSegment_waiters h]
    exact ⟨fun _ ↦ Nat.zero_le 1, fun _ _ ↦ rfl, by simp, by simp, by simp⟩
  | step _ hstep ih => exact ih.effect hstep.effect

/-- **No waiter channel is ever closed twice.**  In every state a run can reach, no channel has been
closed more than once; every channel in the waiters map is open and is stored under one waiter
only; and `notifyWaiters` would close each of them exactly once. -/
theorem reachable_chans_closed_once {st : World × Segment} (h : Reachable st) :
    (∀ ch, st.1.chans.closes ch ≤ 1) ∧ (∀ w ∈ st.2.waiters, st.1.chans.closes w.2 = 0) ∧
      (st.2.waiters.map (·.2)).Nodup ∧ (st.2.waiters.map (·.1)).Nodup ∧
      ∀ w ∈ st.2.waiters, (st.2.notifyWaiters st.1.chans).1.closes w.2 = 1 := by
  have inv := h.chanInv
  refine ⟨inv.closed_once, fun w hw ↦ (inv.stored w hw).2, inv.chans_nodup, inv.keys_nodup,
    fun w hw ↦ ?_⟩
  have hm : w.2 ∈ st.2.waiters.map (·.2) := List.mem_map_of_mem _ hw
  simp only [notifyWaiters]
  rw [foldl_close_closes, (inv.stored w hw).2, List.count_eq_one_of_mem inv.chans_nodup hm]

theorem freshState_reachable : Reachable freshState := .new emptyDisk "/data" 0 1024 true "" none rfl

/-- A reader registers at position `0` of the fresh segment. -/
def waitingReader : World × Segment :=
  (⟨freshState.1.disk, (freshState.2.waitForData freshState.1.chans 7 0).2.1⟩,
    (freshState.2.waitForData freshState.1.chans 7 0).2.2)

theorem waitingReader_chans_closed_once :
    (∀ ch, waitingReader.1.chans.closes ch ≤ 1) ∧
      (∀ w ∈ waitingReader.2.waiters, waitingReader.1.chans.closes w.2 = 0) ∧
      (waitingReader.2.waiters.map (·.2)).Nodup ∧ (waitingReader.2.waiters.map (·.1)).Nodup ∧
      ∀ w ∈ waitingReader.2.waiters,
        (waitingReader.2.notifyWaiters waitingReader.1.chans).1.closes w.2 = 1 :=
  reachable_chans_closed_once (.step freshState_reachable (.waitForData _ _ 7 0))

/-- The fresh segment is sealed (a time-based roll, below `maxBytes`), and then a reader at its
end registers. -/
def sealedWaiter : World × Segment :=
  let sealed := freshState.2.Seal freshState.1.chans
  (⟨freshState.1.disk, (sealed.2.waitForData sealed.1 7 0).2.1⟩, (sealed.2.waitForData sealed.1 7 0).2.2)

/-- **A reader can be left waiting on a sealed segment**: the state is reachable, the segment is
sealed, and the reader's channel is stored, so only a write can close it now. -/
theorem sealedWaiter_reachable :
    Reachable sealedWaiter ∧ sealedWaiter.2.sealed = true ∧ sealedWaiter.2.waiters = [(7, 0)] ∧
      sealedWaiter.1.chans.closes 0 = 0 :=
  ⟨.step (.step freshState_reachable (.Seal _ _)) (.waitForData _ _ 7 0), rfl, rfl, rfl⟩

/-! ## The log end offset -/

/-- **`WaitForLEO` at the log end offset**, on a segment that has been written to or is based at
`0`: at `leo = NextOffset() - 1` it is `WaitForData` at the segment's position, and at any other
`leo` it hands out a channel it has already closed. -/
theorem waitForLEO_at_end (c : Chans) (s : Segment) (waiter : ℕ) (leo : Int)
    (h : s.lastOffset ≠ -1 ∨ s.baseOffset = 0) :
    s.waitForLEO c waiter leo =
      if leo = s.nextOffset - 1 then s.waitForData c waiter s.position else (c.next, c.make.2.close c.next, s) := by
  have hend : s.nextOffset - 1 = s.lastOffset := by
    unfold nextOffset
    split_ifs <;> omega
  rw [hend]
  unfold waitForLEO waitForData
  by_cases hx : leo = s.lastOffset
  · rw [if_pos hx, if_neg (by omega)]
  · rw [if_neg hx, if_pos (Ne.symm hx)]
    rfl

/-- On the fresh segment, based at `0`, a reader at the log end offset waits for data. -/
theorem freshSegment_waitForLEO :
    freshSegment.waitForLEO freshState.1.chans 7 (freshSegment.nextOffset - 1) =
      freshSegment.waitForData freshState.1.chans 7 freshSegment.position := by
  have h := waitForLEO_at_end freshState.1.chans freshSegment 7 (freshSegment.nextOffset - 1) (.inr rfl)
  rwa [if_pos rfl] at h

/-- The empty segment a roll to offset `5` leaves: `newSegment` on an empty directory, based at
`5`. -/
def rolledSegment : Segment := { freshSegment with baseOffset := 5 }

/-- The rolled segment, with no channel made yet. -/
def rolledState : World × Segment :=
  (⟨(newSegment emptyDisk "/data" 5 1024 true "" none).2, ⟨fun _ ↦ 0, 0⟩⟩, rolledSegment)

/-- **A reader at the log end of a rolled segment is woken at once.**  The state is reachable, the
segment is empty and its log end offset `NextOffset() - 1` is `4`.  `WaitForLEO` at `4` closes a
fresh channel and registers nothing, where `WaitForData` at the position registers the reader;
and `WaitForLEO` at `-1` registers it. -/
theorem rolledSegment_waitForLEO :
    Reachable rolledState ∧ rolledState.2.isEmpty = true ∧ rolledState.2.nextOffset - 1 = 4 ∧
      (rolledState.2.waitForLEO rolledState.1.chans 7 4).2.1.closes 0 = 1 ∧
      (rolledState.2.waitForLEO rolledState.1.chans 7 4).2.2.waiters = [] ∧
      (rolledState.2.waitForData rolledState.1.chans 7 rolledState.2.position).2.2.waiters = [(7, 0)] ∧
      (rolledState.2.waitForData rolledState.1.chans 7 rolledState.2.position).2.1.closes 0 = 0 ∧
      (rolledState.2.waitForLEO rolledState.1.chans 7 (-1)).2.2.waiters = [(7, 0)] :=
  ⟨.new emptyDisk "/data" 5 1024 true "" none rfl, rfl, rfl, rfl, rfl, rfl, rfl, rfl⟩


/-! ## What happens to a stored waiter

Together the two halves of the waiter protocol: a channel stored under a waiter leaves the map
only when `notifyWaiters` closes it (a write that gets past the log, or the first `Seal`), or,
still open, when its own waiter calls `removeWaiter`; any other method keeps it stored and open.
So no wake-up is lost to another method, and none is ever handed out twice. -/

/-- Notifying the waiters closes a stored channel exactly once. -/
theorem ChanInv.notify_closes {c : Chans} {ws : List (ℕ × ℕ)} (inv : ChanInv c ws) {w ch : ℕ}
    (hw : (w, ch) ∈ ws) : (ws.foldl (fun c w ↦ c.close w.2) c).closes ch = 1 := by
  rw [foldl_close_closes, (inv.stored _ hw).2,
    List.count_eq_one_of_mem inv.chans_nodup (List.mem_map_of_mem _ hw)]

/-- What a method can do to a stored, open channel, read off its `WaiterEffect`. -/
theorem WaiterEffect.fate {c c' : Chans} {ws ws' : List (ℕ × ℕ)} (inv : ChanInv c ws)
    (h : WaiterEffect c c' ws ws') {w ch : ℕ} (hw : (w, ch) ∈ ws) :
    (c'.closes ch = 1 ∧ ws' = []) ∨ ((w, ch) ∈ ws' ∧ c'.closes ch = 0) ∨
      (ws' = ws.filter (·.1 ≠ w) ∧ c'.closes ch = 0) := by
  obtain ⟨hlt, hopen⟩ := inv.stored _ hw
  cases h with
  | none => exact .inr (.inl ⟨hw, hopen⟩)
  | notify => exact .inl ⟨inv.notify_closes hw, rfl⟩
  | closedFresh =>
    exact .inr (.inl ⟨hw, by rw [Chans.close_closes_of_ne _ (Nat.ne_of_lt hlt), Chans.make_closes, hopen]⟩)
  | register _ k _ => exact .inr (.inl ⟨List.mem_cons_of_mem _ hw, by rw [Chans.make_closes, hopen]⟩)
  | remove _ k =>
    by_cases hk : w = k
    · subst hk; exact .inr (.inr ⟨rfl, hopen⟩)
    · exact .inr (.inl ⟨List.mem_filter.2 ⟨hw, by simpa using hk⟩, hopen⟩)

/-- A `WriteMessageSet` whose log write goes through notifies the waiters, whatever the index
append does after it. -/
theorem Segment.writeMessageSet_notifies {w : World} {s : Segment} {ms : List UInt8} {entries : List Entry}
    {fault : Option WriteFault} (hc : s.closed = false) (ho : s.log.isOpen = true) (hne : entries ≠ [])
    (hf : WriteFault.logFault fault = none) :
    (writeMessageSet w s ms entries fault).2.1.chans = (s.notifyWaiters w.chans).1 ∧
      (writeMessageSet w s ms entries fault).2.2.waiters = [] := by
  obtain ⟨first, es, rfl⟩ := List.exists_cons_of_ne_nil hne
  simp only [writeMessageSet, write, hc, hf, File.write, ho, if_true, Bool.false_eq_true, if_false,
    List.head?_cons, List.getLast?_eq_getLast _ (List.cons_ne_nil _ _)]
  split <;> split <;> exact ⟨rfl, rfl⟩

/-- **The fate of a stored waiter**, in every reachable state.  Every method either closes its
channel (once) and empties the map, or keeps it stored and open, or, for `removeWaiter` of that
waiter, drops it open.  A `WriteMessageSet` on the open segment whose log write goes through, and
a `Seal` of an unsealed segment, close it. -/
theorem Reachable.waiter_fate {st : World × Segment} (h : Reachable st) {w ch : ℕ}
    (hw : (w, ch) ∈ st.2.waiters) :
    (∀ st', Step st st' →
      (st'.1.chans.closes ch = 1 ∧ st'.2.waiters = []) ∨ ((w, ch) ∈ st'.2.waiters ∧ st'.1.chans.closes ch = 0) ∨
        (st'.2.waiters = st.2.waiters.filter (·.1 ≠ w) ∧ st'.1.chans.closes ch = 0)) ∧
    (∀ ms entries fault, st.2.closed = false → st.2.log.isOpen = true → entries ≠ [] →
      WriteFault.logFault fault = none →
      (writeMessageSet st.1 st.2 ms entries fault).2.1.chans.closes ch = 1 ∧
        (writeMessageSet st.1 st.2 ms entries fault).2.2.waiters = []) ∧
    (st.2.sealed = false → (st.2.Seal st.1.chans).1.closes ch = 1 ∧ (st.2.Seal st.1.chans).2.waiters = []) := by
  have inv := h.chanInv
  have hnotify : (st.2.notifyWaiters st.1.chans).1.closes ch = 1 := inv.notify_closes hw
  refine ⟨fun st' hstep ↦ WaiterEffect.fate inv hstep.effect hw, fun ms entries fault hc ho hne hf ↦ ?_,
    fun hs ↦ ?_⟩
  · obtain ⟨h1, h2⟩ := @Segment.writeMessageSet_notifies st.1 st.2 ms entries fault hc ho hne hf
    exact ⟨h1 ▸ hnotify, h2⟩
  · simp only [Seal, hs, Bool.false_eq_true, if_false]
    exact ⟨hnotify, rfl⟩

/-- A reader registered on the fresh segment is woken by a write of one entry. -/
theorem waitingReader_woken :
    (∀ st', Step waitingReader st' →
      (st'.1.chans.closes 0 = 1 ∧ st'.2.waiters = []) ∨ ((7, 0) ∈ st'.2.waiters ∧ st'.1.chans.closes 0 = 0) ∨
        (st'.2.waiters = waitingReader.2.waiters.filter (·.1 ≠ 7) ∧ st'.1.chans.closes 0 = 0)) ∧
    (∀ ms entries fault, waitingReader.2.closed = false → waitingReader.2.log.isOpen = true → entries ≠ [] →
      WriteFault.logFault fault = none →
      (writeMessageSet waitingReader.1 waitingReader.2 ms entries fault).2.1.chans.closes 0 = 1 ∧
        (writeMessageSet waitingReader.1 waitingReader.2 ms entries fault).2.2.waiters = []) ∧
    (waitingReader.2.sealed = false →
      (waitingReader.2.Seal waitingReader.1.chans).1.closes 0 = 1 ∧
        (waitingReader.2.Seal waitingReader.1.chans).2.waiters = []) :=
  @Reachable.waiter_fate waitingReader (freshState_reachable.step (.waitForData _ _ 7 0)) 7 0 (by decide)

end Liftbridge.Commitlog
