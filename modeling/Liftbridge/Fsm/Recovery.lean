import Mathlib.Tactic.IntervalCases
import Liftbridge.Fsm.Epoch

/-!
# `Server.Apply` and the recovery barrier

On a restart Raft replays every committed entry into the FSM, and the FSM cannot tell a replayed
entry from a new one by looking at it.  `Server.Apply` draws the line once, on its first call:
`recoverLatestCommittedFSMLog` scans the Raft log down from the commit index for the newest
command entry, and every entry up to that one is applied as *recovered* (its partitions are
filed but not started, and logging may be switched off).  When that entry has been applied,
`finishedRecovery` starts everything that was recovered.

This file translates `Apply`, the scan and the two recovery hooks, and proves the barrier
correct for every shape of Raft log (`apply_recovery_barrier`): with `L` the greatest command
index in `[a, c]`, where `a` is the first entry applied and `c` the commit index, the call on an
entry logs exactly

* `startedRecovery`, on the first call only, when `L` exists;
* the entry's operation, applied as recovered exactly when its index is at most `L`;
* `finishedRecovery`, exactly on the call for `L`, after its operation,

and after the call for `L` no partition is left unstarted.

Every call is recorded by an `Event`; the list a call returns is the order in which `Apply`
makes them.

The end of the file is about an entry on a partition that is not in the store.
-/

set_option autoImplicit false

namespace Liftbridge

open Server MetadataStore

/-! ## The Raft log -/

/-- `raft.LogType`; only commands reach the FSM. -/
inductive LogType
  | command
  | noop
  | addPeerDeprecated
  | removePeerDeprecated
  | barrier
  | configuration
deriving DecidableEq, Repr

/-- A `raft.Log`.  Its data is a marshalled `RaftLog`, taken here as decoded. -/
structure RaftEntry where
  index : ℕ
  type : LogType
  data : RaftLog
deriving DecidableEq, Repr

/-- The Raft log store: its entries in index order. -/
structure LogStore where
  logs : List RaftEntry

/-- `raft.ErrLogNotFound`. -/
inductive StoreError
  | logNotFound
deriving DecidableEq, Repr

namespace LogStore

/-- `FirstIndex()`: the index of the first entry, `0` when there is none. -/
def firstIndex (s : LogStore) : ℕ :=
  match s.logs with
  | [] => 0
  | l :: _ => l.index

/-- `GetLog(index, log)`. -/
def getLog (s : LogStore) (index : ℕ) : Except StoreError RaftEntry :=
  match s.logs.find? (·.index = index) with
  | some l => .ok l
  | none => .error .logNotFound

/-- The entry at `index` is a command. -/
def isCommand (s : LogStore) (index : ℕ) : Bool :=
  match s.getLog index with
  | .ok l => l.type = .command
  | .error _ => false

end LogStore

/-- `L` is the greatest index in `[lo, hi]` that holds a command entry. -/
structure LogStore.IsLastCommand (s : LogStore) (lo hi L : ℕ) : Prop where
  lo_le : lo ≤ L
  le_hi : L ≤ hi
  command : s.isCommand L = true
  last : ∀ j, L < j → j ≤ hi → s.isCommand j = false

theorem LogStore.getLog_index {s : LogStore} {i : ℕ} {l : RaftEntry} (h : s.getLog i = .ok l) :
    l.index = i := by
  unfold getLog at h
  split at h
  · cases h; rename_i h'; simpa using List.find?_some h'
  · cases h

theorem LogStore.mem_of_getLog {s : LogStore} {i : ℕ} {l : RaftEntry} (h : s.getLog i = .ok l) :
    l ∈ s.logs := by
  unfold getLog at h
  split at h
  · cases h; exact List.mem_of_find?_eq_some ‹_›
  · cases h

theorem LogStore.isCommand_iff {s : LogStore} {i : ℕ} :
    s.isCommand i = true ↔ ∃ l, s.getLog i = .ok l ∧ l.type = .command := by
  unfold isCommand
  split <;> simp_all

/-- The command entries with index in `[a, b]`, in the order Raft hands them to `Apply`. -/
def LogStore.commands (s : LogStore) (a b : ℕ) : List RaftEntry :=
  s.logs.filter fun l ↦ l.type = .command ∧ a ≤ l.index ∧ l.index ≤ b

@[simp] theorem LogStore.mem_commands {s : LogStore} {a b : ℕ} {l : RaftEntry} :
    l ∈ s.commands a b ↔ l ∈ s.logs ∧ l.type = .command ∧ a ≤ l.index ∧ l.index ≤ b := by
  simp [commands]

/-- What `Apply` reads of the Raft node: its log store and the `commit_index` of its stats. -/
structure RaftNode where
  store : LogStore
  commitIndex : ℕ

/-! ## The scan -/

/-- The loop of `recoverLatestCommittedFSMLog`, `for i := commitIndex; i >= firstIndex; i--`, at
`i`.  It is only entered with `firstIndex ≥ 1`, so at `i = 0` the loop test fails. -/
def recoverLoop (store : LogStore) (applyIndex commitIndex firstIndex : ℕ) :
    ℕ → Except StoreError (Option RaftEntry)
  | 0 => .ok none
  | i + 1 =>
    if firstIndex ≤ i + 1 then
      if i + 1 = applyIndex ∧ applyIndex = commitIndex then
        -- We are committing the first FSM log.
        .ok none
      else
        match store.getLog (i + 1) with
        | .error e => .error e
        | .ok log =>
          if log.type = .command then .ok (some log)
          else recoverLoop store applyIndex commitIndex firstIndex i
    else .ok none

/-- `recoverLatestCommittedFSMLog(applyIndex)`: the last committed command entry, if any. -/
def recoverLatestCommittedFSMLog (raft : RaftNode) (applyIndex : ℕ) :
    Except StoreError (Option RaftEntry) :=
  let firstIndex := raft.store.firstIndex
  if firstIndex = 0 then .ok none -- No entries.
  else recoverLoop raft.store applyIndex raft.commitIndex firstIndex raft.commitIndex

section Scan

variable {store : LogStore} {applyIndex commitIndex firstIndex : ℕ}

/-- With no command entry in `[firstIndex, i]`, the loop finds nothing. -/
theorem recoverLoop_eq_none (i : ℕ) (hpresent : ∀ j, firstIndex ≤ j → j ≤ i → ∃ l, store.getLog j = .ok l)
    (hnone : ∀ j, firstIndex ≤ j → j ≤ i → store.isCommand j = false) :
    recoverLoop store applyIndex commitIndex firstIndex i = .ok none := by
  induction i with
  | zero => rfl
  | succ i ih =>
    simp only [recoverLoop]
    split
    · rename_i hle
      split
      · rfl
      · obtain ⟨l, hl⟩ := hpresent (i + 1) hle le_rfl
        have hc := hnone (i + 1) hle le_rfl
        simp only [LogStore.isCommand, hl, decide_eq_false_iff_not] at hc
        simp only [hl, hc, if_false]
        exact ih (fun j h1 h2 ↦ hpresent j h1 (by omega)) (fun j h1 h2 ↦ hnone j h1 (by omega))
    · rfl

/-- Below the commit index, or when the entry being applied is not the commit index, the loop
finds the command entry with the greatest index in `[firstIndex, i]`. -/
theorem recoverLoop_eq_some (i : ℕ) {L : ℕ} (hfirst1 : 1 ≤ firstIndex)
    (hpresent : ∀ j, firstIndex ≤ j → j ≤ i → ∃ l, store.getLog j = .ok l)
    (hL : store.IsLastCommand firstIndex i L) (hexit : i < commitIndex ∨ applyIndex ≠ commitIndex) :
    ∃ l, store.getLog L = .ok l ∧ recoverLoop store applyIndex commitIndex firstIndex i = .ok (some l) := by
  induction i with
  | zero => have := hL.lo_le; have := hL.le_hi; omega
  | succ i ih =>
    have hfirst : firstIndex ≤ i + 1 := hL.lo_le.trans hL.le_hi
    obtain ⟨l, hl⟩ := hpresent (i + 1) hfirst le_rfl
    have hno_exit : ¬(i + 1 = applyIndex ∧ applyIndex = commitIndex) := by omega
    simp only [recoverLoop, hfirst, if_true, hno_exit, if_false, hl]
    rcases Nat.lt_or_ge L (i + 1) with hlt | hge
    · have hc := hL.last (i + 1) hlt le_rfl
      simp only [LogStore.isCommand, hl, decide_eq_false_iff_not] at hc
      simp only [hc, if_false]
      exact ih (fun j h1 h2 ↦ hpresent j h1 (by omega))
        ⟨hL.lo_le, by omega, hL.command, fun j h1 h2 ↦ hL.last j h1 (by omega)⟩ (by omega)
    · have hLi : L = i + 1 := le_antisymm hL.le_hi hge
      have hc := hL.command
      rw [hLi] at hc
      simp only [LogStore.isCommand, hl, decide_eq_true_eq] at hc
      exact ⟨l, hLi ▸ hl, by simp [hc]⟩

/-- On the commit index itself the scan stops at once: the first entry applied is the newest
committed one, so nothing is replayed. -/
theorem recoverLatestCommittedFSMLog_of_commit {raft : RaftNode} (hfirst : 1 ≤ raft.store.firstIndex)
    (hle : raft.store.firstIndex ≤ raft.commitIndex) :
    recoverLatestCommittedFSMLog raft raft.commitIndex = .ok none := by
  obtain ⟨i, hi⟩ : ∃ i, raft.commitIndex = i + 1 := ⟨raft.commitIndex - 1, by omega⟩
  simp [recoverLatestCommittedFSMLog, recoverLoop, hi, show raft.store.firstIndex ≠ 0 by omega,
    show raft.store.firstIndex ≤ i + 1 by omega]

/-- Below the commit index the scan finds the last command entry up to the commit index. -/
theorem recoverLatestCommittedFSMLog_of_lt {raft : RaftNode} {a L : ℕ} (hfirst : 1 ≤ raft.store.firstIndex)
    (hpresent : ∀ j, raft.store.firstIndex ≤ j → j ≤ raft.commitIndex → ∃ l, raft.store.getLog j = .ok l)
    (ha : raft.store.firstIndex ≤ a) (hac : a < raft.commitIndex)
    (hL : raft.store.IsLastCommand a raft.commitIndex L) :
    ∃ l, raft.store.getLog L = .ok l ∧ recoverLatestCommittedFSMLog raft a = .ok (some l) := by
  unfold recoverLatestCommittedFSMLog
  rw [if_neg (by omega)]
  exact recoverLoop_eq_some _ hfirst hpresent ⟨ha.trans hL.lo_le, hL.le_hi, hL.command, hL.last⟩
    (.inr hac.ne)

end Scan

/-! ## The loop as it runs, on `uint64`

`recoverLoop` counts `i` down in `ℕ`.  The code counts it down in a `uint64`, where `i--` at `0`
wraps to `2 ^ 64 - 1`, and nothing in the loop bounds how often it runs.  `recoverRun` is the loop
as the code runs it, given a budget of iterations; `recoverRun_eq` says that from any `i`,
`i + 1 - firstIndex` iterations are enough and that the result is `recoverLoop`'s, so that the
counter never wraps. -/

/-- `i--` on a `uint64`. -/
def uint64Dec (i : ℕ) : ℕ := (i + 2 ^ 64 - 1) % 2 ^ 64

theorem uint64Dec_succ {i : ℕ} (h : i + 1 < 2 ^ 64) : uint64Dec (i + 1) = i := by
  unfold uint64Dec
  omega

/-- The loop of `recoverLatestCommittedFSMLog` from `i`, run for at most `n` iterations of its body;
`none` when they are not enough. -/
def recoverRun (store : LogStore) (applyIndex commitIndex firstIndex : ℕ) :
    ℕ → ℕ → Option (Except StoreError (Option RaftEntry))
  | 0, i => if firstIndex ≤ i then none else some (.ok none)
  | n + 1, i =>
    if firstIndex ≤ i then
      if i = applyIndex ∧ applyIndex = commitIndex then some (.ok none)
      else
        match store.getLog i with
        | .error e => some (.error e)
        | .ok log =>
          if log.type = .command then some (.ok (some log))
          else recoverRun store applyIndex commitIndex firstIndex n (uint64Dec i)
    else some (.ok none)

/-- `recoverLatestCommittedFSMLog(applyIndex)`, with at most `n` iterations of its loop. -/
def recoverLatestCommittedFSMLogWithin (raft : RaftNode) (applyIndex n : ℕ) :
    Option (Except StoreError (Option RaftEntry)) :=
  let firstIndex := raft.store.firstIndex
  if firstIndex = 0 then some (.ok none)
  else recoverRun raft.store applyIndex raft.commitIndex firstIndex n raft.commitIndex

section Run

variable {store : LogStore} {applyIndex commitIndex firstIndex : ℕ}

/-- From `i`, `i + 1 - firstIndex` iterations of the `uint64` loop are enough, and it returns what
`recoverLoop` does: every `i--` is taken at `i ≥ firstIndex ≥ 1`, where it does not wrap. -/
theorem recoverRun_eq (hfirst : 1 ≤ firstIndex) :
    ∀ (i n : ℕ), i < 2 ^ 64 → i + 1 - firstIndex ≤ n →
      recoverRun store applyIndex commitIndex firstIndex n i =
        some (recoverLoop store applyIndex commitIndex firstIndex i)
  | 0, n, _, _ => by cases n <;> simp [recoverRun, recoverLoop, show ¬firstIndex ≤ 0 by omega]
  | i + 1, n, hi, hn => by
    by_cases hle : firstIndex ≤ i + 1
    · obtain ⟨n, rfl⟩ : ∃ n', n = n' + 1 := ⟨n - 1, by omega⟩
      simp only [recoverRun, recoverLoop, hle, if_true]
      by_cases hx : i + 1 = applyIndex ∧ applyIndex = commitIndex
      · simp only [hx, and_self, if_true]
      · simp only [hx, if_false]
        cases store.getLog (i + 1) with
        | error e => rfl
        | ok log =>
          dsimp only
          split
          · rfl
          · rw [uint64Dec_succ hi]
            exact recoverRun_eq hfirst i n (by omega) (by omega)
    · cases n <;> simp [recoverRun, recoverLoop, hle]

/-- Below `firstIndex` the loop test fails at once. -/
theorem recoverLoop_of_lt {i : ℕ} (h : i < firstIndex) :
    recoverLoop store applyIndex commitIndex firstIndex i = .ok none := by
  cases i with
  | zero => rfl
  | succ i => simp [recoverLoop, Nat.not_le.2 h]

theorem recoverLatestCommittedFSMLog_of_lt_first {raft : RaftNode} (h : raft.commitIndex < raft.store.firstIndex)
    (applyIndex : ℕ) : recoverLatestCommittedFSMLog raft applyIndex = .ok none := by
  unfold recoverLatestCommittedFSMLog
  dsimp only
  split
  · rfl
  · exact recoverLoop_of_lt h

end Run

/-- **`recoverLatestCommittedFSMLog` on every log store and every `uint64` commit index.**  It runs
at most `commitIndex - firstIndex + 1` iterations of its loop, whose counter never wraps.  It
returns `nil` when the store is empty, when the commit index is below the first index, and when the
entry being applied is the commit index.  On a store that holds every entry of
`[firstIndex, commitIndex]`, it returns `nil` when none of them is a command, and otherwise, when
the store is not empty and the entry being applied is not the commit index, the command entry with
the greatest index there. -/
theorem recoverLatestCommittedFSMLog_spec (raft : RaftNode) (applyIndex : ℕ) (hc : raft.commitIndex < 2 ^ 64) :
    recoverLatestCommittedFSMLogWithin raft applyIndex (raft.commitIndex - raft.store.firstIndex + 1) =
        some (recoverLatestCommittedFSMLog raft applyIndex) ∧
      (raft.store.firstIndex = 0 ∨ raft.commitIndex < raft.store.firstIndex ∨ applyIndex = raft.commitIndex →
        recoverLatestCommittedFSMLog raft applyIndex = .ok none) ∧
      ((∀ j, raft.store.firstIndex ≤ j → j ≤ raft.commitIndex → ∃ l, raft.store.getLog j = .ok l) →
        ((∀ j, raft.store.firstIndex ≤ j → j ≤ raft.commitIndex → raft.store.isCommand j = false) →
          recoverLatestCommittedFSMLog raft applyIndex = .ok none) ∧
        (raft.store.firstIndex ≠ 0 → applyIndex ≠ raft.commitIndex →
          ∀ L, raft.store.IsLastCommand raft.store.firstIndex raft.commitIndex L →
            ∃ l, raft.store.getLog L = .ok l ∧ recoverLatestCommittedFSMLog raft applyIndex = .ok (some l))) := by
  refine ⟨?_, ?_, fun hpresent ↦ ⟨fun hnone ↦ ?_, fun hf0 happ L hL ↦ ?_⟩⟩
  · unfold recoverLatestCommittedFSMLogWithin recoverLatestCommittedFSMLog
    dsimp only
    split
    · rfl
    · exact recoverRun_eq (by omega) _ _ hc (by omega)
  · have hempty (h0 : raft.store.firstIndex = 0) : recoverLatestCommittedFSMLog raft applyIndex = .ok none := by
      simp [recoverLatestCommittedFSMLog, h0]
    rintro (h0 | hlt | rfl)
    · exact hempty h0
    · exact recoverLatestCommittedFSMLog_of_lt_first hlt _
    · rcases Nat.eq_zero_or_pos raft.store.firstIndex with h0 | h0
      · exact hempty h0
      rcases Nat.lt_or_ge raft.commitIndex raft.store.firstIndex with hlt | hle
      · exact recoverLatestCommittedFSMLog_of_lt_first hlt _
      · exact recoverLatestCommittedFSMLog_of_commit h0 hle
  · unfold recoverLatestCommittedFSMLog
    dsimp only
    split
    · rfl
    · exact recoverLoop_eq_none _ hpresent hnone
  · obtain ⟨l, hl, hloop⟩ :=
      recoverLoop_eq_some raft.commitIndex (Nat.one_le_iff_ne_zero.2 hf0) hpresent hL (.inr happ)
    refine ⟨l, hl, ?_⟩
    unfold recoverLatestCommittedFSMLog
    rw [if_neg hf0]
    exact hloop


/-! ## `Apply` -/

/-- The FSM's part of the server. -/
structure Server where
  metadata : MetadataStore
  recoveryStarted : Bool
  latestRecoveredLog : Option RaftEntry
  /-- The logger writes to `ioutil.Discard`, `startedRecovery` having saved its writer. -/
  logDiscarded : Bool

/-- The server's settings `Apply` reads. -/
structure Config where
  /-- `config.LogRecovery`: keep logging while the Raft log is replayed. -/
  logRecovery : Bool

/-- What `Apply` does, in order. -/
inductive Event
  | startedRecovery
  /-- `s.apply(log, index, recovered)`. -/
  | applied (index : ℕ) (recovered : Bool)
  | finishedRecovery
deriving DecidableEq, Repr

/-- Why `Apply` panics. -/
inductive Panic
  /-- `recoverLatestCommittedFSMLog` failed. -/
  | recover (e : StoreError)
  /-- `s.apply` failed and the server is not shutting down. -/
  | apply (e : ApplyError)
deriving DecidableEq, Repr

/-- What `Apply` hands back to Raft, or its panic. -/
inductive ApplyResult
  | value (v : Option Sentinel)
  /-- The error of `s.apply`, returned instead of a panic while the server shuts down. -/
  | error (e : ApplyError)
  | panic (p : Panic)
deriving DecidableEq, Repr

/-- `startedRecovery()`. -/
def startedRecovery (config : Config) (s : Server) : Server :=
  if config.logRecovery then s else { s with logDiscarded := true }

/-- `finishedRecovery()`: restore the log output and `StartRecovered` every partition, stream by
stream; the number of streams that had a recovered partition. -/
def finishedRecovery (config : Config) (s : Server) : ℕ × Server :=
  let s := if config.logRecovery then s else { s with logDiscarded := false }
  let recoveredStreams := (s.metadata.getStreams.filter fun st ↦
    st.partitions.any fun p ↦ (Partition.startRecovered p).1).length
  (recoveredStreams, { s with
    metadata := s.metadata.mapPartitions (fun p ↦ p.startRecovered.2) fun _ ↦ rfl })

/-- The part of `Apply` before the entry: on the first call, find the recovery high watermark. -/
def beginApply (config : Config) (raft : RaftNode) (s : Server) (index : ℕ) :
    Except StoreError (Server × List Event) :=
  if s.recoveryStarted then .ok (s, [])
  else
    match recoverLatestCommittedFSMLog raft index with
    | .error e => .error e
    | .ok lastCommittedLog =>
      let s := { s with latestRecoveredLog := lastCommittedLog, recoveryStarted := true }
      match lastCommittedLog with
      | some _ => .ok (startedRecovery config s, [.startedRecovery])
      | none => .ok (s, [])

/-- `Apply(l)`, under its Go name since `apply` is the unexported method it calls: the server after
the call, what it returns, and what it did. -/
def Apply (config : Config) (raft : RaftNode) (isShutdown : Bool) (s : Server) (l : RaftEntry) :
    Server × ApplyResult × List Event :=
  match beginApply config raft s l.index with
  | .error e => (s, .panic (.recover e), [])
  | .ok (s, started) =>
    -- Check if this is a "recovered" Raft entry.
    let (recovered, finished, s) :=
      match s.latestRecoveredLog with
      | some last =>
        if l.index ≤ last.index then
          if l.index = last.index then (true, true, { s with latestRecoveredLog := none })
          else (true, false, s)
        else (false, false, s)
      | none => (false, false, s)
    let (value, md) := apply s.metadata l.data l.index recovered
    let result : ApplyResult :=
      match value with
      | .ok v => .value v
      | .error e => if isShutdown then .error e else .panic (.apply e)
    let s := { s with metadata := md }
    let events := started ++ [.applied l.index recovered]
    -- The deferred `finishedRecovery()`.
    if finished then ((finishedRecovery config s).2, result, events ++ [.finishedRecovery])
    else (s, result, events)

/-- Raft calling `Apply` on each entry in turn: what each call left, returned and did. -/
def applyAll (config : Config) (raft : RaftNode) (isShutdown : Bool) :
    Server → List RaftEntry → List (Server × ApplyResult × List Event)
  | _, [] => []
  | s, l :: ls =>
    let r := Apply config raft isShutdown s l
    r :: applyAll config raft isShutdown r.1 ls

/-! ## The barrier over a run -/

/-- What the recovery barrier is meant to do on a call, when `L` is the last entry to replay:
start the recovery on the first call if there is anything to replay, apply the entry as recovered
up to `L`, and finish the recovery right after `L`. -/
def barrierEvents (L : Option ℕ) (first : Bool) (index : ℕ) : List Event :=
  (if first ∧ L.isSome then [.startedRecovery] else []) ++ [.applied index (L.any (index ≤ ·))] ++
    (if L = some index then [.finishedRecovery] else [])

/-- Where the barrier stands before the calls on `ls`, against the last entry to replay `L`:
either it still waits for `L`, which is one of `ls` or lies beyond all of them, or it is past `L`
and every entry of `ls` is newer. -/
abbrev BarrierState (L : Option ℕ) (s : Server) (ls : List RaftEntry) : Prop :=
  (s.latestRecoveredLog.map (·.index) = L ∧ ∀ L' ∈ L, (∃ l ∈ ls, l.index = L') ∨ ∀ l ∈ ls, l.index < L') ∨
    (s.latestRecoveredLog = none ∧ ∀ L' ∈ L, ∀ l ∈ ls, L' < l.index)

section Run

variable {config : Config} {raft : RaftNode} {isShutdown : Bool}

@[simp] theorem finishedRecovery_recoveryStarted (s : Server) :
    (finishedRecovery config s).2.recoveryStarted = s.recoveryStarted := by
  unfold finishedRecovery; split <;> rfl

@[simp] theorem finishedRecovery_latestRecoveredLog (s : Server) :
    (finishedRecovery config s).2.latestRecoveredLog = s.latestRecoveredLog := by
  unfold finishedRecovery; split <;> rfl

/-- `StartRecovered` is called on every partition: none is left waiting. -/
theorem finishedRecovery_started (s : Server) :
    ∀ p ∈ (finishedRecovery config s).2.metadata.partitions, p.recovered = false := by
  unfold finishedRecovery
  split <;> simp [mapPartitions, Partition.startRecovered]

theorem beginApply_of_started {s : Server} (hs : s.recoveryStarted = true) (index : ℕ) :
    beginApply config raft s index = .ok (s, []) := by
  simp [beginApply, hs]

theorem beginApply_of_fresh {s : Server} (hs : s.recoveryStarted = false) {index : ℕ}
    {o : Option RaftEntry} (h : recoverLatestCommittedFSMLog raft index = .ok o) :
    ∃ s₁, beginApply config raft s index = .ok (s₁, if o.isSome then [.startedRecovery] else []) ∧
      s₁.recoveryStarted = true ∧ s₁.latestRecoveredLog = o := by
  cases o with
  | none =>
    exact ⟨{ s with latestRecoveredLog := none, recoveryStarted := true },
      by simp [beginApply, hs, h], rfl, rfl⟩
  | some last =>
    refine ⟨_, by simp [beginApply, hs, h]; rfl, ?_, ?_⟩ <;> unfold startedRecovery <;> split <;> rfl

/-- One call, after `beginApply`: the entry is applied as recovered up to the latest recovered
log, and the recovery finishes on it. -/
theorem Apply_of_beginApply {s s₁ : Server} {started : List Event} {l : RaftEntry}
    (h : beginApply config raft s l.index = .ok (s₁, started)) :
    (Apply config raft isShutdown s l).2.2 =
        started ++ [.applied l.index (s₁.latestRecoveredLog.any (l.index ≤ ·.index))] ++
          (if s₁.latestRecoveredLog.map (·.index) = some l.index then [.finishedRecovery] else []) ∧
      (Apply config raft isShutdown s l).1.recoveryStarted = s₁.recoveryStarted ∧
      (Apply config raft isShutdown s l).1.latestRecoveredLog =
        if s₁.latestRecoveredLog.map (·.index) = some l.index then none else s₁.latestRecoveredLog := by
  simp only [Apply, h]
  cases ho : s₁.latestRecoveredLog with
  | none => simp [ho]
  | some last =>
    by_cases h1 : l.index ≤ last.index
    · by_cases h2 : l.index = last.index
      · simp [h1, h2, ho]
      · simp [h1, h2, Ne.symm h2, ho]
    · have h2 : last.index ≠ l.index := by omega
      simp [h1, h2, ho]

/-- One call after the first, while the run does not jump over the last recovered index: it logs
`barrierEvents L false`, and the barrier stands for the rest of the run. -/
theorem Apply_barrier_step {L : Option ℕ} {s : Server} {l : RaftEntry} {ls : List RaftEntry}
    (hs : s.recoveryStarted = true) (hhead : ∀ l' ∈ ls, l.index < l'.index)
    (hinv : BarrierState L s (l :: ls)) :
    (Apply config raft isShutdown s l).2.2 = barrierEvents L false l.index ∧
      (Apply config raft isShutdown s l).1.recoveryStarted = true ∧
      BarrierState L (Apply config raft isShutdown s l).1 ls := by
  obtain ⟨hev, hst, hlat⟩ :=
    @Apply_of_beginApply config raft isShutdown s s [] l (@beginApply_of_started config raft s hs l.index)
  rw [hev, hst]
  unfold BarrierState
  rw [hlat]
  cases L with
  | none =>
    have hnone : s.latestRecoveredLog = none := by
      rcases hinv with ⟨h, -⟩ | ⟨h, -⟩
      · simpa using h
      · exact h
    exact ⟨by simp [barrierEvents, hnone], hs, .inr ⟨by simp [hnone], by simp⟩⟩
  | some L' =>
    rcases hinv with ⟨hmap, hcover⟩ | ⟨hnone, hgt⟩
    · obtain ⟨last, hlast, hLi⟩ := Option.map_eq_some'.1 hmap
      have hle : l.index ≤ L' := by
        rcases hcover L' rfl with ⟨l', hl', hl'i⟩ | hall
        · rcases List.mem_cons.1 hl' with rfl | hl'
          · omega
          · have := hhead l' hl'; omega
        · exact (hall l (List.mem_cons_self _ _)).le
      by_cases heq : l.index = L'
      · -- the call on the last recovered entry
        refine ⟨by simp [barrierEvents, hlast, hLi, heq], hs, .inr ⟨by simp [hlast, hLi, heq], ?_⟩⟩
        rintro _ ⟨⟩ l' hl'; have := hhead l' hl'; omega
      · refine ⟨by simp [barrierEvents, hlast, hLi, hle, Ne.symm heq], hs,
          .inl ⟨by simp [hlast, hLi, Ne.symm heq], ?_⟩⟩
        rintro _ ⟨⟩
        rcases hcover L' rfl with ⟨l', hl', hl'i⟩ | hall
        · rcases List.mem_cons.1 hl' with rfl | hl'
          · exact absurd hl'i heq
          · exact .inl ⟨l', hl', hl'i⟩
        · exact .inr fun l' hl' ↦ hall l' (List.mem_cons_of_mem _ hl')
    · -- past the last recovered entry
      have hgt' := hgt L' rfl
      have hlt : L' < l.index := hgt' l (List.mem_cons_self _ _)
      refine ⟨by simp [barrierEvents, hnone, Nat.not_le.2 hlt, hlt.ne], hs, .inr ⟨by simp [hnone], ?_⟩⟩
      rintro _ ⟨⟩ l' hl'; exact hgt' l' (List.mem_cons_of_mem _ hl')

/-- From the second call on, the calls follow `barrierEvents`, as long as the run does not jump
over the last recovered index. -/
theorem applyAll_barrier (L : Option ℕ) :
    ∀ (ls : List RaftEntry) (s : Server), s.recoveryStarted = true →
      ls.Pairwise (·.index < ·.index) → BarrierState L s ls →
      (applyAll config raft isShutdown s ls).map (·.2.2) = ls.map fun l ↦ barrierEvents L false l.index
  | [], _, _, _, _ => rfl
  | l :: ls, s, hs, hsorted, hinv => by
    rw [List.pairwise_cons] at hsorted
    obtain ⟨hev, hst, hinv'⟩ := @Apply_barrier_step config raft isShutdown L s l ls hs hsorted.1 hinv
    simp only [applyAll, List.map_cons, hev, applyAll_barrier L ls _ hst hsorted.2 hinv']

theorem beginApply_metadata {s s₁ : Server} {index : ℕ} {started : List Event}
    (h : beginApply config raft s index = .ok (s₁, started)) : s₁.metadata = s.metadata := by
  unfold beginApply at h
  split at h
  · cases h; rfl
  · split at h
    · cases h
    · split at h <;> cases h <;> (try unfold startedRecovery; split) <;> rfl

/-- A call whose operation fails, however it is applied, hands the error to Raft while the server
shuts down and panics otherwise. -/
theorem Apply_of_apply_error {s s₁ : Server} {started : List Event} {l : RaftEntry} {e : ApplyError}
    (hb : beginApply config raft s l.index = .ok (s₁, started))
    (he : ∀ recovered, (apply s₁.metadata l.data l.index recovered).1 = .error e) :
    (Apply config raft isShutdown s l).2.1 = if isShutdown then .error e else .panic (.apply e) := by
  simp only [Apply, hb]
  cases ho : s₁.latestRecoveredLog with
  | none => simp [he]
  | some last =>
    by_cases h2 : l.index = last.index
    · have he' := h2 ▸ he
      simp [h2, he']
    · by_cases h1 : l.index ≤ last.index <;> simp [h1, h2, he]

theorem beginApply_not_finished {s s₁ : Server} {index : ℕ} {started : List Event}
    (h : beginApply config raft s index = .ok (s₁, started)) : Event.finishedRecovery ∉ started := by
  unfold beginApply at h
  split at h
  · cases h; simp
  · split at h
    · cases h
    · split at h <;> cases h <;> simp

/-- A call that finishes the recovery leaves no partition waiting to be started. -/
theorem Apply_finishedRecovery {s : Server} {l : RaftEntry}
    (h : Event.finishedRecovery ∈ (Apply config raft isShutdown s l).2.2) :
    ∀ p ∈ (Apply config raft isShutdown s l).1.metadata.partitions, p.recovered = false := by
  cases hb : beginApply config raft s l.index with
  | error e => simp [Apply, hb] at h
  | ok r =>
    obtain ⟨s₁, started⟩ := r
    have hns := beginApply_not_finished hb
    simp only [Apply, hb] at h ⊢
    cases ho : s₁.latestRecoveredLog with
    | none => simp [ho, hns] at h
    | some last =>
      by_cases h2 : l.index = last.index
      · simp only [ho, h2, le_refl, if_true]
        exact finishedRecovery_started _
      · by_cases h1 : l.index ≤ last.index <;> simp [ho, h1, h2, hns] at h

theorem applyAll_finishedRecovery :
    ∀ (ls : List RaftEntry) (s : Server), ∀ r ∈ applyAll config raft isShutdown s ls,
      Event.finishedRecovery ∈ r.2.2 → ∀ p ∈ r.1.metadata.partitions, p.recovered = false
  | [], _ => by simp [applyAll]
  | l :: ls, s => by
    simp only [applyAll, List.mem_cons, forall_eq_or_imp]
    exact ⟨Apply_finishedRecovery, applyAll_finishedRecovery ls _⟩

/-- The first call on the entry `a`: it starts the recovery when there is something to replay, and
leaves the rest of the run in the state `applyAll_barrier` starts from. -/
theorem Apply_first {s : Server} (hs : s.recoveryStarted = false)
    (hfirst : 1 ≤ raft.store.firstIndex)
    (hpresent : ∀ j, raft.store.firstIndex ≤ j → j ≤ raft.commitIndex → ∃ l, raft.store.getLog j = .ok l)
    {a b : ℕ} (ha : raft.store.firstIndex ≤ a) (hac : a ≤ raft.commitIndex) {L : Option ℕ}
    (hL : a = raft.commitIndex ∧ L = none ∨
      ∃ L', L = some L' ∧ a < raft.commitIndex ∧ raft.store.IsLastCommand a raft.commitIndex L')
    {l₀ : RaftEntry} {ls : List RaftEntry} (hl₀ : l₀.index = a) (hgt : ∀ l ∈ ls, a < l.index)
    (hrun : raft.store.commands a b = l₀ :: ls) :
    (Apply config raft isShutdown s l₀).2.2 = barrierEvents L true a ∧
      (Apply config raft isShutdown s l₀).1.recoveryStarted = true ∧
      BarrierState L (Apply config raft isShutdown s l₀).1 ls := by
  have hmem : ∀ l, l ∈ l₀ :: ls ↔ _ := fun l ↦ hrun ▸ LogStore.mem_commands
  rcases hL with ⟨rfl, rfl⟩ | ⟨L', rfl, hlt, hL'⟩
  · -- nothing to replay
    obtain ⟨s₁, hb, hst, hlat⟩ :=
      @beginApply_of_fresh config raft s hs l₀.index none (hl₀ ▸ recoverLatestCommittedFSMLog_of_commit hfirst (ha.trans hac))
    obtain ⟨hev, hst', hlat'⟩ := @Apply_of_beginApply config raft isShutdown s _ _ _ hb
    refine ⟨by rw [hev, hlat]; simp [barrierEvents, hl₀], hst'.trans hst, .inr ⟨by rw [hlat', hlat]; simp, by simp⟩⟩
  · obtain ⟨last, hlast, hrec⟩ := recoverLatestCommittedFSMLog_of_lt hfirst hpresent ha hlt hL'
    have hli : last.index = L' := LogStore.getLog_index hlast
    obtain ⟨s₁, hb, hst, hlat⟩ := @beginApply_of_fresh config raft s hs l₀.index _ (hl₀ ▸ hrec)
    obtain ⟨hev, hst', hlat'⟩ := @Apply_of_beginApply config raft isShutdown s _ _ _ hb
    have hle : a ≤ L' := hL'.lo_le
    refine ⟨by rw [hev, hlat]; simp [barrierEvents, hl₀, hli, hle], hst'.trans hst, ?_⟩
    unfold BarrierState
    rw [hlat', hlat]
    by_cases heq : L' = a
    · subst heq
      refine .inr ⟨by simp [hli, hl₀], ?_⟩
      rintro _ ⟨⟩; exact hgt
    · refine .inl ⟨by simp [hli, hl₀, heq], ?_⟩
      rintro _ ⟨⟩
      by_cases hb : L' ≤ b
      · obtain ⟨l', hl', hc⟩ := LogStore.isCommand_iff.1 hL'.command
        have hi := LogStore.getLog_index hl'
        rcases List.mem_cons.1 ((hmem l').2 ⟨LogStore.mem_of_getLog hl', hc, hi ▸ ⟨hle, hb⟩⟩) with rfl | h
        · exact absurd (hi.symm.trans hl₀) heq
        · exact .inl ⟨l', h, hi⟩
      · refine .inr fun l hl ↦ ?_
        have := ((hmem l).1 (List.mem_cons_of_mem _ hl)).2.2.2
        omega

/-- The recovery barrier, over a run of `Apply` on the command entries from `a` to any `b`.  `L` is
the greatest command index in `[a, c]` when `a < c`, and there is none when `a = c`.  The `j`-th
call starts the recovery exactly when `j = 0` and `L` exists, applies its entry as recovered
exactly when the entry is at most `L`, and finishes the recovery exactly on the entry `L`, after
applying it; a call that finishes the recovery leaves no partition unstarted. -/
theorem apply_recovery_barrier {s : Server} (hs : s.recoveryStarted = false)
    (hfirst : 1 ≤ raft.store.firstIndex) (hsorted : raft.store.logs.Pairwise (·.index < ·.index))
    (hpresent : ∀ j, raft.store.firstIndex ≤ j → j ≤ raft.commitIndex → ∃ l, raft.store.getLog j = .ok l)
    {a : ℕ} (ha : raft.store.firstIndex ≤ a) (hac : a ≤ raft.commitIndex)
    (hcmd : raft.store.isCommand a = true) {L : Option ℕ}
    (hL : a = raft.commitIndex ∧ L = none ∨
      ∃ L', L = some L' ∧ a < raft.commitIndex ∧ raft.store.IsLastCommand a raft.commitIndex L')
    (b : ℕ) :
    (applyAll config raft isShutdown s (raft.store.commands a b)).map (·.2.2) =
        (raft.store.commands a b).mapIdx (fun j l ↦ barrierEvents L (j = 0) l.index) ∧
      ∀ r ∈ applyAll config raft isShutdown s (raft.store.commands a b), Event.finishedRecovery ∈ r.2.2 →
        ∀ p ∈ r.1.metadata.partitions, p.recovered = false := by
  refine ⟨?_, applyAll_finishedRecovery _ _⟩
  have hrs : (raft.store.commands a b).Pairwise (·.index < ·.index) := hsorted.filter _
  rcases lt_or_le b a with hba | hab
  · have : raft.store.commands a b = [] := List.eq_nil_iff_forall_not_mem.2 fun l hl ↦ by
      have := LogStore.mem_commands.1 hl; omega
    simp [this, applyAll]
  · obtain ⟨l₀, hl₀, hc⟩ := LogStore.isCommand_iff.1 hcmd
    have hi := LogStore.getLog_index hl₀
    -- the run starts at the entry `a`
    obtain ⟨ls, hrun⟩ : ∃ ls, raft.store.commands a b = l₀ :: ls := by
      have hmem : l₀ ∈ raft.store.commands a b :=
        LogStore.mem_commands.2 ⟨LogStore.mem_of_getLog hl₀, hc, hi.ge, hi ▸ hab⟩
      cases hcs : raft.store.commands a b with
      | nil => rw [hcs] at hmem; cases hmem
      | cons h ls =>
        have hh : h ∈ raft.store.commands a b := by rw [hcs]; exact List.mem_cons_self _ _
        rw [hcs] at hmem hrs
        rcases List.mem_cons.1 hmem with rfl | hmem
        · exact ⟨ls, rfl⟩
        · have := (List.pairwise_cons.1 hrs).1 _ hmem
          have := (LogStore.mem_commands.1 hh).2.2.1
          omega
    rw [hrun] at hrs ⊢
    obtain ⟨hgt, hls⟩ := List.pairwise_cons.1 hrs
    obtain ⟨hev, hst, hinv⟩ := @Apply_first config raft isShutdown s hs hfirst hpresent a b ha hac L hL l₀ ls hi
      (fun l hl ↦ hi ▸ hgt l hl) hrun
    rw [applyAll, List.map_cons, List.mapIdx_cons, hev, applyAll_barrier L ls _ hst hls hinv]
    simp only [hi, Nat.add_one_ne_zero, decide_False, decide_True, List.cons.injEq, true_and]
    exact (List.mapIdx_eq_iff.2 fun i ↦ by simp).symm

end Run

/-- A log after a restart: a partition created at index `1` and an ISR change on it at `3`, committed
up to index `4`, with no-ops in between. -/
def replayLog : RaftNode where
  store := ⟨[⟨1, .command, ordersReplicated.log⟩, ⟨2, .noop, .unknown 0⟩,
    ⟨3, .command, .shrinkISR "orders" "n2" 0⟩, ⟨4, .noop, .unknown 0⟩]⟩
  commitIndex := 4

/-- The restart of `replayLog`: both command entries are replayed, the recovery finishes on the ISR
change at `3`, each call returns without an error, and the partition ends started, without `n2` in
its ISR. -/
theorem replayLog_barrier :
    (applyAll ⟨false⟩ replayLog false ⟨.empty, false, none, false⟩ (replayLog.store.commands 1 4)).map
        (·.2.2) =
        (replayLog.store.commands 1 4).mapIdx (fun j l ↦ barrierEvents (some 3) (j = 0) l.index) ∧
      (∀ r ∈ applyAll ⟨false⟩ replayLog false ⟨.empty, false, none, false⟩ (replayLog.store.commands 1 4),
        Event.finishedRecovery ∈ r.2.2 → ∀ p ∈ r.1.metadata.partitions, p.recovered = false) ∧
      (applyAll ⟨false⟩ replayLog false ⟨.empty, false, none, false⟩ (replayLog.store.commands 1 4)).map
        (fun r ↦ (r.2.1, r.1.metadata.partitions)) =
        [(.value none, [⟨⟨"orders", 0, ["n1", "n2"], ["n1", "n2"], "n1", 1, 1⟩, true, false, false⟩]),
          (.value none, [⟨⟨"orders", 0, ["n1", "n2"], ["n1"], "n1", 3, 1⟩, false, false, false⟩])] :=
  (@apply_recovery_barrier ⟨false⟩ replayLog false ⟨.empty, false, none, false⟩ rfl (by decide) (by decide)
    (fun j h1 h2 ↦ by
      have : 1 ≤ j := h1
      have : j ≤ 4 := h2
      interval_cases j <;> exact ⟨_, rfl⟩)
    1 (by decide) (by decide) (by decide) (some 3)
    (.inr ⟨3, rfl, by decide, by decide, by decide, by decide, fun j h1 h2 ↦ by
      have : j ≤ 4 := h2
      interval_cases j; decide⟩) 4).imp_right (And.intro · (by decide))

/-- After the restart of `replayLog`, with entry `1` being applied: the scan stops within four
iterations, on the command entry at `3`. -/
theorem replayLog_scan :
    recoverLatestCommittedFSMLogWithin replayLog 1 4 = some (recoverLatestCommittedFSMLog replayLog 1) ∧
      ∃ l, replayLog.store.getLog 3 = .ok l ∧ recoverLatestCommittedFSMLog replayLog 1 = .ok (some l) := by
  have h := recoverLatestCommittedFSMLog_spec replayLog 1 (by decide)
  refine ⟨h.1, (h.2.2 (fun j h1 h2 ↦ ?_)).2 (by decide) (by decide) 3
    ⟨by decide, by decide, by decide, fun j h1 h2 ↦ ?_⟩⟩
  · have : 1 ≤ j := h1
    have : j ≤ 4 := h2
    interval_cases j <;> exact ⟨_, rfl⟩
  · have : j ≤ 4 := h2
    interval_cases j; decide

/-! ## An entry on a missing partition

Raft commits concurrently proposed entries in any order, so an ISR or leader change can be ordered
after the `DeleteStream` of its stream.  `apply` then fails with "No such partition", where a
delete or a pause on a missing stream hands `ErrStreamNotFound` back to the proposer, and `Apply`
panics on the failure.  It panics again on every restart, when the entry is replayed. -/

/-- `orders` is created, then deleted, and an ISR change on its partition `0` is committed last. -/
def deleteRace : RaftNode where
  store := ⟨[⟨1, .command, ordersCreated.log⟩, ⟨2, .command, .deleteStream "orders"⟩,
    ⟨3, .command, .shrinkISR "orders" "n1" 0⟩]⟩
  commitIndex := 3

/-- An ISR or leader change on a partition not in the store makes `Apply` panic: with "No such
partition" once recovery has started, and in any case with some panic. -/
theorem Apply_panics_of_missing_partition {config : Config} {raft : RaftNode} {s : Server}
    {l : RaftEntry} {stream : String} {id : Int} (ht : l.data.target = some (stream, id))
    (hmissing : s.metadata.getPartition stream id = none) :
    ∃ p, (Apply config raft false s l).2.1 = .panic p ∧
      (s.recoveryStarted = true → p = .apply (.noSuchPartition stream id)) := by
  cases hb : beginApply config raft s l.index with
  | error e =>
    refine ⟨.recover e, by simp [Apply, hb], fun hs ↦ ?_⟩
    rw [beginApply_of_started hs] at hb
    cases hb
  | ok r =>
    obtain ⟨s₁, started⟩ := r
    have he : ∀ recovered, (apply s₁.metadata l.data l.index recovered).1 =
        .error (.noSuchPartition stream id) := fun _ ↦ by
      rw [apply_eq_epochChange ht, beginApply_metadata hb, applyEpochChange_of_none hmissing]; rfl
    exact ⟨_, Apply_of_apply_error hb he, fun _ ↦ rfl⟩

theorem deleteRace_missing_partition :
    ∃ p, (Apply ⟨true⟩ deleteRace false
        ⟨(apply (apply .empty ordersCreated.log 1 false).2 (.deleteStream "orders") 2 false).2, true, none, false⟩
        ⟨3, .command, .shrinkISR "orders" "n1" 0⟩).2.1 = .panic p ∧
      (true = true → p = .apply (.noSuchPartition "orders" 0)) :=
  Apply_panics_of_missing_partition rfl (by decide)

/-- The third entry of `deleteRace` makes `Apply` panic, both while the entries are new and when
they are replayed after a restart. -/
theorem deleteRace_panics :
    (applyAll ⟨true⟩ deleteRace false ⟨.empty, true, none, false⟩ deleteRace.store.logs).map (·.2.1) =
        [.value none, .value none, .panic (.apply (.noSuchPartition "orders" 0))] ∧
      (applyAll ⟨true⟩ deleteRace false ⟨.empty, false, none, false⟩ deleteRace.store.logs).map (·.2.1) =
        [.value none, .value none, .panic (.apply (.noSuchPartition "orders" 0))] := by
  decide

end Liftbridge
