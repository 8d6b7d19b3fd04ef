import Liftbridge.Metadata.Store

/-!
# Applying one Raft entry to the metadata store

`Server.apply` (`fsm.go`) switches on the operation of a decoded `RaftLog` and mutates the
metadata store.  It is translated here case by case:

* `CreatePartition` stamps the partition's epoch and leader epoch with the entry's Raft index and
  files it; `ErrPartitionExists` comes back as the value, not as an error.
* `ShrinkISR`, `ExpandISR` and `ChangeLeader` are three copies of one shape, `applyEpochChange`:
  look the partition up (an error if it is missing), do nothing if its epoch has already reached
  the entry's index, else make the change and set the epoch to the index.  The three members keep
  their source names and differ only in the change they pass.
* `DeleteStream` and `PauseStream` hand `ErrStreamNotFound` and `ErrPartitionNotFound` back as
  values.
* Anything else is an error: `Server.Apply` turns every error into a panic.

The store holds more than Raft replicates (`Partition.recovered`, `Partition.paused`), so the
theorem that matters most here is about its *records*: `records_apply` says that an entry acts on
the replicated records one key at a time, through `recordStep`, which reads nothing but the entry
and the record under that key.  No entry reaches across keys, a failed entry changes nothing,
and a pause never touches a record.  Every later argument about epochs, replays and snapshots is
an argument about `recordStep`, and `apply_ok_iff` says, in the same per-key terms, when `apply`
returns without an error.
-/

set_option autoImplicit false

namespace Liftbridge

/-- A decoded `proto.RaftLog`: its `Op`, with the payload of that op. -/
inductive RaftLog
  | createPartition (partition : PartitionRecord)
  | shrinkISR (stream replicaToRemove : String) (partition : Int)
  | changeLeader (stream leader : String) (partition : Int)
  | expandISR (stream replicaToAdd : String) (partition : Int)
  | deleteStream (stream : String)
  | pauseStream (stream : String) (partitions : List Int) (resumeAll : Bool)
  /-- An `Op` the switch has no case for. -/
  | unknown (op : ℕ)
deriving DecidableEq, Repr

/-- A committed Raft entry as the FSM sees it: its index and its decoded data. -/
structure Entry where
  log : RaftLog
  index : ℕ
deriving DecidableEq, Repr

/-- The errors `Server.apply` returns; `Server.Apply` panics on each of them. -/
inductive ApplyError
  /-- `"No such partition [stream=%s, partition=%d]"`. -/
  | noSuchPartition (stream : String) (partition : Int)
  /-- `"failed to remove %s from ISR for partition %s"`, wrapping the partition's error. -/
  | removeFromISR (replica : String) (partition : PartitionRecord) (cause : PartitionError)
  /-- `"failed to add %s to ISR for partition %s"`, wrapping the partition's error. -/
  | addToISR (replica : String) (partition : PartitionRecord) (cause : PartitionError)
  /-- `"Unknown Raft operation: %s"`. -/
  | unknownOperation (op : ℕ)
deriving DecidableEq, Repr

namespace Server

open MetadataStore

/-- `applyCreatePartition(protoPartition, recovered)`. -/
def applyCreatePartition (md : MetadataStore) (protoPartition : PartitionRecord) (recovered : Bool) :
    Except Sentinel Unit × MetadataStore :=
  match md.addPartition protoPartition recovered with
  | .ok md' => (.ok (), md')
  | .error e => (.error e, md)

/-- The shape `applyShrinkISR`, `applyExpandISR` and `applyChangeStreamLeader` share. -/
def applyEpochChange (md : MetadataStore) (stream : String) (partitionID : Int) (epoch : ℕ)
    (change : PartitionRecord → Except ApplyError PartitionRecord) :
    Except ApplyError Unit × MetadataStore :=
  match md.getPartition stream partitionID with
  | none => (.error (.noSuchPartition stream partitionID), md)
  | some partition =>
    -- Idempotency check.
    if epoch ≤ partition.record.epoch then (.ok (), md)
    else match change partition.record with
      | .error e => (.error e, md)
      | .ok r => (.ok (), md.update { partition with record := r.setEpoch epoch })

/-- The change `applyShrinkISR` makes: `partition.RemoveFromISR(replica)`, its error wrapped. -/
def shrinkChange (replica : String) (r : PartitionRecord) : Except ApplyError PartitionRecord :=
  (r.removeFromISR replica).mapError (.removeFromISR replica r)

/-- The change `applyExpandISR` makes: `partition.AddToISR(replica)`, its error wrapped. -/
def expandChange (replica : String) (r : PartitionRecord) : Except ApplyError PartitionRecord :=
  (r.addToISR replica).mapError (.addToISR replica r)

/-- The change `applyChangeStreamLeader` makes: `partition.SetLeader(leader, epoch)`. -/
def leaderChange (leader : String) (epoch : ℕ) (r : PartitionRecord) :
    Except ApplyError PartitionRecord :=
  .ok (r.setLeader leader epoch)

/-- `applyShrinkISR(stream, replica, partitionID, epoch)`. -/
def applyShrinkISR (md : MetadataStore) (stream replica : String) (partitionID : Int) (epoch : ℕ) :
    Except ApplyError Unit × MetadataStore :=
  applyEpochChange md stream partitionID epoch (shrinkChange replica)

/-- `applyExpandISR(stream, replica, partitionID, epoch)`. -/
def applyExpandISR (md : MetadataStore) (stream replica : String) (partitionID : Int) (epoch : ℕ) :
    Except ApplyError Unit × MetadataStore :=
  applyEpochChange md stream partitionID epoch (expandChange replica)

/-- `applyChangeStreamLeader(stream, leader, partitionID, epoch)`. -/
def applyChangeStreamLeader (md : MetadataStore) (stream leader : String) (partitionID : Int)
    (epoch : ℕ) : Except ApplyError Unit × MetadataStore :=
  applyEpochChange md stream partitionID epoch (leaderChange leader epoch)

/-- `applyDeleteStream(streamName)`. -/
def applyDeleteStream (md : MetadataStore) (streamName : String) :
    Except Sentinel Unit × MetadataStore :=
  match md.getStream streamName with
  | none => (.error .streamNotFound, md)
  | some stream => (.ok (), md.closeAndDeleteStream stream)

/-- `applyPauseStream(streamName, partitions, resumeAll)`. -/
def applyPauseStream (md : MetadataStore) (streamName : String) (partitions : List Int)
    (resumeAll : Bool) : Except Sentinel Unit × MetadataStore :=
  match md.getStream streamName with
  | none => (.error .streamNotFound, md)
  | some stream =>
    match md.pause stream partitions resumeAll with
    | .ok md' => (.ok (), md')
    | .error e => (.error e, md)

/-- `if err == Err… { return err, nil }`: a sentinel goes back to the proposer as the value. -/
def returnSentinel : Except Sentinel Unit → Except ApplyError (Option Sentinel)
  | .ok () => .ok none
  | .error e => .ok (some e)

/-- `if err != nil { return nil, err }`. -/
def returnError : Except ApplyError Unit → Except ApplyError (Option Sentinel)
  | .ok () => .ok none
  | .error e => .error e

/-- `apply(log, index, recovered)`: the value or the error, and the store it leaves. -/
def apply (md : MetadataStore) (log : RaftLog) (index : ℕ) (recovered : Bool) :
    Except ApplyError (Option Sentinel) × MetadataStore :=
  match log with
  | .createPartition partition =>
    -- Make sure to set the leader epoch on the stream.
    let r := applyCreatePartition md { partition with leaderEpoch := index, epoch := index } recovered
    (returnSentinel r.1, r.2)
  | .shrinkISR stream replica partition =>
    let r := applyShrinkISR md stream replica partition index
    (returnError r.1, r.2)
  | .changeLeader stream leader partition =>
    let r := applyChangeStreamLeader md stream leader partition index
    (returnError r.1, r.2)
  | .expandISR stream replica partition =>
    let r := applyExpandISR md stream replica partition index
    (returnError r.1, r.2)
  | .deleteStream stream =>
    let r := applyDeleteStream md stream
    (returnSentinel r.1, r.2)
  | .pauseStream stream partitions resumeAll =>
    let r := applyPauseStream md stream partitions resumeAll
    (returnSentinel r.1, r.2)
  | .unknown op => (.error (.unknownOperation op), md)

end Server

/-! ## The records, one key at a time -/

open Server

/-- What Raft replicates of a store: the record filed under each key. -/
def MetadataStore.records (md : MetadataStore) (k : String × Int) : Option PartitionRecord :=
  (md.find k).map (·.record)

/-- The partition a `ShrinkISR`, `ExpandISR` or `ChangeLeader` entry names; `none` for the other
entries. -/
def RaftLog.target : RaftLog → Option (String × Int)
  | .shrinkISR stream _ partition | .changeLeader stream _ partition
  | .expandISR stream _ partition => some (stream, partition)
  | _ => none

/-- The change such an entry at `index` asks of its partition. -/
def RaftLog.change : RaftLog → ℕ → PartitionRecord → Except ApplyError PartitionRecord
  | .shrinkISR _ replica _, _ => shrinkChange replica
  | .changeLeader _ leader _, index => leaderChange leader index
  | .expandISR _ replica _, _ => expandChange replica
  | _, _ => .ok

/-- What `applyEpochChange` does to the record it finds. -/
def epochStep (epoch : ℕ) (change : PartitionRecord → Except ApplyError PartitionRecord)
    (r : PartitionRecord) : PartitionRecord :=
  if epoch ≤ r.epoch then r
  else match change r with
    | .ok r' => r'.setEpoch epoch
    | .error _ => r

/-- Whether `applyEpochChange` returns without an error on the record it finds. -/
def epochOk (epoch : ℕ) (change : PartitionRecord → Except ApplyError PartitionRecord)
    (r : PartitionRecord) : Bool :=
  decide (epoch ≤ r.epoch) || (change r).toBool

/-- An entry at `index`, seen from the record under the key `k`: the FSM one key at a time. -/
def recordStep (log : RaftLog) (index : ℕ) (k : String × Int) (o : Option PartitionRecord) :
    Option PartitionRecord :=
  match log with
  | .createPartition p =>
    if k = p.key ∧ o = none then some { p with leaderEpoch := index, epoch := index }
    else o
  | .deleteStream stream => if k.1 = stream then none else o
  | log => if log.target = some k then o.map (epochStep index (log.change index)) else o

/-- Whether `apply` returns without an error, read off the records. -/
def applyOk (log : RaftLog) (index : ℕ) (records : String × Int → Option PartitionRecord) : Bool :=
  match log with
  | .unknown _ => false
  | log =>
    match log.target with
    | none => true
    | some k => (records k).any (epochOk index (log.change index))

/-- What the change of an ISR or leader entry can do: keep the key and the epoch, and keep the
leader epoch or set it to the entry's index. -/
theorem RaftLog.change_spec (log : RaftLog) (index : ℕ) {r r' : PartitionRecord}
    (h : log.change index r = .ok r') :
    r'.key = r.key ∧ r'.epoch = r.epoch ∧ (r'.leaderEpoch = r.leaderEpoch ∨ r'.leaderEpoch = index) := by
  cases log
  case shrinkISR stream replica id =>
    simp only [RaftLog.change, shrinkChange] at h
    cases hr : r.removeFromISR replica <;> simp only [hr, Except.mapError, reduceCtorEq] at h
    cases h
    obtain ⟨h1, h2, h3, h4⟩ := PartitionRecord.removeFromISR_epochs hr
    exact ⟨by simp [h1, h2], h3, .inl h4⟩
  case expandISR stream replica id =>
    simp only [RaftLog.change, expandChange] at h
    cases hr : r.addToISR replica <;> simp only [hr, Except.mapError, reduceCtorEq] at h
    cases h
    obtain ⟨h1, h2, h3, h4⟩ := PartitionRecord.addToISR_epochs hr
    exact ⟨by simp [h1, h2], h3, .inl h4⟩
  case changeLeader =>
    simp only [RaftLog.change, leaderChange, Except.ok.injEq] at h
    subst h; exact ⟨rfl, rfl, .inr rfl⟩
  all_goals simp only [RaftLog.change, Except.ok.injEq] at h; subst h; exact ⟨rfl, rfl, .inl rfl⟩

theorem RaftLog.change_key (log : RaftLog) (index : ℕ) {r r' : PartitionRecord}
    (h : log.change index r = .ok r') : r'.stream = r.stream ∧ r'.id = r.id := by
  simpa using (log.change_spec index h).1

/-- A change keeps the replicas; whether it fails depends on nothing else. -/
theorem RaftLog.change_replicas (log : RaftLog) (index : ℕ) {r r' : PartitionRecord}
    (h : log.change index r = .ok r') : r'.replicas = r.replicas := by
  cases log <;> simp only [RaftLog.change, shrinkChange, expandChange, leaderChange,
    PartitionRecord.removeFromISR, PartitionRecord.addToISR, PartitionRecord.setLeader] at h
  case shrinkISR | expandISR => split at h <;> cases h; rfl
  all_goals cases h; rfl

theorem RaftLog.change_toBool (log : RaftLog) (index : ℕ) {r r' : PartitionRecord}
    (h : r'.replicas = r.replicas) : (log.change index r').toBool = (log.change index r).toBool := by
  cases log <;> simp only [RaftLog.change, shrinkChange, expandChange, leaderChange,
    PartitionRecord.removeFromISR, PartitionRecord.addToISR, h]
  case shrinkISR | expandISR => split <;> rfl
  all_goals rfl

/-- A change made once is a fixed point of itself: removing or adding a replica twice, or setting
the same leader twice, changes nothing the second time. -/
theorem RaftLog.change_change (log : RaftLog) (index : ℕ) {r r' : PartitionRecord}
    (h : log.change index r = .ok r') : log.change index r' = .ok r' := by
  cases log <;> simp only [RaftLog.change, shrinkChange, expandChange, leaderChange,
    PartitionRecord.removeFromISR, PartitionRecord.addToISR, PartitionRecord.setLeader] at h ⊢
  case shrinkISR stream replica id =>
    split at h <;> cases h
    rename_i hmem
    simp [hmem, Except.mapError, List.filter_filter]
  case expandISR stream replica id =>
    split at h <;> cases h
    rename_i hmem
    by_cases hin : replica ∈ r.isr <;> simp [hmem, hin, Except.mapError]
  all_goals cases h; rfl

namespace MetadataStore

theorem records_eq_none_of_getStream {md : MetadataStore} {name : String}
    (h : md.getStream name = none) (k : String × Int) (hk : k.1 = name) : md.records k = none := by
  cases hf : md.find k with
  | none => simp [records, hf]
  | some p =>
    have := (getStream_eq_none_iff md name).1 h p (List.mem_of_find?_eq_some hf)
    exact absurd (by rw [← hk, ← find_key hf]; rfl) this

end MetadataStore

open MetadataStore

section EpochChange

variable {md : MetadataStore} {stream : String} {id : Int} {epoch : ℕ}
  {change : PartitionRecord → Except ApplyError PartitionRecord} {p : Partition}
  {r r' : PartitionRecord} {e : ApplyError}

theorem epochStep_of_le (h : epoch ≤ r.epoch) : epochStep epoch change r = r := by
  simp [epochStep, h]

theorem epochStep_of_error (h : r.epoch < epoch) (hc : change r = .error e) :
    epochStep epoch change r = r := by
  simp [epochStep, Nat.not_le.2 h, hc]

theorem epochStep_of_ok (h : r.epoch < epoch) (hc : change r = .ok r') :
    epochStep epoch change r = r'.setEpoch epoch := by
  simp [epochStep, Nat.not_le.2 h, hc]

theorem applyEpochChange_of_none (hf : md.find (stream, id) = none) :
    applyEpochChange md stream id epoch change = (.error (.noSuchPartition stream id), md) := by
  simp [applyEpochChange, getPartition, hf]

theorem applyEpochChange_of_le (hf : md.find (stream, id) = some p) (h : epoch ≤ p.record.epoch) :
    applyEpochChange md stream id epoch change = (.ok (), md) := by
  simp [applyEpochChange, getPartition, hf, h]

theorem applyEpochChange_of_error (hf : md.find (stream, id) = some p) (h : p.record.epoch < epoch)
    (hc : change p.record = .error e) :
    applyEpochChange md stream id epoch change = (.error e, md) := by
  simp [applyEpochChange, getPartition, hf, Nat.not_le.2 h, hc]

theorem applyEpochChange_of_ok (hf : md.find (stream, id) = some p) (h : p.record.epoch < epoch)
    (hc : change p.record = .ok r') :
    applyEpochChange md stream id epoch change =
      (.ok (), md.update { p with record := r'.setEpoch epoch }) := by
  simp [applyEpochChange, getPartition, hf, Nat.not_le.2 h, hc]

/-- `applyEpochChange` on the records: the named key moves by `epochStep`, no other key moves. -/
theorem applyEpochChange_records
    (hchange : ∀ r r', change r = .ok r' → r'.stream = r.stream ∧ r'.id = r.id) (k : String × Int) :
    (applyEpochChange md stream id epoch change).2.records k =
      if (stream, id) = k then (md.records k).map (epochStep epoch change) else md.records k := by
  cases hf : md.find (stream, id) with
  | none => rw [applyEpochChange_of_none hf]; split <;> simp_all [records]
  | some p =>
    have hp := find_key hf
    rcases Nat.lt_or_ge p.record.epoch epoch with h | h
    · cases hc : change p.record with
      | error e =>
        rw [applyEpochChange_of_error hf h hc]
        split <;> simp_all [records, epochStep_of_error h hc]
      | ok r' =>
        have hkey : ({ p with record := r'.setEpoch epoch } : Partition).key = (stream, id) := by
          obtain ⟨h1, h2⟩ := hchange _ _ hc
          rw [← hp]; simp [Partition.key, PartitionRecord.key, PartitionRecord.setEpoch, h1, h2]
        rw [applyEpochChange_of_ok hf h hc, records, find_update, hkey]
        split
        · subst k; simp [records, hf, epochStep_of_ok h hc]
        · simp_all [records, eq_comm]
    · rw [applyEpochChange_of_le hf h]
      split <;> simp_all [records, epochStep_of_le h]

theorem applyEpochChange_ok_iff :
    (applyEpochChange md stream id epoch change).1 = .ok () ↔
      (md.records (stream, id)).any (epochOk epoch change) = true := by
  cases hf : md.find (stream, id) with
  | none => simp [applyEpochChange_of_none hf, records, hf]
  | some p =>
    rcases Nat.lt_or_ge p.record.epoch epoch with h | h
    · cases hc : change p.record with
      | error e =>
        simp [applyEpochChange_of_error hf h hc, records, hf, epochOk, hc, Nat.not_le.2 h,
          Except.toBool]
      | ok r' => simp [applyEpochChange_of_ok hf h hc, records, hf, epochOk, hc, Except.toBool]
    · simp [applyEpochChange_of_le hf h, records, hf, epochOk, h]

theorem applyEpochChange_store_of_error (h : (applyEpochChange md stream id epoch change).1 = .error e) :
    (applyEpochChange md stream id epoch change).2 = md := by
  cases hf : md.find (stream, id) with
  | none => rw [applyEpochChange_of_none hf]
  | some p =>
    rcases Nat.lt_or_ge p.record.epoch epoch with hl | hl
    · cases hc : change p.record with
      | error e' => rw [applyEpochChange_of_error hf hl hc]
      | ok r' => rw [applyEpochChange_of_ok hf hl hc] at h; cases h
    · rw [applyEpochChange_of_le hf hl]

end EpochChange

/-- **`apply` acts on the replicated records one key at a time.** -/
theorem records_apply (md : MetadataStore) (log : RaftLog) (index : ℕ) (recovered : Bool)
    (k : String × Int) :
    (apply md log index recovered).2.records k = recordStep log index k (md.records k) := by
  cases log with
  | createPartition p =>
    simp only [apply, applyCreatePartition, recordStep]
    split
    · rename_i md' h
      have hfresh : md.find p.key = none :=
        (addPartition_isOk md { p with leaderEpoch := index, epoch := index } recovered).1 ⟨_, h⟩
      rw [records, find_addPartition h]
      simp only [PartitionRecord.key_eq] at hfresh ⊢
      by_cases hk : k = (p.stream, p.id)
      · subst hk; simp [records, hfresh]
      · simp [hk, records]
    · rename_i e h
      obtain ⟨a, ha⟩ := Option.isSome_iff_exists.1 (addPartition_eq_error h).2
      simp only [PartitionRecord.key_eq] at ha ⊢
      by_cases hk : k = (p.stream, p.id)
      · subst hk; simp [records, ha]
      · simp [hk]
  | deleteStream stream =>
    simp only [apply, applyDeleteStream, recordStep]
    split
    · rename_i h; split
      · exact records_eq_none_of_getStream h k ‹_›
      · rfl
    · rename_i st h
      simp only [records, find_closeAndDeleteStream, getStream_name h]
      split <;> simp
  | pauseStream stream ids resumeAll =>
    simp only [apply, applyPauseStream, recordStep, RaftLog.target]
    split
    · rfl
    · split
      · rename_i h; exact find_pause h k
      · rfl
  | unknown op => rfl
  | shrinkISR stream replica id =>
    simp only [apply, applyShrinkISR, recordStep, RaftLog.target, Option.some.injEq]
    exact applyEpochChange_records (fun _ _ ↦ RaftLog.change_key (.shrinkISR stream replica id) index) k
  | changeLeader stream leader id =>
    simp only [apply, applyChangeStreamLeader, recordStep, RaftLog.target, Option.some.injEq]
    exact applyEpochChange_records (fun _ _ ↦ RaftLog.change_key (.changeLeader stream leader id) index) k
  | expandISR stream replica id =>
    simp only [apply, applyExpandISR, recordStep, RaftLog.target, Option.some.injEq]
    exact applyEpochChange_records (fun _ _ ↦ RaftLog.change_key (.expandISR stream replica id) index) k

theorem apply_eq_epochChange {log : RaftLog} {k : String × Int} (hk : log.target = some k)
    (md : MetadataStore) (index : ℕ) (recovered : Bool) :
    apply md log index recovered =
      (returnError (applyEpochChange md k.1 k.2 index (log.change index)).1,
        (applyEpochChange md k.1 k.2 index (log.change index)).2) := by
  cases log <;> simp only [RaftLog.target, reduceCtorEq, Option.some.injEq] at hk <;> subst hk <;> rfl

theorem returnSentinel_ok (r : Except Sentinel Unit) : ∃ v, returnSentinel r = .ok v := by
  cases r <;> simp [returnSentinel]

theorem returnError_ok_iff (r : Except ApplyError Unit) :
    (∃ v, returnError r = .ok v) ↔ r = .ok () := by
  cases r <;> simp [returnError]

/-- **When `apply` returns without an error**, read off the records: always for a create, a delete
and a pause; never for an unknown op; for an ISR or leader change, exactly when the partition is
there and either the epoch guard skips the entry or the partition accepts the change. -/
theorem apply_ok_iff (md : MetadataStore) (log : RaftLog) (index : ℕ) (recovered : Bool) :
    (∃ v, (apply md log index recovered).1 = .ok v) ↔ applyOk log index md.records = true := by
  cases ht : log.target with
  | some k =>
    rw [apply_eq_epochChange ht, returnError_ok_iff, applyEpochChange_ok_iff]
    cases log <;> simp_all [applyOk, RaftLog.target]
  | none =>
    cases log <;> simp only [RaftLog.target, reduceCtorEq] at ht
    all_goals simp only [apply, applyOk, RaftLog.target, iff_true]
    case unknown => simp
    all_goals exact returnSentinel_ok _

/-- **A failed `apply` leaves the store as it was.** -/
theorem apply_store_of_error {md : MetadataStore} {log : RaftLog} {index : ℕ} {recovered : Bool}
    {e : ApplyError} (h : (apply md log index recovered).1 = .error e) :
    (apply md log index recovered).2 = md := by
  cases ht : log.target with
  | some k =>
    rw [apply_eq_epochChange ht] at h ⊢
    cases hr : (applyEpochChange md k.1 k.2 index (log.change index)).1
    · exact applyEpochChange_store_of_error hr
    · simp [hr, returnError] at h
  | none =>
    cases log <;> simp only [RaftLog.target, reduceCtorEq] at ht
    all_goals simp only [apply] at h ⊢
    all_goals obtain ⟨v, hv⟩ := returnSentinel_ok _; rw [hv] at h; cases h


/-! ## Applying an entry twice

`Apply`'s comment asks for an idempotent call: Raft hands the FSM entries again on a restart.
Each handler is idempotent on its own terms: a second `CreatePartition` finds the partition and
returns `ErrPartitionExists`, a second `DeleteStream` finds no stream, a second `PauseStream` sets
the flags that are already set, and a second ISR or leader change meets the epoch it set itself. -/

section Twice

variable {md : MetadataStore} {stream : String} {id : Int} {epoch : ℕ}
  {change : PartitionRecord → Except ApplyError PartitionRecord}

/-- A create of a partition that is already filed changes nothing, whatever its `recovered` flag. -/
theorem applyCreatePartition_of_isSome {rec : PartitionRecord} (h : (md.find rec.key).isSome)
    (recovered : Bool) : (applyCreatePartition md rec recovered).2 = md := by
  unfold applyCreatePartition
  cases hadd : md.addPartition rec recovered with
  | ok md' => exact absurd ((addPartition_isOk md rec recovered).1 ⟨md', hadd⟩) (Option.isSome_iff_ne_none.1 h)
  | error e => rfl

theorem applyCreatePartition_twice (md : MetadataStore) (rec : PartitionRecord) (recovered recovered' : Bool) :
    (applyCreatePartition (applyCreatePartition md rec recovered).2 rec recovered').2 =
      (applyCreatePartition md rec recovered).2 := by
  apply applyCreatePartition_of_isSome
  unfold applyCreatePartition
  cases hadd : md.addPartition rec recovered with
  | ok md' => simp [find_addPartition hadd]
  | error e => exact (addPartition_eq_error hadd).2

/-- **The epoch guard makes an ISR or leader change idempotent**: the second call meets the epoch
the first one set, or fails as the first did on the store the first left alone. -/
theorem applyEpochChange_twice
    (hchange : ∀ r r', change r = .ok r' → r'.stream = r.stream ∧ r'.id = r.id) :
    applyEpochChange (applyEpochChange md stream id epoch change).2 stream id epoch change =
      applyEpochChange md stream id epoch change := by
  cases hf : md.find (stream, id) with
  | none => rw [applyEpochChange_of_none hf, applyEpochChange_of_none hf]
  | some p =>
    rcases Nat.lt_or_ge p.record.epoch epoch with h | h
    · cases hc : change p.record with
      | error e => rw [applyEpochChange_of_error hf h hc, applyEpochChange_of_error hf h hc]
      | ok r' =>
        have hkey : (stream, id) = ({ p with record := r'.setEpoch epoch } : Partition).key := by
          obtain ⟨h1, h2⟩ := hchange _ _ hc
          rw [← find_key hf]; simp [Partition.key, PartitionRecord.key, PartitionRecord.setEpoch, h1, h2]
        have hf' : (md.update { p with record := r'.setEpoch epoch }).find (stream, id) =
            some { p with record := r'.setEpoch epoch } := by
          rw [find_update, if_pos hkey, hf]; rfl
        rw [applyEpochChange_of_ok hf h hc, applyEpochChange_of_le hf' (Nat.le_refl epoch)]
    · rw [applyEpochChange_of_le hf h, applyEpochChange_of_le hf h]

theorem applyDeleteStream_twice (md : MetadataStore) (name : String) :
    (applyDeleteStream (applyDeleteStream md name).2 name).2 = (applyDeleteStream md name).2 := by
  unfold applyDeleteStream
  cases h : md.getStream name with
  | none => simp only [h]
  | some st =>
    have hgone : (md.closeAndDeleteStream st).getStream name = none := by
      rw [getStream_eq_none_iff]
      intro p hp
      simpa [closeAndDeleteStream, getStream_name h] using (List.mem_filter.1 hp).2
    simp only [hgone]

/-- The flags a `PauseStream` entry sets, as `pause` sets them. -/
theorem pause_mapPartitions {md : MetadataStore} {st : Stream} {ids : List Int} {resumeAll : Bool}
    {md' : MetadataStore} (h : md.pause st ids resumeAll = .ok md') :
    ∃ f hf, (∀ q, f (f q) = f q) ∧ (∀ q, (f q).record = q.record) ∧ md' = md.mapPartitions f hf ∧
      ∀ md₀ : MetadataStore, ∀ st₀ : Stream, st₀.name = st.name →
        st₀.partitions.map (·.record.id) = st.partitions.map (·.record.id) →
        md₀.pause st₀ ids resumeAll = .ok (md₀.mapPartitions f hf) := by
  unfold pause at h
  split at h
  · rename_i hall
    cases h
    refine ⟨_, _, fun q ↦ ?_, fun q ↦ ?_, rfl, fun md₀ st₀ hname hids ↦ ?_⟩
    · by_cases hq : q.record.stream = st.name ∧ (ids = [] ∨ q.record.id ∈ ids) <;> simp [hq]
    · dsimp only; split <;> rfl
    · have hall₀ : (ids.all fun id ↦ st₀.partitions.any (·.record.id = id)) = true := by
        have e : ∀ id, (st₀.partitions.any (·.record.id = id)) = (st.partitions.any (·.record.id = id)) :=
          fun id ↦ by
            have hmem := congrArg (id ∈ ·) hids
            simp only [List.mem_map] at hmem
            rw [Bool.eq_iff_iff]
            simpa [List.any_eq_true] using hmem
        simpa only [e] using hall
      simp only [pause, hall₀, if_true, hname]
  · cases h

theorem applyPauseStream_twice (md : MetadataStore) (name : String) (ids : List Int) (resumeAll : Bool) :
    (applyPauseStream (applyPauseStream md name ids resumeAll).2 name ids resumeAll).2 =
      (applyPauseStream md name ids resumeAll).2 := by
  unfold applyPauseStream
  cases h : md.getStream name with
  | none => simp only [h]
  | some st =>
    dsimp only
    cases hp : md.pause st ids resumeAll with
    | error e => simp only [h, hp]
    | ok md' =>
      obtain ⟨f, hf, hff, hrec, rfl, hpause⟩ := pause_mapPartitions hp
      unfold getStream at h
      split at h
      · rename_i hany
        cases h
        -- the stream as the paused store hands it out: the same partitions, paused
        have hst : (md.mapPartitions f hf).getStream name =
            some ⟨name, (md.partitions.filter (·.record.stream = name)).map f⟩ := by
          have hany' : ((md.partitions.map f).any (·.record.stream = name)) = true := by
            simpa [List.any_map, Function.comp_def, hrec] using hany
          simp only [getStream, mapPartitions, hany', if_true, List.filter_map, Function.comp_def, hrec]
        dsimp only
        rw [hst]
        dsimp only
        rw [hpause (md.mapPartitions f hf) ⟨name, (md.partitions.filter (·.record.stream = name)).map f⟩ rfl
          (by simp [Function.comp_def, hrec])]
        ext1
        simp [mapPartitions, hff]
      · cases h

end Twice

/-- **Applying an entry twice leaves the store the first application left**, for every store,
entry and `recovered` flags, and the second call fails exactly when the first did. -/
theorem apply_idempotent (md : MetadataStore) (log : RaftLog) (index : ℕ) (recovered recovered' : Bool) :
    (apply (apply md log index recovered).2 log index recovered').2 = (apply md log index recovered).2 ∧
      (apply (apply md log index recovered).2 log index recovered').1.toBool =
        (apply md log index recovered).1.toBool := by
  cases ht : log.target with
  | some k =>
    simp only [apply_eq_epochChange ht, applyEpochChange_twice fun _ _ ↦ RaftLog.change_key log index,
      and_self]
  | none =>
    have hsentinel (r r' : Except Sentinel Unit) : (returnSentinel r').toBool = (returnSentinel r).toBool := by
      cases r <;> cases r' <;> rfl
    cases log <;> simp only [RaftLog.target, reduceCtorEq] at ht
    case createPartition p => exact ⟨applyCreatePartition_twice .., hsentinel _ _⟩
    case deleteStream name => exact ⟨applyDeleteStream_twice .., hsentinel _ _⟩
    case pauseStream name ids resumeAll => exact ⟨applyPauseStream_twice .., hsentinel _ _⟩
    case unknown op => exact ⟨rfl, rfl⟩

end Liftbridge
