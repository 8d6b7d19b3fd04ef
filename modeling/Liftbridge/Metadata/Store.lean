import Mathlib.Data.List.Nodup

/-!
# Partitions and the metadata store

The FSM in `server/fsm.go` mutates one thing: the metadata store, the in-memory map from a stream
name and a partition id to a partition.  Neither the store (`server/metadata.go`) nor the
partition (`server/partition.go`) is part of this repository snapshot, so everything in this file
is modelled from the spec's words (§3, §4.4, §4.5); `Liftbridge.Fsm.Apply` is where the code of
`fsm.go` starts.

A partition has two halves, and the split matters for snapshots.

* `PartitionRecord` is the protobuf `Partition`: stream, id, replicas, ISR, leader, epoch and
  leader epoch.  This is what goes through Raft, what `Snapshot` captures and `Restore` reads back.
* `Partition` adds the state that stays on the node: whether it was created while the Raft log was
  being replayed (and is waiting for `StartRecovered`), and whether it is paused.

The store is a list of partitions whose keys `(stream, id)` are pairwise distinct.  The
distinctness is a field of `MetadataStore`, so every operation below has to re-establish it and
no proof downstream ever has to.  A stream has no existence of its own: it is there exactly when
one of its partitions is, which is how `fsm.go` sees it too (a stream is created with its first
partition and dropped whole by `CloseAndDeleteStream`).
-/

set_option autoImplicit false

namespace Liftbridge

/-! ## Partitions -/

/-- The replicated fields of a partition, as the protobuf `Partition` carries them.  Epochs and
Raft indices are `uint64`s that are only ever compared and copied, so they are `ℕ` here. -/
structure PartitionRecord where
  stream : String
  id : Int
  replicas : List String
  isr : List String
  leader : String
  epoch : ℕ
  leaderEpoch : ℕ
deriving DecidableEq, Repr

/-- A partition held by the metadata store. -/
structure Partition where
  /-- The replicated record; `Persist` marshals exactly this. -/
  record : PartitionRecord
  /-- Created during Raft replay and not yet started by `StartRecovered`. -/
  recovered : Bool
  /-- Paused by a `PauseStream` entry. -/
  paused : Bool
  /-- The `resumeAll` flag of the `PauseStream` entry that paused it. -/
  resumeAll : Bool
deriving DecidableEq, Repr

/-- Why a partition refused an ISR change. -/
inductive PartitionError
  /-- `"%s not a replica"`: the replica is not in the partition's replica set. -/
  | notAReplica (replica : String)
deriving DecidableEq, Repr

namespace PartitionRecord

/-- The key the store files a partition under. -/
def key (r : PartitionRecord) : String × Int := (r.stream, r.id)

@[simp] theorem key_eq (r : PartitionRecord) : r.key = (r.stream, r.id) := rfl

/-- Modelled from the spec: `RemoveFromISR(replica)` (§4.4) drops a replica from the ISR, and fails
if the replica is not one of the partition's replicas. -/
def removeFromISR (r : PartitionRecord) (replica : String) : Except PartitionError PartitionRecord :=
  if replica ∈ r.replicas then .ok { r with isr := r.isr.filter (· ≠ replica) }
  else .error (.notAReplica replica)

/-- Modelled from the spec: `AddToISR(replica)` (§4.4) adds a replica to the ISR, and fails if the
replica is not one of the partition's replicas. -/
def addToISR (r : PartitionRecord) (replica : String) : Except PartitionError PartitionRecord :=
  if replica ∈ r.replicas then
    .ok { r with isr := if replica ∈ r.isr then r.isr else r.isr ++ [replica] }
  else .error (.notAReplica replica)

/-- Modelled from the spec: `SetLeader(replica, epoch)` (§4.4) updates the leader and the leader
epoch.  Starting to lead or to follow is a side effect outside the store. -/
def setLeader (r : PartitionRecord) (leader : String) (epoch : ℕ) : PartitionRecord :=
  { r with leader := leader, leaderEpoch := epoch }

/-- Modelled from the spec: `SetEpoch(epoch)`. -/
def setEpoch (r : PartitionRecord) (epoch : ℕ) : PartitionRecord := { r with epoch := epoch }

theorem removeFromISR_epochs {r r' : PartitionRecord} {replica : String}
    (h : r.removeFromISR replica = .ok r') :
    r'.stream = r.stream ∧ r'.id = r.id ∧ r'.epoch = r.epoch ∧ r'.leaderEpoch = r.leaderEpoch := by
  unfold removeFromISR at h
  split at h <;> cases h
  exact ⟨rfl, rfl, rfl, rfl⟩

theorem addToISR_epochs {r r' : PartitionRecord} {replica : String}
    (h : r.addToISR replica = .ok r') :
    r'.stream = r.stream ∧ r'.id = r.id ∧ r'.epoch = r.epoch ∧ r'.leaderEpoch = r.leaderEpoch := by
  unfold addToISR at h
  split at h <;> cases h
  exact ⟨rfl, rfl, rfl, rfl⟩

end PartitionRecord

namespace Partition

/-- The key the store files a partition under. -/
def key (p : Partition) : String × Int := p.record.key

/-- Modelled from the spec: `StartRecovered()` (§4.4) starts a partition created during replay and
reports whether it did; on any other partition it does nothing, so it is idempotent. -/
def startRecovered (p : Partition) : Bool × Partition := (p.recovered, { p with recovered := false })

end Partition

/-! ## The store -/

/-- The sentinel errors the FSM hands back to the proposer instead of failing: `ErrPartitionExists`,
`ErrStreamNotFound` and `ErrPartitionNotFound`. -/
inductive Sentinel
  | partitionExists
  | streamNotFound
  | partitionNotFound
deriving DecidableEq, Repr

/-- The metadata store: its partitions, no two under the same `(stream, id)`. -/
structure MetadataStore where
  partitions : List Partition
  nodup_keys : (partitions.map Partition.key).Nodup

/-- A stream as `GetStream` hands it out: its name and its partitions. -/
structure Stream where
  name : String
  partitions : List Partition

namespace MetadataStore

/-- Two stores with the same partitions are the same store. -/
@[ext] theorem ext {md md' : MetadataStore} (h : md.partitions = md'.partitions) : md = md' := by
  cases md; cases md'; cases h; rfl

/-- The store `Reset` leaves, and the one a node starts from. -/
def empty : MetadataStore := ⟨[], List.nodup_nil⟩

/-- The partition filed under a key. -/
def find (md : MetadataStore) (k : String × Int) : Option Partition :=
  md.partitions.find? (·.key = k)

/-- `GetPartition(stream, id)`. -/
def getPartition (md : MetadataStore) (stream : String) (id : Int) : Option Partition :=
  md.find (stream, id)

/-- `GetStream(name)`: `none` when no partition belongs to the stream. -/
def getStream (md : MetadataStore) (name : String) : Option Stream :=
  if md.partitions.any (·.record.stream = name) then
    some ⟨name, md.partitions.filter (·.record.stream = name)⟩
  else none

/-- `GetStreams()`: every stream once. -/
def getStreams (md : MetadataStore) : List Stream :=
  (md.partitions.map (·.record.stream)).dedup.map fun name ↦
    ⟨name, md.partitions.filter (·.record.stream = name)⟩

/-- Apply `f` to every partition; `f` keeps keys, so the store stays well formed.  Every in-place
mutation of a `*partition` below is one of these. -/
def mapPartitions (md : MetadataStore) (f : Partition → Partition) (hf : ∀ q, (f q).key = q.key) :
    MetadataStore :=
  ⟨md.partitions.map f, by
    have e : Partition.key ∘ f = Partition.key := funext hf
    rw [List.map_map, e]; exact md.nodup_keys⟩

/-- Modelled from the spec: `AddPartition(spec, recovered)` (§4.5) files a new partition, or fails
with `ErrPartitionExists` and leaves the store alone. -/
def addPartition (md : MetadataStore) (rec : PartitionRecord) (recovered : Bool) :
    Except Sentinel MetadataStore :=
  if h : rec.key ∈ md.partitions.map Partition.key then .error .partitionExists
  else .ok ⟨md.partitions ++ [⟨rec, recovered, false, false⟩], by
    rw [List.map_append, List.nodup_append]
    exact ⟨md.nodup_keys, List.nodup_singleton _, by simpa [Partition.key, PartitionRecord.key] using h⟩⟩

/-- Write a partition back under its own key: the in-place mutation of the `*partition` that
`GetPartition` returned. -/
def update (md : MetadataStore) (p : Partition) : MetadataStore :=
  md.mapPartitions (fun q ↦ if q.key = p.key then p else q) fun q ↦ by
    by_cases hq : q.key = p.key <;> simp [hq]

/-- Modelled from the spec: `CloseAndDeleteStream(stream)` (§4.5) drops every partition of the
stream. -/
def closeAndDeleteStream (md : MetadataStore) (stream : Stream) : MetadataStore :=
  ⟨md.partitions.filter (·.record.stream ≠ stream.name),
    md.nodup_keys.sublist ((List.filter_sublist _).map _)⟩

/-- Modelled from the spec: `stream.Pause(partitions, resumeAll)` (§4.4) pauses the listed
partitions of the stream, all of them when the list is empty, and fails with
`ErrPartitionNotFound` (changing nothing) if one of the listed ids is not a partition of it. -/
def pause (md : MetadataStore) (stream : Stream) (ids : List Int) (resumeAll : Bool) :
    Except Sentinel MetadataStore :=
  if ids.all fun id ↦ stream.partitions.any (·.record.id = id) then
    .ok <| md.mapPartitions
      (fun q ↦ if q.record.stream = stream.name ∧ (ids = [] ∨ q.record.id ∈ ids) then
        { q with paused := true, resumeAll := resumeAll } else q)
      fun q ↦ by dsimp only; split <;> rfl
  else .error .partitionNotFound

/-! ### Lookups after each operation -/

theorem find_eq_none_iff (md : MetadataStore) (k : String × Int) :
    md.find k = none ↔ k ∉ md.partitions.map Partition.key := by
  simp [find]

theorem find_key {md : MetadataStore} {k : String × Int} {p : Partition} (h : md.find k = some p) :
    p.key = k := by
  simpa using List.find?_some h

@[simp] theorem find_empty (k : String × Int) : empty.find k = none := rfl

@[simp] theorem find_mapPartitions (md : MetadataStore) (f : Partition → Partition)
    (hf : ∀ q, (f q).key = q.key) (k : String × Int) :
    (md.mapPartitions f hf).find k = (md.find k).map f := by
  have e : ((fun q ↦ decide (q.key = k)) ∘ f) = fun q ↦ decide (q.key = k) :=
    funext fun q ↦ by simp [hf]
  simp only [find, mapPartitions, List.find?_map, e]

theorem find_update (md : MetadataStore) (p : Partition) (k : String × Int) :
    (md.update p).find k = if k = p.key then (md.find k).map fun _ ↦ p else md.find k := by
  rw [update, find_mapPartitions]
  cases h : md.find k with
  | none => simp
  | some q => have := find_key h; by_cases hk : k = p.key <;> simp_all

theorem find_addPartition {md md' : MetadataStore} {rec : PartitionRecord} {recovered : Bool}
    (h : md.addPartition rec recovered = .ok md') (k : String × Int) :
    md'.find k = if k = rec.key then some ⟨rec, recovered, false, false⟩ else md.find k := by
  unfold addPartition at h
  split at h
  · cases h
  · cases h
    rename_i hk
    by_cases hk' : k = rec.key
    · subst hk'
      have : md.partitions.find? (·.key = rec.key) = none := (find_eq_none_iff _ _).2 hk
      rw [find, List.find?_append, this]; simp [Partition.key, PartitionRecord.key]
    · have : ¬ (Partition.key ⟨rec, recovered, false, false⟩ = k) := fun h ↦ hk' (by rw [← h]; rfl)
      rw [if_neg hk']; simp [find, this]

/-- `AddPartition` appends the partition it files. -/
theorem addPartition_partitions {md md' : MetadataStore} {rec : PartitionRecord} {recovered : Bool}
    (h : md.addPartition rec recovered = .ok md') :
    md'.partitions = md.partitions ++ [⟨rec, recovered, false, false⟩] := by
  unfold addPartition at h
  split at h
  · cases h
  · cases h; rfl

theorem addPartition_eq_error {md : MetadataStore} {rec : PartitionRecord} {recovered : Bool}
    {e : Sentinel} (h : md.addPartition rec recovered = .error e) :
    e = .partitionExists ∧ (md.find rec.key).isSome := by
  unfold addPartition at h
  split at h
  · cases h; rename_i hk; exact ⟨rfl, by simpa [Option.isSome_iff_ne_none, find_eq_none_iff] using hk⟩
  · cases h

theorem addPartition_isOk (md : MetadataStore) (rec : PartitionRecord) (recovered : Bool) :
    (∃ md', md.addPartition rec recovered = .ok md') ↔ md.find rec.key = none := by
  rw [find_eq_none_iff]; unfold addPartition; split <;> simp_all [-PartitionRecord.key_eq]

theorem find_closeAndDeleteStream (md : MetadataStore) (stream : Stream) (k : String × Int) :
    (md.closeAndDeleteStream stream).find k = if k.1 = stream.name then none else md.find k := by
  simp only [find, closeAndDeleteStream, List.find?_filter]
  split
  · rename_i hk
    rw [List.find?_eq_none]
    intro q _
    simp only [Bool.and_eq_true, decide_eq_true_eq, not_and]
    intro hs hq; exact hs (by rw [← hk, ← hq]; rfl)
  · rename_i hk
    congr 1; funext q
    by_cases hq : q.key = k
    · have : q.record.stream ≠ stream.name := by rw [← hq] at hk; exact hk
      simp [hq, this]
    · simp [hq]

theorem find_pause {md md' : MetadataStore} {stream : Stream} {ids : List Int} {resumeAll : Bool}
    (h : md.pause stream ids resumeAll = .ok md') (k : String × Int) :
    (md'.find k).map (·.record) = (md.find k).map (·.record) := by
  unfold pause at h
  split at h
  · cases h; rw [find_mapPartitions, Option.map_map]; congr 1; funext q; simp only [Function.comp]
    split <;> rfl
  · cases h

theorem pause_eq_error {md : MetadataStore} {stream : Stream} {ids : List Int} {resumeAll : Bool}
    {e : Sentinel} (h : md.pause stream ids resumeAll = .error e) : e = .partitionNotFound := by
  unfold pause at h
  split at h <;> cases h
  rfl

theorem getStream_eq_none_iff (md : MetadataStore) (name : String) :
    md.getStream name = none ↔ ∀ p ∈ md.partitions, p.record.stream ≠ name := by
  simp [getStream]

theorem getStream_name {md : MetadataStore} {name : String} {stream : Stream}
    (h : md.getStream name = some stream) : stream.name = name := by
  unfold getStream at h
  split at h <;> cases h
  rfl

end MetadataStore

end Liftbridge
