import Liftbridge.Fsm.Apply
import Mathlib.Data.UInt
import Mathlib.Data.List.Dedup

/-!
# Snapshot, Persist and Restore

Raft compacts its log by asking the FSM for a snapshot and installs one on a lagging or restarted
node through `Restore`.  In `fsm.go` the three steps are:

* `Snapshot` collects the partition records of every stream into a `MetadataSnapshot`.  It
  collects *pointers*: the records go on changing under `Apply` until `Persist` marshals them,
  which is what `Liftbridge.Fsm.Replay` is about.
* `Persist` marshals the snapshot and writes a 4-byte big-endian length, then the encoding.
* `Restore` reads the length and that many bytes, unmarshals them, resets the store and files each
  partition again with `applyCreatePartition(partition, false)`.

The protobuf codec is not this repository's code: `marshal` and `unmarshal` are parameters, and
the round trip is a hypothesis where it is needed.  Writing to the sink is taken to succeed, so
`persistBytes` is the byte string the sink receives.

`restore_persistBytes` says that `Restore` undoes `Persist` for every snapshot whose encoding fits
the length prefix, and `restorePartitions_snapshot` what the store looks like afterwards: under
each key, the snapshot's record for it.
-/

set_option autoImplicit false

namespace Liftbridge

/-- The protobuf `MetadataSnapshot`: the partition records of the store. -/
structure MetadataSnapshot where
  partitions : List PartitionRecord
deriving DecidableEq, Repr

/-! ## Bytes -/

/-- `binary.BigEndian.PutUint32(buf, uint32(n))`: the value is cut to 32 bits first. -/
def putUint32 (n : ℕ) : List UInt8 :=
  [UInt8.ofNat (n / 2 ^ 24), UInt8.ofNat (n / 2 ^ 16), UInt8.ofNat (n / 2 ^ 8), UInt8.ofNat n]

/-- `binary.BigEndian.Uint32(buf)`, read as a base-256 numeral. -/
def uint32 (buf : List UInt8) : ℕ := buf.foldl (fun acc b ↦ acc * 256 + b.toNat) 0

theorem uint32_putUint32 (n : ℕ) : uint32 (putUint32 n) = n % 2 ^ 32 := by
  have h (m : ℕ) : (UInt8.ofNat m).toNat = m % 256 := rfl
  simp only [uint32, putUint32, List.foldl, h]
  omega

@[simp] theorem length_putUint32 (n : ℕ) : (putUint32 n).length = 4 := rfl

/-- How `io.ReadFull` fails. -/
inductive ReadError
  /-- `io.EOF`: nothing was left to read. -/
  | eof
  /-- `io.ErrUnexpectedEOF`: some bytes, but fewer than the buffer holds. -/
  | unexpectedEOF
deriving DecidableEq, Repr

/-- `io.ReadFull(r, buf)` with `len(buf) = n`: the bytes read and the rest of the stream. -/
def readFull (stream : List UInt8) (n : ℕ) : Except ReadError (List UInt8 × List UInt8) :=
  if n ≤ stream.length then .ok (stream.take n, stream.drop n)
  else if stream = [] then .error .eof
  else .error .unexpectedEOF

theorem readFull_append {buf rest : List UInt8} {n : ℕ} (h : buf.length = n) :
    readFull (buf ++ rest) n = .ok (buf, rest) := by
  subst h; simp [readFull]

theorem readFull_self (buf : List UInt8) : readFull buf buf.length = .ok (buf, []) := by
  simp [readFull]

theorem readFull_eq_ok {stream buf rest : List UInt8} {n : ℕ} (h : readFull stream n = .ok (buf, rest)) :
    buf = stream.take n ∧ rest = stream.drop n := by
  unfold readFull at h
  split at h
  · cases h; exact ⟨rfl, rfl⟩
  · split at h <;> cases h

/-! ## The three callbacks -/

namespace Server

open MetadataStore

/-- `Snapshot()`: the records of every partition, stream by stream. -/
def snapshot (md : MetadataStore) : MetadataSnapshot :=
  ⟨(md.getStreams.flatMap (·.partitions)).map (·.record)⟩

/-- What `fsmSnapshot.Persist(sink)` writes to the sink when every call succeeds: the size and then
the encoding. -/
def persistBytes (marshal : MetadataSnapshot → List UInt8) (snap : MetadataSnapshot) : List UInt8 :=
  putUint32 (marshal snap).length ++ marshal snap

/-- Why `Restore` fails. -/
inductive RestoreError
  | read (e : ReadError)
  | unmarshal
  /-- An error of `applyCreatePartition`, returned as it is. -/
  | createPartition (e : Sentinel)
deriving DecidableEq, Repr

/-- The loop of `Restore`: `applyCreatePartition(partition, false)` for each record, stopping at
the first error with the store as far as it got. -/
def restorePartitions : MetadataStore → List PartitionRecord → Except RestoreError Unit × MetadataStore
  | md, [] => (.ok (), md)
  | md, p :: ps =>
    match applyCreatePartition md p false with
    | (.ok (), md') => restorePartitions md' ps
    | (.error e, md') => (.error (.createPartition e), md')

/-- `Restore(snapshot)`.  `metadata.Reset()` is modelled from the spec (§4.5): it empties the
store. -/
def restore (unmarshal : List UInt8 → Option MetadataSnapshot) (md : MetadataStore)
    (snapshot : List UInt8) : Except RestoreError Unit × MetadataStore :=
  match readFull snapshot 4 with
  | .error e => (.error (.read e), md)
  | .ok (sizeBuf, rest) =>
    match readFull rest (uint32 sizeBuf) with
    | .error e => (.error (.read e), md)
    | .ok (buf, _) =>
      match unmarshal buf with
      | none => (.error .unmarshal, md)
      | some snap => restorePartitions MetadataStore.empty snap.partitions

/-! ## What a restore files -/

/-- In a list of records with distinct keys, the lookup by key finds exactly the members. -/
theorem find?_key_eq_some_iff {ps : List PartitionRecord} (hnd : (ps.map PartitionRecord.key).Nodup)
    {k : String × Int} {r : PartitionRecord} : ps.find? (·.key = k) = some r ↔ r ∈ ps ∧ r.key = k := by
  constructor
  · intro h; exact ⟨List.mem_of_find?_eq_some h, by simpa using List.find?_some h⟩
  · rintro ⟨hr, rfl⟩
    cases h : ps.find? (·.key = r.key) with
    | none => exact absurd (List.find?_eq_none.1 h r hr) (by simp)
    | some r' =>
      have hk : r'.key = r.key := by simpa using List.find?_some h
      rw [List.inj_on_of_nodup_map hnd (List.mem_of_find?_eq_some h) hr hk]

theorem records_eq_some_iff (md : MetadataStore) {k : String × Int} {r : PartitionRecord} :
    md.records k = some r ↔ ∃ p ∈ md.partitions, p.record = r ∧ r.key = k := by
  have hnd : ((md.partitions.map (·.record)).map PartitionRecord.key).Nodup := by
    rw [List.map_map]; exact md.nodup_keys
  have : md.records k = (md.partitions.map (·.record)).find? (·.key = k) := by
    simp only [records, find, List.find?_map]; rfl
  rw [this, find?_key_eq_some_iff hnd, List.mem_map]
  constructor
  · rintro ⟨⟨p, hp, rfl⟩, hk⟩; exact ⟨p, hp, rfl, hk⟩
  · rintro ⟨p, hp, rfl, hk⟩; exact ⟨⟨p, hp, rfl⟩, hk⟩

theorem mem_snapshot (md : MetadataStore) (r : PartitionRecord) :
    r ∈ (snapshot md).partitions ↔ ∃ p ∈ md.partitions, p.record = r := by
  simp [snapshot, getStreams]
  exact ⟨fun ⟨p, ⟨_, _, hp, _⟩, h⟩ ↦ ⟨p, hp, h⟩, fun ⟨p, hp, h⟩ ↦ ⟨p, ⟨p, hp, hp, rfl⟩, h⟩⟩

theorem snapshot_nodup (md : MetadataStore) :
    ((snapshot md).partitions.map PartitionRecord.key).Nodup := by
  simp only [snapshot, List.map_flatMap, getStreams, List.flatMap_map]
  rw [List.nodup_flatMap]
  refine ⟨fun name _ ↦ ?_, (List.nodup_dedup _).pairwise_of_forall_ne fun a _ b _ hab ↦ ?_⟩
  · rw [List.map_map]; exact md.nodup_keys.sublist ((List.filter_sublist _).map _)
  · simp only [List.disjoint_left, List.mem_map, List.mem_filter, decide_eq_true_eq]
    rintro _ ⟨_, ⟨p, ⟨_, hp⟩, rfl⟩, rfl⟩ ⟨_, ⟨q, ⟨_, hq⟩, rfl⟩, hpq⟩
    exact hab (by rw [← hp, ← hq]; exact (congrArg Prod.fst hpq).symm)

/-- The snapshot's record under each key is the store's. -/
theorem find?_snapshot (md : MetadataStore) (k : String × Int) :
    (snapshot md).partitions.find? (·.key = k) = md.records k := by
  apply Option.ext
  intro r
  rw [Option.mem_def, Option.mem_def, find?_key_eq_some_iff (snapshot_nodup md), records_eq_some_iff,
    mem_snapshot]
  constructor
  · rintro ⟨⟨p, hp, rfl⟩, hk⟩; exact ⟨p, hp, rfl, hk⟩
  · rintro ⟨p, hp, rfl, hk⟩; exact ⟨⟨p, hp, rfl⟩, hk⟩

/-- Filing records with distinct keys into a store that holds none of them succeeds, and files
each under its key. -/
theorem restorePartitions_spec (ps : List PartitionRecord) :
    ∀ md : MetadataStore, (ps.map PartitionRecord.key).Nodup → (∀ p ∈ ps, md.find p.key = none) →
      (restorePartitions md ps).1 = .ok () ∧
      ∀ k, (restorePartitions md ps).2.records k = (ps.find? (·.key = k)).or (md.records k) := by
  induction ps with
  | nil => intro md _ _; simp [restorePartitions]
  | cons p ps ih =>
    intro md hnd hfresh
    rw [List.map_cons, List.nodup_cons] at hnd
    obtain ⟨md', hadd⟩ := (addPartition_isOk md p false).2 (hfresh p (List.mem_cons_self _ _))
    have hfind := find_addPartition hadd
    have hstep : applyCreatePartition md p false = (.ok (), md') := by
      simp [applyCreatePartition, hadd]
    have hfresh' : ∀ q ∈ ps, md'.find q.key = none := fun q hq ↦ by
      have hne : q.key ≠ p.key := fun h ↦ hnd.1 (h ▸ List.mem_map_of_mem _ hq)
      rw [hfind, if_neg hne]; exact hfresh q (List.mem_cons_of_mem _ hq)
    obtain ⟨hok, hrec⟩ := ih md' hnd.2 hfresh'
    simp only [restorePartitions, hstep]
    refine ⟨hok, fun k ↦ ?_⟩
    rw [hrec]
    by_cases hk : p.key = k
    · subst hk
      have hnone : ps.find? (·.key = p.key) = none :=
        List.find?_eq_none.2 fun q hq h ↦ hnd.1 (by
          rw [← of_decide_eq_true h]; exact List.mem_map_of_mem _ hq)
      rw [hnone, List.find?_cons_of_pos _ (by simp), records, hfind, if_pos rfl]; rfl
    · rw [List.find?_cons_of_neg _ (by simpa using hk), records, records, hfind, if_neg (Ne.symm hk)]

/-- **Restoring a snapshot taken while nothing else runs gives back the store's records.** -/
theorem restorePartitions_snapshot (md : MetadataStore) :
    (restorePartitions MetadataStore.empty (snapshot md).partitions).1 = .ok () ∧
      (restorePartitions MetadataStore.empty (snapshot md).partitions).2.records = md.records := by
  obtain ⟨hok, hrec⟩ := restorePartitions_spec _ MetadataStore.empty (snapshot_nodup md) (by simp)
  exact ⟨hok, funext fun k ↦ by rw [hrec, find?_snapshot]; cases md.records k <;> rfl⟩

/-- **`Restore` reads back what `Persist` wrote**, from any prior store, when the codec round-trips
on the snapshot and its encoding is shorter than `2 ^ 32` bytes. -/
theorem restore_persistBytes (marshal : MetadataSnapshot → List UInt8)
    (unmarshal : List UInt8 → Option MetadataSnapshot) {snap : MetadataSnapshot}
    (hcodec : unmarshal (marshal snap) = some snap)
    (hsize : (marshal snap).length < 2 ^ 32) (md : MetadataStore) :
    restore unmarshal md (persistBytes marshal snap) =
      restorePartitions MetadataStore.empty snap.partitions := by
  have hlen : uint32 (putUint32 (marshal snap).length) = (marshal snap).length := by
    rw [uint32_putUint32, Nat.mod_eq_of_lt hsize]
  simp only [restore, persistBytes, readFull_append (length_putUint32 _), hlen]
  simp only [readFull_self, hcodec]

/-! ## A failed restore

`Restore` reads and decodes the whole snapshot before it touches the store, so a short size prefix,
a short payload or a payload that does not decode leave the store as it was.  It then resets the
store and files the partitions one by one, and nothing undoes that: when `AddPartition` refuses one,
which on the store `Reset` leaves happens exactly when its key repeats an earlier partition's, the
old store is gone and the new one holds only the partitions filed before it. -/

/-- A loop that got through `ps` filed them all, in order, as `AddPartition(p, false)` files them. -/
theorem restorePartitions_partitions_of_ok :
    ∀ {md : MetadataStore} {ps : List PartitionRecord}, (restorePartitions md ps).1 = .ok () →
      (restorePartitions md ps).2.partitions = md.partitions ++ ps.map (⟨·, false, false, false⟩)
  | _, [], _ => by simp [restorePartitions]
  | md, p :: ps, h => by
    cases hadd : md.addPartition p false with
    | error e => simp [restorePartitions, applyCreatePartition, hadd] at h
    | ok md' =>
      simp only [restorePartitions, applyCreatePartition, hadd] at h ⊢
      rw [restorePartitions_partitions_of_ok h, addPartition_partitions hadd]
      simp

/-- Where a failing loop stops: at the first partition whose key the store already holds, after
filing the ones before it, with the store as it was then. -/
theorem restorePartitions_error :
    ∀ {md : MetadataStore} {ps : List PartitionRecord} {e : RestoreError},
      (restorePartitions md ps).1 = .error e →
      ∃ pre p post, ps = pre ++ p :: post ∧ (restorePartitions md pre).1 = .ok () ∧
        (restorePartitions md pre).2.find p.key ≠ none ∧ e = .createPartition .partitionExists ∧
        (restorePartitions md ps).2 = (restorePartitions md pre).2
  | _, [], _, h => by simp [restorePartitions] at h
  | md, p :: ps, e, h => by
    cases hadd : md.addPartition p false with
    | error e' =>
      obtain ⟨rfl, hsome⟩ := addPartition_eq_error hadd
      simp only [restorePartitions, applyCreatePartition, hadd, Except.error.injEq] at h ⊢
      exact ⟨[], p, ps, rfl, rfl, Option.isSome_iff_ne_none.1 hsome, h.symm, rfl⟩
    | ok md' =>
      have hstep (l : List PartitionRecord) : restorePartitions md (p :: l) = restorePartitions md' l := by
        simp [restorePartitions, applyCreatePartition, hadd]
      rw [hstep] at h ⊢
      obtain ⟨pre, q, post, rfl, hrest⟩ := restorePartitions_error h
      exact ⟨p :: pre, q, post, rfl, by rw [hstep]; exact hrest⟩

/-- After a prefix that went through, the loop goes on from the store the prefix left. -/
theorem restorePartitions_append :
    ∀ {md : MetadataStore} {pre : List PartitionRecord}, (restorePartitions md pre).1 = .ok () →
      ∀ l, restorePartitions md (pre ++ l) = restorePartitions (restorePartitions md pre).2 l
  | _, [], _, _ => rfl
  | md, p :: pre, h, l => by
    cases hadd : md.addPartition p false with
    | error e => simp [restorePartitions, applyCreatePartition, hadd] at h
    | ok md' =>
      simp only [restorePartitions, applyCreatePartition, hadd, List.cons_append] at h ⊢
      exact restorePartitions_append h l

/-- A loop from the empty store that got through `pre` filed each of its partitions once, so their
keys are distinct. -/
theorem restorePartitions_empty_of_ok {pre : List PartitionRecord}
    (h : (restorePartitions MetadataStore.empty pre).1 = .ok ()) :
    (restorePartitions MetadataStore.empty pre).2.partitions = pre.map (⟨·, false, false, false⟩) ∧
      (pre.map PartitionRecord.key).Nodup := by
  have hparts := restorePartitions_partitions_of_ok h
  rw [show MetadataStore.empty.partitions = [] from rfl, List.nil_append] at hparts
  refine ⟨hparts, ?_⟩
  have hnd := (restorePartitions MetadataStore.empty pre).2.nodup_keys
  rwa [hparts, List.map_map] at hnd

/-- **A repeated key stops the loop at its first repeat**: from the empty store, when the keys of
`pre` are distinct and `p` repeats one of them, the loop files `pre` and fails on `p` with
`ErrPartitionExists`. -/
theorem restorePartitions_of_repeat {pre post : List PartitionRecord} {p : PartitionRecord}
    (hnd : (pre.map PartitionRecord.key).Nodup) (hp : p.key ∈ pre.map PartitionRecord.key) :
    restorePartitions MetadataStore.empty (pre ++ p :: post) =
      (.error (.createPartition .partitionExists), (restorePartitions MetadataStore.empty pre).2) := by
  have hok := (restorePartitions_spec pre MetadataStore.empty hnd (by simp)).1
  have hfiled := (restorePartitions_empty_of_ok hok).1
  have hmem : p.key ∈ (restorePartitions MetadataStore.empty pre).2.partitions.map Partition.key := by
    rw [hfiled, List.map_map]; exact hp
  rw [restorePartitions_append hok]
  simp only [restorePartitions, applyCreatePartition, addPartition, dif_pos hmem]

/-- What `Restore` does: fail to read or to decode, leaving the store as it is, or run the loop
from the empty store on the decoded snapshot. -/
theorem restore_cases (unmarshal : List UInt8 → Option MetadataSnapshot) (md : MetadataStore)
    (snapshot : List UInt8) :
    (∃ e, restore unmarshal md snapshot = (.error (.read e), md)) ∨
      restore unmarshal md snapshot = (.error .unmarshal, md) ∨
      ∃ snap, unmarshal ((snapshot.drop 4).take (uint32 (snapshot.take 4))) = some snap ∧
        restore unmarshal md snapshot = restorePartitions MetadataStore.empty snap.partitions := by
  unfold restore
  cases h4 : readFull snapshot 4 with
  | error e => exact .inl ⟨e, rfl⟩
  | ok r =>
    obtain ⟨sizeBuf, rest⟩ := r
    obtain ⟨rfl, rfl⟩ := readFull_eq_ok h4
    dsimp only
    cases hn : readFull (snapshot.drop 4) (uint32 (snapshot.take 4)) with
    | error e => exact .inl ⟨e, rfl⟩
    | ok r =>
      obtain ⟨buf, _⟩ := r
      obtain ⟨rfl, -⟩ := readFull_eq_ok hn
      dsimp only
      cases hsnap : unmarshal ((snapshot.drop 4).take (uint32 (snapshot.take 4))) with
      | none => exact .inr (.inl rfl)
      | some snap => exact .inr (.inr ⟨snap, rfl, rfl⟩)

/-- **What a failed `Restore` leaves, and when `AddPartition` fails.**  From every store and on
every byte stream: a failure to read the size prefix or the payload, or to decode it, leaves the
store as it was.  A failure of `AddPartition` comes from the first partition of the decoded
snapshot whose key repeats an earlier one's, and leaves the store holding exactly the partitions
before it, the old ones dropped.  Conversely, a snapshot that is read and decoded and repeats a key
makes `Restore` fail with `ErrPartitionExists` at the first repeat, with the store so left. -/
theorem restore_error_store (unmarshal : List UInt8 → Option MetadataSnapshot) (md : MetadataStore)
    (snapshot : List UInt8) :
    ((∃ e, (restore unmarshal md snapshot).1 = .error (.read e)) ∨
        (restore unmarshal md snapshot).1 = .error .unmarshal → (restore unmarshal md snapshot).2 = md) ∧
      (∀ e, (restore unmarshal md snapshot).1 = .error (.createPartition e) →
        ∃ snap pre p post, unmarshal ((snapshot.drop 4).take (uint32 (snapshot.take 4))) = some snap ∧
          snap.partitions = pre ++ p :: post ∧ (pre.map PartitionRecord.key).Nodup ∧
          p.key ∈ pre.map PartitionRecord.key ∧ e = .partitionExists ∧
          (restore unmarshal md snapshot).2.partitions = pre.map (⟨·, false, false, false⟩)) ∧
      (∀ snap pre p post, 4 + uint32 (snapshot.take 4) ≤ snapshot.length →
        unmarshal ((snapshot.drop 4).take (uint32 (snapshot.take 4))) = some snap →
        snap.partitions = pre ++ p :: post → (pre.map PartitionRecord.key).Nodup →
        p.key ∈ pre.map PartitionRecord.key →
        (restore unmarshal md snapshot).1 = .error (.createPartition .partitionExists) ∧
          (restore unmarshal md snapshot).2.partitions = pre.map (⟨·, false, false, false⟩)) := by
  refine ⟨?read, ?add, fun snap pre p post hlen hsnap hps hnd hp ↦ ?dup⟩
  case dup =>
    have h4 : readFull snapshot 4 = .ok (snapshot.take 4, snapshot.drop 4) := by
      rw [readFull, if_pos (by omega)]
    have hn : readFull (snapshot.drop 4) (uint32 (snapshot.take 4)) =
        .ok ((snapshot.drop 4).take (uint32 (snapshot.take 4)),
          (snapshot.drop 4).drop (uint32 (snapshot.take 4))) := by
      rw [readFull, if_pos (by rw [List.length_drop]; omega)]
    simp only [restore, h4, hn, hsnap, hps, restorePartitions_of_repeat hnd hp, true_and]
    exact (restorePartitions_empty_of_ok (restorePartitions_spec pre MetadataStore.empty hnd (by simp)).1).1
  all_goals rcases restore_cases unmarshal md snapshot with ⟨e', hr⟩ | hr | ⟨snap, hsnap, hr⟩ <;> rw [hr]
  case read.inl | read.inr.inl => exact fun _ ↦ rfl
  case read.inr.inr =>
    rintro (⟨e, he⟩ | he) <;> obtain ⟨-, -, -, -, -, -, he', -⟩ := restorePartitions_error he <;>
      cases he'
  case add.inl | add.inr.inl => exact fun e he ↦ nomatch he
  case add.inr.inr =>
    intro e he
    obtain ⟨pre, p, post, hps, hok, hfind, he', hst⟩ := restorePartitions_error he
    obtain ⟨hpre, hnd⟩ := restorePartitions_empty_of_ok hok
    refine ⟨snap, pre, p, post, hsnap, hps, hnd, ?_, by cases he'; rfl, by rw [hst, hpre]⟩
    rw [Ne, MetadataStore.find_eq_none_iff, hpre, List.map_map, not_not] at hfind
    exact hfind

/-- A snapshot that lists partition `orders`/0 twice. -/
def duplicateSnapshot : MetadataSnapshot :=
  ⟨[⟨"orders", 0, ["n1"], ["n1"], "n1", 0, 0⟩, ⟨"orders", 0, ["n1"], ["n1"], "n1", 0, 0⟩]⟩

/-- A codec that decodes the one-byte payload `7` to `duplicateSnapshot`. -/
def duplicateCodec (buf : List UInt8) : Option MetadataSnapshot :=
  if buf = [7] then some duplicateSnapshot else none

/-- A store that holds partition `payments`/0. -/
def paymentsStore : MetadataStore :=
  (applyCreatePartition .empty ⟨"payments", 0, ["n1"], ["n1"], "n1", 0, 0⟩ false).2

/-- Restoring the duplicate snapshot over `paymentsStore` fails on the second `orders`/0, and the
store is left holding `orders`/0 where it held `payments`/0. -/
theorem restore_duplicate_drops_store :
    (restore duplicateCodec paymentsStore [0, 0, 0, 1, 7]).1 = .error (.createPartition .partitionExists) ∧
      (restore duplicateCodec paymentsStore [0, 0, 0, 1, 7]).2.partitions.map (·.record.stream) = ["orders"] ∧
      paymentsStore.partitions.map (·.record.stream) = ["payments"] :=
  ⟨rfl, rfl, rfl⟩

/-- `restore_error_store` on the duplicate snapshot: the failing partition is the second
`orders`/0, the first repeat, and only the first is left; and from the other side, that repeat makes
the restore fail. -/
theorem duplicateSnapshot_restore_fails :
    (∃ snap pre p post, duplicateCodec (([0, 0, 0, 1, 7] : List UInt8).drop 4 |>.take
        (uint32 (([0, 0, 0, 1, 7] : List UInt8).take 4))) = some snap ∧
      snap.partitions = pre ++ p :: post ∧ (pre.map PartitionRecord.key).Nodup ∧
      p.key ∈ pre.map PartitionRecord.key ∧ Sentinel.partitionExists = .partitionExists ∧
      (restore duplicateCodec paymentsStore [0, 0, 0, 1, 7]).2.partitions =
        pre.map (⟨·, false, false, false⟩)) ∧
    ((restore duplicateCodec paymentsStore [0, 0, 0, 1, 7]).1 = .error (.createPartition .partitionExists) ∧
      (restore duplicateCodec paymentsStore [0, 0, 0, 1, 7]).2.partitions =
        [(⟨"orders", 0, ["n1"], ["n1"], "n1", 0, 0⟩ : PartitionRecord)].map (⟨·, false, false, false⟩)) :=
  ⟨(restore_error_store duplicateCodec paymentsStore [0, 0, 0, 1, 7]).2.1 .partitionExists rfl,
    (restore_error_store duplicateCodec paymentsStore [0, 0, 0, 1, 7]).2.2 duplicateSnapshot
      [⟨"orders", 0, ["n1"], ["n1"], "n1", 0, 0⟩] ⟨"orders", 0, ["n1"], ["n1"], "n1", 0, 0⟩ [] (by decide) rfl
      rfl (by decide) (by decide)⟩

/-! ## Persisting to a Raft sink

`Persist` writes to Raft's `SnapshotSink`, which can fail at each call: the sink is Raft's, so
what it does is an argument, as the disk's outcomes are for the commit log.  `Persist` reports
success only when every call succeeded, and then the sink holds exactly the size and the
encoding; on any failure it cancels the sink, so Raft never keeps a partial snapshot. -/

/-- What `Persist` sees of Raft's `SnapshotSink`: the bytes written to it, and whether it has been
closed or cancelled. -/
structure Sink where
  data : List UInt8
  closed : Bool
  cancelled : Bool
deriving DecidableEq, Repr

/-- Which call of `Persist` fails: `Marshal`, the write of the size or of the encoding after `n`
of its bytes, or `Close`. -/
inductive PersistFault
  | marshal
  | writeSize (n : ℕ)
  | writeData (n : ℕ)
  | close
deriving DecidableEq, Repr

/-- The error `Persist` returns: the one of the call that failed. -/
inductive PersistError
  | marshal
  | write
  | close
deriving DecidableEq, Repr

/-- How many bytes of the size the failing write gets out, if it is the one that fails. -/
def PersistFault.sizeFault : Option PersistFault → Option ℕ
  | some (.writeSize n) => some n
  | _ => none

/-- How many bytes of the encoding the failing write gets out, if it is the one that fails. -/
def PersistFault.dataFault : Option PersistFault → Option ℕ
  | some (.writeData n) => some n
  | _ => none

namespace Sink

/-- `sink.Write(p)`: all of `p`, or its first `n` bytes and an error. -/
def write (k : Sink) (p : List UInt8) (fault : Option ℕ) : Except PersistError ℕ × Sink :=
  match fault with
  | none => (.ok p.length, { k with data := k.data ++ p })
  | some n => (.error .write, { k with data := k.data ++ p.take n })

/-- `sink.Close()`. -/
def close (k : Sink) (fails : Bool) : Except PersistError Unit × Sink :=
  (if fails then .error .close else .ok (), { k with closed := true })

/-- `sink.Cancel()`. -/
def cancel (k : Sink) : Sink := { k with cancelled := true }

end Sink

/-- `fsmSnapshot.Persist(sink)`: marshal, write the size and the encoding, close the sink; on an
error, cancel the sink and return the error.  `persistBytes` is what the sink receives when every call
succeeds. -/
def persist (marshal : MetadataSnapshot → List UInt8) (f : MetadataSnapshot) (sink : Sink)
    (fault : Option PersistFault) : Except PersistError Unit × Sink :=
  let r : Except PersistError Unit × Sink :=
    -- Encode data.
    if fault = some .marshal then (.error .marshal, sink)
    else
      let b := marshal f
      -- Write size and data to sink.
      match sink.write (putUint32 b.length) (PersistFault.sizeFault fault) with
      | (.error e, sink) => (.error e, sink)
      | (.ok _, sink) =>
        match sink.write b (PersistFault.dataFault fault) with
        | (.error e, sink) => (.error e, sink)
        | (.ok _, sink) => sink.close (fault = some .close) -- Close the sink.
  match r with
  | (.ok (), sink) => (.ok (), sink)
  | (.error e, sink) => (.error e, sink.cancel)

/-- What `Persist` does in each outcome: with no failure it writes `persistBytes` and closes the sink;
with one, it returns an error and the sink is cancelled. -/
theorem persist_cases (marshal : MetadataSnapshot → List UInt8) (f : MetadataSnapshot) (sink : Sink) :
    persist marshal f sink none = (.ok (), { sink with data := sink.data ++ persistBytes marshal f, closed := true }) ∧
      ∀ fault : PersistFault, ∃ e, (persist marshal f sink (some fault)).1 = .error e ∧
        (persist marshal f sink (some fault)).2.cancelled = true := by
  refine ⟨by simp [persist, Sink.write, Sink.close, PersistFault.sizeFault, PersistFault.dataFault, persistBytes],
    fun fault ↦ ?_⟩
  cases fault <;>
    simp [persist, Sink.write, Sink.close, Sink.cancel, PersistFault.sizeFault, PersistFault.dataFault]

/-- **A snapshot that `Persist` reports written is restored exactly, and no other is kept.**  For
every store and every outcome of the sink's calls: `Persist` succeeds exactly when no call fails,
and then the sink is closed, not cancelled, and `Restore` of its bytes over any store succeeds and
gives back the snapshotted store's records, when the codec round-trips on the snapshot and its
encoding is shorter than `2 ^ 32` bytes; when `Persist` fails, the sink is cancelled. -/
theorem persist_restore (marshal : MetadataSnapshot → List UInt8)
    (unmarshal : List UInt8 → Option MetadataSnapshot) (md : MetadataStore)
    (hcodec : unmarshal (marshal (snapshot md)) = some (snapshot md))
    (hsize : (marshal (snapshot md)).length < 2 ^ 32) (prior : MetadataStore) (fault : Option PersistFault) :
    let r := persist marshal (snapshot md) ⟨[], false, false⟩ fault
    (r.1 = .ok () ↔ fault = none) ∧
      (r.1 = .ok () → r.2.closed = true ∧ r.2.cancelled = false ∧
        (restore unmarshal prior r.2.data).1 = .ok () ∧ (restore unmarshal prior r.2.data).2.records = md.records) ∧
      (r.1 ≠ .ok () → r.2.cancelled = true) := by
  obtain ⟨hnone, hsome⟩ := persist_cases marshal (snapshot md) ⟨[], false, false⟩
  cases fault with
  | none =>
    rw [hnone]
    dsimp only
    rw [List.nil_append, restore_persistBytes marshal unmarshal hcodec hsize prior]
    exact ⟨iff_of_true rfl rfl, fun _ ↦ ⟨rfl, rfl, restorePartitions_snapshot md⟩, fun h ↦ absurd rfl h⟩
  | some fault =>
    obtain ⟨e, he, hc⟩ := hsome fault
    dsimp only
    rw [he]
    exact ⟨iff_of_false nofun nofun, nofun, fun _ ↦ hc⟩

/-- `persist_restore` on the store holding `payments`/0, with a codec that round-trips on its
snapshot and no failure. -/
theorem paymentsSnapshot_persisted :
    let md := (applyCreatePartition .empty ⟨"payments", 0, ["n1"], ["n1"], "n1", 0, 0⟩ false).2
    let r := persist (fun _ ↦ [1]) (snapshot md) ⟨[], false, false⟩ none
    (r.1 = .ok () ↔ (none : Option PersistFault) = none) ∧
      (r.1 = .ok () → r.2.closed = true ∧ r.2.cancelled = false ∧
        (restore (fun _ ↦ some (snapshot md)) .empty r.2.data).1 = .ok () ∧
        (restore (fun _ ↦ some (snapshot md)) .empty r.2.data).2.records = md.records) ∧
      (r.1 ≠ .ok () → r.2.cancelled = true) :=
  persist_restore (fun _ ↦ [1]) (fun _ ↦ some (snapshot _)) _ rfl (by decide) .empty none

end Server

end Liftbridge
