import Liftbridge.Fsm.Snapshot

/-!
# Epochs and the idempotency check

`Server.Apply` can see an entry twice: Raft replays its log on a restart, and the FSM has no
other record of what it has already applied.  `fsm.go` makes the three mutating ISR and leader
operations idempotent with one comparison, `partition.GetEpoch() >= epoch`, where the `epoch` an
entry carries is its own Raft index.  This file proves that the comparison does its job over
every run: it skips an entry on a partition exactly when that entry has been applied before.

The run is `Reachable`: from the empty store, entries with strictly increasing indices applied
without an error (on an error `Server.Apply` panics, and `apply_store_of_error` says that the
store is untouched anyway), and a `Restore` of an exact snapshot at any point.  The invariant,
`EpochInv`, has two halves:

* every record has `leaderEpoch ≤ epoch ≤` the largest index applied so far;
* the epoch of a partition is at least the index of every ISR or leader entry that was applied to
  it.

Both are statements about the replicated records, and the records move one key at a time by
`recordStep` (`records_apply`), so the whole argument is about one record and one step:
`recordStep_cases` says once what a step can do to a record, and each invariant is read off it.
`reachable_epochGuarded` then collects what the idempotency check needs into `EpochGuarded`.
-/

set_option autoImplicit false

namespace Liftbridge

open Server MetadataStore

/-- The largest Raft index among the applied entries; `0` before the first. -/
def lastIndex (applied : List Entry) : ℕ := applied.foldr (fun e m ↦ max e.index m) 0

@[simp] theorem lastIndex_nil : lastIndex [] = 0 := rfl

@[simp] theorem lastIndex_cons (e : Entry) (applied : List Entry) :
    lastIndex (e :: applied) = max e.index (lastIndex applied) := rfl

theorem le_lastIndex {e : Entry} {applied : List Entry} (h : e ∈ applied) :
    e.index ≤ lastIndex applied := by
  induction applied with
  | nil => cases h
  | cons e' applied ih =>
    rcases List.mem_cons.1 h with rfl | h
    · simp
    · simp [ih h]

/-- The stores a run of `Server.apply` reaches, with the entries it has applied, newest first. -/
inductive Reachable : MetadataStore → List Entry → Prop
  | empty : Reachable MetadataStore.empty []
  /-- An entry with a larger index than any before, applied without an error. -/
  | apply {md : MetadataStore} {applied : List Entry} (e : Entry) (recovered : Bool)
      {v : Option Sentinel} :
      Reachable md applied → lastIndex applied < e.index →
      (apply md e.log e.index recovered).1 = .ok v →
      Reachable (apply md e.log e.index recovered).2 (e :: applied)
  /-- `Restore` of an exact snapshot; `restore_persistBytes` takes it through the bytes. -/
  | restore {md : MetadataStore} {applied : List Entry} :
      Reachable md applied → Reachable (restorePartitions .empty (snapshot md).partitions).2 applied

/-! ## One record, one step -/

section Step

variable {log : RaftLog} {index : ℕ} {k : String × Int} {r r' : PartitionRecord}

theorem epochStep_cases (log : RaftLog) (index : ℕ) (r : PartitionRecord) :
    epochStep index (log.change index) r = r ∨
      r.epoch < index ∧ ∃ r', log.change index r = .ok r' ∧
        epochStep index (log.change index) r = r'.setEpoch index := by
  rcases Nat.lt_or_ge r.epoch index with h | h
  · cases hc : log.change index r with
    | error e => exact .inl (epochStep_of_error h hc)
    | ok r' => exact .inr ⟨h, r', rfl, epochStep_of_ok h hc⟩
  · exact .inl (epochStep_of_le h)

theorem recordStep_of_target (h : log.target = some k) (o : Option PartitionRecord) :
    recordStep log index k o = o.map (epochStep index (log.change index)) := by
  cases log <;> simp_all [recordStep, RaftLog.target]

/-- Everything a step can do to the record under one key: nothing; file a new partition, with
both epochs set to the index; drop it; or run the entry's ISR or leader change on it. -/
theorem recordStep_cases (log : RaftLog) (index : ℕ) (k : String × Int) (o : Option PartitionRecord) :
    recordStep log index k o = o ∨
      (o = none ∧ ∃ p : PartitionRecord,
        recordStep log index k o = some { p with leaderEpoch := index, epoch := index }) ∨
      recordStep log index k o = none ∨
      (log.target = some k ∧ ∃ r, o = some r ∧
        recordStep log index k o = some (epochStep index (log.change index) r)) := by
  cases ht : log.target with
  | some k' =>
    by_cases hk : k' = k
    · subst hk
      cases o with
      | none => exact .inl (by simp [recordStep_of_target ht])
      | some r => exact .inr (.inr (.inr ⟨rfl, r, rfl, by simp [recordStep_of_target ht]⟩))
    · cases log <;> simp_all [recordStep, RaftLog.target]
  | none =>
    cases log <;> simp only [RaftLog.target, reduceCtorEq] at ht <;> simp only [recordStep]
    case createPartition p =>
      split
      · rename_i h; exact .inr (.inl ⟨h.2, p, rfl⟩)
      · exact .inl rfl
    case deleteStream => split <;> simp
    all_goals simp [RaftLog.target]

/-- What a step does to a record it keeps: nothing, or the entry's change with the epoch raised to
the entry's index, which keeps the leader epoch or sets it to the index. -/
theorem recordStep_some (h : recordStep log index k (some r) = some r') :
    r' = r ∨ r.epoch < index ∧ r'.epoch = index ∧ (r'.leaderEpoch = r.leaderEpoch ∨ r'.leaderEpoch = index) := by
  rcases recordStep_cases log index k (some r) with h' | ⟨h', -⟩ | h' | ⟨-, r₀, h₀, h'⟩
  · rw [h'] at h; exact .inl (Option.some.inj h).symm
  · cases h'
  · rw [h'] at h; cases h
  · cases h₀; rw [h', Option.some.injEq] at h; subst h
    rcases epochStep_cases log index r with h | ⟨hlt, r₁, hc, h⟩ <;> rw [h]
    · exact .inl rfl
    · exact .inr ⟨hlt, rfl, (log.change_spec index hc).2.2⟩

/-- The epoch of a record never goes down, and neither does its leader epoch while it is at most
the epoch. -/
theorem recordStep_mono (h : recordStep log index k (some r) = some r') :
    r.epoch ≤ r'.epoch ∧ (r.leaderEpoch ≤ r.epoch → r.leaderEpoch ≤ r'.leaderEpoch) := by
  rcases recordStep_some h with rfl | ⟨hlt, he, hle | hle⟩ <;> omega

/-- No step changes the replicas of a record it keeps. -/
theorem recordStep_replicas (h : recordStep log index k (some r) = some r') : r'.replicas = r.replicas := by
  rcases recordStep_cases log index k (some r) with h' | ⟨h', -⟩ | h' | ⟨-, r₀, h₀, h'⟩
  · rw [h'] at h; cases h; rfl
  · cases h'
  · rw [h'] at h; cases h
  · cases h₀; rw [h', Option.some.injEq] at h; subst h
    rcases epochStep_cases log index r with h | ⟨-, r₁, hc, h⟩ <;> rw [h]
    exact (log.change_replicas index hc :)

theorem recordStep_none (h : recordStep log index k none = some r') :
    r'.epoch = index ∧ r'.leaderEpoch = index := by
  rcases recordStep_cases log index k none with h' | ⟨-, p, h'⟩ | h' | ⟨-, r, h₀, -⟩
  · rw [h'] at h; cases h
  · rw [h'] at h; cases h; exact ⟨rfl, rfl⟩
  · rw [h'] at h; cases h
  · cases h₀

theorem applyOk_of_target (h : log.target = some k) (rs : String × Int → Option PartitionRecord) :
    applyOk log index rs = (rs k).any (epochOk index (log.change index)) := by
  cases log <;> simp_all [applyOk, RaftLog.target]

/-- A change that `apply` accepts leaves the epoch at the entry's index or above. -/
theorem le_epochStep_of_epochOk (h : epochOk index (log.change index) r = true) :
    index ≤ (epochStep index (log.change index) r).epoch := by
  rcases Nat.lt_or_ge r.epoch index with hlt | hle
  · cases hc : log.change index r with
    | error e => simp [epochOk, hc, Except.toBool, Nat.not_le.2 hlt] at h
    | ok r₁ => rw [epochStep_of_ok hlt hc]; exact le_rfl
  · rw [epochStep_of_le hle]; exact hle

end Step

/-! ## The invariant -/

/-- The epoch invariant of a reachable store. -/
structure EpochInv (md : MetadataStore) (applied : List Entry) : Prop where
  /-- Every record has `leaderEpoch ≤ epoch ≤` the largest index applied. -/
  bounded : ∀ k r, md.records k = some r → r.leaderEpoch ≤ r.epoch ∧ r.epoch ≤ lastIndex applied
  /-- The epoch of a partition has reached the index of every ISR or leader entry applied to it. -/
  covers : ∀ e ∈ applied, ∀ k r, e.log.target = some k → md.records k = some r → e.index ≤ r.epoch

theorem epochInv_empty : EpochInv MetadataStore.empty [] :=
  ⟨fun k r h ↦ by simp [records] at h, fun e he ↦ by cases he⟩

theorem EpochInv.of_records {md md' : MetadataStore} {applied : List Entry} (h : EpochInv md applied)
    (hr : md'.records = md.records) : EpochInv md' applied :=
  ⟨fun k r ↦ hr ▸ h.bounded k r, fun e he k r ↦ hr ▸ h.covers e he k r⟩

/-- **One step of the run keeps the invariant.** -/
theorem epochInv_apply {md : MetadataStore} {applied : List Entry} (h : EpochInv md applied)
    (e : Entry) (recovered : Bool) {v : Option Sentinel} (hlt : lastIndex applied < e.index)
    (hok : (apply md e.log e.index recovered).1 = .ok v) :
    EpochInv (apply md e.log e.index recovered).2 (e :: applied) where
  bounded k r' hr' := by
    rw [records_apply] at hr'
    rw [lastIndex_cons, max_eq_left hlt.le]
    cases ho : md.records k with
    | none => rw [ho] at hr'; have := recordStep_none hr'; omega
    | some r =>
      rw [ho] at hr'
      have hb := h.bounded k r ho
      rcases recordStep_some hr' with rfl | ⟨-, he, hle | hle⟩ <;> omega
  covers e' he' k r' ht hr' := by
    rw [records_apply] at hr'
    rcases List.mem_cons.1 he' with rfl | he'
    · -- the entry just applied went through `apply` without an error
      have hok' := (apply_ok_iff md e'.log e'.index recovered).1 ⟨v, hok⟩
      rw [applyOk_of_target ht] at hok'
      cases ho : md.records k with
      | none => rw [ho] at hok'; cases hok'
      | some r =>
        rw [ho, Option.any_some] at hok'
        rw [ho, recordStep_of_target ht, Option.map_some', Option.some.injEq] at hr'
        exact hr' ▸ le_epochStep_of_epochOk hok'
    · have := le_lastIndex he'
      cases ho : md.records k with
      | none => rw [ho] at hr'; have := recordStep_none hr'; omega
      | some r =>
        rw [ho] at hr'
        have := h.covers e' he' k r ht ho
        have := (recordStep_mono hr').1
        omega

theorem Reachable.epochInv {md : MetadataStore} {applied : List Entry} (h : Reachable md applied) :
    EpochInv md applied := by
  induction h with
  | empty => exact epochInv_empty
  | apply e recovered _ hlt hok ih => exact epochInv_apply ih e recovered hlt hok
  | restore _ ih => exact ih.of_records (restorePartitions_snapshot _).2

/-! ## What the idempotency check gets from it -/

/-- What the idempotency check in `applyShrinkISR`, `applyExpandISR` and
`applyChangeStreamLeader` relies on.  An entry handed to `Apply` is either one applied before (a
replay) or a new one, with a larger index than any applied; `skips_iff_applied` is stated for
those two kinds. -/
structure EpochGuarded (md : MetadataStore) (applied : List Entry) : Prop where
  /-- Every partition has `leaderEpoch ≤ epoch ≤` the largest index applied so far. -/
  bounded : ∀ k r, md.records k = some r → r.leaderEpoch ≤ r.epoch ∧ r.epoch ≤ lastIndex applied
  /-- No entry lowers the epoch or the leader epoch of a partition it leaves in the store. -/
  monotone : ∀ (log : RaftLog) (index : ℕ) (recovered : Bool) (k : String × Int) (r r' : PartitionRecord),
    md.records k = some r → (apply md log index recovered).2.records k = some r' →
      r.epoch ≤ r'.epoch ∧ r.leaderEpoch ≤ r'.leaderEpoch
  /-- The check skips an ISR or leader entry on an existing partition exactly when the entry was
  applied before. -/
  skips_iff_applied : ∀ (e : Entry) (k : String × Int) (r : PartitionRecord),
    e.log.target = some k → md.records k = some r → (e ∈ applied ∨ lastIndex applied < e.index) →
      (e.index ≤ r.epoch ↔ e ∈ applied)
  /-- Re-applying such an entry leaves the store as it is. -/
  reapply : ∀ e ∈ applied, ∀ (k : String × Int), e.log.target = some k → (md.records k).isSome →
    ∀ recovered, apply md e.log e.index recovered = (.ok none, md)
  /-- A new one passes the check, and when it goes through its index becomes the epoch, and for a
  `ChangeLeader` the leader epoch as well: both strictly above the old ones. -/
  fresh : ∀ (e : Entry) (k : String × Int) (r : PartitionRecord),
    e.log.target = some k → md.records k = some r → lastIndex applied < e.index →
      r.epoch < e.index ∧ r.leaderEpoch < e.index ∧
      ∀ recovered v, (apply md e.log e.index recovered).1 = .ok v →
        ∃ r', (apply md e.log e.index recovered).2.records k = some r' ∧ r'.epoch = e.index ∧
          ∀ stream leader id, e.log = .changeLeader stream leader id → r'.leaderEpoch = e.index

theorem reachable_epochGuarded {md : MetadataStore} {applied : List Entry}
    (h : Reachable md applied) : EpochGuarded md applied := by
  have inv := h.epochInv
  refine ⟨inv.bounded, ?_, ?_, ?_, ?_⟩
  · intro log index recovered k r r' hr hr'
    rw [records_apply, hr] at hr'
    have hm := recordStep_mono hr'
    exact ⟨hm.1, hm.2 (inv.bounded k r hr).1⟩
  · intro e k r ht hr hor
    refine ⟨fun hle ↦ hor.resolve_right fun hlt ↦ ?_, fun he ↦ inv.covers e he k r ht hr⟩
    have := (inv.bounded k r hr).2; omega
  · intro e he k ht hsome recovered
    obtain ⟨p, hp⟩ := Option.isSome_iff_exists.1 hsome
    cases hf : md.find k with
    | none => simp [records, hf] at hp
    | some q =>
      have hle := inv.covers e he k q.record ht (by simp [records, hf])
      rw [apply_eq_epochChange ht, applyEpochChange_of_le hf hle]; rfl
  · intro e k r ht hr hlt
    have hb := inv.bounded k r hr
    refine ⟨by omega, by omega, fun recovered v hok ↦ ?_⟩
    have hok' := (apply_ok_iff md e.log e.index recovered).1 ⟨v, hok⟩
    rw [applyOk_of_target ht, hr, Option.any_some] at hok'
    rw [records_apply, hr, recordStep_of_target ht, Option.map_some']
    have hlt' : r.epoch < e.index := by omega
    cases hc : e.log.change e.index r with
    | error err => simp [epochOk, hc, Except.toBool, Nat.not_le.2 hlt'] at hok'
    | ok r₁ =>
      refine ⟨_, rfl, by rw [epochStep_of_ok hlt' hc]; rfl, fun stream leader id hl ↦ ?_⟩
      rw [epochStep_of_ok hlt' hc]
      rw [hl] at hc
      simp only [RaftLog.change, leaderChange, Except.ok.injEq] at hc
      subst hc; rfl

/-- The spec's first scenario: `CreatePartition` of `orders`/0 at index 42. -/
def ordersCreated : Entry := ⟨.createPartition ⟨"orders", 0, ["n1"], ["n1"], "n1", 0, 0⟩, 42⟩

/-- `orders`/0 created at index `42` with replicas `n1` and `n2`, both in the ISR. -/
def ordersReplicated : Entry := ⟨.createPartition ⟨"orders", 0, ["n1", "n2"], ["n1", "n2"], "n1", 0, 0⟩, 42⟩

/-- `n2` leaving the ISR of `orders`/0 at index `43`. -/
def n2Dropped : Entry := ⟨.shrinkISR "orders" "n2" 0, 43⟩

/-- The run that creates `orders`/0 and then drops `n2` from its ISR reaches a store holding the
partition at epoch `43`; the check skips the ISR entry exactly because it was applied, and applying
it again, as a replay does, leaves the store as it is. -/
theorem reachable_ordersShrunk :
    let md := (apply (apply .empty ordersReplicated.log 42 false).2 n2Dropped.log 43 false).2
    Reachable md [n2Dropped, ordersReplicated] ∧ EpochGuarded md [n2Dropped, ordersReplicated] ∧
      md.records ("orders", 0) = some ⟨"orders", 0, ["n1", "n2"], ["n1"], "n1", 43, 42⟩ ∧
      (n2Dropped.index ≤ 43 ↔ n2Dropped ∈ [n2Dropped, ordersReplicated]) ∧
      ∀ recovered, apply md n2Dropped.log n2Dropped.index recovered = (.ok none, md) :=
  have h := Reachable.apply n2Dropped false (Reachable.apply ordersReplicated false .empty (by decide) rfl)
    (by decide) rfl
  have g := reachable_epochGuarded h
  ⟨h, g, rfl, g.skips_iff_applied n2Dropped ("orders", 0) ⟨"orders", 0, ["n1", "n2"], ["n1"], "n1", 43, 42⟩
    rfl rfl (.inl (List.mem_cons_self _ _)), g.reapply n2Dropped (List.mem_cons_self _ _) ("orders", 0) rfl rfl⟩

end Liftbridge
