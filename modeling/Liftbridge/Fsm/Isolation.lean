import Liftbridge.Fsm.Replay

/-!
# One partition over a run

`records_apply` says what one call of `Server.apply` does to the replicated records: the record
filed under a key `k` moves by `recordStep`, which reads the entry and that record and nothing
else.  Over a whole run this makes the store a product of one small state machine per partition.

## What is here

* `RaftLog.touches log k`: whether an entry can move the record under `k` at all: a
  `CreatePartition` of `k`, a `DeleteStream` of `k`'s stream, or an ISR or leader change of `k`.
  Every other entry leaves that record as it is (`recordStep_of_touches_eq_false`).
* `records_applyRun`: the record under `k` after a run is the fold of `recordStep` over the run,
  from the record before it; the `recovered` flags play no part.
* `records_applyRun_isolated`: two runs from one store that hand the FSM the same entries naming
  `k`, in the same order, leave the same record under `k`, whatever their other entries, whichever
  of them failed, and whatever `recovered` flags `Apply` passed.
-/

set_option autoImplicit false

namespace Liftbridge

open Server MetadataStore

/-- Whether an entry can change the record filed under `k`. -/
def RaftLog.touches (log : RaftLog) (k : String × Int) : Bool :=
  match log with
  | .createPartition p => p.key = k
  | .deleteStream stream => k.1 = stream
  | log => log.target = some k

/-- An entry that does not name `k` leaves the record under `k` as it is. -/
theorem recordStep_of_touches_eq_false {log : RaftLog} {k : String × Int} (h : log.touches k = false)
    (index : ℕ) (o : Option PartitionRecord) : recordStep log index k o = o := by
  cases log <;> simp only [RaftLog.touches, decide_eq_false_iff_not] at h
  case createPartition p => exact if_neg fun hk ↦ h hk.1.symm
  case deleteStream stream => exact if_neg h
  case pauseStream => rfl
  case unknown => rfl
  all_goals exact if_neg h

/-- **The record under `k` after a run is the fold of `recordStep`** over the run's entries. -/
theorem records_applyRun (md : MetadataStore) (es : List (Entry × Bool)) (k : String × Int) :
    (applyRun md es).2.records k =
      (es.map (·.1)).foldl (fun o e ↦ recordStep e.log e.index k o) (md.records k) := by
  induction es generalizing md with
  | nil => rfl
  | cons eb es ih => rw [applyRun, ih, records_apply]; rfl

/-- Folding `recordStep` over a run is folding it over the entries that name `k`. -/
theorem foldl_recordStep_filter (k : String × Int) (es : List Entry) (o : Option PartitionRecord) :
    es.foldl (fun o e ↦ recordStep e.log e.index k o) o =
      (es.filter (·.log.touches k)).foldl (fun o e ↦ recordStep e.log e.index k o) o := by
  induction es generalizing o with
  | nil => rfl
  | cons e es ih =>
    rw [List.filter_cons, List.foldl_cons]
    cases ht : e.log.touches k
    · rw [recordStep_of_touches_eq_false ht, ih]; rfl
    · rw [ih]; rfl

/-- **Partitions are isolated over whole runs.**  Two runs of `apply` from the same store that
contain the same entries naming `k`, in the same order, leave the same record under `k`: the other
entries, whether each call failed, and the `recovered` flags make no difference to it. -/
theorem records_applyRun_isolated (md : MetadataStore) {es es' : List (Entry × Bool)} (k : String × Int)
    (h : (es.map (·.1)).filter (·.log.touches k) = (es'.map (·.1)).filter (·.log.touches k)) :
    (applyRun md es).2.records k = (applyRun md es').2.records k := by
  rw [records_applyRun, records_applyRun, foldl_recordStep_filter, h, ← foldl_recordStep_filter]

/-- `orders`/0 is created and loses `n2` from its ISR, once in a run where `payments` is created,
paused and deleted in between and every entry is applied as recovered, and once alone. -/
theorem orders_isolated :
    let create : Entry := ⟨.createPartition ⟨"orders", 0, ["n1", "n2"], ["n1", "n2"], "n1", 0, 0⟩, 1⟩
    let shrink : Entry := ⟨.shrinkISR "orders" "n2" 0, 5⟩
    let busy : List (Entry × Bool) :=
      [(create, true), (⟨.createPartition ⟨"payments", 0, ["n1"], ["n1"], "n1", 0, 0⟩, 2⟩, true),
        (⟨.pauseStream "payments" [] false, 3⟩, true), (⟨.deleteStream "payments", 4⟩, true), (shrink, true)]
    ((busy.map (·.1)).filter (·.log.touches ("orders", 0)) =
        ([(create, false), (shrink, false)].map (·.1)).filter (·.log.touches ("orders", 0))) ∧
      (applyRun .empty busy).2.records ("orders", 0) =
        (applyRun .empty [(create, false), (shrink, false)]).2.records ("orders", 0) :=
  ⟨by decide, records_applyRun_isolated .empty ("orders", 0) (by decide)⟩

end Liftbridge
