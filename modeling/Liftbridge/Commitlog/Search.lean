import Liftbridge.Commitlog.Write

/-!
# Looking an entry up in the index

`findEntry(offset)` and `findEntryByTimestamp(timestamp)` look the index up by binary search:
`sort.Search(n, f)` over the `n = Index.Position() / entryWidth` records in use, where `f i` reads
the `i`-th record and asks whether its offset (or its timestamp) has reached the key.  A failed
read inside `f` is a `panic`.  When the search runs off the end the lookup returns
`ErrEntryNotFound`, and otherwise it reads the record the search stopped at.

`sort.Search` is Go's, and `Index.Position()` and `ReadEntryAtFileOffset` belong to `index.go`,
which is not in the sources: the search is translated from Go's definition, and the index reads
are modelled from the spec (§4.1), over the records the model keeps for the index file.

`sortSearch_spec` is the contract of `sort.Search`.  It depends on `f` only below `n`, where it
needs `f` to answer and to be monotone, and it returns the first index at which `f` holds, or `n`.
Over an index, every read below `n` succeeds, so the search never panics, and
`findEntryBy_eq` says that the lookup is `List.find?` on the entries whenever the key it compares
is sorted.  `findEntry_correct` reads that off for both lookups: the entry with the least offset at
or above the key, or `ErrEntryNotFound` exactly when every offset is below it; and the first entry
stamped at or after the key, or `ErrEntryNotFound` when there is none.
-/

set_option autoImplicit false

namespace Liftbridge.Commitlog

open Segment

/-! ## `sort.Search` -/

section Search

variable {ε : Type}

/-- The loop of Go's `sort.Search(n, f)`, from `i, j`: halve `[i, j)` at `h = (i + j) / 2`, keep
the upper half when `f h` is false and the lower one when it is true.  A `panic` in `f` ends the
search; `Except` carries it. -/
def searchLoop (f : ℕ → Except ε Bool) (i j : ℕ) : Except ε ℕ :=
  if i < j then
    let h := (i + j) / 2
    match f h with
    | .error e => .error e
    | .ok false => searchLoop f (h + 1) j
    | .ok true => searchLoop f i h
  else .ok i
termination_by j - i

/-- Go's `sort.Search(n, f)`: the smallest index in `[0, n)` at which `f` holds, `n` if none,
when `f` is monotone. -/
def sortSearch (n : ℕ) (f : ℕ → Except ε Bool) : Except ε ℕ := searchLoop f 0 n

/-- The invariant of Go's loop, `f(i-1) == false` and `f(j) == true`, carried to the exit: the loop
returns the first index below `N` at which `p` holds, or `N`, when `f` answers `p` below `N` and
`p` is monotone there. -/
theorem searchLoop_spec {f : ℕ → Except ε Bool} {p : ℕ → Bool} {N : ℕ}
    (hf : ∀ h < N, f h = .ok (p h)) (hmono : ∀ a b, a ≤ b → b < N → p a = true → p b = true)
    (i j : ℕ) (hij : i ≤ j) (hjN : j ≤ N) (hlo : ∀ m < i, p m = false) (hhi : j < N → p j = true) :
    ∃ k, searchLoop f i j = .ok k ∧ k ≤ N ∧ (∀ m < k, p m = false) ∧ (k < N → p k = true) := by
  induction i, j using searchLoop.induct f with
  | case1 i j hlt h e hfe =>
    rw [hf h (show (i + j) / 2 < N by omega)] at hfe
    cases hfe
  | case2 i j hlt h hfalse ih =>
    have hh : h < N := show (i + j) / 2 < N by omega
    have hph : p h = false := Except.ok.inj ((hf h hh).symm.trans hfalse)
    rw [searchLoop, if_pos hlt]
    simp only [show f ((i + j) / 2) = .ok false from hfalse]
    refine ih (show (i + j) / 2 + 1 ≤ j by omega) hjN (fun m hm ↦ ?_) hhi
    rcases Nat.lt_or_ge m i with hmi | hmi
    · exact hlo m hmi
    · cases hpm : p m
      · rfl
      · rw [hmono m h (by omega) hh hpm] at hph
        cases hph
  | case3 i j hlt h htrue ih =>
    have hh : h < N := show (i + j) / 2 < N by omega
    rw [searchLoop, if_pos hlt]
    simp only [show f ((i + j) / 2) = .ok true from htrue]
    exact ih (show i ≤ (i + j) / 2 by omega) (Nat.le_of_lt hh) hlo fun _ ↦ Except.ok.inj ((hf h hh).symm.trans htrue)
  | case4 i j hge =>
    rw [searchLoop, if_neg hge]
    obtain rfl : i = j := by omega
    exact ⟨i, rfl, hjN, hlo, hhi⟩

/-- **The contract of `sort.Search`**: it only asks `f` below `n`, and returns the first index at
which the monotone predicate `f` answers holds, or `n` when it holds nowhere. -/
theorem sortSearch_spec {f : ℕ → Except ε Bool} {p : ℕ → Bool} {n : ℕ}
    (hf : ∀ h < n, f h = .ok (p h)) (hmono : ∀ a b, a ≤ b → b < n → p a = true → p b = true) :
    ∃ k, sortSearch n f = .ok k ∧ k ≤ n ∧ (∀ m < k, p m = false) ∧ (k < n → p k = true) :=
  searchLoop_spec hf hmono 0 n (Nat.zero_le n) le_rfl (fun _ h ↦ absurd h (Nat.not_lt_zero _))
    fun h ↦ absurd h (Nat.lt_irrefl n)

end Search

/-! ## The first element a search stops at -/

/-- The element at the first index where `q` holds, if every element before it fails `q`. -/
theorem find?_eq_getElem? {α : Type} (q : α → Bool) :
    ∀ (l : List α) (k : ℕ), (∀ m < k, ∀ a, l[m]? = some a → q a = false) →
      (∀ a, l[k]? = some a → q a = true) → l.find? q = l[k]?
  | [], _, _, _ => rfl
  | a :: l, 0, _, hk => by
    rw [List.find?_cons_of_pos _ (hk a (List.getElem?_cons_zero ..)), List.getElem?_cons_zero]
  | a :: l, k + 1, hbefore, hk => by
    rw [List.find?_cons_of_neg _ (by simp [hbefore 0 (Nat.succ_pos k) a (List.getElem?_cons_zero ..)]),
      List.getElem?_cons_succ]
    exact find?_eq_getElem? q l k
      (fun m hm b hb ↦ hbefore (m + 1) (by omega) b (by rw [List.getElem?_cons_succ]; exact hb))
      fun b hb ↦ hk b (by rw [List.getElem?_cons_succ]; exact hb)

/-- What `find?` found splits the list: everything before it fails `q`. -/
theorem find?_eq_some_split {α : Type} {q : α → Bool} :
    ∀ {l : List α} {a : α}, l.find? q = some a →
      ∃ pre post, l = pre ++ a :: post ∧ q a = true ∧ ∀ x ∈ pre, q x = false
  | [], _, h => by cases h
  | b :: l, a, h => by
    by_cases hb : q b = true
    · rw [List.find?_cons_of_pos _ hb, Option.some.injEq] at h
      subst h
      exact ⟨[], l, rfl, hb, by simp⟩
    · rw [List.find?_cons_of_neg _ hb] at h
      obtain ⟨pre, post, rfl, ha, hpre⟩ := find?_eq_some_split h
      refine ⟨b :: pre, post, rfl, ha, ?_⟩
      simpa [hb] using hpre

/-! ## The index reads -/

/-- Modelled from the spec: the width of an index record, a `uint32` relative offset, a `uint32`
position and an `int64` timestamp. -/
def entryWidth : ℕ := 16

/-- Modelled from the spec: `Index.Position()`, the bytes taken by the records in use. -/
def indexPosition (d : Disk) (idx : File) : ℕ := (d.indexData idx.inode).length * entryWidth

/-- Modelled from the spec: `ReadEntryAtFileOffset(&e, offset)`, the record that starts at `offset`,
as an entry; `io.EOF` past the records in use. -/
def readEntryAtFileOffset (d : Disk) (idx : File) (baseOffset : Int) (offset : ℕ) : Except OSError Entry :=
  match (d.indexData idx.inode)[offset / entryWidth]? with
  | some r => .ok (r.toEntry baseOffset)
  | none => .error .eof

theorem indexPosition_div (d : Disk) (idx : File) (base : Int) :
    indexPosition d idx / entryWidth = (d.indexEntries idx base).length := by
  simp [indexPosition, entryWidth, Disk.indexEntries]

theorem readEntryAtFileOffset_mul (d : Disk) (idx : File) (base : Int) (i : ℕ) :
    readEntryAtFileOffset d idx base (i * entryWidth) =
      match (d.indexEntries idx base)[i]? with
      | some e => .ok e
      | none => .error .eof := by
  simp only [readEntryAtFileOffset, entryWidth, Nat.mul_div_cancel _ (by decide : 0 < 16),
    Disk.indexEntries, List.getElem?_map]
  cases (d.indexData idx.inode)[i]? <;> rfl

/-! ## The lookups -/

/-- How `findEntry` and `findEntryByTimestamp` fail. -/
inductive FindError
  /-- `ErrEntryNotFound`: the search ran past the last record. -/
  | entryNotFound
  /-- The error of the final `ReadEntryAtFileOffset`, returned. -/
  | os (e : OSError)
  /-- A `ReadEntryAtFileOffset` inside the search failed: `panic(err)`. -/
  | panic (e : OSError)
deriving DecidableEq, Repr

/-- The function `findEntry` and `findEntryByTimestamp` hand `sort.Search`: read the `i`-th
record, `panic` if that fails, and tell whether its `key` has reached `k`. -/
def searchProbe (key : Entry → Int) (d : Disk) (s : Segment) (k : Int) (i : ℕ) : Except FindError Bool :=
  match readEntryAtFileOffset d s.index s.baseOffset (i * entryWidth) with
  | .error err => .error (.panic err)
  | .ok e => .ok (decide (key e ≥ k))

/-- The body `findEntry` and `findEntryByTimestamp` share: binary-search the index for the first
record whose `key` is at least `k`. -/
def findEntryBy (key : Entry → Int) (d : Disk) (s : Segment) (k : Int) : Except FindError Entry :=
  let n := indexPosition d s.index / entryWidth
  match sortSearch n (searchProbe key d s k) with
  | .error p => .error p
  | .ok idx =>
    if idx = n then .error .entryNotFound
    else (readEntryAtFileOffset d s.index s.baseOffset (idx * entryWidth)).mapError .os

/-- `findEntry(offset)`: the first entry whose offset is at least `offset`. -/
def findEntry (d : Disk) (s : Segment) (offset : Int) : Except FindError Entry :=
  findEntryBy (·.offset) d s offset

/-- `findEntryByTimestamp(timestamp)`: the first entry whose timestamp is at least `timestamp`. -/
def findEntryByTimestamp (d : Disk) (s : Segment) (timestamp : Int) : Except FindError Entry :=
  findEntryBy (·.timestamp) d s timestamp

/-- On a list sorted by `key`, a later element's key is at least an earlier one's. -/
theorem key_le_of_pairwise {es : List Entry} {key : Entry → Int} (h : es.Pairwise (key · ≤ key ·))
    {a b : ℕ} {ea eb : Entry} (hab : a ≤ b) (ha : es[a]? = some ea) (hb : es[b]? = some eb) :
    key ea ≤ key eb := by
  rcases Nat.lt_or_eq_of_le hab with hlt | rfl
  · obtain ⟨ha', rfl⟩ := List.getElem?_eq_some_iff.1 ha
    obtain ⟨hb', rfl⟩ := List.getElem?_eq_some_iff.1 hb
    exact List.pairwise_iff_getElem.1 h a b ha' hb' hlt
  · rw [ha, Option.some.injEq] at hb
    subst hb
    exact Int.le_refl _

/-- **The lookup is `find?` on the index's entries**, whenever the key it compares is sorted: the
search never panics, and it returns the first entry whose key is at least `k`, or
`ErrEntryNotFound` when there is none. -/
theorem findEntryBy_eq (key : Entry → Int) {d : Disk} {s : Segment}
    (hsorted : (d.indexEntries s.index s.baseOffset).Pairwise (key · ≤ key ·)) (k : Int) :
    findEntryBy key d s k =
      match (d.indexEntries s.index s.baseOffset).find? (k ≤ key ·) with
      | some e => .ok e
      | none => .error .entryNotFound := by
  set es := d.indexEntries s.index s.baseOffset with hes
  let p : ℕ → Bool := fun i ↦ (es[i]?).all (k ≤ key ·)
  have hf : ∀ h < es.length, searchProbe key d s k h = .ok (p h) := by
    intro h hh
    simp only [searchProbe, readEntryAtFileOffset_mul, ← hes, p, List.getElem?_eq_getElem hh,
      Option.all_some, ge_iff_le]
  have hmono : ∀ a b, a ≤ b → b < es.length → p a = true → p b = true := by
    intro a b hab hb hpa
    have ha : a < es.length := Nat.lt_of_le_of_lt hab hb
    simp only [p, List.getElem?_eq_getElem ha, List.getElem?_eq_getElem hb, Option.all_some,
      decide_eq_true_eq] at hpa ⊢
    exact Int.le_trans hpa
      (key_le_of_pairwise hsorted hab (List.getElem?_eq_getElem ha) (List.getElem?_eq_getElem hb))
  obtain ⟨i, hsearch, hin, hbefore, hat⟩ := sortSearch_spec hf hmono
  have hfind : es.find? (k ≤ key ·) = es[i]? :=
    find?_eq_getElem? _ es i (fun m hm a ha ↦ by simpa [p, ha] using hbefore m hm)
      fun a ha ↦ by simpa [p, ha] using hat (List.getElem?_eq_some_iff.1 ha).1
  unfold findEntryBy
  rw [indexPosition_div d s.index s.baseOffset, ← hes]
  dsimp only
  rw [hsearch, hfind]
  dsimp only
  split
  · rename_i hi
    subst hi
    rw [List.getElem?_eq_none (Nat.le_refl _)]
  · rw [readEntryAtFileOffset_mul, ← hes, List.getElem?_eq_getElem (by omega)]
    rfl

/-- **Both lookups, on every index sorted as writes leave it.**  When the offsets strictly
increase, `findEntry(o)` returns the entry with the least offset at or above `o`, and
`ErrEntryNotFound` exactly when every offset is below `o`.  When the timestamps do not decrease,
`findEntryByTimestamp(t)` returns the first entry stamped at or after `t`, and `ErrEntryNotFound`
exactly when there is none.  Neither panics: every record the search reads is below `n`. -/
theorem findEntry_correct (d : Disk) (s : Segment) :
    let entries := d.indexEntries s.index s.baseOffset
    (entries.Pairwise (·.offset < ·.offset) → ∀ o : Int,
      (∀ e ∈ entries, e.offset < o) ∧ findEntry d s o = .error .entryNotFound ∨
      ∃ e ∈ entries, o ≤ e.offset ∧ (∀ e' ∈ entries, o ≤ e'.offset → e.offset ≤ e'.offset) ∧
        findEntry d s o = .ok e) ∧
    (entries.Pairwise (·.timestamp ≤ ·.timestamp) → ∀ t : Int,
      findEntryByTimestamp d s t =
        match entries.find? (t ≤ ·.timestamp) with
        | some e => .ok e
        | none => .error .entryNotFound) := by
  intro entries
  refine ⟨fun hsorted o ↦ ?_, fun hsorted t ↦ findEntryBy_eq _ hsorted t⟩
  have h := findEntryBy_eq (·.offset) (hsorted.imp Int.le_of_lt) o
  cases hfind : entries.find? (o ≤ ·.offset) with
  | none =>
    refine .inl ⟨fun e he ↦ ?_, by rw [findEntry, h, hfind]⟩
    exact Int.not_le.1 (by simpa using List.find?_eq_none.1 hfind e he)
  | some e =>
    obtain ⟨pre, post, hsplit, he, hpre⟩ := find?_eq_some_split hfind
    refine .inr ⟨e, hsplit ▸ List.mem_append_right _ (List.mem_cons_self _ _), by simpa using he,
      fun e' he' ho ↦ ?_, by rw [findEntry, h, hfind]⟩
    rw [hsplit] at he' hsorted
    rcases List.mem_append.1 he' with hp | hq
    · have := hpre e' hp
      simp only [decide_eq_false_iff_not] at this
      exact absurd ho this
    · rcases List.mem_cons.1 hq with rfl | hq
      · exact Int.le_refl _
      · exact Int.le_of_lt (List.rel_of_pairwise_cons (List.pairwise_append.1 hsorted).2.1 hq)

/-- Two entries written to the fresh segment, at offsets `0` and `1`, both stamped `5`, looked up
at offset `1` and at time `5`. -/
theorem freshSegment_lookups :
    let st := (writeMessageSet freshState.1 freshState.2 [2, 7, 8, 0] [⟨0, 5, 0⟩, ⟨1, 5, 3⟩] none).2
    let entries := st.1.disk.indexEntries st.2.index st.2.baseOffset
    ((∀ e ∈ entries, e.offset < 1) ∧ findEntry st.1.disk st.2 1 = .error .entryNotFound ∨
      ∃ e ∈ entries, 1 ≤ e.offset ∧ (∀ e' ∈ entries, 1 ≤ e'.offset → e.offset ≤ e'.offset) ∧
        findEntry st.1.disk st.2 1 = .ok e) ∧
    findEntryByTimestamp st.1.disk st.2 5 =
      match entries.find? (5 ≤ ·.timestamp) with
      | some e => .ok e
      | none => .error .entryNotFound :=
  ⟨(findEntry_correct _ _).1 (by decide) 1, (findEntry_correct _ _).2 (by decide) 5⟩


/-! ## On any index

Producers stamp their messages, so nothing keeps an index's timestamps sorted, and
`findEntryByTimestamp` runs its binary search on whatever the index holds.  Without monotonicity
`sort.Search` still keeps the bracket of its loop, `f(i-1) == false` and `f(j) == true`, and that
is what both lookups guarantee on every index. -/

/-- The bracket of Go's loop, `f(i-1) == false` and `f(j) == true`, carried to the exit for any
`f` that answers below `N`, monotone or not. -/
theorem searchLoop_bracket {ε : Type} {f : ℕ → Except ε Bool} {p : ℕ → Bool} {N : ℕ}
    (hf : ∀ h < N, f h = .ok (p h)) (i j : ℕ) (hij : i ≤ j) (hjN : j ≤ N)
    (hlo : 0 < i → p (i - 1) = false) (hhi : j < N → p j = true) :
    ∃ k, searchLoop f i j = .ok k ∧ k ≤ N ∧ (0 < k → p (k - 1) = false) ∧ (k < N → p k = true) := by
  induction i, j using searchLoop.induct f with
  | case1 i j hlt h e hfe =>
    rw [hf h (show (i + j) / 2 < N by omega)] at hfe
    cases hfe
  | case2 i j hlt h hfalse ih =>
    have hph : p h = false := Except.ok.inj ((hf h (show (i + j) / 2 < N by omega)).symm.trans hfalse)
    rw [searchLoop, if_pos hlt]
    simp only [show f ((i + j) / 2) = .ok false from hfalse]
    exact ih (show (i + j) / 2 + 1 ≤ j by omega) hjN (fun _ ↦ hph) hhi
  | case3 i j hlt h htrue ih =>
    have hh : h < N := show (i + j) / 2 < N by omega
    rw [searchLoop, if_pos hlt]
    simp only [show f ((i + j) / 2) = .ok true from htrue]
    exact ih (show i ≤ (i + j) / 2 by omega) (Nat.le_of_lt hh) hlo
      fun _ ↦ Except.ok.inj ((hf h hh).symm.trans htrue)
  | case4 i j hge =>
    rw [searchLoop, if_neg hge]
    obtain rfl : i = j := by omega
    exact ⟨i, rfl, hjN, hlo, hhi⟩

/-- Below the records in use, the probe reads the record and answers. -/
theorem searchProbe_of_lt (key : Entry → Int) {d : Disk} {s : Segment} (k : Int) {h : ℕ}
    (hh : h < (d.indexEntries s.index s.baseOffset).length) :
    searchProbe key d s k h = .ok (((d.indexEntries s.index s.baseOffset)[h]?).all (k ≤ key ·)) := by
  simp only [searchProbe, readEntryAtFileOffset_mul, List.getElem?_eq_getElem hh, Option.all_some,
    ge_iff_le]

/-- The entries before the `i`-th: the last of them is the `(i - 1)`-th. -/
theorem getLast?_take_eq_getElem? {α : Type} (l : List α) {i : ℕ} (hi : 0 < i) (hil : i ≤ l.length) :
    (l.take i).getLast? = l[i - 1]? := by
  rw [List.getLast?_eq_getElem?, List.length_take, Nat.min_eq_left hil, List.getElem?_take_of_lt (by omega)]

/-- **Both lookups on every index, sorted or not.**  Neither panics.  `findEntry(o)` either returns
`ErrEntryNotFound`, and then the last entry (if any) has an offset below `o`, or returns an entry
with an offset at or above `o` whose predecessor (if any) is below `o`; `findEntryByTimestamp(t)`
likewise with timestamps.  So a lookup never returns an entry on the wrong side of its key, and
on an unsorted index it may return any such boundary, not the first entry at or above the key. -/
theorem findEntry_bracket (d : Disk) (s : Segment) :
    let es := d.indexEntries s.index s.baseOffset
    (∀ o : Int, (∀ e ∈ es.getLast?, e.offset < o) ∧ findEntry d s o = .error .entryNotFound ∨
      ∃ pre e post, es = pre ++ e :: post ∧ o ≤ e.offset ∧ (∀ e' ∈ pre.getLast?, e'.offset < o) ∧
        findEntry d s o = .ok e) ∧
    (∀ t : Int, (∀ e ∈ es.getLast?, e.timestamp < t) ∧ findEntryByTimestamp d s t = .error .entryNotFound ∨
      ∃ pre e post, es = pre ++ e :: post ∧ t ≤ e.timestamp ∧ (∀ e' ∈ pre.getLast?, e'.timestamp < t) ∧
        findEntryByTimestamp d s t = .ok e) := by
  intro es
  suffices h : ∀ (key : Entry → Int) (k : Int),
      (∀ e ∈ es.getLast?, key e < k) ∧ findEntryBy key d s k = .error .entryNotFound ∨
      ∃ pre e post, es = pre ++ e :: post ∧ k ≤ key e ∧ (∀ e' ∈ pre.getLast?, key e' < k) ∧
        findEntryBy key d s k = .ok e from ⟨h (·.offset), h (·.timestamp)⟩
  intro key k
  obtain ⟨i, hsearch, hin, hbefore, hat⟩ := @searchLoop_bracket _ _ (fun i ↦ (es[i]?).all (k ≤ key ·)) es.length
    (fun h hh ↦ searchProbe_of_lt key k hh) 0 es.length (Nat.zero_le _) le_rfl
    (fun h ↦ absurd h (Nat.lt_irrefl 0)) fun h ↦ absurd h (Nat.lt_irrefl _)
  -- the record below the one the search stops at is under the key
  have hprev : ∀ e' ∈ es[i - 1]?, 0 < i → key e' < k := fun e' he' hi ↦
    Int.not_le.1 (by simpa [Option.mem_def.1 he'] using hbefore hi)
  unfold findEntryBy
  rw [indexPosition_div d s.index s.baseOffset]
  dsimp only
  rw [show sortSearch es.length (searchProbe key d s k) = .ok i from hsearch]
  dsimp only
  split
  · rename_i hi
    subst hi
    refine .inl ⟨fun e he ↦ ?_, rfl⟩
    rw [List.getLast?_eq_getElem?] at he
    exact hprev e he (by have := (List.getElem?_eq_some_iff.1 he).1; show 0 < es.length; omega)
  · rename_i hi
    have hlt : i < es.length := Nat.lt_of_le_of_ne hin hi
    have hk : k ≤ key es[i] := by simpa [List.getElem?_eq_getElem hlt] using hat hlt
    refine .inr ⟨es.take i, es[i], es.drop (i + 1), (List.take_append_drop i es).symm.trans
      (by rw [List.drop_eq_getElem_cons hlt]), hk, fun e' he' ↦ ?_, ?_⟩
    · rcases Nat.eq_zero_or_pos i with rfl | hi0
      · simp at he'
      · rw [getLast?_take_eq_getElem? es hi0 (Nat.le_of_lt hlt)] at he'
        exact hprev e' he' hi0
    · rw [readEntryAtFileOffset_mul, List.getElem?_eq_getElem hlt]
      rfl

end Liftbridge.Commitlog
