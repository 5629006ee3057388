/-
The in-memory store is an exact least-recently-used store for each key family.

The keys stand in the order of their latest accesses, so the keys a trim takes from the
front of a family are those of the family that were not accessed for longest.
-/

import AsPlatform.StateStore.InMemory

namespace AsPlatform

variable {Record : Type}

/-! ### Ages -/

theorem age_cons (key : String) (event : StoreEvent Record)
    (history : List (StoreEvent Record)) :
    age key (event :: history) = if event.accesses key then 0 else age key history + 1 := by
  rw [age, List.findIdx_cons]
  cases event.accesses key <;> rfl

theorem age_of_access {key : String} {event : StoreEvent Record}
    (accesses : event.accesses key = true) (history : List (StoreEvent Record)) :
    age key (event :: history) = 0 := by
  rw [age_cons, if_pos accesses]

theorem age_of_other {key : String} {event : StoreEvent Record}
    (other : event.accesses key = false) (history : List (StoreEvent Record)) :
    age key (event :: history) = age key history + 1 := by
  rw [age_cons, if_neg (by rw [other]; exact Bool.false_ne_true)]

namespace InMemoryStateStore

/-! ### Trimming -/

/-- The loop drops the front of the family, all of it if the limit is negative. -/
theorem entries_evict (limit : Int) (family : List String) (entries : OrderedDict String Record) :
    (evict limit family entries).1.entries =
      entries.entries.filter
        (fun entry => entry.1 ∉ family.take (family.length - limit.toNat)) := by
  induction family generalizing entries with
  | nil =>
      have all : (evict limit [] entries).1 = entries := by
        unfold evict
        split <;> rfl
      simp [all]
  | cons key family ih =>
      unfold evict
      split
      · rename_i above
        have more : (key :: family).length - limit.toNat =
            family.length - limit.toNat + 1 := by
          rw [List.length_cons] at above ⊢
          omega
        rw [ih, more, List.take_succ_cons, OrderedDict.entries_erase, List.filter_filter]
        apply List.filter_congr
        intro entry _
        simp [Bool.and_comm]
      · rename_i within
        have none : (key :: family).length - limit.toNat = 0 := by
          omega
        rw [none, List.take_zero]
        simp

theorem evict_returns (limit : Nat) (family : List String)
    (entries : OrderedDict String Record) : (evict limit family entries).2 = .ok () := by
  induction family generalizing entries with
  | nil =>
      unfold evict
      rw [if_neg (by omega)]
  | cons key family ih =>
      unfold evict
      split
      · exact ih (entries.erase key)
      · rfl

def excess (store : InMemoryStateStore Record) (pre : String) (limit : Int) : List String :=
  (store.family pre).take ((store.family pre).length - limit.toNat)

theorem entries_trim (store : InMemoryStateStore Record) (pre : String) (limit : Int) :
    (store.trim pre limit).1.entries.entries =
      store.entries.entries.filter (fun entry => entry.1 ∉ store.excess pre limit) :=
  entries_evict limit (store.family pre) store.entries

theorem keys_trim (store : InMemoryStateStore Record) (pre : String) (limit : Int) :
    (store.trim pre limit).1.entries.keys =
      store.entries.keys.filter (fun key => key ∉ store.excess pre limit) := by
  rw [OrderedDict.keys, entries_trim, OrderedDict.keys, List.filter_map]
  rfl

theorem excess_sublist (store : InMemoryStateStore Record) (pre : String) (limit : Int) :
    (store.excess pre limit).Sublist store.entries.keys :=
  (List.take_sublist _ _).trans List.filter_sublist

def dropped (store : InMemoryStateStore Record) (pre : String) (limit : Int) : List String :=
  store.entries.keys.filter fun key => key ∉ (store.trim pre limit).1.entries.keys

theorem mem_dropped_iff (store : InMemoryStateStore Record) (pre : String) (limit : Int)
    (key : String) : key ∈ store.dropped pre limit ↔ key ∈ store.excess pre limit := by
  unfold dropped
  rw [List.mem_filter, keys_trim, decide_eq_true_eq, List.mem_filter, decide_eq_true_eq]
  constructor
  · rintro ⟨present, gone⟩
    by_contra outside
    exact gone ⟨present, outside⟩
  · intro inside
    exact ⟨(excess_sublist store pre limit).subset inside, fun both => both.2 inside⟩

theorem dropped_perm (store : InMemoryStateStore Record) (pre : String) (limit : Int) :
    (store.dropped pre limit).Perm (store.excess pre limit) := by
  rw [List.perm_ext_iff_of_nodup]
  · exact mem_dropped_iff store pre limit
  · exact store.entries.keys_nodup.filter _
  · exact store.entries.keys_nodup.sublist (excess_sublist store pre limit)

/-! ### The order of access -/

structure Agrees (store : InMemoryStateStore Record) (history : List (StoreEvent Record)) :
    Prop where
  values : ∀ key, store.entries.get? key = latest key history
  ordered : store.entries.keys.Pairwise
    (fun older newer => age newer history < age older history)

/-- An operation that accesses no key that is kept leaves the order as it was. -/
theorem Agrees.ordered_older {store : InMemoryStateStore Record}
    {history : List (StoreEvent Record)} (agrees : store.Agrees history)
    {keys : List String} (kept : keys.Sublist store.entries.keys) {event : StoreEvent Record}
    (other : ∀ key, key ∈ keys → event.accesses key = false) :
    keys.Pairwise (fun older newer =>
      age newer (event :: history) < age older (event :: history)) := by
  refine (agrees.ordered.sublist kept).imp_of_mem ?_
  intro older newer olderKept newerKept before
  rw [age_of_other (other older olderKept), age_of_other (other newer newerKept)]
  exact Nat.add_lt_add_right before 1

theorem Agrees.ordered_moved {store : InMemoryStateStore Record}
    {history : List (StoreEvent Record)} (agrees : store.Agrees history) {key : String}
    {event : StoreEvent Record} (accesses : ∀ other, event.accesses other = decide (key = other)) :
    (store.entries.keys.filter (fun other => other ≠ key) ++ [key]).Pairwise
      (fun older newer => age newer (event :: history) < age older (event :: history)) := by
  have apart : ∀ other, other ∈ store.entries.keys.filter (fun other => other ≠ key) →
      event.accesses other = false := by
    intro other member
    have different : other ≠ key := by simpa using (List.mem_filter.mp member).2
    rw [accesses]
    exact decide_eq_false (Ne.symm different)
  rw [List.pairwise_append]
  refine ⟨agrees.ordered_older List.filter_sublist apart, List.pairwise_singleton _ _, ?_⟩
  intro other member last isLast
  rw [List.mem_singleton.mp isLast, age_of_other (apart other member),
    age_of_access (by rw [accesses]; exact decide_eq_true rfl)]
  exact Nat.succ_pos _

theorem keys_of_moved {entries moved : OrderedDict String Record} {key : String} {value : Record}
    (same : moved.entries = entries.entries.filter (fun entry => entry.1 ≠ key) ++ [(key, value)]) :
    moved.keys = entries.keys.filter (fun other => other ≠ key) ++ [key] := by
  rw [OrderedDict.keys, same, List.map_append, OrderedDict.keys, List.filter_map]
  rfl

theorem Agrees.write {store : InMemoryStateStore Record} {history : List (StoreEvent Record)}
    (agrees : store.Agrees history) (key : String) (value : Record) :
    (store.write key value).Agrees (.wrote key value :: history) := by
  have moved := OrderedDict.entries_insert_moveToEnd store.entries key value
  constructor
  · intro other
    have found := OrderedDict.get?_insert_moveToEnd store.entries key other value
    rw [InMemoryStateStore.write, found, latest]
    split
    · rfl
    · exact agrees.values other
  · rw [InMemoryStateStore.write, keys_of_moved moved]
    exact agrees.ordered_moved (fun _ => rfl)

theorem Agrees.read {store : InMemoryStateStore Record} {history : List (StoreEvent Record)}
    (agrees : store.Agrees history) (key : String) :
    (store.read key).2 = latest key history ∧
      (store.read key).1.Agrees (.read key (store.read key).2 :: history) := by
  have values := agrees.values key
  cases stored : store.entries.get? key with
  | none =>
      rw [read_absent store stored]
      refine ⟨stored.symm.trans values, agrees.values, ?_⟩
      exact agrees.ordered_older (List.Sublist.refl _) (fun _ _ => by simp [StoreEvent.accesses])
  | some value =>
      rw [read_present store stored]
      refine ⟨stored.symm.trans values, ?_, ?_⟩
      · intro other
        exact (OrderedDict.get?_moveToEnd store.entries key other).trans (agrees.values other)
      · rw [keys_of_moved (OrderedDict.entries_moveToEnd store.entries stored)]
        exact agrees.ordered_moved (fun other => by simp [StoreEvent.accesses])

theorem Agrees.trim {store : InMemoryStateStore Record} {history : List (StoreEvent Record)}
    (agrees : store.Agrees history) (pre : String) (limit : Int) :
    (store.trim pre limit).1.Agrees
      (.trimmed pre limit (store.dropped pre limit) :: history) := by
  constructor
  · intro key
    rw [latest]
    by_cases gone : key ∈ store.excess pre limit
    · rw [if_pos ((mem_dropped_iff _ _ _ _).mpr gone), OrderedDict.get?_eq_none_iff, keys_trim]
      simp [gone]
    · rw [if_neg (fun member => gone ((mem_dropped_iff _ _ _ _).mp member)), ← agrees.values]
      have chosen : decide (key ∉ store.excess pre limit) = true := decide_eq_true gone
      exact OrderedDict.get?_of_filter (fun key => decide (key ∉ store.excess pre limit))
        (entries_trim store pre limit) chosen
  · exact agrees.ordered_older (by rw [keys_trim]; exact List.filter_sublist) (fun _ _ => rfl)

theorem Agrees.perform {store : InMemoryStateStore Record} {history : List (StoreEvent Record)}
    (agrees : store.Agrees history) (operation : StoreOp Record) :
    (store.perform operation).1.Agrees ((store.perform operation).2 :: history) := by
  cases operation with
  | read key => exact (agrees.read key).2
  | write key value => exact agrees.write key value
  | trim pre limit => exact agrees.trim pre limit

theorem agrees_run (operations : List (StoreOp Record)) :
    (run operations).1.Agrees (run operations).2 := by
  induction operations using List.reverseRecOn with
  | nil => exact ⟨fun _ => rfl, List.Pairwise.nil⟩
  | append_singleton operations last ih =>
      unfold run at ih ⊢
      rw [List.foldl_append]
      exact ih.perform last

end InMemoryStateStore

structure TrimsExactly (history : List (StoreEvent Record))
    (before after : InMemoryStateStore Record) (pre : String) (limit : Nat)
    (dropped : List String) : Prop where
  count : dropped.length = (before.family pre).length - limit
  distinct : dropped.Nodup
  inside : ∀ key, key ∈ dropped → key ∈ before.family pre
  oldest : ∀ gone kept, gone ∈ dropped → kept ∈ before.family pre → kept ∉ dropped →
    age kept history < age gone history
  rest : after.entries.entries =
    before.entries.entries.filter (fun entry => entry.1 ∉ dropped)

theorem InMemoryStateStore.Agrees.trimsExactly {store : InMemoryStateStore Record}
    {history : List (StoreEvent Record)} (agrees : store.Agrees history) (pre : String)
    (limit : Nat) :
    TrimsExactly history store (store.trim pre limit).1 pre limit (store.dropped pre limit) := by
  have same := InMemoryStateStore.mem_dropped_iff store pre limit
  have split := List.take_append_drop ((store.family pre).length - limit) (store.family pre)
  have taken : store.excess pre limit =
      (store.family pre).take ((store.family pre).length - limit) := rfl
  refine ⟨?_, store.entries.keys_nodup.filter _, ?_, ?_, ?_⟩
  · rw [(InMemoryStateStore.dropped_perm store pre limit).length_eq, taken, List.length_take]
    omega
  · intro key member
    rw [same, taken] at member
    exact List.mem_of_mem_take member
  · intro gone kept isGone isKept stays
    have ordered : (store.family pre).Pairwise
        (fun older newer => age newer history < age older history) :=
      agrees.ordered.sublist List.filter_sublist
    rw [same, taken] at isGone
    rw [same, taken] at stays
    rw [← split] at isKept ordered
    have later := (List.mem_append.mp isKept).resolve_left stays
    exact (List.pairwise_append.mp ordered).2.2 gone isGone kept later
  · rw [InMemoryStateStore.entries_trim]
    apply List.filter_congr
    intro entry _
    simp only [same]

/-- After any operations a read returns the value of the latest write that no later trim
dropped, a trim drops exactly the excess of its family, and the keys are in the order of
their latest accesses. -/
theorem store_keeps_latest (operations : List (StoreOp Record)) :
    let store := (InMemoryStateStore.run operations).1
    let history := (InMemoryStateStore.run operations).2
    (∀ key, (store.read key).2 = latest key history) ∧
      (∀ (pre : String) (limit : Nat), (store.trim pre limit).2 = .ok () ∧
        TrimsExactly history store (store.trim pre limit).1 pre limit
          (store.dropped pre limit)) ∧
      store.entries.keys.Pairwise
        (fun older newer => age newer history < age older history) := by
  have agrees := InMemoryStateStore.agrees_run operations
  refine ⟨fun key => (agrees.read key).1, ?_, agrees.ordered⟩
  intro pre limit
  exact ⟨InMemoryStateStore.evict_returns limit _ _, agrees.trimsExactly pre limit⟩

end AsPlatform
