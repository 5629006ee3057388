/-
Two key families in one in-memory store.

Both families share one dictionary, whose order every access changes.  What the store
holds of one family, in order, is changed by the operations on that family alone.
-/

import AsPlatform.StateStore.AccessOrder

namespace AsPlatform

variable {Record : Type}

/-- Neither of the prefixes is a prefix of the other. -/
def Apart (left right : String) : Prop :=
  startsWith left right = false ∧ startsWith right left = false

def StoreOp.on (pre : String) : StoreOp Record → Bool
  | .read key => startsWith pre key
  | .write key _ => startsWith pre key
  | .trim other _ => decide (other = pre)

def StoreEvent.readOn (pre : String) : StoreEvent Record → Option (String × Option Record)
  | .read key found => if startsWith pre key then some (key, found) else none
  | .wrote _ _ => none
  | .trimmed _ _ _ => none

namespace InMemoryStateStore

/-- What the store holds of a family, the least recently used key first. -/
def holds (store : InMemoryStateStore Record) (pre : String) : List (String × Record) :=
  store.entries.entries.filter fun entry => startsWith pre entry.1

def serve (pre : String) (store : InMemoryStateStore Record) :
    List (StoreOp Record) →
      InMemoryStateStore Record × List (String × Option Record)
  | [] => (store, [])
  | operation :: rest =>
      let performed := store.perform operation
      let later := serve pre performed.1 rest
      (later.1, (performed.2.readOn pre).toList ++ later.2)

end InMemoryStateStore

/-- Prefixes of one key are comparable. -/
theorem Apart.disjoint {left right : String} (apart : Apart left right) {key : String}
    (inLeft : startsWith left key = true) : startsWith right key = false := by
  by_contra both
  rw [Bool.not_eq_false] at both
  unfold startsWith at inLeft both
  rw [List.isPrefixOf_iff_prefix] at inLeft both
  rcases List.prefix_or_prefix_of_prefix inLeft both with shorter | longer
  · have impossible := apart.1
    rw [startsWith, List.isPrefixOf_iff_prefix.mpr shorter] at impossible
    cases impossible
  · have impossible := apart.2
    rw [startsWith, List.isPrefixOf_iff_prefix.mpr longer] at impossible
    cases impossible

theorem startsWith_self (pre : String) : startsWith pre pre = true := by
  unfold startsWith
  exact List.isPrefixOf_iff_prefix.mpr List.prefix_rfl

theorem Apart.not_on {left right : String} (apart : Apart left right)
    {operation : StoreOp Record} (onRight : operation.on right = true) :
    operation.on left = false := by
  have flipped : Apart right left := ⟨apart.2, apart.1⟩
  cases operation with
  | read key => exact flipped.disjoint onRight
  | write key value => exact flipped.disjoint onRight
  | trim pre limit =>
      have same : pre = right := of_decide_eq_true onRight
      apply decide_eq_false
      intro equal
      have impossible := apart.1
      rw [← equal, ← same, startsWith_self] at impossible
      cases impossible

namespace InMemoryStateStore

theorem family_eq_keys (store : InMemoryStateStore Record) (pre : String) :
    store.family pre = (store.holds pre).map Prod.fst := by
  rw [family, holds, OrderedDict.keys, List.filter_map]
  rfl

theorem get?_of_holds {left right : InMemoryStateStore Record} {pre key : String}
    (same : left.holds pre = right.holds pre) (inside : startsWith pre key = true) :
    left.entries.get? key = right.entries.get? key := by
  have held : ∀ (store : InMemoryStateStore Record) (value : Record),
      store.entries.get? key = some value ↔ (key, value) ∈ store.holds pre := by
    intro store value
    rw [OrderedDict.get?_eq_some_iff, holds, List.mem_filter]
    exact ⟨fun member => ⟨member, inside⟩, fun both => both.1⟩
  apply Option.ext
  intro value
  rw [held, held, same]

theorem holds_of_moved {store moved : InMemoryStateStore Record} {key : String}
    {value : Record}
    (entries : moved.entries.entries =
      store.entries.entries.filter (fun entry => entry.1 ≠ key) ++ [(key, value)])
    (pre : String) :
    moved.holds pre =
      (store.holds pre).filter (fun entry => entry.1 ≠ key) ++
        if startsWith pre key then [(key, value)] else [] := by
  rw [holds, entries, List.filter_append, List.filter_comm, holds, List.filter_singleton,
    cond_eq_ite]

theorem holds_read (store : InMemoryStateStore Record) {key : String} {value : Record}
    (stored : store.entries.get? key = some value) (pre : String) :
    (store.read key).1.holds pre =
      (store.holds pre).filter (fun entry => entry.1 ≠ key) ++
        if startsWith pre key then [(key, value)] else [] := by
  rw [read_present store stored]
  exact holds_of_moved (OrderedDict.entries_moveToEnd store.entries stored) pre

theorem holds_write (store : InMemoryStateStore Record) (key : String) (value : Record)
    (pre : String) :
    (store.write key value).holds pre =
      (store.holds pre).filter (fun entry => entry.1 ≠ key) ++
        if startsWith pre key then [(key, value)] else [] :=
  holds_of_moved (OrderedDict.entries_insert_moveToEnd store.entries key value) pre

theorem holds_of_stranger {store : InMemoryStateStore Record} {pre key : String}
    (stranger : startsWith pre key = false) :
    (store.holds pre).filter (fun entry => entry.1 ≠ key) = store.holds pre := by
  rw [List.filter_eq_self]
  intro entry member
  have inside : startsWith pre entry.1 = true := (List.mem_filter.mp member).2
  rw [decide_eq_true_eq]
  intro same
  rw [same, stranger] at inside
  cases inside

theorem holds_trim (store : InMemoryStateStore Record) (pre other : String) (limit : Int) :
    (store.trim other limit).1.holds pre =
      (store.holds pre).filter (fun entry => entry.1 ∉ store.excess other limit) := by
  rw [holds, entries_trim, List.filter_comm, holds]

/-! ### One operation -/

/-- An operation on another family changes nothing of this one. -/
theorem holds_perform_other (store : InMemoryStateStore Record) {pre other : String}
    (apart : Apart pre other) {operation : StoreOp Record}
    (onOther : operation.on other = true) :
    (store.perform operation).1.holds pre = store.holds pre ∧
      (store.perform operation).2.readOn pre = none := by
  have stranger := apart.not_on onOther
  cases operation with
  | read key =>
      have outside : ¬startsWith pre key = true := fun inside => by
        rw [show startsWith pre key = false from stranger] at inside
        cases inside
      refine ⟨?_, if_neg outside⟩
      change (store.read key).1.holds pre = store.holds pre
      cases stored : store.entries.get? key with
      | none => rw [read_absent store stored]
      | some value =>
          rw [holds_read store stored, holds_of_stranger stranger, if_neg outside,
            List.append_nil]
  | write key value =>
      have outside : ¬startsWith pre key = true := fun inside => by
        rw [show startsWith pre key = false from stranger] at inside
        cases inside
      refine ⟨?_, rfl⟩
      change (store.write key value).holds pre = store.holds pre
      rw [holds_write, holds_of_stranger stranger, if_neg outside, List.append_nil]
  | trim trimmed limit =>
      refine ⟨?_, rfl⟩
      have same : trimmed = other := of_decide_eq_true onOther
      rw [perform, holds_trim, List.filter_eq_self]
      intro entry member
      have inside : startsWith pre entry.1 = true := (List.mem_filter.mp member).2
      rw [decide_eq_true_eq, same]
      intro excess
      have foreign : startsWith other entry.1 = true :=
        (List.mem_filter.mp (List.mem_of_mem_take excess)).2
      rw [apart.disjoint inside] at foreign
      cases foreign

/-- An operation on the family does the same to stores that hold the same of it. -/
theorem holds_perform_same {left right : InMemoryStateStore Record} {pre : String}
    (same : left.holds pre = right.holds pre) {operation : StoreOp Record}
    (onFamily : operation.on pre = true) :
    (left.perform operation).1.holds pre = (right.perform operation).1.holds pre ∧
      (left.perform operation).2.readOn pre = (right.perform operation).2.readOn pre := by
  cases operation with
  | read key =>
      have found := get?_of_holds same onFamily
      change (left.read key).1.holds pre = (right.read key).1.holds pre ∧
        StoreEvent.readOn pre (.read key (left.read key).2) =
          StoreEvent.readOn pre (.read key (right.read key).2)
      cases stored : left.entries.get? key with
      | none =>
          have absent := found.symm.trans stored
          rw [read_absent left stored, read_absent right absent]
          exact ⟨same, rfl⟩
      | some value =>
          have alike := found.symm.trans stored
          rw [holds_read left stored, holds_read right alike, read_present left stored,
            read_present right alike, same]
          exact ⟨rfl, rfl⟩
  | write key value =>
      refine ⟨?_, rfl⟩
      change (left.write key value).holds pre = (right.write key value).holds pre
      rw [holds_write, holds_write, same]
  | trim trimmed limit =>
      refine ⟨?_, rfl⟩
      have isFamily : trimmed = pre := of_decide_eq_true onFamily
      rw [perform, perform, isFamily, holds_trim, holds_trim, excess, excess, family_eq_keys,
        family_eq_keys, same]

end InMemoryStateStore

open InMemoryStateStore in
/-- Leaving out the operations on one family changes neither what the reads of the other
return nor what is left of it, values and order included. -/
theorem families_independent {pre other : String} (apart : Apart pre other)
    (operations : List (StoreOp Record))
    (covered : ∀ operation, operation ∈ operations →
      operation.on pre = true ∨ operation.on other = true)
    (store : InMemoryStateStore Record) :
    (serve pre store operations).2 =
        (serve pre store (operations.filter (StoreOp.on pre))).2 ∧
      (serve pre store operations).1.holds pre =
        (serve pre store (operations.filter (StoreOp.on pre))).1.holds pre := by
  suffices simulated : ∀ left right : InMemoryStateStore Record,
      left.holds pre = right.holds pre →
        (serve pre left operations).2 =
            (serve pre right (operations.filter (StoreOp.on pre))).2 ∧
          (serve pre left operations).1.holds pre =
            (serve pre right (operations.filter (StoreOp.on pre))).1.holds pre from
    simulated store store rfl
  induction operations with
  | nil => exact fun left right same => ⟨rfl, same⟩
  | cons operation rest ih =>
      intro left right same
      have others := ih (fun later member => covered later (List.mem_cons_of_mem _ member))
      by_cases onFamily : operation.on pre = true
      · obtain ⟨held, read⟩ := holds_perform_same same onFamily
        obtain ⟨reads, holdings⟩ := others _ _ held
        rw [List.filter_cons_of_pos onFamily]
        simp only [serve, read, reads, holdings, and_self]
      · -- the other run does not take this operation
        have onOther := (covered operation List.mem_cons_self).resolve_left onFamily
        obtain ⟨held, read⟩ := holds_perform_other left apart onOther
        obtain ⟨reads, holdings⟩ := others _ _ (held.trans same)
        rw [List.filter_cons_of_neg onFamily]
        simp only [serve, read, reads, holdings, Option.toList_none, List.nil_append, and_self]

/-- The bound of one family is applied while the other is in use. -/
theorem families_independent_windows :
    (InMemoryStateStore.serve "w:" ({} : InMemoryStateStore Nat)
        [.write "w:a" 1, .write "r:a" 2, .write "w:b" 3, .trim "r:" 0, .trim "w:" 1,
          .read "w:a"]).2 =
      (InMemoryStateStore.serve "w:" ({} : InMemoryStateStore Nat)
        [.write "w:a" 1, .write "w:b" 3, .trim "w:" 1, .read "w:a"]).2 :=
  (families_independent (⟨by decide, by decide⟩ : Apart "w:" "r:") _ (by decide) {}).1

end AsPlatform
