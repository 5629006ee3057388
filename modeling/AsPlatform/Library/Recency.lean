/-
The order of last access.

A history lists the keys that were accessed, the latest access at its end.  The keys
in the order of their last accesses are the history without its earlier repetitions.
A store that keeps the last `limit` of them knows a key exactly if fewer than `limit`
others were accessed since.
-/

import Mathlib.Data.List.Dedup
import Mathlib.Data.List.DropRight
import Mathlib.Tactic.NthRewrite

namespace Recency

variable {Key : Type} [DecidableEq Key]

/-- The accesses after the last access to the key. -/
def since (key : Key) (history : List Key) : List Key :=
  history.rtakeWhile (fun accessed => accessed ≠ key)

/-- The keys accessed last, at most `limit` of them, the latest at the end. -/
def recent (limit : Nat) (history : List Key) : List Key :=
  history.dedup.rtake limit

theorem rtake_suffix {Item : Type} (limit : Nat) (items : List Item) :
    items.rtake limit <:+ items :=
  List.drop_suffix _ items

theorem map_rtake {Item Image : Type} (image : Item → Image) (limit : Nat)
    (items : List Item) : (items.rtake limit).map image = (items.map image).rtake limit := by
  rw [List.rtake, List.rtake, List.map_drop, List.length_map]

theorem rtake_length {Item : Type} (limit : Nat) (items : List Item) :
    (items.rtake limit).length = min limit items.length := by
  rw [List.rtake, List.length_drop]
  omega

theorem rtake_append_of_le {Item : Type} (limit : Nat) (earlier later : List Item)
    (enough : limit ≤ later.length) : (earlier ++ later).rtake limit = later.rtake limit := by
  have beyond : earlier.length + later.length - limit =
      earlier.length + (later.length - limit) := by omega
  rw [List.rtake, List.rtake, List.length_append, beyond, List.drop_length_add_append]

theorem rtake_rtake_append {Item : Type} (limit : Nat) (items : List Item) (item : Item) :
    (items.rtake limit ++ [item]).rtake limit = (items ++ [item]).rtake limit := by
  by_cases short : items.length ≤ limit
  · have whole : items.rtake limit = items := by
      rw [List.rtake, Nat.sub_eq_zero_of_le short, List.drop_zero]
    rw [whole]
  · have parts : items = items.take (items.length - limit) ++ items.rtake limit :=
      (List.take_append_drop _ items).symm
    have long : limit ≤ (items.rtake limit ++ [item]).length := by
      rw [List.length_append, rtake_length]
      omega
    nth_rewrite 2 [parts]
    rw [List.append_assoc, rtake_append_of_le _ _ _ long]

theorem dedup_append_singleton (history : List Key) (key : Key) :
    (history ++ [key]).dedup = history.dedup.filter (fun other => other ≠ key) ++ [key] := by
  induction history with
  | nil => rfl
  | cons first rest ih =>
      rw [List.cons_append]
      by_cases again : first ∈ rest
      · rw [List.dedup_cons_of_mem (List.mem_append_left [key] again), ih,
          List.dedup_cons_of_mem again]
      · rw [List.dedup_cons_of_notMem again]
        by_cases same : first = key
        · subst same
          rw [List.dedup_cons_of_mem (List.mem_append_right rest List.mem_cons_self), ih,
            List.filter_cons_of_neg (by simp)]
        · have fresh : first ∉ rest ++ [key] := by
            simp [again, same]
          rw [List.dedup_cons_of_notMem fresh, ih, List.filter_cons_of_pos (by simpa using same),
            List.cons_append]

theorem length_le_filter_ne {items : List Key} (distinct : items.Nodup) (key : Key) :
    items.length ≤ (items.filter (fun other => other ≠ key)).length + 1 := by
  have erased : items.erase key = items.filter (fun other => other ≠ key) := by
    rw [distinct.erase_eq_filter key]
    exact List.filter_congr (fun other _ => by simp [bne, beq_eq_decide])
  rw [← erased, List.length_erase]
  split <;> omega

/-- Taking the last of a list without repetitions before a key is moved to the end, or
only afterwards, comes to the same. -/
theorem rtake_filter_append (limit : Nat) (items : List Key) (distinct : items.Nodup)
    (key : Key) :
    ((items.rtake limit).filter (fun other => other ≠ key) ++ [key]).rtake limit =
      (items.filter (fun other => other ≠ key) ++ [key]).rtake limit := by
  cases limit with
  | zero => rw [List.rtake_zero, List.rtake_zero]
  | succ limit =>
      rw [List.rtake_concat_succ, List.rtake_concat_succ]
      congr 1
      by_cases short : items.length ≤ limit + 1
      · have all : items.rtake (limit + 1) = items := by
          rw [List.rtake, Nat.sub_eq_zero_of_le short, List.drop_zero]
        rw [all]
      · obtain ⟨older, split⟩ := rtake_suffix (limit + 1) items
        have length : (items.rtake (limit + 1)).length = limit + 1 := by
          rw [rtake_length]
          omega
        have kept : limit ≤
            ((items.rtake (limit + 1)).filter (fun other => other ≠ key)).length := by
          have once : (items.rtake (limit + 1)).Nodup :=
            distinct.sublist (rtake_suffix (limit + 1) items).sublist
          have fewer := length_le_filter_ne once key
          omega
        conv_rhs => rw [← split, List.filter_append, rtake_append_of_le _ _ _ kept]

theorem recent_append_singleton (limit : Nat) (history : List Key) (key : Key) :
    recent limit (history ++ [key]) =
      ((recent limit history).filter (fun other => other ≠ key) ++ [key]).rtake limit := by
  unfold recent
  rw [dedup_append_singleton, rtake_filter_append limit _ (List.nodup_dedup history)]

theorem recent_length (limit : Nat) (history : List Key) :
    (recent limit history).length ≤ limit := by
  rw [recent, rtake_length]
  exact Nat.min_le_left _ _

/-! ### What was accessed since -/

@[simp] theorem since_append_same (key : Key) (history : List Key) :
    since key (history ++ [key]) = [] :=
  List.rtakeWhile_concat_neg (fun accessed => decide (accessed ≠ key)) history key (by simp)

@[simp] theorem since_append_of_ne {key other : Key} (different : other ≠ key)
    (history : List Key) : since key (history ++ [other]) = since key history ++ [other] :=
  List.rtakeWhile_concat_pos (fun accessed => decide (accessed ≠ key)) history other
    (by simpa using different)

theorem split_last {key : Key} {history : List Key} (accessed : key ∈ history) :
    ∃ earlier, history = earlier ++ key :: since key history := by
  induction history using List.reverseRecOn with
  | nil => cases accessed
  | append_singleton history last ih =>
      by_cases same : last = key
      · subst same
        exact ⟨history, by rw [since_append_same]⟩
      · have before : key ∈ history := by
          rcases List.mem_append.mp accessed with inside | atEnd
          · exact inside
          · exact absurd (List.mem_singleton.mp atEnd).symm same
        obtain ⟨earlier, split⟩ := ih before
        refine ⟨earlier, ?_⟩
        rw [since_append_of_ne same, ← List.cons_append, ← List.append_assoc, ← split]

theorem since_split (earlier : List Key) {key : Key} {later : List Key}
    (absent : key ∉ later) : since key (earlier ++ key :: later) = later := by
  induction later using List.reverseRecOn with
  | nil => exact since_append_same key earlier
  | append_singleton later last ih =>
      rw [List.mem_append, not_or] at absent
      have different : last ≠ key := fun same => absent.2 (by simp [same])
      rw [← List.cons_append, ← List.append_assoc, since_append_of_ne different, ih absent.1]

theorem not_mem_since (key : Key) (history : List Key) : key ∉ since key history := by
  intro member
  have impossible := List.mem_rtakeWhile_imp member
  simp at impossible

/-- In the order of last accesses a key is followed by those accessed since. -/
theorem dedup_split_last {key : Key} {history : List Key} (accessed : key ∈ history) :
    ∃ older, history.dedup = older ++ key :: (since key history).dedup := by
  obtain ⟨earlier, split⟩ := split_last accessed
  have later : (key :: since key history).dedup = key :: (since key history).dedup :=
    List.dedup_cons_of_notMem (not_mem_since key history)
  obtain ⟨older, _, union⟩ := List.sublist_suffix_of_union earlier
    (key :: (since key history).dedup)
  refine ⟨older, ?_⟩
  conv_lhs => rw [split, List.dedup_append, later]
  exact union.symm

/-- A key is among the last `limit` exactly if fewer than `limit` others were accessed
since it was. -/
theorem mem_recent_iff (limit : Nat) (history : List Key) (key : Key) :
    key ∈ recent limit history ↔ key ∈ history ∧ (since key history).dedup.length < limit := by
  by_cases accessed : key ∈ history
  · obtain ⟨older, split⟩ := dedup_split_last accessed
    have distinct := List.nodup_dedup history
    rw [split] at distinct
    have once : key ∉ (since key history).dedup :=
      (List.nodup_cons.mp (List.nodup_append.mp distinct).2.1).1
    rw [recent, split]
    constructor
    · intro member
      refine ⟨accessed, ?_⟩
      by_contra many
      rw [List.append_cons, rtake_append_of_le limit _ _ (Nat.le_of_not_lt many)] at member
      exact once ((rtake_suffix limit _).subset member)
    · rintro ⟨_, few⟩
      have enough : (since key history).dedup.length + 1 ≤ limit := few
      have length : (key :: (since key history).dedup).length ≤ limit := enough
      have dropped : (older ++ key :: (since key history).dedup).length - limit ≤
          older.length := by
        rw [List.length_append]
        omega
      rw [List.rtake, List.drop_append_of_le_length dropped]
      exact List.mem_append_right _ List.mem_cons_self
  · have absent : key ∉ recent limit history :=
      fun member => accessed (List.mem_dedup.mp ((rtake_suffix limit _).subset member))
    exact iff_of_false absent (fun both => accessed both.1)

theorem take_reverse_recent (count limit : Nat) (history : List Key) :
    (recent limit history).reverse.take count = (recent (min count limit) history).reverse := by
  unfold recent
  rw [List.rtake_eq_reverse_take_reverse, List.rtake_eq_reverse_take_reverse,
    List.reverse_reverse, List.reverse_reverse, List.take_take]

theorem recent_length_mono (limit : Nat) (history : List Key) (key : Key) :
    (recent limit history).length ≤ (recent limit (history ++ [key])).length := by
  unfold recent
  rw [rtake_length, rtake_length, dedup_append_singleton, List.length_append]
  have fewer := length_le_filter_ne (List.nodup_dedup history) key
  have one : [key].length = 1 := rfl
  omega

end Recency
