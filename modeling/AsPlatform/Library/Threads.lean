/-
Threads in a list.

What a number of threads add up to changes by what the one adds that takes a step.
-/

import Mathlib.Data.List.Basic
import Mathlib.Data.List.Induction
import Mathlib.Algebra.GroupWithZero.Nat

namespace Threads

variable {Thread : Type}

def total (amount : Thread → Nat) (threads : List Thread) : Nat :=
  (threads.map amount).sum

theorem total_set {threads : List Thread} {index : Nat} {before : Thread}
    (found : threads[index]? = some before) (amount : Thread → Nat) (after : Thread) :
    total amount (threads.set index after) + amount before =
      total amount threads + amount after := by
  induction threads generalizing index with
  | nil => cases found
  | cons thread rest ih =>
      cases index with
      | zero =>
          cases found
          simp only [total, List.set_cons_zero, List.map_cons, List.sum_cons]
          omega
      | succ index =>
          have inRest : rest[index]? = some before := found
          have later := ih inRest
          simp only [total, List.set_cons_succ, List.map_cons, List.sum_cons] at later ⊢
          omega

theorem total_replicate (amount : Thread → Nat) (count : Nat) (thread : Thread) :
    total amount (List.replicate count thread) = count * amount thread := by
  simp [total]

theorem total_eq_zero {amount : Thread → Nat} {threads : List Thread}
    (nothing : ∀ thread ∈ threads, amount thread = 0) : total amount threads = 0 := by
  induction threads with
  | nil => rfl
  | cons thread rest ih =>
      have later := ih (fun other member => nothing other (List.mem_cons_of_mem thread member))
      rw [total] at later
      rw [total, List.map_cons, List.sum_cons, later, nothing thread List.mem_cons_self]

def Every (holds : Nat → Thread → Prop) (threads : List Thread) : Prop :=
  ∀ (index : Nat) (thread : Thread), threads[index]? = some thread → holds index thread

theorem every_replicate {holds : Nat → Thread → Prop} {count : Nat} {thread : Thread}
    (all : ∀ index, holds index thread) : Every holds (List.replicate count thread) := by
  intro index other found
  rw [List.eq_of_mem_replicate (List.mem_of_getElem? found)]
  exact all index

theorem Every.set {holds later : Nat → Thread → Prop} {threads : List Thread}
    (every : Every holds threads) {index : Nat} {after : Thread} (own : later index after)
    (others : ∀ other thread, other ≠ index → holds other thread → later other thread) :
    Every later (threads.set index after) := by
  intro other thread found
  by_cases same : other = index
  · subst same
    have inside := (List.getElem?_eq_some_iff.mp found).choose
    rw [List.length_set] at inside
    rw [List.getElem?_set_self inside] at found
    cases found
    exact own
  · rw [List.getElem?_set_ne (fun equal => same equal.symm)] at found
    exact others other thread same (every other thread found)

theorem Every.concat {holds : Nat → Thread → Prop} {threads : List Thread} {thread : Thread}
    (every : Every holds threads) (last : holds threads.length thread) :
    Every holds (threads ++ [thread]) := by
  intro index other found
  rcases Nat.lt_or_ge index threads.length with before | behind
  · rw [List.getElem?_append_left before] at found
    exact every index other found
  · have inside := (List.getElem?_eq_some_iff.mp found).choose
    rw [List.length_append, List.length_singleton] at inside
    have same : index = threads.length := Nat.le_antisymm (Nat.le_of_lt_succ inside) behind
    subst same
    rw [List.getElem?_concat_length] at found
    cases found
    exact last

theorem map_set_of_eq {Seen : Type} {seen : Thread → Seen} {threads : List Thread} {index : Nat}
    {before after : Thread} (found : threads[index]? = some before)
    (same : seen after = seen before) : (threads.set index after).map seen = threads.map seen := by
  obtain ⟨inside, isBefore⟩ := List.getElem?_eq_some_iff.mp found
  rw [← isBefore] at same
  have inMap : index < (threads.map seen).length := by
    rw [List.length_map]
    exact inside
  rw [List.map_set, same, ← List.getElem_map seen (h := inMap)]
  exact List.set_getElem_self inMap

/-- If it is known of each thread whether it adds one, the total counts those that do. -/
theorem total_eq_countP {threads : List Thread} {amount : Thread → Nat} {adds : Nat → Bool}
    (each : Every (fun index thread => amount thread = if adds index = true then 1 else 0)
      threads) : total amount threads = (List.range threads.length).countP adds := by
  induction threads using List.reverseRecOn with
  | nil => rfl
  | append_singleton rest thread ih =>
      have last := each rest.length thread (by rw [List.getElem?_concat_length])
      have before := ih (fun index other found => each index other (by
        rw [List.getElem?_append_left (List.getElem?_eq_some_iff.mp found).choose]
        exact found))
      rw [List.length_append, List.length_singleton, List.range_succ, List.countP_append,
        ← before, total, List.map_append, List.sum_append]
      simp [total, last, List.countP_cons]

/-- If the threads add up to less than one each, one of them adds nothing. -/
theorem exists_of_total_lt {threads : List Thread} {amount : Thread → Nat}
    (fewer : total amount threads < threads.length) :
    ∃ (index : Nat) (thread : Thread), threads[index]? = some thread ∧ amount thread = 0 := by
  induction threads with
  | nil => cases fewer
  | cons thread rest ih =>
      by_cases nothing : amount thread = 0
      · exact ⟨0, thread, rfl, nothing⟩
      · have later : total amount rest < rest.length := by
          simp only [total, List.map_cons, List.sum_cons, List.length_cons] at fewer ⊢
          omega
        obtain ⟨index, other, found, none⟩ := ih later
        exact ⟨index + 1, other, found, none⟩

end Threads
