/-
Lists merged into one.

`Merge kept added whole` says that `whole` is what is kept and what is added, each in its
own order.  A merged list can be cut at any place of the whole, and at any place of what
is kept.
-/

import Mathlib.Data.List.Basic

variable {Item : Type}

inductive Merge : List Item → List Item → List Item → Prop where
  | nil : Merge [] [] []
  | kept {kept added whole : List Item} (item : Item) (rest : Merge kept added whole) :
      Merge (item :: kept) added (item :: whole)
  | added {kept added whole : List Item} (item : Item) (rest : Merge kept added whole) :
      Merge kept (item :: added) (item :: whole)

namespace Merge

variable {kept added whole : List Item}

theorem refl (items : List Item) : Merge items [] items := by
  induction items with
  | nil => exact .nil
  | cons item items ih => exact .kept item ih

theorem append {laterKept laterAdded later : List Item} (first : Merge kept added whole)
    (second : Merge laterKept laterAdded later) :
    Merge (kept ++ laterKept) (added ++ laterAdded) (whole ++ later) := by
  induction first with
  | nil => exact second
  | kept item rest ih => exact .kept item ih
  | added item rest ih => exact .added item ih

theorem append_kept (merge : Merge kept added whole) (item : Item) :
    Merge (kept ++ [item]) added (whole ++ [item]) := by
  have longer := merge.append (.kept item .nil)
  rwa [List.append_nil] at longer

theorem append_added (merge : Merge kept added whole) (item : Item) :
    Merge kept (added ++ [item]) (whole ++ [item]) := by
  have longer := merge.append (.added item .nil)
  rwa [List.append_nil] at longer

theorem mem_whole_iff (merge : Merge kept added whole) (item : Item) :
    item ∈ whole ↔ item ∈ kept ∨ item ∈ added := by
  induction merge with
  | nil => simp
  | kept first rest ih => rw [List.mem_cons, List.mem_cons, ih, or_assoc]
  | added first rest ih => rw [List.mem_cons, List.mem_cons, ih, or_left_comm]

theorem filter_whole (merge : Merge kept added whole) {test : Item → Bool}
    (fails : ∀ item, item ∈ added → test item = false) :
    whole.filter test = kept.filter test := by
  induction merge with
  | nil => rfl
  | kept item rest ih => rw [List.filter_cons, List.filter_cons, ih fails]
  | added item rest ih =>
      obtain ⟨first, others⟩ := List.forall_mem_cons.mp fails
      rw [List.filter_cons_of_neg (by rw [first]; exact Bool.false_ne_true), ih others]

theorem cut_whole {front back : List Item} (merge : Merge kept added (front ++ back)) :
    ∃ keptFront keptBack addedFront addedBack, kept = keptFront ++ keptBack ∧
      added = addedFront ++ addedBack ∧ Merge keptFront addedFront front ∧
        Merge keptBack addedBack back := by
  induction front generalizing kept added with
  | nil => exact ⟨[], kept, [], added, rfl, rfl, .nil, merge⟩
  | cons item front ih =>
      cases merge with
      | kept _ rest =>
          obtain ⟨keptFront, keptBack, addedFront, addedBack, rfl, rfl, first, second⟩ := ih rest
          exact ⟨item :: keptFront, keptBack, addedFront, addedBack, rfl, rfl,
            .kept item first, second⟩
      | added _ rest =>
          obtain ⟨keptFront, keptBack, addedFront, addedBack, rfl, rfl, first, second⟩ := ih rest
          exact ⟨keptFront, keptBack, item :: addedFront, addedBack, rfl, rfl,
            .added item first, second⟩

theorem cut_kept {front back : List Item} (merge : Merge (front ++ back) added whole) :
    ∃ addedFront addedBack wholeFront wholeBack, added = addedFront ++ addedBack ∧
      whole = wholeFront ++ wholeBack ∧ Merge front addedFront wholeFront ∧
        Merge back addedBack wholeBack := by
  generalize split : front ++ back = items at merge
  induction merge generalizing front with
  | nil =>
      obtain ⟨rfl, rfl⟩ := List.append_eq_nil_iff.mp split
      exact ⟨[], [], [], [], rfl, rfl, .nil, .nil⟩
  | added item rest ih =>
      obtain ⟨addedFront, addedBack, wholeFront, wholeBack, rfl, rfl, first, second⟩ := ih split
      exact ⟨item :: addedFront, addedBack, item :: wholeFront, wholeBack, rfl, rfl,
        .added item first, second⟩
  | @kept others added whole item rest ih =>
      cases front with
      | nil =>
          subst split
          exact ⟨[], added, [], item :: whole, rfl, rfl, .nil, .kept item rest⟩
      | cons first front =>
          obtain ⟨rfl, tail⟩ := List.cons.inj split
          obtain ⟨addedFront, addedBack, wholeFront, wholeBack, rfl, rfl, earlier, second⟩ :=
            ih tail
          exact ⟨addedFront, addedBack, first :: wholeFront, wholeBack, rfl, rfl,
            .kept first earlier, second⟩

theorem cut_cons {item : Item} (merge : Merge (item :: kept) added whole) :
    ∃ between addedBack wholeBack, whole = between ++ item :: wholeBack ∧
      added = between ++ addedBack ∧ Merge kept addedBack wholeBack := by
  generalize split : item :: kept = items at merge
  induction merge with
  | nil => cases split
  | @kept others added whole first rest ih =>
      cases split
      exact ⟨[], added, whole, rfl, rfl, rest⟩
  | added first rest ih =>
      obtain ⟨between, addedBack, wholeBack, rfl, rfl, merge⟩ := ih split
      exact ⟨first :: between, addedBack, wholeBack, rfl, rfl, merge⟩

end Merge
