/-
Items taken group by group.

The groups come in the order of their keys, and the items of one group in the order they
had.  No item is lost or doubled, and the items come out in the order they had exactly if
they were in the order of the groups before.
-/

import Mathlib.Data.List.Basic
import Mathlib.Data.List.Pairwise

namespace Grouping

variable {Key Item : Type} [DecidableEq Key] (key : Item → Key)

def group (name : Key) (items : List Item) : List Item :=
  items.filter fun item => decide (key item = name)

def grouped (keys : List Key) (items : List Item) : List Item :=
  keys.flatMap fun name => group key name items

def known (keys : List Key) (items : List Item) : List Item :=
  items.filter fun item => decide (key item ∈ keys)

/-- The items stand in the order in which the keys list theirs. -/
def InOrder (keys : List Key) (items : List Item) : Prop :=
  items.Pairwise fun left right => keys.idxOf (key left) ≤ keys.idxOf (key right)

instance (keys : List Key) (items : List Item) : Decidable (InOrder key keys items) :=
  inferInstanceAs (Decidable (items.Pairwise _))

theorem group_known {name : Key} {keys : List Key} (member : name ∈ keys) (items : List Item) :
    group key name (known key keys items) = group key name items := by
  rw [group, known, List.filter_filter]
  apply List.filter_congr
  intro item _
  by_cases same : key item = name
  · simp [same, member]
  · simp [same]

theorem known_others {name : Key} {rest : List Key} (fresh : name ∉ rest) (items : List Item) :
    (known key (name :: rest) items).filter (fun item => !decide (key item = name)) =
      known key rest items := by
  rw [known, known, List.filter_filter]
  apply List.filter_congr
  intro item _
  by_cases same : key item = name
  · simp [same, fresh]
  · simp [same]

/-- Nothing is lost, doubled or added. -/
theorem grouped_perm {keys : List Key} (distinct : keys.Nodup) (items : List Item) :
    (grouped key keys items).Perm (known key keys items) := by
  induction keys with
  | nil => simp [grouped, known]
  | cons name rest ih =>
      obtain ⟨fresh, restDistinct⟩ := List.nodup_cons.mp distinct
      have parts := List.filter_append_perm (fun item => decide (key item = name))
        (known key (name :: rest) items)
      rw [known_others key fresh items] at parts
      have first := group_known key (List.mem_cons_self : name ∈ name :: rest) items
      rw [group] at first
      rw [first] at parts
      exact ((ih restDistinct).append_left (group key name items)).trans parts

/-- If what satisfies a predicate stands before what does not, it can be split off. -/
theorem filter_append_filter_not {items : List Item} {first : Item → Bool}
    (ordered : items.Pairwise fun left right => first right = true → first left = true) :
    items.filter first ++ items.filter (fun item => !first item) = items := by
  induction items with
  | nil => rfl
  | cons head tail ih =>
      obtain ⟨headFirst, tailOrdered⟩ := List.pairwise_cons.mp ordered
      by_cases isFirst : first head = true
      · rw [List.filter_cons_of_pos isFirst, List.filter_cons_of_neg (by simp [isFirst]),
          List.cons_append, ih tailOrdered]
      · have none : tail.filter first = [] :=
          List.filter_eq_nil_iff.mpr fun item member after =>
            isFirst (headFirst item member after)
        have all := ih tailOrdered
        rw [none, List.nil_append] at all
        rw [List.filter_cons_of_neg isFirst, List.filter_cons_of_pos (by simp [isFirst]), none,
          all, List.nil_append]

theorem grouped_inOrder {keys : List Key} (distinct : keys.Nodup) (items : List Item) :
    InOrder key keys (grouped key keys items) := by
  have ofGroup : ∀ {name item}, item ∈ group key name items → key item = name := by
    intro name item member
    exact of_decide_eq_true (List.mem_filter.mp member).2
  refine List.pairwise_flatMap.mpr ⟨?_, ?_⟩
  · intro name _
    apply List.pairwise_of_forall_mem_list
    intro left isLeft right isRight
    exact Nat.le_of_eq (by rw [ofGroup isLeft, ofGroup isRight])
  · rw [List.pairwise_iff_getElem]
    intro earlier later isEarlier isLater before left isLeft right isRight
    rw [ofGroup isLeft, ofGroup isRight, distinct.idxOf_getElem, distinct.idxOf_getElem]
    exact Nat.le_of_lt before

theorem grouped_of_inOrder {keys : List Key} (distinct : keys.Nodup) (items : List Item)
    (ordered : InOrder key keys (known key keys items)) :
    grouped key keys items = known key keys items := by
  induction keys with
  | nil => simp [grouped, known]
  | cons name rest ih =>
      obtain ⟨fresh, restDistinct⟩ := List.nodup_cons.mp distinct
      have others := known_others key fresh items
      have restOrdered : InOrder key rest (known key rest items) := by
        have inside := ordered.filter fun item => !decide (key item = name)
        rw [others] at inside
        apply inside.imp_of_mem
        intro left right isLeft isRight before
        have behind : ∀ {item}, item ∈ known key rest items →
            (name :: rest).idxOf (key item) = rest.idxOf (key item) + 1 := by
          intro item member
          apply List.idxOf_cons_ne
          intro same
          exact fresh (same ▸ of_decide_eq_true (List.mem_filter.mp member).2)
        rw [behind isLeft, behind isRight] at before
        exact Nat.le_of_succ_le_succ before
      have splits : (known key (name :: rest) items).Pairwise fun left right =>
          decide (key right = name) = true → decide (key left = name) = true := by
        apply ordered.imp
        intro left right before isFirst
        rw [of_decide_eq_true isFirst, List.idxOf_cons_self] at before
        by_contra other
        rw [List.idxOf_cons_ne rest (fun same => other (decide_eq_true same.symm))] at before
        exact Nat.not_succ_le_zero _ before
      have split := filter_append_filter_not splits
      rw [others] at split
      have first := group_known key (List.mem_cons_self : name ∈ name :: rest) items
      rw [group] at first
      rw [first, ← ih restDistinct restOrdered] at split
      exact split

/-- The items come out in the order they had exactly if they were in that of the groups. -/
theorem grouped_eq_iff {keys : List Key} (distinct : keys.Nodup) (items : List Item) :
    grouped key keys items = known key keys items ↔ InOrder key keys (known key keys items) := by
  constructor
  · intro same
    rw [← same]
    exact grouped_inOrder key distinct items
  · exact grouped_of_inOrder key distinct items

end Grouping
