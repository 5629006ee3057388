/-
The first items of a stable sort.

Items are sorted by weight, the heaviest first, and items of one weight stay in the
order they had.  An item is among the first ones if few enough items go ahead of it.
-/

import Mathlib.Data.List.Sort

namespace Ranking

variable {Item : Type}

/-! ### Taking from an ordered list -/

/-- In a strictly ordered list the items ahead of an item are those before it. -/
theorem mem_take_iff_countP {items : List Item} (before : Item → Item → Prop)
    [DecidableRel before] (asymmetric : ∀ left right, before left right → ¬before right left)
    (ordered : items.Pairwise before) (count : Nat) (item : Item) :
    item ∈ items.take count ↔
      item ∈ items ∧ items.countP (fun other => before other item) < count := by
  induction items generalizing count with
  | nil => simp
  | cons head tail ih =>
      obtain ⟨headFirst, tailOrdered⟩ := List.pairwise_cons.mp ordered
      cases count with
      | zero => simp
      | succ count =>
          rw [List.take_succ_cons, List.mem_cons, List.mem_cons, ih tailOrdered]
          by_cases same : item = head
          · subst same
            have nothingAhead : (item :: tail).countP (fun other => before other item) = 0 := by
              rw [List.countP_eq_zero]
              intro other member ahead
              have ahead : before other item := of_decide_eq_true ahead
              rcases List.mem_cons.mp member with equal | later
              · rw [equal] at ahead
                exact asymmetric item item ahead ahead
              · exact asymmetric item other (headFirst other later) ahead
            rw [nothingAhead]
            exact ⟨fun _ => ⟨Or.inl rfl, Nat.succ_pos count⟩, fun _ => Or.inl rfl⟩
          · have oneAhead (later : item ∈ tail) :
                (head :: tail).countP (fun other => before other item) =
                  tail.countP (fun other => before other item) + 1 :=
              List.countP_cons_of_pos (p := fun other => decide (before other item))
                (decide_eq_true (headFirst item later))
            constructor
            · intro inside
              obtain ⟨later, few⟩ := inside.resolve_left same
              rw [oneAhead later]
              exact ⟨Or.inr later, Nat.succ_lt_succ few⟩
            · intro both
              have later := both.1.resolve_left same
              have few := both.2
              rw [oneAhead later] at few
              exact Or.inr ⟨later, Nat.lt_of_succ_lt_succ few⟩

/-! ### Sorting by weight -/

/-- One item goes ahead of another: it is heavier, or as heavy and earlier. -/
def Ahead (weight position : Item → Nat) (left right : Item) : Prop :=
  weight right < weight left ∨ weight left = weight right ∧ position left < position right

instance (weight position : Item → Nat) : DecidableRel (Ahead weight position) :=
  fun left right => inferInstanceAs (Decidable
    (weight right < weight left ∨ weight left = weight right ∧ position left < position right))

variable {weight position : Item → Nat}

theorem Ahead.asymmetric (left right : Item) (ahead : Ahead weight position left right) :
    ¬Ahead weight position right left := by
  unfold Ahead at ahead ⊢
  omega

theorem Ahead.weight_le {left right : Item} (ahead : Ahead weight position left right) :
    weight right ≤ weight left := by
  unfold Ahead at ahead
  omega

theorem Ahead.transitive {left middle right : Item} (first : Ahead weight position left middle)
    (second : Ahead weight position middle right) : Ahead weight position left right := by
  unfold Ahead at first second ⊢
  omega

theorem weight_le_of_countP_lt (items : List Item) {left right : Item}
    (fewer : items.countP (fun other => Ahead weight position other left) <
      items.countP (fun other => Ahead weight position other right)) :
    weight right ≤ weight left := by
  by_contra heavier
  have ahead : Ahead weight position right left := Or.inl (Nat.lt_of_not_le heavier)
  apply Nat.not_le_of_lt fewer
  apply List.countP_mono_left
  intro other _ aheadOfRight
  exact decide_eq_true (Ahead.transitive (of_decide_eq_true aheadOfRight) ahead)

def byWeight (weight : Item → Nat) (items : List Item) : List Item :=
  items.insertionSort (fun left right => weight right ≤ weight left)

theorem byWeight_perm (weight : Item → Nat) (items : List Item) :
    (byWeight weight items).Perm items :=
  List.perm_insertionSort _ items

theorem orderedInsert_ahead (head : Item) (items : List Item)
    (ordered : items.Pairwise (Ahead weight position))
    (earliest : ∀ item, item ∈ items → position head < position item) :
    (items.orderedInsert (fun left right => weight right ≤ weight left) head).Pairwise
      (Ahead weight position) := by
  induction items with
  | nil => exact List.pairwise_singleton _ _
  | cons first rest ih =>
      obtain ⟨firstAhead, restOrdered⟩ := List.pairwise_cons.mp ordered
      by_cases heavier : weight first ≤ weight head
      · rw [List.orderedInsert_cons_of_le _ rest heavier, List.pairwise_cons]
        constructor
        · intro item member
          have later := earliest item member
          have lighter : weight item ≤ weight head := by
            rcases List.mem_cons.mp member with equal | inRest
            · rw [equal]
              exact heavier
            · exact (firstAhead item inRest).weight_le.trans heavier
          unfold Ahead
          omega
        · exact ordered
      · rw [List.orderedInsert_of_not_le _ rest heavier, List.pairwise_cons]
        constructor
        · intro item member
          rcases (List.mem_orderedInsert _).mp member with equal | inRest
          · rw [equal]
            exact Or.inl (Nat.lt_of_not_le heavier)
          · exact firstAhead item inRest
        · exact ih restOrdered (fun item member => earliest item (List.mem_cons_of_mem _ member))

theorem byWeight_pairwise (items : List Item)
    (inOrder : items.Pairwise (fun left right => position left < position right)) :
    (byWeight weight items).Pairwise (Ahead weight position) := by
  induction items with
  | nil => exact List.Pairwise.nil
  | cons head tail ih =>
      obtain ⟨headFirst, tailInOrder⟩ := List.pairwise_cons.mp inOrder
      rw [byWeight, List.insertionSort_cons]
      apply orderedInsert_ahead
      · exact ih tailInOrder
      · intro item member
        exact headFirst item ((List.mem_insertionSort _).mp member)

/-- The first items by weight are those with few enough items ahead of them. -/
theorem mem_take_byWeight (items : List Item)
    (inOrder : items.Pairwise (fun left right => position left < position right))
    (count : Nat) (item : Item) :
    item ∈ (byWeight weight items).take count ↔
      item ∈ items ∧
        items.countP (fun other => Ahead weight position other item) < count := by
  rw [mem_take_iff_countP (Ahead weight position) Ahead.asymmetric
    (byWeight_pairwise items inOrder), (byWeight_perm weight items).mem_iff,
    (byWeight_perm weight items).countP_eq]

end Ranking
