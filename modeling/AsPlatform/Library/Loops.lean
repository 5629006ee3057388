/-
Nested loops over collections.

A loop body covers some cells, and what it does to them is a relation between the states
before and after it.  If the relation composes, a loop is described by all the cells that
its bodies cover, however the loops are nested.
-/

import Mathlib.Data.List.Basic

namespace Loops

variable {Item Cell State : Type}

structure Composes (Covers : List Cell → State → State → Prop) : Prop where
  nil : ∀ state, Covers [] state state
  append : ∀ {first second before middle after}, Covers first before middle →
    Covers second middle after → Covers (first ++ second) before after

theorem Composes.foldl {Covers : List Cell → State → State → Prop} (composes : Composes Covers)
    {cells : Item → List Cell} {body : State → Item → State}
    (each : ∀ state item, Covers (cells item) state (body state item)) (items : List Item)
    (state : State) : Covers (items.flatMap cells) state (items.foldl body state) := by
  induction items generalizing state with
  | nil => exact composes.nil state
  | cons item rest ih => exact composes.append (each state item) (ih (body state item))

end Loops
