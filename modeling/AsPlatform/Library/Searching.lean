/-
What a backtracking matcher finds.

A repetition tries its longest run first and gives symbols back as long as the rest of the
pattern cannot follow; a search tries its places from the left.  So the run that is found
is the longest that can be followed, and the match that is found is the leftmost.
-/

import AsPlatform.Library.Backtracking

namespace Backtracking

variable {Symbol : Type}

theorem previous_cons (next : Symbol) (previous : Option Symbol) (front : List Symbol) :
    (next :: front).getLast?.or previous = front.getLast?.or (some next) := by
  rw [List.getLast?_cons]
  cases front.getLast? <;> rfl

namespace Cursor

/-- The cursor behind a word that it stands at and that is captured. -/
def grouped (index : Nat) (word rest : List Symbol) (cursor : Cursor Symbol) : Cursor Symbol :=
  { cursor.past word rest with captured := (index, word) :: cursor.captured }

theorem past_cons (next : Symbol) (word behind rest : List Symbol)
    (captured : List (Nat × List Symbol)) (previous : Option Symbol) :
    Cursor.past (next :: word) behind ⟨previous, next :: rest, captured⟩ =
      Cursor.past word behind ⟨some next, rest, captured⟩ := by
  unfold past
  rw [previous_cons]

theorem capture_past (index : Nat) {word rest : List Symbol} {cursor : Cursor Symbol}
    (stands : cursor.rest = word ++ rest) :
    cursor.capture index (cursor.past word rest) = cursor.grouped index word rest := by
  have read : cursor.rest.take (cursor.rest.length - rest.length) = word := by
    rw [stands, List.length_append, Nat.add_sub_cancel]
    exact List.take_left
  unfold capture grouped
  rw [past_rest, past_captured, read]
  rfl

end Cursor

namespace Pattern

open Cursor

/-! ### The longest -/

theorem mem_runs {accepts : Symbol → Bool} {captured : List (Nat × List Symbol)}
    {previous : Option Symbol} {rest : List Symbol} {cursor : Cursor Symbol} :
    cursor ∈ runs accepts captured previous rest ↔
      ∃ word behind, rest = word ++ behind ∧ (∀ symbol ∈ word, accepts symbol = true) ∧
        cursor = Cursor.past word behind ⟨previous, rest, captured⟩ := by
  induction rest generalizing previous with
  | nil =>
      rw [runs, List.mem_singleton]
      constructor
      · rintro rfl
        exact ⟨[], [], rfl, List.forall_mem_nil _, rfl⟩
      · rintro ⟨word, behind, split, _, rfl⟩
        obtain ⟨rfl, rfl⟩ := List.nil_eq_append_iff.mp split
        rfl
  | cons next rest ih =>
      have here : (∃ behind, next :: rest = [] ++ behind ∧
          cursor = Cursor.past [] behind ⟨previous, next :: rest, captured⟩) ↔
            cursor = ⟨previous, next :: rest, captured⟩ := by
        constructor
        · rintro ⟨behind, rfl, rfl⟩
          rfl
        · rintro rfl
          exact ⟨next :: rest, rfl, rfl⟩
      rw [runs]
      split
      · rename_i accepted
        rw [List.mem_append, List.mem_singleton, ih, ← here]
        constructor
        · rintro (⟨word, behind, rfl, all, rfl⟩ | ⟨behind, split, rfl⟩)
          · exact ⟨next :: word, behind, rfl, List.forall_mem_cons.mpr ⟨accepted, all⟩,
              (Cursor.past_cons _ _ _ _ _ _).symm⟩
          · exact ⟨[], behind, split, List.forall_mem_nil _, rfl⟩
        · rintro ⟨word, behind, split, all, rfl⟩
          cases word with
          | nil => exact Or.inr ⟨behind, split, rfl⟩
          | cons first word =>
              obtain ⟨rfl, rfl⟩ := List.cons_eq_cons.mp split
              exact Or.inl ⟨word, behind, rfl, (List.forall_mem_cons.mp all).2,
                Cursor.past_cons _ _ _ _ _ _⟩
      · rename_i refused
        rw [List.mem_singleton, ← here]
        constructor
        · rintro ⟨behind, split, rfl⟩
          exact ⟨[], behind, split, List.forall_mem_nil _, rfl⟩
        · rintro ⟨word, behind, split, all, rfl⟩
          cases word with
          | nil => exact ⟨behind, split, rfl⟩
          | cons first word =>
              obtain ⟨rfl, rfl⟩ := List.cons_eq_cons.mp split
              exact absurd (List.forall_mem_cons.mp all).1 refused

/-- The run that is found is the longest that can be followed. -/
theorem findSome?_runs_eq_some_iff {accepts : Symbol → Bool} {Found : Type}
    {follow : Cursor Symbol → Option Found} {captured : List (Nat × List Symbol)}
    {previous : Option Symbol} {rest : List Symbol} {found : Found} :
    (runs accepts captured previous rest).findSome? follow = some found ↔
      ∃ word behind, rest = word ++ behind ∧ (∀ symbol ∈ word, accepts symbol = true) ∧
        follow (Cursor.past word behind ⟨previous, rest, captured⟩) = some found ∧
        ∀ more later, behind = more ++ later → more ≠ [] →
          (∀ symbol ∈ more, accepts symbol = true) →
            follow (Cursor.past (word ++ more) later ⟨previous, rest, captured⟩) = none := by
  induction rest generalizing previous with
  | nil =>
      rw [runs, List.findSome?_singleton]
      constructor
      · intro followed
        refine ⟨[], [], rfl, List.forall_mem_nil _, followed, ?_⟩
        intro more later split present
        exact absurd (List.nil_eq_append_iff.mp split).1 present
      · rintro ⟨word, behind, split, _, followed, _⟩
        obtain ⟨rfl, rfl⟩ := List.nil_eq_append_iff.mp split
        exact followed
  | cons next rest ih =>
      rw [runs]
      by_cases accepted : accepts next = true
      · rw [if_pos accepted, List.findSome?_append, List.findSome?_singleton,
          Option.or_eq_some_iff, ih, List.findSome?_eq_none_iff]
        constructor
        · rintro (⟨word, behind, rfl, all, followed, longest⟩ | ⟨none, followed⟩)
          · refine ⟨next :: word, behind, rfl, List.forall_mem_cons.mpr ⟨accepted, all⟩, ?_, ?_⟩
            · rw [Cursor.past_cons]
              exact followed
            · intro more later split present allMore
              rw [List.cons_append, Cursor.past_cons]
              exact longest more later split present allMore
          · refine ⟨[], next :: rest, rfl, List.forall_mem_nil _, followed, ?_⟩
            intro more later split present allMore
            cases more with
            | nil => exact absurd rfl present
            | cons first more =>
                obtain ⟨rfl, rfl⟩ := List.cons_eq_cons.mp split
                refine none _ (mem_runs.mpr
                  ⟨more, later, rfl, (List.forall_mem_cons.mp allMore).2, ?_⟩)
                rw [List.nil_append, Cursor.past_cons]
        · rintro ⟨word, behind, split, all, followed, longest⟩
          cases word with
          | nil =>
              rw [List.nil_append] at split
              refine Or.inr ⟨?_, ?_⟩
              · intro cursor member
                obtain ⟨more, later, rfl, allMore, rfl⟩ := mem_runs.mp member
                have none := longest (next :: more) later (by rw [← split]; rfl)
                  (List.cons_ne_nil _ _)
                  (List.forall_mem_cons.mpr ⟨accepted, allMore⟩)
                rw [List.nil_append, Cursor.past_cons] at none
                exact none
              · rw [split]
                rw [← split] at followed ⊢
                exact followed
          | cons first word =>
              obtain ⟨rfl, rfl⟩ := List.cons_eq_cons.mp split
              refine Or.inl ⟨word, behind, rfl, (List.forall_mem_cons.mp all).2, ?_, ?_⟩
              · rw [Cursor.past_cons] at followed
                exact followed
              · intro more later splitMore present allMore
                have none := longest more later splitMore present allMore
                rw [List.cons_append, Cursor.past_cons] at none
                exact none
      · rw [if_neg accepted, List.findSome?_singleton]
        constructor
        · intro followed
          refine ⟨[], next :: rest, rfl, List.forall_mem_nil _, followed, ?_⟩
          intro more later split present allMore
          cases more with
          | nil => exact absurd rfl present
          | cons first more =>
              obtain ⟨rfl, _⟩ := List.cons_eq_cons.mp split
              exact absurd (List.forall_mem_cons.mp allMore).1 accepted
        · rintro ⟨word, behind, split, all, followed, _⟩
          cases word with
          | nil =>
              rw [List.nil_append] at split
              rw [← split] at followed
              exact followed
          | cons first word =>
              obtain ⟨rfl, _⟩ := List.cons_eq_cons.mp split
              exact absurd (List.forall_mem_cons.mp all).1 accepted

theorem ways_plus_cons (accepts : Symbol → Bool) (previous : Option Symbol) (next : Symbol)
    (rest : List Symbol) (captured : List (Nat × List Symbol)) :
    (plus accepts).ways ⟨previous, next :: rest, captured⟩ =
      if accepts next then runs accepts captured (some next) rest else [] := by
  rw [plus, ways, ways_symbol_cons]
  split
  · rw [List.flatMap_cons, List.flatMap_nil, List.append_nil, ways]
  · rfl

theorem findSome?_plus_eq_some_iff {accepts : Symbol → Bool} {Found : Type}
    {follow : Cursor Symbol → Option Found} {captured : List (Nat × List Symbol)}
    {previous : Option Symbol} {rest : List Symbol} {found : Found} :
    ((plus accepts).ways ⟨previous, rest, captured⟩).findSome? follow = some found ↔
      ∃ word behind, rest = word ++ behind ∧ word ≠ [] ∧
        (∀ symbol ∈ word, accepts symbol = true) ∧
        follow (past word behind ⟨previous, rest, captured⟩) = some found ∧
        ∀ more later, behind = more ++ later → more ≠ [] →
          (∀ symbol ∈ more, accepts symbol = true) →
            follow (past (word ++ more) later ⟨previous, rest, captured⟩) = none := by
  cases rest with
  | nil =>
      refine iff_of_false nofun ?_
      rintro ⟨word, behind, split, present, _⟩
      exact present (List.nil_eq_append_iff.mp split).1
  | cons next rest =>
      rw [ways_plus_cons]
      by_cases accepted : accepts next = true
      · rw [if_pos accepted, findSome?_runs_eq_some_iff]
        constructor
        · rintro ⟨word, behind, rfl, all, followed, longest⟩
          refine ⟨next :: word, behind, rfl, List.cons_ne_nil _ _,
            List.forall_mem_cons.mpr ⟨accepted, all⟩, ?_, ?_⟩
          · rw [past_cons]
            exact followed
          · intro more later split present allMore
            rw [List.cons_append, past_cons]
            exact longest more later split present allMore
        · rintro ⟨word, behind, split, present, all, followed, longest⟩
          cases word with
          | nil => exact absurd rfl present
          | cons first word =>
              obtain ⟨rfl, rfl⟩ := List.cons_eq_cons.mp split
              rw [past_cons] at followed
              refine ⟨word, behind, rfl, (List.forall_mem_cons.mp all).2, followed, ?_⟩
              intro more later splitMore presentMore allMore
              have none := longest more later splitMore presentMore allMore
              rw [List.cons_append, past_cons] at none
              exact none
      · rw [if_neg accepted]
        refine iff_of_false nofun ?_
        rintro ⟨word, behind, split, present, all, _⟩
        cases word with
        | nil => exact present rfl
        | cons first word =>
            obtain ⟨rfl, _⟩ := List.cons_eq_cons.mp split
            exact accepted (List.forall_mem_cons.mp all).1

theorem findSome?_plus_eq_none_iff {accepts : Symbol → Bool} {Found : Type}
    {follow : Cursor Symbol → Option Found} {captured : List (Nat × List Symbol)}
    {previous : Option Symbol} {rest : List Symbol} :
    ((plus accepts).ways ⟨previous, rest, captured⟩).findSome? follow = none ↔
      ∀ word behind, rest = word ++ behind → word ≠ [] →
        (∀ symbol ∈ word, accepts symbol = true) →
          follow (past word behind ⟨previous, rest, captured⟩) = none := by
  rw [List.findSome?_eq_none_iff]
  cases rest with
  | nil =>
      refine iff_of_true (List.forall_mem_nil _) fun word behind split present => ?_
      exact absurd (List.nil_eq_append_iff.mp split).1 present
  | cons next rest =>
      rw [ways_plus_cons]
      by_cases accepted : accepts next = true
      · rw [if_pos accepted]
        constructor
        · intro every word behind split present all
          cases word with
          | nil => exact absurd rfl present
          | cons first word =>
              obtain ⟨rfl, rfl⟩ := List.cons_eq_cons.mp split
              refine every _ (mem_runs.mpr ⟨word, behind, rfl, (List.forall_mem_cons.mp all).2, ?_⟩)
              rw [past_cons]
        · intro every cursor member
          obtain ⟨word, behind, rfl, all, rfl⟩ := mem_runs.mp member
          rw [← past_cons next word behind _ captured previous]
          exact every _ behind rfl (List.cons_ne_nil _ _)
            (List.forall_mem_cons.mpr ⟨accepted, all⟩)
      · rw [if_neg accepted]
        refine iff_of_true (List.forall_mem_nil _) fun word behind split present all => ?_
        cases word with
        | nil => exact absurd rfl present
        | cons first word =>
            obtain ⟨rfl, _⟩ := List.cons_eq_cons.mp split
            exact absurd (List.forall_mem_cons.mp all).1 accepted

theorem matchAt_seq_group_plus_eq_some_iff {index : Nat} {accepts : Symbol → Bool}
    {second : Pattern Symbol} {cursor found : Cursor Symbol} :
    (seq (group index (plus accepts)) second).matchAt cursor = some found ↔
      ∃ word behind, cursor.rest = word ++ behind ∧ word ≠ [] ∧
        (∀ symbol ∈ word, accepts symbol = true) ∧
        second.matchAt (cursor.grouped index word behind) = some found ∧
        ∀ more later, behind = more ++ later → more ≠ [] →
          (∀ symbol ∈ more, accepts symbol = true) →
            second.matchAt (cursor.grouped index (word ++ more) later) = none := by
  rw [matchAt_seq, ways, List.findSome?_map, findSome?_plus_eq_some_iff]
  refine exists_congr fun word => exists_congr fun behind => and_congr_right fun stands =>
    and_congr_right fun _ => and_congr_right fun _ => ?_
  rw [Function.comp_apply, capture_past index stands]
  refine and_congr_right fun _ => forall_congr' fun more => forall_congr' fun later =>
    forall_congr' fun split => ?_
  rw [Function.comp_apply, capture_past index (by rw [stands, split, List.append_assoc])]

theorem matchAt_seq_group_plus_eq_none_iff {index : Nat} {accepts : Symbol → Bool}
    {second : Pattern Symbol} {cursor : Cursor Symbol} :
    (seq (group index (plus accepts)) second).matchAt cursor = none ↔
      ∀ word behind, cursor.rest = word ++ behind → word ≠ [] →
        (∀ symbol ∈ word, accepts symbol = true) →
          second.matchAt (cursor.grouped index word behind) = none := by
  rw [matchAt_seq, ways, List.findSome?_map, findSome?_plus_eq_none_iff]
  refine forall_congr' fun word => forall_congr' fun behind => forall_congr' fun stands => ?_
  rw [Function.comp_apply, capture_past index stands]

/-! ### The leftmost -/

/-- The match that is found is the leftmost. -/
theorem searchFrom_eq_some_iff {pattern : Pattern Symbol} {previous : Option Symbol}
    {text : List Symbol} {found : Cursor Symbol} :
    pattern.searchFrom previous text = some found ↔
      ∃ before rest, text = before ++ rest ∧
        pattern.matchAt ⟨before.getLast?.or previous, rest, []⟩ = some found ∧
        ∀ front back, before = front ++ back → back ≠ [] →
          pattern.matchAt ⟨front.getLast?.or previous, back ++ rest, []⟩ = none := by
  induction text generalizing previous with
  | nil =>
      rw [searchFrom]
      constructor
      · intro matched
        refine ⟨[], [], rfl, matched, fun front back split present => ?_⟩
        exact absurd (List.nil_eq_append_iff.mp split).2 present
      · rintro ⟨before, rest, split, matched, _⟩
        obtain ⟨rfl, rfl⟩ := List.nil_eq_append_iff.mp split
        exact matched
  | cons next text ih =>
      have shift := previous_cons next previous
      rw [searchFrom, Option.or_eq_some_iff, ih]
      constructor
      · rintro (matched | ⟨refused, before, rest, rfl, matched, leftmost⟩)
        · refine ⟨[], next :: text, rfl, matched, fun front back split present => ?_⟩
          exact absurd (List.nil_eq_append_iff.mp split).2 present
        · refine ⟨next :: before, rest, rfl, by rw [shift]; exact matched, ?_⟩
          intro front back split present
          cases front with
          | nil =>
              rw [List.nil_append] at split
              rw [← split]
              exact refused
          | cons first front =>
              obtain ⟨rfl, rfl⟩ := List.cons_eq_cons.mp split
              rw [shift]
              exact leftmost front back rfl present
      · rintro ⟨before, rest, split, matched, leftmost⟩
        cases before with
        | nil =>
            rw [List.nil_append] at split
            rw [← split] at matched
            exact Or.inl matched
        | cons first before =>
            obtain ⟨rfl, rfl⟩ := List.cons_eq_cons.mp split
            rw [shift] at matched
            refine Or.inr ⟨leftmost [] (next :: before) rfl (List.cons_ne_nil _ _), before, rest,
              rfl, matched, ?_⟩
            intro front back splitFront present
            rw [← shift]
            exact leftmost (next :: front) back (by rw [splitFront]; rfl) present

theorem searchFrom_eq_none_iff {pattern : Pattern Symbol} {previous : Option Symbol}
    {text : List Symbol} :
    pattern.searchFrom previous text = none ↔
      ∀ before rest, text = before ++ rest →
        pattern.matchAt ⟨before.getLast?.or previous, rest, []⟩ = none := by
  induction text generalizing previous with
  | nil =>
      rw [searchFrom]
      constructor
      · intro refused before rest split
        obtain ⟨rfl, rfl⟩ := List.nil_eq_append_iff.mp split
        exact refused
      · exact fun every => every [] [] rfl
  | cons next text ih =>
      have shift := previous_cons next previous
      rw [searchFrom, Option.or_eq_none_iff, ih]
      constructor
      · rintro ⟨refused, every⟩ before rest split
        cases before with
        | nil =>
            rw [List.nil_append] at split
            rw [← split]
            exact refused
        | cons first before =>
            obtain ⟨rfl, rfl⟩ := List.cons_eq_cons.mp split
            rw [shift]
            exact every before rest rfl
      · intro every
        refine ⟨every [] (next :: text) rfl, fun before rest split => ?_⟩
        rw [← shift]
        exact every (next :: before) rest (by rw [split]; rfl)
end Pattern

end Backtracking
