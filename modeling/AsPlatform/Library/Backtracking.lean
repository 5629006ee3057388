/-
Regular expressions as a backtracking matcher reads them.

The ways in which a pattern can be matched at a cursor are listed in the order in which
the matcher tries them, so that a match is the first of them.  A search tries the cursors
from the left.
-/

import Mathlib.Data.List.TakeWhile
import Mathlib.Data.List.Lookmap

namespace Backtracking

variable {Symbol : Type}

/-- A place in a text, with the symbol before it and the groups captured on the way to it,
the newest first. -/
structure Cursor (Symbol : Type) where
  previous : Option Symbol
  rest : List Symbol
  captured : List (Nat × List Symbol) := []
  deriving DecidableEq

inductive Pattern (Symbol : Type) where
  | symbol (accepts : Symbol → Bool)
  | many (accepts : Symbol → Bool)
  | optional (body : Pattern Symbol)
  | seq (first second : Pattern Symbol)
  | group (index : Nat) (body : Pattern Symbol)
  | between (holds : Option Symbol → Option Symbol → Bool)

/-! ### Cursors -/

namespace Cursor

def group (index : Nat) (cursor : Cursor Symbol) : Option (List Symbol) :=
  cursor.captured.lookup index

def past (word rest : List Symbol) (cursor : Cursor Symbol) : Cursor Symbol :=
  { cursor with
    previous := word.getLast?.or cursor.previous
    rest := rest }

def capture (start : Cursor Symbol) (index : Nat) (later : Cursor Symbol) : Cursor Symbol :=
  { later with
    captured :=
      (index, start.rest.take (start.rest.length - later.rest.length)) :: later.captured }

def extend (suffix : List Symbol) (cursor : Cursor Symbol) : Cursor Symbol :=
  { cursor with rest := cursor.rest ++ suffix }

@[simp] theorem past_rest (word rest : List Symbol) (cursor : Cursor Symbol) :
    (cursor.past word rest).rest = rest := rfl

@[simp] theorem past_captured (word rest : List Symbol) (cursor : Cursor Symbol) :
    (cursor.past word rest).captured = cursor.captured := rfl

end Cursor

/-! ### The ways of a pattern -/

/-- All runs of accepted symbols, the longest first. -/
def runs (accepts : Symbol → Bool) (captured : List (Nat × List Symbol)) :
    Option Symbol → List Symbol → List (Cursor Symbol)
  | previous, [] => [⟨previous, [], captured⟩]
  | previous, next :: rest =>
      if accepts next then
        runs accepts captured (some next) rest ++ [⟨previous, next :: rest, captured⟩]
      else [⟨previous, next :: rest, captured⟩]

namespace Pattern

def ways : Pattern Symbol → Cursor Symbol → List (Cursor Symbol)
  | symbol accepts, cursor =>
      match cursor.rest with
      | [] => []
      | next :: rest => if accepts next then [cursor.past [next] rest] else []
  | many accepts, cursor => runs accepts cursor.captured cursor.previous cursor.rest
  | optional body, cursor => body.ways cursor ++ [cursor]
  | seq first second, cursor => (first.ways cursor).flatMap second.ways
  | group index body, cursor => (body.ways cursor).map (cursor.capture index)
  | between holds, cursor => if holds cursor.previous cursor.rest.head? then [cursor] else []

def word : List (Symbol → Bool) → Pattern Symbol → Pattern Symbol
  | [], body => body
  | accepts :: more, body => seq (symbol accepts) (word more body)

def plus (accepts : Symbol → Bool) : Pattern Symbol :=
  seq (symbol accepts) (many accepts)

def matchAt (pattern : Pattern Symbol) (cursor : Cursor Symbol) : Option (Cursor Symbol) :=
  (pattern.ways cursor).head?

def matchStart (pattern : Pattern Symbol) (text : List Symbol) : Option (Cursor Symbol) :=
  pattern.matchAt ⟨none, text, []⟩

def searchFrom (pattern : Pattern Symbol) (previous : Option Symbol) :
    List Symbol → Option (Cursor Symbol)
  | [] => pattern.matchAt ⟨previous, [], []⟩
  | next :: rest =>
      (pattern.matchAt ⟨previous, next :: rest, []⟩).or (pattern.searchFrom (some next) rest)

/-- The leftmost match in a text. -/
def search (pattern : Pattern Symbol) (text : List Symbol) : Option (Cursor Symbol) :=
  pattern.searchFrom none text

/-! ### Symbols and words -/

theorem ways_symbol_cons (accepts : Symbol → Bool) (previous : Option Symbol) (next : Symbol)
    (rest : List Symbol) (captured : List (Nat × List Symbol)) :
    (symbol accepts).ways ⟨previous, next :: rest, captured⟩ =
      if accepts next then [⟨some next, rest, captured⟩] else [] := rfl

theorem ways_symbol_nil (accepts : Symbol → Bool) (previous : Option Symbol)
    (captured : List (Nat × List Symbol)) :
    (symbol accepts).ways ⟨previous, [], captured⟩ = [] := rfl

def spelledBy : List (Symbol → Bool) → List Symbol → Bool
  | [], _ => true
  | _ :: _, [] => false
  | accepts :: more, next :: rest => accepts next && spelledBy more rest

theorem length_of_spelledBy {classes : List (Symbol → Bool)} {text : List Symbol}
    (spelled : spelledBy classes text = true) : classes.length ≤ text.length := by
  induction classes generalizing text with
  | nil => exact Nat.zero_le _
  | cons accepts classes ih =>
      cases text with
      | nil => contradiction
      | cons next rest =>
          rw [spelledBy, Bool.and_eq_true] at spelled
          exact Nat.succ_le_succ (ih spelled.2)

theorem ways_word (classes : List (Symbol → Bool)) (body : Pattern Symbol)
    (cursor : Cursor Symbol) :
    (word classes body).ways cursor =
      if spelledBy classes cursor.rest then
        body.ways (cursor.past (cursor.rest.take classes.length)
          (cursor.rest.drop classes.length))
      else [] := by
  induction classes generalizing cursor with
  | nil => rfl
  | cons accepts more ih =>
      obtain ⟨previous, rest, captured⟩ := cursor
      cases rest with
      | nil => rfl
      | cons next rest =>
          rw [word, ways, ways_symbol_cons, spelledBy]
          by_cases accepted : accepts next = true
          · simp only [accepted, if_true, Bool.true_and, List.flatMap_cons, List.flatMap_nil,
              List.append_nil, ih, List.length_cons, List.take_succ_cons, List.drop_succ_cons,
              Cursor.past, List.getLast?_cons]
            cases (rest.take more.length).getLast? <;> rfl
          · simp [accepted]

/-- What may be left out is tried first with it and then without. -/
theorem ways_word_optional (classes : List (Symbol → Bool)) (first second : Pattern Symbol)
    (cursor : Cursor Symbol) :
    (word classes (seq (optional first) second)).ways cursor =
      (word classes (seq first second)).ways cursor ++ (word classes second).ways cursor := by
  simp only [ways_word]
  by_cases spelled : spelledBy classes cursor.rest = true
  · simp only [spelled, if_true, ways, List.flatMap_append, List.flatMap_cons, List.flatMap_nil,
      List.append_nil]
  · simp [spelled]

theorem matchAt_seq (first second : Pattern Symbol) (cursor : Cursor Symbol) :
    (seq first second).matchAt cursor = (first.ways cursor).findSome? second.matchAt := by
  simp only [matchAt, ways, List.head?_flatMap]
  rfl

theorem matchAt_optional (body : Pattern Symbol) (cursor : Cursor Symbol) :
    (optional body).matchAt cursor = (body.matchAt cursor).or (some cursor) := by
  simp only [matchAt, ways, List.head?_append]
  rfl

theorem matchAt_group (index : Nat) (body : Pattern Symbol) (cursor : Cursor Symbol) :
    (group index body).matchAt cursor = (body.matchAt cursor).map (cursor.capture index) := by
  simp only [matchAt, ways, List.head?_map]

/-- What follows a pattern that can always be matched decides nothing about it. -/
theorem matchAt_seq_of_total (first : Pattern Symbol) {second : Pattern Symbol}
    (total : ∀ cursor, (second.matchAt cursor).isSome) (cursor : Cursor Symbol) :
    (seq first second).matchAt cursor = (first.matchAt cursor).bind second.matchAt := by
  rw [matchAt_seq, matchAt]
  cases first.ways cursor with
  | nil => rfl
  | cons best others =>
      obtain ⟨found, matched⟩ := Option.isSome_iff_exists.mp (total best)
      simp [matched]

theorem matchAt_optional_isSome (body : Pattern Symbol) (cursor : Cursor Symbol) :
    ((optional body).matchAt cursor).isSome := by
  rw [matchAt_optional]
  cases body.matchAt cursor <;> rfl

/-! ### Runs of one class -/

def longest (accepts : Symbol → Bool) (cursor : Cursor Symbol) : Cursor Symbol :=
  cursor.past (cursor.rest.takeWhile accepts) (cursor.rest.dropWhile accepts)

theorem longest_of_pos {accepts : Symbol → Bool} {next : Symbol} (accepted : accepts next = true)
    (previous : Option Symbol) (rest : List Symbol) (captured : List (Nat × List Symbol)) :
    longest accepts ⟨previous, next :: rest, captured⟩ =
      longest accepts ⟨some next, rest, captured⟩ := by
  simp only [longest, Cursor.past, List.takeWhile_cons_of_pos accepted,
    List.dropWhile_cons_of_pos accepted, List.getLast?_cons]
  cases (rest.takeWhile accepts).getLast? <;> rfl

theorem longest_of_neg {accepts : Symbol → Bool} {next : Symbol} (refused : ¬accepts next = true)
    (previous : Option Symbol) (rest : List Symbol) (captured : List (Nat × List Symbol)) :
    longest accepts ⟨previous, next :: rest, captured⟩ = ⟨previous, next :: rest, captured⟩ := by
  simp [longest, Cursor.past, refused]

/-- The longest run is tried first. -/
theorem head?_runs (accepts : Symbol → Bool) (captured : List (Nat × List Symbol))
    (previous : Option Symbol) (rest : List Symbol) :
    (runs accepts captured previous rest).head? =
      some (longest accepts ⟨previous, rest, captured⟩) := by
  induction rest generalizing previous with
  | nil => rfl
  | cons next rest ih =>
      rw [runs]
      by_cases accepted : accepts next = true
      · rw [if_pos accepted, List.head?_append, ih, longest_of_pos accepted]
        rfl
      · rw [if_neg accepted, longest_of_neg accepted]
        rfl

/-- If nothing can follow a run that could be longer, only the longest is left. -/
theorem flatMap_runs_of_committed {accepts : Symbol → Bool} {Found : Type}
    {follow : Cursor Symbol → List Found}
    (committed : ∀ previous next rest captured, accepts next = true →
      follow ⟨previous, next :: rest, captured⟩ = [])
    (captured : List (Nat × List Symbol)) (previous : Option Symbol) (rest : List Symbol) :
    (runs accepts captured previous rest).flatMap follow =
      follow (longest accepts ⟨previous, rest, captured⟩) := by
  induction rest generalizing previous with
  | nil =>
      rw [runs, List.flatMap_cons, List.flatMap_nil, List.append_nil]
      rfl
  | cons next rest ih =>
      rw [runs]
      by_cases accepted : accepts next = true
      · rw [if_pos accepted, List.flatMap_append, ih, longest_of_pos accepted,
          List.flatMap_cons, committed _ _ _ _ accepted]
        simp
      · rw [if_neg accepted, longest_of_neg accepted]
        simp

theorem matchAt_many (accepts : Symbol → Bool) (cursor : Cursor Symbol) :
    (many accepts).matchAt cursor = some (longest accepts cursor) :=
  head?_runs accepts cursor.captured cursor.previous cursor.rest

theorem ways_seq_many_of_committed {accepts : Symbol → Bool} {second : Pattern Symbol}
    (committed : ∀ previous next rest captured, accepts next = true →
      second.ways ⟨previous, next :: rest, captured⟩ = [])
    (cursor : Cursor Symbol) :
    (seq (many accepts) second).ways cursor = second.ways (longest accepts cursor) :=
  flatMap_runs_of_committed committed cursor.captured cursor.previous cursor.rest

theorem matchAt_plus (accepts : Symbol → Bool) (cursor : Cursor Symbol) :
    (plus accepts).matchAt cursor =
      if cursor.rest.takeWhile accepts = [] then none else some (longest accepts cursor) := by
  obtain ⟨previous, rest, captured⟩ := cursor
  cases rest with
  | nil => rfl
  | cons next rest =>
      rw [plus, matchAt_seq, ways_symbol_cons]
      by_cases accepted : accepts next = true
      · rw [if_pos accepted, longest_of_pos accepted, List.findSome?_cons, matchAt_many]
        simp [accepted]
      · simp [accepted]

theorem flatMap_plus_of_committed {accepts : Symbol → Bool} {Found : Type}
    {follow : Cursor Symbol → List Found}
    (committed : ∀ previous next rest captured, accepts next = true →
      follow ⟨previous, next :: rest, captured⟩ = [])
    (cursor : Cursor Symbol) :
    ((plus accepts).ways cursor).flatMap follow =
      if cursor.rest.takeWhile accepts = [] then [] else follow (longest accepts cursor) := by
  obtain ⟨previous, rest, captured⟩ := cursor
  cases rest with
  | nil => rfl
  | cons next rest =>
      rw [plus, ways, ways_symbol_cons]
      by_cases accepted : accepts next = true
      · rw [if_pos accepted, longest_of_pos accepted, List.flatMap_cons, List.flatMap_nil,
          List.append_nil, ways, flatMap_runs_of_committed committed]
        simp [accepted]
      · simp [accepted]

theorem ways_seq_plus_of_committed {accepts : Symbol → Bool} {second : Pattern Symbol}
    (committed : ∀ previous next rest captured, accepts next = true →
      second.ways ⟨previous, next :: rest, captured⟩ = [])
    (cursor : Cursor Symbol) :
    (seq (plus accepts) second).ways cursor =
      if cursor.rest.takeWhile accepts = [] then [] else second.ways (longest accepts cursor) :=
  flatMap_plus_of_committed committed cursor

theorem ways_seq_group_plus_of_committed (index : Nat) {accepts : Symbol → Bool}
    {second : Pattern Symbol}
    (committed : ∀ previous next rest captured, accepts next = true →
      second.ways ⟨previous, next :: rest, captured⟩ = [])
    (cursor : Cursor Symbol) :
    (seq (group index (plus accepts)) second).ways cursor =
      if cursor.rest.takeWhile accepts = [] then []
      else second.ways (cursor.capture index (longest accepts cursor)) := by
  have follow : ∀ previous next rest captured, accepts next = true →
      second.ways (cursor.capture index ⟨previous, next :: rest, captured⟩) = [] :=
    fun previous next rest _ accepted => committed previous next rest _ accepted
  rw [ways, ways, List.flatMap_map]
  exact flatMap_plus_of_committed follow cursor

theorem capture_longest (index : Nat) (accepts : Symbol → Bool) (cursor : Cursor Symbol) :
    cursor.capture index (longest accepts cursor) =
      { longest accepts cursor with
        captured := (index, cursor.rest.takeWhile accepts) :: cursor.captured } := by
  have parts := congrArg List.length
    (List.takeWhile_append_dropWhile (p := accepts) (l := cursor.rest))
  rw [List.length_append] at parts
  have read : cursor.rest.take (cursor.rest.length - (cursor.rest.dropWhile accepts).length) =
      cursor.rest.takeWhile accepts := by
    rw [← parts, Nat.add_sub_cancel]
    exact (List.prefix_iff_eq_take.mp (List.takeWhile_prefix accepts)).symm
  simp only [Cursor.capture, longest, Cursor.past, read]

end Pattern

end Backtracking
