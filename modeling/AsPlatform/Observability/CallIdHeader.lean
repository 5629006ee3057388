/-
Whose Call-ID is read off a message, and whose messages are found again.

The text of a message is read line by line, so that what is found is found in one header
line, or else in the body.
-/

import AsPlatform.Observability.Messages

namespace AsPlatform

open Backtracking Pattern

/-! ### One line -/

def readCallIdValue (text : List Char) : Option (List Char) :=
  let value := text.dropWhile blankClass
  if value.takeWhile notSpace = [] then none
  else if (value.dropWhile notSpace).dropWhile trailingClass = [] then
    some (value.takeWhile notSpace)
  else none

def readCallId (line : List Char) : Option (List Char) :=
  if spelledBy (callIdName.map caseless ++ [exactly ':']) line then readCallIdValue (line.drop 8)
  else none

/-- A line and what follows it, up to the end of the text or from a line break on. -/
def AtLineEnd (rest : List Char) : Prop :=
  rest = [] ∨ ∃ more, rest = '\n' :: more

theorem spelledBy_append_break {classes : List (Char → Bool)}
    (refused : ∀ accepts ∈ classes, accepts '\n' = false) (line : List Char) {rest : List Char}
    (ending : AtLineEnd rest) : spelledBy classes (line ++ rest) = spelledBy classes line := by
  induction classes generalizing line with
  | nil => rfl
  | cons accepts classes ih =>
      have later : ∀ accepts ∈ classes, accepts '\n' = false :=
        fun other member => refused other (List.mem_cons_of_mem _ member)
      cases line with
      | nil =>
          rcases ending with rfl | ⟨more, rfl⟩
          · rfl
          · simp [spelledBy, refused accepts List.mem_cons_self]
      | cons next line => rw [List.cons_append, spelledBy, spelledBy, ih later]

theorem takeWhile_append_break {accepts : Char → Bool} (refused : accepts '\n' = false)
    (line : List Char) {rest : List Char} (ending : AtLineEnd rest) :
    (line ++ rest).takeWhile accepts = line.takeWhile accepts := by
  rcases ending with rfl | ⟨more, rfl⟩
  · rw [List.append_nil]
  · exact takeWhile_append_stop refused line more

theorem dropWhile_append_break {accepts : Char → Bool} (refused : accepts '\n' = false)
    (line : List Char) {rest : List Char} (ending : AtLineEnd rest) :
    (line ++ rest).dropWhile accepts = line.dropWhile accepts ++ rest := by
  rcases ending with rfl | ⟨more, rfl⟩
  · rw [List.append_nil, List.append_nil]
  · exact dropWhile_append_stop refused line more

theorem lineEnd_append (previous : Option Char) {line rest : List Char} (whole : '\n' ∉ line)
    (ending : AtLineEnd rest) :
    lineEnd previous (line ++ rest).head? = true ↔ line = [] := by
  cases line with
  | nil =>
      rcases ending with rfl | ⟨more, rfl⟩ <;> simp [lineEnd]
  | cons next line =>
      have other : next ≠ '\n' := fun same => whole (by rw [same]; exact List.mem_cons_self)
      simp [lineEnd, other]

theorem matchAt_lineEnd {cursor : Cursor Char} {line rest : List Char}
    (here : cursor.rest = line ++ rest) (whole : '\n' ∉ line) (ending : AtLineEnd rest) :
    (between lineEnd).matchAt cursor = if line = [] then some cursor else none := by
  have isEnd := lineEnd_append cursor.previous whole ending
  rw [matchAt, ways, here]
  by_cases empty : line = []
  · rw [if_pos (isEnd.mpr empty), if_pos empty]
    rfl
  · rw [if_neg (mt isEnd.mp empty), if_neg empty]
    rfl

/-- `[ \t\r]*$`. -/
theorem ways_trailing (cursor : Cursor Char) :
    (seq (many trailingClass) (between lineEnd)).ways cursor =
      (between lineEnd).ways (longest trailingClass cursor) := by
  refine ways_seq_many_of_committed ?_ cursor
  intro previous next rest captured blank
  have notBreak : next ≠ '\n' := by
    rintro rfl
    contradiction
  simp [ways, lineEnd, notBreak]

/-- `(\S+)[ \t\r]*$`. -/
theorem ways_word_trailing (cursor : Cursor Char) :
    (seq (group 1 (plus notSpace))
      (seq (many trailingClass) (between lineEnd))).ways cursor =
      if cursor.rest.takeWhile notSpace = [] then []
      else (between lineEnd).ways (longest trailingClass
        (cursor.capture 1 (longest notSpace cursor))) := by
  have committed : ∀ previous next rest captured, notSpace next = true →
      (seq (many trailingClass) (between lineEnd)).ways
        ⟨previous, next :: rest, captured⟩ = [] := by
    intro previous next rest captured solid
    have notBlank : ¬trailingClass next = true := by
      intro blank
      have space := accepts_of_anyOf (show ∀ member ∈ [' ', '\t', '\r'], isSpace member = true by
        decide) blank
      rw [notSpace, space] at solid
      contradiction
    have notBreak : next ≠ '\n' := by
      rintro rfl
      contradiction
    rw [ways_trailing, longest_of_neg notBlank]
    simp [ways, lineEnd, notBreak]
  rw [ways_seq_group_plus_of_committed 1 committed, ways_trailing]

theorem matchAt_callIdValue (previous : Option Char) {line rest : List Char}
    (whole : '\n' ∉ line) (ending : AtLineEnd rest) :
    (callIdValue.matchAt ⟨previous, line ++ rest, []⟩).map (fun found => (found.group 1).getD []) =
      readCallIdValue line := by
  have committed : ∀ previous next rest captured, blankClass next = true →
      (seq (group 1 (plus notSpace))
        (seq (many trailingClass) (between lineEnd))).ways
          ⟨previous, next :: rest, captured⟩ = [] := by
    intro previous next rest captured blank
    have space := accepts_of_anyOf (show ∀ member ∈ [' ', '\t'], isSpace member = true by
      decide) blank
    rw [ways_word_trailing, if_pos]
    simp [notSpace, space]
  rw [matchAt, callIdValue, ways_seq_many_of_committed committed, ways_word_trailing,
    readCallIdValue]
  have behind : (longest blankClass ⟨previous, line ++ rest, []⟩).rest =
      line.dropWhile blankClass ++ rest := dropWhile_append_break (by decide) line ending
  rw [behind, takeWhile_append_break (by decide) _ ending]
  by_cases empty : (line.dropWhile blankClass).takeWhile notSpace = []
  · rw [if_pos empty, if_pos empty]
    rfl
  · rw [if_neg empty, if_neg empty, capture_longest, behind,
      takeWhile_append_break (by decide) _ ending]
    have tailWhole : '\n' ∉
        ((line.dropWhile blankClass).dropWhile notSpace).dropWhile trailingClass :=
      fun member => whole (List.dropWhile_subset _ (List.dropWhile_subset _
        (List.dropWhile_subset _ member)))
    have atEnd := fun cursor here =>
      @matchAt_lineEnd cursor (((line.dropWhile blankClass).dropWhile notSpace).dropWhile
        trailingClass) rest here tailWhole ending
    change ((between lineEnd).matchAt _).map _ = _
    rw [atEnd]
    · by_cases blankTail :
          ((line.dropWhile blankClass).dropWhile notSpace).dropWhile trailingClass = []
      · rw [if_pos blankTail, if_pos blankTail]
        rfl
      · rw [if_neg blankTail, if_neg blankTail]
        rfl
    · simp only [longest, Cursor.past_rest,
        dropWhile_append_break (show blankClass '\n' = false by decide) _ ending,
        dropWhile_append_break (show notSpace '\n' = false by decide) _ ending,
        dropWhile_append_break (show trailingClass '\n' = false by decide) _ ending]

/-! ### Line by line -/

def searchCallId (previous : Option Char) (text : List Char) : Option (List Char) :=
  (callIdInMessage.searchFrom previous text).map fun found => (found.group 1).getD []

theorem callIdOf_eq (text : String) :
    callIdOf text = ((searchCallId none text.toList).map String.ofList).getD "-" := by
  rw [callIdOf, searchCallId, search]
  cases callIdInMessage.searchFrom none text.toList <;> rfl

theorem matchAt_inside {previous : Option Char} (inside : lineStart previous none = false)
    (text : List Char) : callIdInMessage.matchAt ⟨previous, text, []⟩ = none := by
  have start : lineStart previous text.head? = false := inside
  rw [callIdInMessage, matchAt_seq, ways, start]
  rfl

theorem matchAt_start {previous : Option Char} (start : lineStart previous none = true)
    {line rest : List Char} (whole : '\n' ∉ line) (ending : AtLineEnd rest) :
    (callIdInMessage.matchAt ⟨previous, line ++ rest, []⟩).map
      (fun found => (found.group 1).getD []) = readCallId line := by
  have here : lineStart previous (line ++ rest).head? = true := start
  have refused : ∀ accepts ∈ callIdName.map caseless ++ [exactly ':'], accepts '\n' = false := by
    intro accepts member
    rcases List.mem_append.mp member with inName | colon
    · obtain ⟨letter, isLetter, rfl⟩ := List.mem_map.mp inName
      have plain : ∀ letter ∈ callIdName, caseless letter '\n' = false := by decide
      exact plain letter isLetter
    · rw [List.mem_singleton.mp colon]
      rfl
  rw [callIdInMessage, matchAt_seq, ways, here, if_pos rfl, List.findSome?_singleton, matchAt,
    ways_word, spelledBy_append_break refused line ending, readCallId]
  by_cases spelled : spelledBy (callIdName.map caseless ++ [exactly ':']) line = true
  · have enough : 8 ≤ line.length := length_of_spelledBy spelled
    have cut : (line ++ rest).drop 8 = line.drop 8 ++ rest := by
      rw [List.drop_append, Nat.sub_eq_zero_of_le enough, List.drop_zero]
    rw [if_pos spelled, if_pos spelled]
    change (callIdValue.matchAt ⟨_, (line ++ rest).drop 8, []⟩).map _ = _
    rw [cut]
    exact matchAt_callIdValue _ (fun member => whole (List.mem_of_mem_drop member)) ending
  · rw [if_neg spelled, if_neg spelled]
    rfl

theorem searchCallId_nil (previous : Option Char) : searchCallId previous [] = none := by
  cases start : lineStart previous none with
  | false => rw [searchCallId, searchFrom, matchAt_inside start]; rfl
  | true =>
      have read := @matchAt_start previous start [] [] List.not_mem_nil (Or.inl rfl)
      rw [searchCallId, searchFrom]
      exact read

theorem searchCallId_cons (previous : Option Char) (next : Char) (rest : List Char) :
    searchCallId previous (next :: rest) =
      ((callIdInMessage.matchAt ⟨previous, next :: rest, []⟩).map
        fun found => (found.group 1).getD []).or (searchCallId (some next) rest) := by
  rw [searchCallId, searchFrom, searchCallId]
  cases callIdInMessage.matchAt ⟨previous, next :: rest, []⟩ <;> rfl

def searchBehind : List Char → Option (List Char)
  | [] => none
  | _ :: more => searchCallId (some '\n') more

/-- Inside a line the search goes on to its end. -/
theorem searchCallId_inside {previous : Option Char} (inside : lineStart previous none = false)
    {line rest : List Char} (whole : '\n' ∉ line) (ending : AtLineEnd rest) :
    searchCallId previous (line ++ rest) = searchBehind rest := by
  induction line generalizing previous with
  | nil =>
      rcases ending with rfl | ⟨more, rfl⟩
      · exact searchCallId_nil previous
      · rw [List.nil_append, searchCallId_cons, matchAt_inside inside]
        rfl
  | cons next line ih =>
      obtain ⟨other, whole⟩ := not_or.mp (fun member => whole (List.mem_cons.mpr member))
      have stillInside : lineStart (some next) none = false := by
        simp [lineStart, Ne.symm other]
      rw [List.cons_append, searchCallId_cons, matchAt_inside inside, ih stillInside whole]
      rfl

theorem searchCallId_line {previous : Option Char} (start : lineStart previous none = true)
    {line rest : List Char} (whole : '\n' ∉ line) (ending : AtLineEnd rest) :
    searchCallId previous (line ++ rest) = (readCallId line).or (searchBehind rest) := by
  have read := matchAt_start start whole ending
  cases line with
  | nil =>
      rcases ending with rfl | ⟨more, rfl⟩
      · exact searchCallId_nil previous
      · rw [List.nil_append] at read ⊢
        rw [searchCallId_cons, read]
        rfl
  | cons next line =>
      obtain ⟨other, behind⟩ := not_or.mp (fun member => whole (List.mem_cons.mpr member))
      have inside : lineStart (some next) none = false := by
        simp [lineStart, Ne.symm other]
      rw [List.cons_append] at read ⊢
      rw [searchCallId_cons, read, searchCallId_inside inside behind ending]

/-- The first line that a Call-ID is read of gives it. -/
theorem searchCallId_eq {previous : Option Char} (start : lineStart previous none = true)
    (text : List Char) : searchCallId previous text = (text.splitOn '\n').findSome? readCallId := by
  by_cases breaks : '\n' ∈ text
  · obtain ⟨line, more, rfl, whole⟩ := List.eq_append_cons_of_mem breaks
    have shorter : more.length < (line ++ '\n' :: more).length := by
      rw [List.length_append, List.length_cons]
      omega
    rw [searchCallId_line start whole (Or.inr ⟨more, rfl⟩),
      List.splitOn_append_cons_self_of_not_mem whole, List.findSome?_cons, searchBehind,
      searchCallId_eq (show lineStart (some '\n') none = true from rfl) more]
    cases readCallId line <;> rfl
  · have read := @searchCallId_line previous start text [] breaks (Or.inl rfl)
    rw [List.append_nil, searchBehind, Option.or_none] at read
    rw [read, List.splitOn_eq_singleton breaks, List.findSome?_singleton]
termination_by text.length

theorem callIdOf_lines (text : String) :
    callIdOf text =
      (((text.toList.splitOn '\n').findSome? readCallId).map String.ofList).getD "-" := by
  rw [callIdOf_eq, searchCallId_eq (show lineStart none none = true from rfl)]

/-! ### Header lines -/

theorem foldCase_of_name {letters word rest : List Char} {stop : Char}
    (refused : ∀ letter ∈ letters, caseless letter stop = false) (noColon : ':' ∉ word)
    (spelled : spelledBy (letters.map caseless ++ [exactly ':']) (word ++ stop :: rest) = true) :
    stop = ':' ∧ word.map foldCase = letters.map foldCase := by
  induction letters generalizing word with
  | nil =>
      cases word with
      | nil =>
          rw [List.map_nil, List.nil_append, List.nil_append, spelledBy, Bool.and_eq_true]
            at spelled
          exact ⟨eq_of_beq spelled.1, rfl⟩
      | cons next word =>
          rw [List.map_nil, List.nil_append, List.cons_append, spelledBy, Bool.and_eq_true]
            at spelled
          exact absurd (by simp [eq_of_beq spelled.1]) noColon
  | cons letter letters ih =>
      cases word with
      | nil =>
          rw [List.map_cons, List.cons_append, List.nil_append, spelledBy,
            refused letter List.mem_cons_self] at spelled
          contradiction
      | cons next word =>
          rw [List.map_cons, List.cons_append, List.cons_append, spelledBy,
            Bool.and_eq_true] at spelled
          obtain ⟨isColon, same⟩ := ih
            (fun other member => refused other (List.mem_cons_of_mem _ member))
            (fun member => noColon (List.mem_cons_of_mem _ member)) spelled.2
          exact ⟨isColon, by rw [List.map_cons, List.map_cons, same, eq_of_beq spelled.1]⟩

theorem foldCase_of_tokenChar {character : Char} (token : tokenChar character = true) :
    foldCase character = character.toLower := by
  have ascii : character.toNat < 128 := by
    rcases Bool.or_eq_true_iff.mp token with alphanumeric | special
    · have range := range_of_isAlphanum alphanumeric
      omega
    · have small : ∀ member ∈ ['-', '.', '!', '%', '*', '_', '+', graveAccent, apostrophe, '~'],
          decide (member.toNat < 128) = true := by decide
      exact of_decide_eq_true (@accepts_of_anyOf (fun character => decide (character.toNat < 128))
        _ small character special)
  exact foldCase_of_ascii ascii

/-- A Call-ID header that is read: its name in full, the colon directly behind it, and one
word as its value. -/
def HeaderLine.Plain (header : HeaderLine) : Prop :=
  header.name.text.map Char.toLower = ['c', 'a', 'l', 'l', '-', 'i', 'd'] ∧
    header.gap.text = [] ∧ header.value ≠ [] ∧
      ∀ character ∈ header.value, notSpace character = true

instance (header : HeaderLine) : Decidable header.Plain :=
  inferInstanceAs (Decidable (_ ∧ _ ∧ _ ∧ _))

theorem spelledBy_header (header : HeaderLine) :
    spelledBy (callIdName.map caseless ++ [exactly ':']) header.text = true ↔
      header.name.text.map Char.toLower = ['c', 'a', 'l', 'l', '-', 'i', 'd'] ∧
        header.gap.text = [] := by
  have sameClasses : callIdName.map caseless =
      ['c', 'a', 'l', 'l', '-', 'i', 'd'].map caseless := rfl
  have noColon : ':' ∉ header.name.text := not_mem_of_class header.name.accepted rfl
  constructor
  · intro spelled
    cases gap : header.gap.text with
    | cons blank more =>
        have isBlank := header.gap.accepted blank (by rw [gap]; exact List.mem_cons_self)
        have refused : ∀ letter ∈ callIdName, caseless letter blank = false := by
          intro letter isLetter
          have space : isSpace blank = true := accepts_of_anyOf (by decide) isBlank
          have solid : ∀ letter ∈ callIdName, isSpace (foldCase letter) = false := by decide
          exact caseless_of_isSpace space (solid letter isLetter)
        rw [HeaderLine.text, gap, List.cons_append] at spelled
        have isColon := (foldCase_of_name refused noColon spelled).1
        rw [isColon] at isBlank
        contradiction
    | nil =>
        rw [HeaderLine.text, gap, List.nil_append] at spelled
        have folded := (foldCase_of_name (by decide) noColon spelled).2
        have lower : header.name.text.map foldCase = header.name.text.map Char.toLower :=
          List.map_congr_left fun character member =>
            foldCase_of_tokenChar (header.name.accepted character member)
        rw [lower] at folded
        exact ⟨folded.trans (by decide), rfl⟩
  · intro ⟨lower, noGap⟩
    rw [HeaderLine.text, noGap, List.nil_append, sameClasses]
    exact spelledBy_caseless _ _ _ lower (by decide)

/-! ### Values -/

theorem isSpace_of_wspChar {character : Char} (blank : wspChar character = true) :
    isSpace character = true :=
  accepts_of_anyOf (by decide) blank

theorem rdropWhile_of_word {text : List Char}
    (blank : ∀ character ∈ text.dropWhile notSpace, wspChar character = true) :
    text.rdropWhile wspChar = text.takeWhile notSpace := by
  have parts := List.takeWhile_append_dropWhile (p := notSpace) (l := text)
  have reversed : ∀ character ∈ (text.dropWhile notSpace).reverse, wspChar character = true :=
    fun character member => blank character (List.mem_reverse.mp member)
  have solid : (text.takeWhile notSpace).rdropWhile wspChar = text.takeWhile notSpace := by
    rw [List.rdropWhile_eq_self_iff]
    intro present isBlank
    have accepted := List.mem_takeWhile_imp (List.getLast_mem present)
    rw [notSpace, isSpace_of_wspChar isBlank] at accepted
    contradiction
  nth_rewrite 1 [← parts]
  rw [List.rdropWhile, List.reverse_append, List.dropWhile_append_of_pos reversed]
  exact solid

theorem word_of_rdropWhile {text : List Char}
    (word : ∀ character ∈ text.rdropWhile wspChar, notSpace character = true) :
    text.takeWhile notSpace = text.rdropWhile wspChar ∧
      ∀ character ∈ text.dropWhile notSpace, wspChar character = true := by
  have parts := List.rdropWhile_append_rtakeWhile (p := wspChar) (l := text)
  have blank : ∀ character ∈ text.rtakeWhile wspChar, wspChar character = true :=
    fun character member => List.mem_rtakeWhile_imp member
  have noWord : (text.rtakeWhile wspChar).takeWhile notSpace = [] := by
    cases tail : text.rtakeWhile wspChar with
    | nil => rfl
    | cons next more =>
        have isBlank := blank next (by rw [tail]; exact List.mem_cons_self)
        simp [notSpace, isSpace_of_wspChar isBlank]
  have allTail : (text.rtakeWhile wspChar).dropWhile notSpace = text.rtakeWhile wspChar := by
    have tail := List.takeWhile_append_dropWhile (p := notSpace) (l := text.rtakeWhile wspChar)
    rwa [noWord, List.nil_append] at tail
  have read : text.takeWhile notSpace = text.rdropWhile wspChar := by
    nth_rewrite 1 [← parts]
    rw [List.takeWhile_append_of_pos word, noWord, List.append_nil]
  have left : text.dropWhile notSpace = text.rtakeWhile wspChar := by
    nth_rewrite 1 [← parts]
    rw [List.dropWhile_append_of_pos word, allTail]
  exact ⟨read, fun character member => blank character (left ▸ member)⟩

theorem takeWhile_append_ending {accepts : Char → Bool} (refused : accepts '\r' = false)
    (text : List Char) (ending : LineEnding) :
    (text ++ ending.text).takeWhile accepts = text.takeWhile accepts := by
  cases ending with
  | crlf => exact takeWhile_append_stop refused text []
  | lf => rw [LineEnding.text, List.append_nil]

theorem dropWhile_append_ending {accepts : Char → Bool} (refused : accepts '\r' = false)
    (text : List Char) (ending : LineEnding) :
    (text ++ ending.text).dropWhile accepts = text.dropWhile accepts ++ ending.text := by
  cases ending with
  | crlf => exact dropWhile_append_stop refused text []
  | lf => rw [LineEnding.text, List.append_nil, List.append_nil]

/-- What is read of a value: it is one word. -/
theorem readCallIdValue_eq (body : Text lineChar) (ending : LineEnding) :
    readCallIdValue (body.text ++ ending.text) =
      if (body.text.dropWhile wspChar).rdropWhile wspChar ≠ [] ∧
          ∀ character ∈ (body.text.dropWhile wspChar).rdropWhile wspChar,
            notSpace character = true then
        some ((body.text.dropWhile wspChar).rdropWhile wspChar)
      else none := by
  have sameBlank : blankClass = wspChar := rfl
  have trailing : ∀ text : List Char, (∀ character ∈ text, lineChar character = true) →
      ((text ++ ending.text).dropWhile trailingClass = [] ↔
        ∀ character ∈ text, wspChar character = true) := by
    intro text inLine
    have ofEnding : ∀ character ∈ ending.text, trailingClass character = true := by
      cases ending <;> decide
    rw [List.dropWhile_eq_nil_iff]
    constructor
    · intro all character member
      have notReturn : character ≠ '\r' := by
        rintro rfl
        exact absurd (inLine '\r' member) (by decide)
      have accepted := all character (List.mem_append_left _ member)
      simpa [trailingClass, wspChar, anyOf, notReturn] using accepted
    · intro all character member
      rcases List.mem_append.mp member with inText | inEnding
      · exact accepts_of_anyOf (by decide) (all character inText)
      · exact ofEnding character inEnding
  rw [readCallIdValue, sameBlank, dropWhile_append_ending (by decide)]
  generalize core : body.text.dropWhile wspChar = text
  have inLine : ∀ character ∈ text.dropWhile notSpace, lineChar character = true := by
    intro character member
    rw [← core] at member
    exact body.accepted character (List.dropWhile_subset _ (List.dropWhile_subset _ member))
  simp only [takeWhile_append_ending (show notSpace '\r' = false by decide),
    dropWhile_append_ending (show notSpace '\r' = false by decide), trailing _ inLine]
  by_cases word : text.rdropWhile wspChar ≠ [] ∧
      ∀ character ∈ text.rdropWhile wspChar, notSpace character = true
  · obtain ⟨read, blank⟩ := word_of_rdropWhile word.2
    rw [if_pos word, read, if_neg word.1, if_pos blank]
  · rw [if_neg word]
    by_cases empty : text.takeWhile notSpace = []
    · rw [if_pos empty]
    · rw [if_neg empty, if_neg]
      intro blank
      have read := rdropWhile_of_word blank
      refine word ⟨by rwa [read], ?_⟩
      rw [read]
      exact fun character member => List.mem_takeWhile_imp member

theorem readCallId_header (header : HeaderLine) :
    readCallId header.text = if header.Plain then some header.value else none := by
  rw [readCallId]
  by_cases named : header.name.text.map Char.toLower = ['c', 'a', 'l', 'l', '-', 'i', 'd'] ∧
      header.gap.text = []
  · have length : header.name.text.length = 7 := by
      simpa using congrArg List.length named.1
    have cut : header.text.drop 8 = header.body.text ++ header.ending.text := by
      rw [HeaderLine.text, named.2, List.nil_append, List.drop_append, length]
      simp [length]
    rw [if_pos ((spelledBy_header header).mpr named), cut, readCallIdValue_eq]
    simp only [HeaderLine.Plain, HeaderLine.value, named.1, named.2, true_and]
  · rw [if_neg (mt (spelledBy_header header).mp named), if_neg]
    exact fun plain => named ⟨plain.1, plain.2.1⟩

/-! ### Messages -/

theorem LineEnding.not_mem (ending : LineEnding) : '\n' ∉ ending.text := by
  cases ending <;> decide

theorem HeaderLine.not_mem (header : HeaderLine) : '\n' ∉ header.text := by
  have inName : '\n' ∉ header.name.text := not_mem_of_class header.name.accepted rfl
  have inGap : '\n' ∉ header.gap.text := not_mem_of_class header.gap.accepted rfl
  have inBody : '\n' ∉ header.body.text := not_mem_of_class header.body.accepted rfl
  simp [text, inName, inGap, inBody, header.ending.not_mem]

theorem splitOn_headers (headers : List HeaderLine) (rest : List Char) :
    ((headers.flatMap fun header => header.text ++ ['\n']) ++ rest).splitOn '\n' =
      headers.map HeaderLine.text ++ rest.splitOn '\n' := by
  induction headers with
  | nil => rfl
  | cons header headers ih =>
      rw [List.flatMap_cons, List.append_assoc, List.append_assoc, List.singleton_append,
        List.splitOn_append_cons_self_of_not_mem header.not_mem, ih]
      rfl

theorem not_mem_startText (message : SipMessage) : '\n' ∉ message.startText := by
  have inWord : '\n' ∉ message.firstWord.text :=
    @not_mem_of_class (fun character => tokenChar character || character == '/') _
      message.firstWord.accepted '\n' rfl
  have inLine : '\n' ∉ message.startLine.text := not_mem_of_class message.startLine.accepted rfl
  simp [SipMessage.startText, inWord, inLine, message.startEnding.not_mem]

/-- A start line is not a Call-ID header: a space comes before any colon. -/
theorem readCallId_startText (message : SipMessage) : readCallId message.startText = none := by
  have noColon : ':' ∉ message.firstWord.text :=
    @not_mem_of_class (fun character => tokenChar character || character == '/') _
      message.firstWord.accepted ':' rfl
  rw [readCallId, if_neg]
  intro spelled
  have isColon := (foldCase_of_name (by decide) noColon spelled).1
  contradiction

theorem readCallId_ending (ending : LineEnding) : readCallId ending.text = none := by
  cases ending <;> rfl

theorem findSome?_readCallId (headers : List HeaderLine) :
    (headers.map HeaderLine.text).findSome? readCallId =
      (headers.find? fun header => header.Plain).map HeaderLine.value := by
  induction headers with
  | nil => rfl
  | cons header headers ih =>
      rw [List.map_cons, List.findSome?_cons, readCallId_header, List.find?_cons, ih]
      by_cases plain : header.Plain <;> simp [plain]

/-- What is read of a message is read of a header line, or else of a line of the body. -/
theorem callIdOf_message (message : SipMessage) :
    callIdOf message.text =
      ((((message.headers.find? fun header => header.Plain).map HeaderLine.value).or
        ((message.body.splitOn '\n').findSome? readCallId)).map String.ofList).getD "-" := by
  rw [callIdOf_lines, SipMessage.text, String.toList_ofList,
    List.splitOn_append_cons_self_of_not_mem (not_mem_startText message), splitOn_headers,
    List.splitOn_append_cons_self_of_not_mem message.emptyEnding.not_mem,
    List.findSome?_cons, readCallId_startText, List.findSome?_append, List.findSome?_cons,
    readCallId_ending, findSome?_readCallId]

theorem callIdOf_plain {message : SipMessage} {header : HeaderLine}
    (plain : (message.headers.find? fun header => header.Plain) = some header) :
    callIdOf message.text = String.ofList header.value := by
  rw [callIdOf_message, plain]
  rfl

theorem find?_callIdHeaders (message : SipMessage) :
    (message.headers.find? fun header => header.Plain) =
      message.callIdHeaders.find? fun header => header.Plain := by
  rw [SipMessage.callIdHeaders, List.find?_filter]
  congr 1
  funext header
  by_cases plain : header.Plain
  · simp [plain, HeaderLine.IsCallId, plain.1]
  · simp [plain]

theorem callIdOf_body {message : SipMessage}
    (unread : (message.headers.find? fun header => header.Plain) = none) (body : List Char) :
    callIdOf { message with body := body }.text =
      (((body.splitOn '\n').findSome? readCallId).map String.ofList).getD "-" := by
  have ofHeaders : ({ message with body := body } : SipMessage).headers = message.headers := rfl
  rw [callIdOf_message, ofHeaders, unread, Option.map_none, Option.none_or]

theorem callId_isSome {message : SipMessage} {header : HeaderLine}
    (plain : (message.headers.find? fun header => header.Plain) = some header) :
    ∃ value, message.callId = some value := by
  rw [find?_callIdHeaders] at plain
  have member := List.mem_of_find?_eq_some plain
  rw [SipMessage.callId]
  cases headers : message.callIdHeaders with
  | nil =>
      rw [headers] at member
      cases member
  | cons first more => exact ⟨first.value, rfl⟩

/-- The Call-ID header gives the Call-ID, there is none exactly if that header is missing,
and nothing else of the message matters, if and only if some Call-ID header is written in
full, directly before its colon and with one word as its value, and the first of those has
the value of the first Call-ID header, and that is not a dash. -/
theorem callIdOf_header_iff (message : SipMessage) :
    ((∀ value, message.callId = some value → callIdOf message.text = String.ofList value) ∧
      (callIdOf message.text = "-" ↔ message.callId = none) ∧
      (∀ other : SipMessage, other.callIdHeaders = message.callIdHeaders →
        callIdOf other.text = callIdOf message.text)) ↔
    ∃ header, (message.headers.find? fun header => header.Plain) = some header ∧
      message.callId = some header.value ∧ header.value ≠ ['-'] := by
  constructor
  · rintro ⟨returned, dash, alone⟩
    cases plain : message.headers.find? fun header => header.Plain with
    | none =>
        have read := fun letter : Char => alone
          { message with body := ['C', 'a', 'l', 'l', '-', 'I', 'D', ':', letter] } rfl
        have asA := (callIdOf_body plain _).symm.trans (read 'a')
        have asB := (callIdOf_body plain _).symm.trans (read 'b')
        exact absurd (asA.trans asB.symm) (by decide +kernel)
    | some header =>
        obtain ⟨value, first⟩ := callId_isSome plain
        have read := callIdOf_plain plain
        have same : header.value = value :=
          String.ofList_injective (read.symm.trans (returned value first))
        refine ⟨header, rfl, by rw [first, same], ?_⟩
        intro isDash
        rw [first, read, isDash] at dash
        exact absurd (dash.mp rfl) (Option.some_ne_none value)
  · rintro ⟨header, plain, first, notDash⟩
    have read : ∀ other : SipMessage, other.callIdHeaders = message.callIdHeaders →
        callIdOf other.text = String.ofList header.value := by
      intro other same
      refine callIdOf_plain ?_
      rw [find?_callIdHeaders, same, ← find?_callIdHeaders, plain]
    refine ⟨?_, ?_, ?_⟩
    · intro value isValue
      rw [first, Option.some.injEq] at isValue
      rw [read message rfl, isValue]
    · rw [read message rfl, first]
      constructor
      · intro same
        have isDash : header.value = ['-'] := by
          rw [← String.toList_ofList (l := header.value), same]
          rfl
        exact absurd isDash notDash
      · intro missing
        contradiction
    · intro other same
      rw [read other same, read message rfl]

def compactMessage : SipMessage where
  firstWord := { text := ['A', 'C', 'K'], accepted := by decide, nonempty := List.cons_ne_nil _ _ }
  startLine := ⟨['s', 'i', 'p', ':', 'h'], by decide⟩
  startEnding := .crlf
  headers :=
    [{ name := { text := ['i'], accepted := by decide, nonempty := List.cons_ne_nil _ _ }
       gap := ⟨[], by decide⟩
       body := ⟨['a'], by decide⟩
       ending := .crlf }]
  emptyEnding := .crlf
  body := []

theorem not_callIdOf_header :
    compactMessage.callId = some ['a'] ∧ callIdOf compactMessage.text = "-" := by
  constructor
  · decide
  · decide +kernel

/-! ### The messages of a call -/

/-- The recorder reads its Call-ID header: one is written in full, directly before its colon
and with one word as its value, and the first of those has the value of the first of all. -/
def SipMessage.Readable (message : SipMessage) : Prop :=
  ∃ header, (message.headers.find? fun header => header.Plain) = some header ∧
    message.callId = some header.value

def SipMessage.OfCall (message : SipMessage) (trunkCallId : String) : Prop :=
  message.callId = some trunkCallId.toList ∨
    message.callId = some (outboundCallId trunkCallId).toList

theorem SipMessage.Readable.callId_eq {message : SipMessage} (readable : message.Readable) :
    message.callId = some (callIdOf message.text).toList := by
  obtain ⟨header, plain, first⟩ := readable
  rw [first, callIdOf_plain plain, String.toList_ofList]

theorem SipMessage.Readable.ofCall_iff {message : SipMessage} (readable : message.Readable)
    (trunkCallId : String) :
    message.OfCall trunkCallId ↔
      callIdOf message.text = trunkCallId ∨
        callIdOf message.text = outboundCallId trunkCallId := by
  rw [OfCall, readable.callId_eq]
  simp only [Option.some.injEq, String.toList_inj]

/-- Of the last messages written some are returned for a call, in the order in which they were
written, and a message whose Call-ID header the recorder reads is among them exactly if it is
of one of the two legs.  A message is returned for two calls only if one of them has the
Call-ID that the outbound leg of the other carries. -/
theorem messagesPayload_of_call (maxMessages : Nat) (writes : List (List String)) :
    (∀ callId, ∃ ofCall : List String → Bool,
      (messagesPayload callId (.after maxMessages writes)).messages =
        ((writes.rtake maxMessages).filter ofCall).map RecordedSipMessage.ofArgs ∧
      ∀ args, ∀ message : SipMessage, args[1]? = some message.text → message.Readable →
        (ofCall args = true ↔ message.OfCall callId)) ∧
    (∀ callId other, callId ≠ other →
      ∀ message ∈ (messagesPayload callId (.after maxMessages writes)).messages,
        message ∈ (messagesPayload other (.after maxMessages writes)).messages →
          (message.callId = other ∧ other = outboundCallId callId) ∨
            (message.callId = callId ∧ callId = outboundCallId other)) := by
  constructor
  · intro callId
    refine ⟨_, messagesPayload_after callId maxMessages writes, ?_⟩
    intro args message written readable
    rw [readable.ofCall_iff, RecordedSipMessage.ofArgs, written]
    simp
  · intro callId other different message ofCall ofOther
    rcases mem_messagesPayload ofCall with trunk | outbound
    · rcases mem_messagesPayload ofOther with otherTrunk | otherOutbound
      · exact absurd (trunk.symm.trans otherTrunk) different
      · exact Or.inr ⟨trunk, trunk.symm.trans otherOutbound⟩
    · rcases mem_messagesPayload ofOther with otherTrunk | otherOutbound
      · exact Or.inl ⟨otherTrunk, otherTrunk.symm.trans outbound⟩
      · exact absurd (outboundCallId_injective (outbound.symm.trans otherOutbound)) different

/-- One message, of the outbound leg of call `a` on its way back to the AS. -/
def loopedBack : List (List String) :=
  [["RECEIVED message from udp:10.0.0.1:5060:",
    "INVITE sip:1@h SIP/2.0\r\nCall-ID: a-b2b_1\r\n\r\n"]]

theorem not_messagesPayload_apart :
    "a" ≠ "a-b2b_1" ∧
      ∃ message ∈ (messagesPayload "a" (.after 5000 loopedBack)).messages,
        message ∈ (messagesPayload "a-b2b_1" (.after 5000 loopedBack)).messages := by
  constructor
  · decide
  · exact ⟨⟨"in", "10.0.0.1:5060", "INVITE sip:1@h SIP/2.0\r\nCall-ID: a-b2b_1\r\n\r\n",
      "a-b2b_1"⟩, by decide +kernel, by decide +kernel⟩

end AsPlatform
