/-
What the regular expressions of the repository and the text around them take from Python.

`\d` and `int()` know the decimal digits of Unicode 13, the version of the interpreter the
repository asks for.

Assumed of the interpreter: its limit on the digits of an integer (4300, since 3.10.7) is switched
off.
-/

import AsPlatform.Library.Backtracking
import AsPlatform.Python

namespace AsPlatform

open Backtracking Pattern

abbrev Regex : Type := Pattern Char

/-- A property of listed characters is decided along the list, also where there is a way
to decide it along all characters. -/
instance decidableListed (letters : List Char) (holds : Char → Prop) [DecidablePred holds] :
    Decidable (∀ letter, letter ∈ letters → holds letter) :=
  List.decidableBAll holds letters

/-! ### Classes -/

/-- The zeros of the rows of decimal digits. -/
def decimalZeros : List Nat :=
  [0x30, 0x660, 0x6F0, 0x7C0, 0x966, 0x9E6, 0xA66, 0xAE6, 0xB66, 0xBE6, 0xC66, 0xCE6, 0xD66,
    0xDE6, 0xE50, 0xED0, 0xF20, 0x1040, 0x1090, 0x17E0, 0x1810, 0x1946, 0x19D0, 0x1A80, 0x1A90,
    0x1B50, 0x1BB0, 0x1C40, 0x1C50, 0xA620, 0xA8D0, 0xA900, 0xA9D0, 0xA9F0, 0xAA50, 0xABF0,
    0xFF10, 0x104A0, 0x10D30, 0x11066, 0x110F0, 0x11136, 0x111D0, 0x112F0, 0x11450, 0x114D0,
    0x11650, 0x116C0, 0x11730, 0x118E0, 0x11950, 0x11C50, 0x11D50, 0x11DA0, 0x16A60, 0x16B50,
    0x1D7CE, 0x1D7D8, 0x1D7E2, 0x1D7EC, 0x1D7F6, 0x1E140, 0x1E2F0, 0x1E950, 0x1FBF0]

def digitValue (character : Char) : Option Nat :=
  decimalZeros.findSome? fun first =>
    if first ≤ character.toNat ∧ character.toNat < first + 10 then some (character.toNat - first)
    else none

/-- `\d`. -/
def isDecimal (character : Char) : Bool :=
  (digitValue character).isSome

/-- `\S`. -/
def notSpace (character : Char) : Bool :=
  !isSpace character

/-- `[...]` with the characters written out. -/
def anyOf (members : List Char) (character : Char) : Bool :=
  members.contains character

/-- `[^...]`. -/
def noneOf (members : List Char) (character : Char) : Bool :=
  !members.contains character

theorem noneOf_of_class {accepts : Char → Bool} {members : List Char}
    (refused : ∀ member ∈ members, accepts member = false) {character : Char}
    (accepted : accepts character = true) : noneOf members character = true := by
  simp only [noneOf, List.contains_eq_mem, Bool.not_eq_true', decide_eq_false_iff_not]
  intro member
  rw [refused character member] at accepted
  contradiction

theorem digitValue_of_isDigit {character : Char} (digit : character.isDigit = true) :
    digitValue character = some (character.toNat - '0'.toNat) := by
  have code : character.toNat = character.val.toNat := rfl
  simp only [Char.isDigit, Bool.and_eq_true, decide_eq_true_eq, ge_iff_le,
    UInt32.le_iff_toNat_le] at digit
  change 48 ≤ _ ∧ _ ≤ 57 at digit
  rw [digitValue, decimalZeros, List.findSome?_cons, if_pos (by omega)]
  rfl

/-- What `re.IGNORECASE` compares, where one side is an ASCII character. -/
def foldCase (character : Char) : Char :=
  if character.toNat = 0x130 ∨ character.toNat = 0x131 then 'i'
  else if character.toNat = 0x17F then 's'
  else if character.toNat = 0x212A then 'k'
  else character.toLower

def caseless (letter character : Char) : Bool :=
  foldCase character == foldCase letter

def exactly (letter character : Char) : Bool :=
  character == letter

theorem toLower_cases (character : Char) :
    (65 ≤ character.toNat ∧ character.toNat ≤ 90) ∨ character.toLower = character := by
  by_cases upper : character.val ≥ 'A'.val ∧ character.val ≤ 'Z'.val
  · exact Or.inl upper
  · exact Or.inr (dif_neg upper)

theorem foldCase_of_isSpace {character : Char} (space : isSpace character = true) :
    foldCase character = character := by
  simp only [isSpace, Bool.or_eq_true, Bool.and_eq_true, decide_eq_true_eq, beq_iff_eq] at space
  unfold foldCase
  rw [if_neg (by omega), if_neg (by omega), if_neg (by omega)]
  rcases toLower_cases character with upper | same
  · omega
  · exact same

theorem caseless_of_isSpace {letter character : Char} (space : isSpace character = true)
    (solid : isSpace (foldCase letter) = false) : caseless letter character = false := by
  rw [caseless, foldCase_of_isSpace space, beq_eq_false_iff_ne]
  intro same
  rw [same, solid] at space
  contradiction

theorem toNat_lt_of_toLower {character : Char} (ascii : character.toLower.toNat < 128) :
    character.toNat < 128 := by
  rcases toLower_cases character with upper | same
  · omega
  · rwa [same] at ascii

theorem foldCase_of_ascii {character : Char} (ascii : character.toNat < 128) :
    foldCase character = character.toLower := by
  unfold foldCase
  rw [if_neg (by omega), if_neg (by omega), if_neg (by omega)]

theorem spelledBy_caseless (letters text rest : List Char)
    (lower : text.map Char.toLower = letters)
    (plain : ∀ letter ∈ letters, letter.toNat < 128 ∧ letter.toLower = letter) :
    spelledBy (letters.map caseless ++ [exactly ':']) (text ++ ':' :: rest) = true := by
  subst lower
  induction text with
  | nil => rfl
  | cons next text ih =>
      obtain ⟨ascii, small⟩ := plain next.toLower (by simp)
      have accepted : caseless next.toLower next = true := by
        rw [caseless, foldCase_of_ascii (toNat_lt_of_toLower ascii), foldCase_of_ascii ascii, small,
          beq_self_eq_true]
      rw [List.map_cons, List.map_cons, List.cons_append, List.cons_append, spelledBy, accepted,
        ih (fun letter member => plain letter (List.mem_cons_of_mem _ member))]
      rfl

theorem spelledBy_exactly {letters text : List Char}
    (spelled : spelledBy (letters.map exactly) text = true) : letters <+: text := by
  induction letters generalizing text with
  | nil => exact List.nil_prefix
  | cons letter letters ih =>
      cases text with
      | nil => contradiction
      | cons next text =>
          rw [List.map_cons, spelledBy, Bool.and_eq_true] at spelled
          rw [eq_of_beq spelled.1, List.cons_prefix_cons]
          exact ⟨rfl, ih spelled.2⟩

theorem ways_exactly_of_class {accepts : Char → Bool} {letter : Char}
    (refused : accepts letter = false) (previous : Option Char) (next : Char) (rest : List Char)
    (captured : List (Nat × List Char)) (accepted : accepts next = true) :
    (symbol (exactly letter)).ways ⟨previous, next :: rest, captured⟩ = [] := by
  rw [ways_symbol_cons, if_neg]
  intro same
  rw [eq_of_beq same, refused] at accepted
  contradiction

/-! ### Positions -/

/-- `^` without `re.MULTILINE`. -/
def textStart (previous _next : Option Char) : Bool :=
  previous.isNone

/-- `^` with `re.MULTILINE`. -/
def lineStart (previous _next : Option Char) : Bool :=
  previous.isNone || previous == some '\n'

/-- `$` with `re.MULTILINE`. -/
def lineEnd (_previous next : Option Char) : Bool :=
  next.isNone || next == some '\n'

/-! ### The scheme of a SIP URI -/

/-- `sips?:` and then the body. -/
def sipScheme (spell : Char → Char → Bool) (body : Regex) : Regex :=
  word [spell 's', spell 'i', spell 'p']
    (seq (optional (symbol (spell 's'))) (seq (symbol (exactly ':')) body))

def readScheme (spell : Char → Char → Bool) (text : List Char) : Option (List Char) :=
  if spelledBy [spell 's', spell 'i', spell 'p', spell 's', exactly ':'] text then
    some (text.drop 5)
  else if spelledBy [spell 's', spell 'i', spell 'p', exactly ':'] text then
    some (text.drop 4)
  else none

/-- No text spells both schemes: a colon is not an `s`. -/
theorem sip_of_sips {spell : Char → Char → Bool} (apart : spell 's' ':' = false)
    {text : List Char}
    (sips : spelledBy [spell 's', spell 'i', spell 'p', spell 's', exactly ':'] text = true) :
    spelledBy [spell 's', spell 'i', spell 'p', exactly ':'] text = false := by
  match text with
  | [] => contradiction
  | [_] => simp [spelledBy] at sips
  | [_, _] => simp [spelledBy] at sips
  | [_, _, _] => simp [spelledBy] at sips
  | _ :: _ :: _ :: fourth :: _ =>
      simp only [spelledBy, Bool.and_eq_true] at sips
      have notColon : exactly ':' fourth = false := by
        rw [Bool.eq_false_iff]
        intro colon
        rw [eq_of_beq colon, apart] at sips
        exact Bool.false_ne_true sips.2.2.2.1
      simp [spelledBy, notColon]

theorem ways_sipScheme {spell : Char → Char → Bool} (apart : spell 's' ':' = false)
    (cursor : Cursor Char) (body : Regex) :
    (sipScheme spell body).ways cursor =
      if spelledBy [spell 's', spell 'i', spell 'p', spell 's', exactly ':'] cursor.rest then
        body.ways (cursor.past (cursor.rest.take 5) (cursor.rest.drop 5))
      else if spelledBy [spell 's', spell 'i', spell 'p', exactly ':'] cursor.rest then
        body.ways (cursor.past (cursor.rest.take 4) (cursor.rest.drop 4))
      else [] := by
  have withS := ways_word [spell 's', spell 'i', spell 'p', spell 's', exactly ':'] body cursor
  have withoutS := ways_word [spell 's', spell 'i', spell 'p', exactly ':'] body cursor
  rw [sipScheme, ways_word_optional]
  change (word [_, _, _, _, _] body).ways cursor ++ (word [_, _, _, _] body).ways cursor = _
  rw [withS, withoutS]
  by_cases sips :
    spelledBy [spell 's', spell 'i', spell 'p', spell 's', exactly ':'] cursor.rest = true
  · simp [sips, sip_of_sips apart sips]
  · simp [sips]

/-- What is found behind the scheme is found of the text there. -/
theorem matchAt_sipScheme {spell : Char → Char → Bool} (apart : spell 's' ':' = false)
    {body : Regex} {Found : Type} {view : Cursor Char → Found}
    {read : List Char → Option Found} {captured : List (Nat × List Char)}
    (matched : ∀ previous rest, (body.matchAt ⟨previous, rest, captured⟩).map view = read rest)
    (previous : Option Char) (text : List Char) :
    ((sipScheme spell body).matchAt ⟨previous, text, captured⟩).map view =
      (readScheme spell text).bind read := by
  rw [matchAt, ways_sipScheme apart, readScheme]
  by_cases sips : spelledBy [spell 's', spell 'i', spell 'p', spell 's', exactly ':'] text = true
  · rw [if_pos sips, if_pos sips]
    exact matched _ _
  · rw [if_neg sips, if_neg sips]
    by_cases sip : spelledBy [spell 's', spell 'i', spell 'p', exactly ':'] text = true
    · rw [if_pos sip, if_pos sip]
      exact matched _ _
    · rw [if_neg sip, if_neg sip]
      rfl

/-! ### Text -/

/-- `int()` of decimal digits. -/
def pyInt (digits : List Char) : Nat :=
  digits.foldl (fun number digit => 10 * number + (digitValue digit).getD 0) 0

/-- `rstrip()`. -/
def stripEnd (text : List Char) : List Char :=
  text.rdropWhile isSpace

theorem toList_strip (text : List Char) :
    (strip (String.ofList text)).toList = stripEnd (text.dropWhile isSpace) := by
  simp [strip, stripEnd, List.rdropWhile]

theorem strip_surrounded {before text behind : List Char}
    (blankBefore : ∀ character ∈ before, isSpace character = true)
    (solid : ∀ character ∈ text, isSpace character = false)
    (blankBehind : ∀ character ∈ behind, isSpace character = true) :
    (strip (String.ofList (before ++ (text ++ behind)))).toList = text := by
  have reversed : (text.reverse).dropWhile isSpace = text.reverse := by
    cases ending : text.reverse with
    | nil => rfl
    | cons last others =>
        have member : last ∈ text := List.mem_reverse.mp (by rw [ending]; simp)
        rw [List.dropWhile_cons_of_neg (by simp [solid last member])]
  rw [toList_strip, List.dropWhile_append_of_pos blankBefore]
  cases text with
  | nil =>
      rw [List.nil_append, List.dropWhile_eq_nil_iff.mpr blankBehind]
      rfl
  | cons first more =>
      rw [List.cons_append, List.dropWhile_cons_of_neg (by simp [solid first]), ← List.cons_append,
        stripEnd, List.rdropWhile, List.reverse_append, List.dropWhile_append_of_pos, reversed,
        List.reverse_reverse]
      exact fun character member => blankBehind character (List.mem_reverse.mp member)

/-! ### Where a run of one class ends -/

theorem takeWhile_append_stop {accepts : Char → Bool} {stop : Char}
    (refused : accepts stop = false) (text rest : List Char) :
    (text ++ stop :: rest).takeWhile accepts = text.takeWhile accepts := by
  induction text with
  | nil => simp [refused]
  | cons next text ih => simp [List.takeWhile_cons, ih]

theorem dropWhile_append_stop {accepts : Char → Bool} {stop : Char}
    (refused : accepts stop = false) (text rest : List Char) :
    (text ++ stop :: rest).dropWhile accepts = text.dropWhile accepts ++ stop :: rest := by
  induction text with
  | nil => simp [refused]
  | cons next text ih =>
      by_cases accepted : accepts next = true <;> simp [accepted, ih]

theorem stripEnd_append_solid {solid : Char} (seen : isSpace solid = false)
    (text rest : List Char) :
    stripEnd (text ++ solid :: rest) = text ++ solid :: stripEnd rest := by
  simp [stripEnd, List.rdropWhile, dropWhile_append_stop seen]

theorem stripEnd_of_isSpace {text : List Char} (blank : ∀ character ∈ text, isSpace character) :
    stripEnd text = [] :=
  List.rdropWhile_eq_nil_iff.mpr blank

theorem strip_of_solid_ends {first last : Char} (text : List Char)
    (solidFirst : isSpace first = false) (solidLast : isSpace last = false) :
    (strip (String.ofList (first :: (text ++ [last])))).toList = first :: (text ++ [last]) := by
  have kept := stripEnd_append_solid solidLast (first :: text) []
  rw [toList_strip, List.dropWhile_cons_of_neg (by simp [solidFirst])]
  exact kept

/-- A text is split in one way only at the first of its stops. -/
theorem split_unique {stop : Char} {left right behindLeft behindRight : List Char}
    (notLeft : stop ∉ left) (notRight : stop ∉ right)
    (same : left ++ stop :: behindLeft = right ++ stop :: behindRight) :
    left = right ∧ behindLeft = behindRight := by
  induction left generalizing right with
  | nil =>
      cases right with
      | nil => exact ⟨rfl, (List.cons.inj same).2⟩
      | cons next right => exact absurd (by simp [(List.cons.inj same).1]) notRight
  | cons next left ih =>
      cases right with
      | nil => exact absurd (by simp [(List.cons.inj same).1]) notLeft
      | cons other right =>
          obtain ⟨sameFirst, sameRest⟩ := List.cons.inj same
          obtain ⟨sameLeft, sameBehind⟩ :=
            ih (fun member => notLeft (List.mem_cons_of_mem _ member))
              (fun member => notRight (List.mem_cons_of_mem _ member)) sameRest
          exact ⟨by rw [sameFirst, sameLeft], sameBehind⟩

end AsPlatform
