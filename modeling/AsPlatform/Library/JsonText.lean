/-
JSON objects of texts, as `json.dumps` writes and `json.loads` reads them.

The values are texts and `null`.  Of the characters only those are escaped that have to be,
so what is written is the text of `json.dumps` where all the texts are ASCII.
-/

import AsPlatform.Library.OrderedDict

namespace JsonText

/-! ### Texts -/

def hexDigits : List Char :=
  ['0', '1', '2', '3', '4', '5', '6', '7', '8', '9', 'a', 'b', 'c', 'd', 'e', 'f']

def hexDigit (value : Nat) : Char :=
  hexDigits.getD value '0'

def hexValue (digit : Char) : Nat :=
  hexDigits.idxOf digit

theorem hexValue_hexDigit : ∀ value, value < 16 → hexValue (hexDigit value) = value := by
  decide

def letters : List (Char × Char) :=
  [('"', '"'), ('\\', '\\'), ('\n', 'n'), ('\r', 'r'), ('\t', 't')]

def isControl (character : Char) : Prop := character.toNat < 0x20

instance (character : Char) : Decidable (isControl character) :=
  inferInstanceAs (Decidable (character.toNat < 0x20))

def escapeChar (character : Char) : List Char :=
  match letters.find? fun pair => decide (pair.1 = character) with
  | some pair => ['\\', pair.2]
  | none =>
      if isControl character then
        ['\\', 'u', '0', '0', hexDigit (character.toNat / 16), hexDigit (character.toNat % 16)]
      else [character]

def escape (text : List Char) : List Char :=
  text.flatMap escapeChar

def unescapeLetter (letter : Char) : Char :=
  match letters.find? fun pair => decide (pair.2 = letter) with
  | some pair => pair.1
  | none => letter

/-- A text up to its closing quote, and what comes after that. -/
def readText : List Char → Option (List Char × List Char)
  | [] => none
  | first :: rest =>
      if first = '"' then some ([], rest)
      else if first = '\\' then
        match rest with
        | [] => none
        | letter :: rest =>
            if letter = 'u' then
              match rest with
              | third :: second :: high :: low :: rest =>
                  (readText rest).map fun read =>
                    (Char.ofNat (((hexValue third * 16 + hexValue second) * 16 +
                      hexValue high) * 16 + hexValue low) :: read.1, read.2)
              | _ => none
            else (readText rest).map fun read => (unescapeLetter letter :: read.1, read.2)
      else (readText rest).map fun read => (first :: read.1, read.2)

theorem readText_quote (rest : List Char) : readText ('"' :: rest) = some ([], rest) := by
  rw [readText.eq_def]
  exact if_pos rfl

theorem readText_letter {letter : Char} (single : letter ≠ 'u') (rest : List Char) :
    readText ('\\' :: letter :: rest) =
      (readText rest).map fun read => (unescapeLetter letter :: read.1, read.2) := by
  rw [readText.eq_def]
  exact (if_neg (by decide)).trans ((if_pos rfl).trans (if_neg single))

theorem readText_code (third second high low : Char) (rest : List Char) :
    readText ('\\' :: 'u' :: third :: second :: high :: low :: rest) =
      (readText rest).map fun read =>
        (Char.ofNat (((hexValue third * 16 + hexValue second) * 16 + hexValue high) * 16 +
          hexValue low) :: read.1, read.2) := by
  rw [readText.eq_def]
  exact (if_neg (by decide)).trans ((if_pos rfl).trans (if_pos rfl))

theorem readText_plain {character : Char} (noQuote : character ≠ '"')
    (noBackslash : character ≠ '\\') (rest : List Char) :
    readText (character :: rest) =
      (readText rest).map fun read => (character :: read.1, read.2) := by
  rw [readText.eq_def]
  exact (if_neg noQuote).trans (if_neg noBackslash)

theorem unescapeLetter_of_mem : ∀ pair, pair ∈ letters →
    pair.2 ≠ 'u' ∧ unescapeLetter pair.2 = pair.1 := by
  decide

theorem readText_escapeChar (character : Char) (rest : List Char) :
    readText (escapeChar character ++ rest) =
      (readText rest).map fun read => (character :: read.1, read.2) := by
  unfold escapeChar
  cases found : letters.find? fun pair => decide (pair.1 = character) with
  | some pair =>
      have same : pair.1 = character := by simpa using List.find?_some found
      obtain ⟨single, stands⟩ := unescapeLetter_of_mem pair (List.mem_of_find?_eq_some found)
      rw [← same, ← stands]
      exact readText_letter single rest
  | none =>
      have special : ∀ pair, pair ∈ letters → pair.1 ≠ character :=
        fun pair member same => List.find?_eq_none.mp found pair member (decide_eq_true same)
      by_cases control : isControl character
      · have high : character.toNat / 16 < 16 := by
          unfold isControl at control
          omega
        have low : character.toNat % 16 < 16 := Nat.mod_lt _ (by decide)
        have zero : hexValue '0' = 0 := by decide
        have code : ((0 * 16 + 0) * 16 + character.toNat / 16) * 16 + character.toNat % 16 =
            character.toNat := by omega
        simp only [if_pos control]
        change readText ('\\' :: 'u' :: '0' :: '0' :: _ :: _ :: rest) = _
        rw [readText_code, zero, hexValue_hexDigit _ high, hexValue_hexDigit _ low, code,
          Char.ofNat_toNat]
      · simp only [if_neg control]
        exact readText_plain (fun same => special ('"', '"') (by decide) same.symm)
          (fun same => special ('\\', '\\') (by decide) same.symm) rest

theorem readText_escape (text rest : List Char) :
    readText (escape text ++ '"' :: rest) = some (text, rest) := by
  induction text with
  | nil => exact readText_quote rest
  | cons character text ih =>
      rw [escape, List.flatMap_cons, List.append_assoc, readText_escapeChar]
      exact congrArg (Option.map _) ih

theorem escape_not_control (text : List Char) : ∀ character, character ∈ escape text →
    ¬isControl character := by
  have named : ∀ pair, pair ∈ letters → ¬isControl pair.2 := by decide
  have digit : ∀ value, value < 16 → ¬isControl (hexDigit value) := by decide
  intro character member
  obtain ⟨original, _, written⟩ := List.mem_flatMap.mp member
  unfold escapeChar at written
  cases found : letters.find? fun pair => decide (pair.1 = original) with
  | some pair =>
      simp only [found, List.mem_cons, List.not_mem_nil, or_false] at written
      rcases written with rfl | rfl
      · decide
      · exact named pair (List.mem_of_find?_eq_some found)
  | none =>
      by_cases control : isControl original
      · have high : original.toNat / 16 < 16 := by
          unfold isControl at control
          omega
        simp only [found, if_pos control, List.mem_cons, List.not_mem_nil, or_false] at written
        rcases written with rfl | rfl | rfl | rfl | rfl | rfl
        · decide
        · decide
        · decide
        · decide
        · exact digit _ high
        · exact digit _ (Nat.mod_lt _ (by decide))
      · simp only [found, if_neg control, List.mem_singleton] at written
        rw [written]
        exact control

/-! ### Objects -/

def writeText (text : String) : List Char :=
  '"' :: escape text.toList ++ ['"']

def writeValue : Option String → List Char
  | some text => writeText text
  | none => ['n', 'u', 'l', 'l']

def writeEntry (entry : String × Option String) : List Char :=
  writeText entry.1 ++ [':', ' '] ++ writeValue entry.2

/-- The entries after the first one, and the end of the object. -/
def writeRest (entries : List (String × Option String)) : List Char :=
  entries.flatMap (fun entry => [',', ' '] ++ writeEntry entry) ++ ['\x7d']

def writeObject : List (String × Option String) → List Char
  | [] => ['\x7b', '\x7d']
  | entry :: rest => '\x7b' :: writeEntry entry ++ writeRest rest

def readValue : List Char → Option (Option String × List Char)
  | '"' :: rest => (readText rest).map fun read => (some (String.ofList read.1), read.2)
  | 'n' :: 'u' :: 'l' :: 'l' :: rest => some (none, rest)
  | _ => none

def readEntry : List Char → Option ((String × Option String) × List Char)
  | '"' :: rest =>
      match readText rest with
      | some (key, ':' :: ' ' :: rest) =>
          (readValue rest).map fun read => ((String.ofList key, read.1), read.2)
      | _ => none
  | _ => none

/-- At most so many entries. -/
def readRest : Nat → List Char → Option (List (String × Option String))
  | _, ['\x7d'] => some []
  | fuel + 1, ',' :: ' ' :: rest =>
      (readEntry rest).bind fun read => (readRest fuel read.2).map (read.1 :: ·)
  | _, _ => none

def readObject : List Char → Option (List (String × Option String))
  | ['\x7b', '\x7d'] => some []
  | '\x7b' :: rest =>
      (readEntry rest).bind fun read => (readRest rest.length read.2).map (read.1 :: ·)
  | _ => none

theorem readValue_writeValue (value : Option String) (rest : List Char) :
    readValue (writeValue value ++ rest) = some (value, rest) := by
  cases value with
  | none => rfl
  | some text =>
      change readValue ('"' :: ((escape text.toList ++ ['"']) ++ rest)) = _
      rw [List.append_assoc]
      change (readText (escape text.toList ++ '"' :: rest)).map _ = _
      rw [readText_escape, Option.map_some, String.ofList_toList]

theorem readEntry_writeEntry (entry : String × Option String) (rest : List Char) :
    readEntry (writeEntry entry ++ rest) = some (entry, rest) := by
  have written : writeEntry entry ++ rest =
      '"' :: (escape entry.1.toList ++ '"' :: ':' :: ' ' :: (writeValue entry.2 ++ rest)) := by
    simp [writeEntry, writeText]
  rw [written, readEntry, readText_escape]
  change (readValue (writeValue entry.2 ++ rest)).map _ = _
  rw [readValue_writeValue, Option.map_some, String.ofList_toList]

theorem writeRest_cons (entry : String × Option String) (rest : List (String × Option String)) :
    writeRest (entry :: rest) = ',' :: ' ' :: (writeEntry entry ++ writeRest rest) := by
  simp [writeRest]

theorem length_le_writeRest (entries : List (String × Option String)) :
    entries.length ≤ (writeRest entries).length := by
  induction entries with
  | nil => exact Nat.zero_le _
  | cons entry rest ih =>
      rw [writeRest_cons]
      simp only [List.length_cons, List.length_append]
      omega

theorem readRest_writeRest (entries : List (String × Option String)) (fuel : Nat)
    (enough : entries.length ≤ fuel) : readRest fuel (writeRest entries) = some entries := by
  induction entries generalizing fuel with
  | nil => cases fuel <;> rfl
  | cons entry rest ih =>
      obtain ⟨less, rfl⟩ := Nat.exists_eq_add_one_of_ne_zero (Nat.ne_zero_of_lt enough)
      have later := ih less (Nat.le_of_succ_le_succ enough)
      rw [writeRest_cons, readRest, readEntry_writeEntry, Option.bind_some, later,
        Option.map_some]

theorem readObject_writeObject (entries : List (String × Option String)) :
    readObject (writeObject entries) = some entries := by
  cases entries with
  | nil => rfl
  | cons entry rest =>
      have enough : rest.length ≤ (writeEntry entry ++ writeRest rest).length := by
        have shorter := length_le_writeRest rest
        rw [List.length_append]
        omega
      rw [writeObject, List.cons_append, readObject, readEntry_writeEntry, Option.bind_some,
        readRest_writeRest rest _ enough, Option.map_some]
      intro same
      exact absurd (Option.some.inj (congrArg List.head? same)) (by decide)

theorem not_control_of_all {text : List Char}
    (all : (text.all fun character => !decide (isControl character)) = true) :
    ∀ character, character ∈ text → ¬isControl character := by
  intro character member
  simpa using List.all_eq_true.mp all character member

theorem writeEntry_not_control (entry : String × Option String) :
    ∀ character, character ∈ writeEntry entry → ¬isControl character := by
  have quoted : ∀ text : String, ∀ character, character ∈ writeText text →
      ¬isControl character := by
    intro text character member
    rcases List.mem_append.mp member with inside | closing
    · rcases List.mem_cons.mp inside with rfl | written
      · decide
      · exact escape_not_control text.toList character written
    · rw [List.mem_singleton.mp closing]
      decide
  have null : ∀ character, character ∈ ['n', 'u', 'l', 'l'] → ¬isControl character :=
    not_control_of_all (by decide)
  have between : ∀ character, character ∈ [':', ' '] → ¬isControl character :=
    not_control_of_all (by decide)
  intro character member
  rcases List.mem_append.mp member with before | value
  · rcases List.mem_append.mp before with key | separator
    · exact quoted entry.1 character key
    · exact between character separator
  · cases isValue : entry.2 with
    | none =>
        rw [isValue] at value
        exact null character value
    | some text =>
        rw [isValue] at value
        exact quoted text character value

theorem writeRest_not_control (entries : List (String × Option String)) :
    ∀ character, character ∈ writeRest entries → ¬isControl character := by
  have between : ∀ character, character ∈ [',', ' '] → ¬isControl character :=
    not_control_of_all (by decide)
  intro character member
  rcases List.mem_append.mp member with inside | closing
  · obtain ⟨entry, _, written⟩ := List.mem_flatMap.mp inside
    rcases List.mem_append.mp written with separator | ofEntry
    · exact between character separator
    · exact writeEntry_not_control entry character ofEntry
  · rw [List.mem_singleton.mp closing]
    decide

theorem writeObject_not_control (entries : List (String × Option String)) :
    ∀ character, character ∈ writeObject entries → ¬isControl character := by
  cases entries with
  | nil => exact not_control_of_all (by decide)
  | cons entry rest =>
      intro character member
      rcases List.mem_append.mp member with first | later
      · rcases List.mem_cons.mp first with rfl | written
        · decide
        · exact writeEntry_not_control entry character written
      · exact writeRest_not_control rest character later

/-! ### Dictionaries -/

def dumps (object : OrderedDict String (Option String)) : String :=
  String.ofList (writeObject object.entries)

def loads (text : String) : Option (OrderedDict String (Option String)) :=
  (readObject text.toList).map OrderedDict.ofList

/-- What is written is read back. -/
theorem loads_dumps (object : OrderedDict String (Option String)) :
    loads (dumps object) = some object := by
  have same : OrderedDict.ofList object.entries = object := by
    cases object with
    | mk entries nodup =>
        have equal := OrderedDict.entries_ofList nodup
        cases isDict : OrderedDict.ofList entries with
        | mk others othersNodup =>
            rw [isDict] at equal
            cases equal
            rfl
  rw [loads, dumps, String.toList_ofList, readObject_writeObject, Option.map_some, same]

theorem dumps_not_control (object : OrderedDict String (Option String)) :
    ∀ character, character ∈ (dumps object).toList → ¬isControl character := by
  rw [dumps, String.toList_ofList]
  exact writeObject_not_control object.entries

end JsonText
