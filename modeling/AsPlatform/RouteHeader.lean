/-
The target of the top `Route` entry.

The pattern is searched for in the pieces between commas.  What it finds is read off the
text behind an opening bracket, one opening after the other.
-/

import AsPlatform.PythonRe
import Mathlib.Tactic.NthRewrite
import Mathlib.Tactic.SplitIfs

namespace AsPlatform

open Backtracking Pattern

/-! ### The pattern -/

def routeUserClass : Char → Bool := noneOf ['<', '>', '@', ';']

def routeHostClass : Char → Bool := noneOf ['<', '>', '@', ':', ';']

/-- `([^<>@;]+@)?`. -/
def routeUserPart : Regex :=
  optional (group 1 (seq (plus routeUserClass) (symbol (exactly '@'))))

/-- `(?::(\d+))?`. -/
def routePortPart : Regex :=
  optional (seq (symbol (exactly ':')) (group 3 (plus isDecimal)))

def routeTarget : Regex :=
  seq routeUserPart (seq (group 2 (plus routeHostClass)) routePortPart)

/-- `_ROUTE_ENTRY`: `<\s*sips?:([^<>@;]+@)?([^<>@:;]+)(?::(\d+))?`, ignoring case. -/
def routeEntry : Regex :=
  seq (symbol (exactly '<')) (seq (many isSpace) (sipScheme caseless routeTarget))

/-! ### The functions -/

structure HeaderBody where
  text : String
  copyText : Option String := none

/-- What is read of a request; a stand-in may lack the method. -/
structure RouteRequest where
  getHFBodys : Option (String → List HeaderBody)

def routeHeaderValues (request : RouteRequest) : List String :=
  match request.getHFBodys with
  | none => []
  | some getter => (getter "route").map fun body => body.copyText.getD body.text

structure RouteReading where
  host : List Char
  portText : Option (List Char)
  deriving DecidableEq

def RouteReading.of (found : Cursor Char) : RouteReading where
  host := (found.group 2).getD []
  portText := found.group 3

def searchEntry (part : List Char) : Option RouteReading :=
  (routeEntry.search part).map RouteReading.of

def RouteReading.target (defaultPort : Nat) (reading : RouteReading) : String × Nat :=
  (String.ofList reading.host,
    match reading.portText with
    | none => defaultPort
    | some [] => defaultPort
    | some digits => pyInt digits)

def spelledIn (raw : List Char) : Option RouteReading :=
  (raw.splitOn ',').findSome? fun part => searchEntry (strip (String.ofList part)).toList

def parseTopRouteTarget (request : Option RouteRequest) (defaultPort : Nat) :
    Option (String × Nat) :=
  match request with
  | none => none
  | some request =>
      ((routeHeaderValues request).findSome? fun raw => spelledIn raw.toList).map
        (RouteReading.target defaultPort)

/-! ### What the pattern reads -/

def readPort : List Char → Option (List Char)
  | ':' :: rest => if rest.takeWhile isDecimal = [] then none else some (rest.takeWhile isDecimal)
  | _ => none

def readHost (text : List Char) : Option RouteReading :=
  if text.takeWhile routeHostClass = [] then none
  else some ⟨text.takeWhile routeHostClass, readPort (text.dropWhile routeHostClass)⟩

/-- With a user part if a host follows it, else without. -/
def readTarget (text : List Char) : Option RouteReading :=
  match text.takeWhile routeUserClass, text.dropWhile routeUserClass with
  | _ :: _, '@' :: rest => (readHost rest).or (readHost text)
  | _, _ => readHost text

def readEntry (text : List Char) : Option RouteReading :=
  (readScheme caseless (text.dropWhile isSpace)).bind readTarget

theorem matchAt_routePortPart (cursor : Cursor Char) (unread : cursor.group 3 = none) :
    (routePortPart.matchAt cursor).map RouteReading.of =
      some ⟨(cursor.group 2).getD [], readPort cursor.rest⟩ := by
  obtain ⟨previous, rest, captured⟩ := cursor
  rw [routePortPart, matchAt_optional, matchAt_seq]
  cases rest with
  | nil => simpa [ways_symbol_nil, readPort, RouteReading.of] using unread
  | cons next rest =>
      rw [ways_symbol_cons]
      by_cases colon : next = ':'
      · subst colon
        rw [readPort]
        simp only [exactly, beq_self_eq_true, if_true, List.findSome?_cons, List.findSome?_nil,
          matchAt_group, matchAt_plus]
        by_cases empty : rest.takeWhile isDecimal = []
        · simpa [empty, RouteReading.of] using unread
        · simp only [empty, if_false, Option.map_some, capture_longest]
          simp [RouteReading.of, Cursor.group, List.lookup_cons, longest]
      · have other : exactly ':' next = false := by simpa [exactly] using colon
        simpa [other, readPort, RouteReading.of, colon] using unread

theorem matchAt_routeHost (cursor : Cursor Char) (unread : cursor.group 3 = none) :
    ((seq (group 2 (plus routeHostClass)) routePortPart).matchAt cursor).map RouteReading.of =
      readHost cursor.rest := by
  have total : ∀ cursor, (routePortPart.matchAt cursor).isSome := matchAt_optional_isSome _
  rw [matchAt_seq_of_total _ total, matchAt_group, matchAt_plus, readHost]
  by_cases empty : cursor.rest.takeWhile routeHostClass = []
  · simp [empty]
  · simp only [empty, if_false, Option.map_some, Option.bind_some, capture_longest]
    rw [matchAt_routePortPart]
    · rfl
    · exact unread

theorem ways_routeUser (cursor : Cursor Char) :
    (group 1 (seq (plus routeUserClass) (symbol (exactly '@')))).ways cursor =
      match cursor.rest.takeWhile routeUserClass, cursor.rest.dropWhile routeUserClass with
      | _ :: _, '@' :: rest =>
          [cursor.capture 1 ⟨some '@', rest, cursor.captured⟩]
      | _, _ => [] := by
  have committed := ways_exactly_of_class (show routeUserClass '@' = false by decide)
  rw [ways, ways_seq_plus_of_committed committed]
  cases word : cursor.rest.takeWhile routeUserClass with
  | nil => rfl
  | cons user more =>
      cases behind : cursor.rest.dropWhile routeUserClass with
      | nil => simp [longest, Cursor.past, behind, ways_symbol_nil]
      | cons next rest =>
          by_cases isAt : next = '@'
          · subst isAt
            simp [longest, Cursor.past, behind, ways_symbol_cons, exactly]
          · simp [longest, Cursor.past, behind, ways_symbol_cons, exactly, isAt]

theorem matchAt_routeTarget (cursor : Cursor Char) (unread : cursor.captured = []) :
    (routeTarget.matchAt cursor).map RouteReading.of = readTarget cursor.rest := by
  have plain := matchAt_routeHost cursor (by rw [Cursor.group, unread]; rfl)
  rw [routeTarget, matchAt_seq, routeUserPart, ways, ways_routeUser, readTarget]
  split
  · rename_i rest _ _
    have behindUser : ((seq (group 2 (plus routeHostClass)) routePortPart).matchAt
        (cursor.capture 1 ⟨some '@', rest, cursor.captured⟩)).map RouteReading.of =
          readHost rest :=
      matchAt_routeHost (cursor.capture 1 ⟨some '@', rest, cursor.captured⟩)
        (by simp [Cursor.group, Cursor.capture, unread, List.lookup_cons])
    rw [← plain, ← behindUser]
    simp only [List.cons_append, List.nil_append, List.findSome?_cons, List.findSome?_nil]
    cases (seq (group 2 (plus routeHostClass)) routePortPart).matchAt
      (cursor.capture 1 ⟨some '@', rest, cursor.captured⟩) <;>
      cases (seq (group 2 (plus routeHostClass)) routePortPart).matchAt cursor <;> rfl
  · rw [← plain, List.nil_append, List.findSome?_singleton]

/-- The match at a place depends on what follows an opening bracket there. -/
theorem matchAt_routeEntry (previous : Option Char) (next : Char) (rest : List Char) :
    (routeEntry.matchAt ⟨previous, next :: rest, []⟩).map RouteReading.of =
      if next = '<' then readEntry rest else none := by
  have committed : ∀ previous next rest captured, isSpace next = true →
      (sipScheme caseless routeTarget).ways ⟨previous, next :: rest, captured⟩ = [] := by
    intro previous next rest captured space
    rw [sipScheme, ways_word, spelledBy, caseless_of_isSpace space (by decide)]
    rfl
  rw [routeEntry, matchAt_seq, ways_symbol_cons]
  by_cases opening : next = '<'
  · subst opening
    rw [if_pos (by decide), if_pos rfl, List.findSome?_singleton, matchAt,
      ways_seq_many_of_committed committed]
    exact matchAt_sipScheme (by decide) (fun previous rest => matchAt_routeTarget _ rfl) _ _
  · have other : exactly '<' next = false := by simpa [exactly] using opening
    simp [other, opening]

/-! ### Searching -/

def searchEntryFrom (previous : Option Char) (part : List Char) : Option RouteReading :=
  (routeEntry.searchFrom previous part).map RouteReading.of

theorem searchEntryFrom_cons (previous : Option Char) (next : Char) (rest : List Char) :
    searchEntryFrom previous (next :: rest) =
      (if next = '<' then readEntry rest else none).or (searchEntryFrom (some next) rest) := by
  rw [searchEntryFrom, searchFrom, ← matchAt_routeEntry previous next rest]
  cases routeEntry.matchAt ⟨previous, next :: rest, []⟩ <;> rfl

theorem searchEntryFrom_eq (previous : Option Char) (part : List Char) :
    searchEntryFrom previous part = searchEntry part := by
  change _ = searchEntryFrom none part
  cases part with
  | nil => rfl
  | cons next rest => rw [searchEntryFrom_cons, searchEntryFrom_cons]

theorem searchEntry_cons (next : Char) (rest : List Char) :
    searchEntry (next :: rest) =
      (if next = '<' then readEntry rest else none).or (searchEntry rest) := by
  have read := searchEntryFrom_cons none next rest
  rwa [searchEntryFrom_eq, searchEntryFrom_eq] at read

theorem searchEntry_append_of_not_mem {text : List Char} (rest : List Char)
    (unopened : '<' ∉ text) : searchEntry (text ++ rest) = searchEntry rest := by
  induction text with
  | nil => rfl
  | cons next text ih =>
      obtain ⟨other, unopened⟩ := not_or.mp (fun member => unopened (List.mem_cons.mpr member))
      rw [List.cons_append, searchEntry_cons, if_neg (Ne.symm other), ih unopened]
      rfl

theorem searchEntry_of_not_mem {text : List Char} (unopened : '<' ∉ text) :
    searchEntry text = none := by
  have skipped := searchEntry_append_of_not_mem [] unopened
  rwa [List.append_nil] at skipped

/-! ### Where a reading ends -/

structure Ends (stop : Char) : Prop where
  user : routeUserClass stop = false
  host : routeHostClass stop = false
  digit : isDecimal stop = false
  space : isSpace stop = false
  notAt : stop ≠ '@'
  notColon : stop ≠ ':'
  letters : caseless 's' stop = false ∧ caseless 'i' stop = false ∧ caseless 'p' stop = false

section

variable {stop : Char} (ends : Ends stop) (rest : List Char)
include ends

theorem readPort_append (text : List Char) :
    readPort (text ++ stop :: rest) = readPort text := by
  cases text with
  | nil => simp [readPort, ends.notColon]
  | cons next text =>
      by_cases colon : next = ':'
      · subst colon
        simp only [List.cons_append, readPort, takeWhile_append_stop ends.digit]
      · simp [readPort, colon]

theorem readHost_append (text : List Char) :
    readHost (text ++ stop :: rest) = readHost text := by
  rw [readHost, readHost, takeWhile_append_stop ends.host, dropWhile_append_stop ends.host,
    readPort_append ends]

theorem readTarget_append (text : List Char) :
    readTarget (text ++ stop :: rest) = readTarget text := by
  rw [readTarget, readTarget, takeWhile_append_stop ends.user, dropWhile_append_stop ends.user,
    readHost_append ends]
  cases text.takeWhile routeUserClass with
  | nil => rfl
  | cons user more =>
      cases text.dropWhile routeUserClass with
      | nil => simp [ends.notAt]
      | cons next behind =>
          by_cases isAt : next = '@'
          · subst isAt
            simp only [List.cons_append, readHost_append ends]
          · simp [isAt]

theorem readScheme_append (text : List Char) :
    readScheme caseless (text ++ stop :: rest) =
      (readScheme caseless text).map (· ++ stop :: rest) := by
  obtain ⟨notS, notI, notP⟩ := ends.letters
  have notColon : exactly ':' stop = false := by simpa [exactly] using ends.notColon
  match text with
  | [] => simp [readScheme, spelledBy, notS]
  | [_] => simp [readScheme, spelledBy, notI]
  | [_, _] => simp [readScheme, spelledBy, notP]
  | [_, _, _] => simp [readScheme, spelledBy, notS, notColon]
  | [_, _, _, _] => simp [readScheme, spelledBy, notColon]
  | _ :: _ :: _ :: _ :: _ :: _ =>
      simp only [List.cons_append, readScheme, spelledBy, List.drop_succ_cons, List.drop_zero]
      split_ifs <;> rfl

theorem readEntry_append (text : List Char) :
    readEntry (text ++ stop :: rest) = readEntry text := by
  rw [readEntry, readEntry, dropWhile_append_stop ends.space, readScheme_append ends]
  cases readScheme caseless (text.dropWhile isSpace) with
  | none => rfl
  | some target => exact readTarget_append ends rest target

end

theorem searchEntry_append_open (text rest : List Char) :
    searchEntry (text ++ '<' :: rest) = (searchEntry text).or (searchEntry ('<' :: rest)) := by
  have ends : Ends '<' := by constructor <;> decide
  induction text with
  | nil => rfl
  | cons next text ih =>
      rw [List.cons_append, searchEntry_cons, searchEntry_cons next, ih, readEntry_append ends,
        Option.or_assoc]

theorem searchEntry_open_append {stop : Char} (ends : Ends stop) (other : stop ≠ '<')
    {text : List Char} (unopened : '<' ∉ text) (rest : List Char) :
    searchEntry ('<' :: (text ++ stop :: rest)) = (readEntry text).or (searchEntry rest) := by
  have skipped : searchEntry (text ++ stop :: rest) = searchEntry rest := by
    rw [searchEntry_append_of_not_mem _ unopened, searchEntry_cons, if_neg other]
    rfl
  rw [searchEntry_cons, if_pos rfl, skipped, readEntry_append ends]

/-! ### Pieces of a value -/

theorem searchEntry_strip (part : List Char) :
    searchEntry (strip (String.ofList part)).toList = searchEntry (stripEnd part) := by
  have parts := List.takeWhile_append_dropWhile (p := isSpace) (l := part)
  have blank : ∀ character ∈ part.takeWhile isSpace, isSpace character = true :=
    fun character member => List.mem_takeWhile_imp member
  have unopened : '<' ∉ part.takeWhile isSpace := by
    intro member
    exact absurd (blank '<' member) (by decide)
  rw [toList_strip]
  cases core : part.dropWhile isSpace with
  | nil =>
      rw [core, List.append_nil] at parts
      rw [← parts, stripEnd_of_isSpace blank]
      rfl
  | cons solid rest =>
      have seen : isSpace solid = false := by
        have first := List.head?_dropWhile_not isSpace part
        simpa [core] using first
      rw [core] at parts
      rw [← parts, stripEnd_append_solid seen, searchEntry_append_of_not_mem _ unopened]
      exact congrArg searchEntry (stripEnd_append_solid seen [] rest)

theorem spelledIn_comma (text rest : List Char) :
    spelledIn (text ++ ',' :: rest) = (spelledIn text).or (spelledIn rest) := by
  rw [spelledIn, List.splitOn_append_cons_self, List.findSome?_append]
  rfl

theorem spelledIn_of_not_mem {text : List Char} (whole : ',' ∉ text) :
    spelledIn text = searchEntry (stripEnd text) := by
  rw [spelledIn, List.splitOn_eq_singleton whole, List.findSome?_singleton, searchEntry_strip]

/-- What holds of one piece that begins with a text holds of every value that does. -/
theorem spelledIn_of_piece {front back : List Char} {found : Option RouteReading}
    (frontWhole : ',' ∉ front) (backWhole : ',' ∉ back)
    (piece : ∀ first, searchEntry (stripEnd (front ++ first)) =
      found.or (searchEntry (stripEnd (back ++ first))))
    (rest : List Char) : spelledIn (front ++ rest) = found.or (spelledIn (back ++ rest)) := by
  have single : ∀ first, ',' ∉ first →
      spelledIn (front ++ first) = found.or (spelledIn (back ++ first)) := by
    intro first whole
    rw [spelledIn_of_not_mem (by simp [frontWhole, whole]),
      spelledIn_of_not_mem (by simp [backWhole, whole]), piece]
  by_cases comma : ',' ∈ rest
  · obtain ⟨first, others, rfl, whole⟩ := List.eq_append_cons_of_mem comma
    rw [← List.append_assoc, ← List.append_assoc, spelledIn_comma, spelledIn_comma, single _ whole,
      Option.or_assoc]
  · exact single rest comma

theorem spelledIn_cons {next : Char} (other : next ≠ '<') (rest : List Char) :
    spelledIn (next :: rest) = spelledIn rest := by
  by_cases comma : next = ','
  · subst comma
    exact spelledIn_comma [] rest
  · have piece : ∀ first, searchEntry (stripEnd ([next] ++ first)) =
        Option.or none (searchEntry (stripEnd ([] ++ first))) := by
      intro first
      cases space : isSpace next with
      | true =>
          rw [← searchEntry_strip, ← searchEntry_strip, toList_strip, toList_strip,
            List.singleton_append, List.dropWhile_cons_of_pos space]
          rfl
      | false =>
          have kept := stripEnd_append_solid space [] first
          rw [List.nil_append] at kept
          rw [List.singleton_append, kept, List.nil_append, searchEntry_cons, if_neg other]
          rfl
    exact spelledIn_of_piece (by simpa using Ne.symm comma) List.not_mem_nil piece rest

theorem spelledIn_append_of_not_mem {text : List Char} (unopened : '<' ∉ text)
    (rest : List Char) : spelledIn (text ++ rest) = spelledIn rest := by
  induction text with
  | nil => rfl
  | cons next text ih =>
      obtain ⟨other, unopened⟩ := not_or.mp (fun member => unopened (List.mem_cons.mpr member))
      rw [List.cons_append, spelledIn_cons (Ne.symm other), ih unopened]

/-- What is spelled before an opening bracket is decided there. -/
theorem spelledIn_append_open (text rest : List Char) :
    spelledIn (text ++ '<' :: rest) = (spelledIn (text ++ ['<'])).or (spelledIn ('<' :: rest)) := by
  by_cases comma : ',' ∈ text
  · obtain ⟨first, others, rfl, whole⟩ := List.eq_append_cons_of_mem comma
    have shorter : others.length < (first ++ ',' :: others).length := by
      rw [List.length_append, List.length_cons]
      omega
    rw [List.append_assoc, List.cons_append, spelledIn_comma, spelledIn_append_open others rest,
      List.append_assoc, List.cons_append, spelledIn_comma, Option.or_assoc]
  · have piece : ∀ first, searchEntry (stripEnd ((text ++ ['<']) ++ first)) =
        (searchEntry text).or (searchEntry (stripEnd (['<'] ++ first))) := by
      intro first
      have kept := stripEnd_append_solid (show isSpace '<' = false by decide) [] first
      rw [List.nil_append] at kept
      rw [List.append_assoc, List.singleton_append, kept,
        stripEnd_append_solid (by decide), searchEntry_append_open, List.nil_append]
    have both := fun rest => spelledIn_of_piece (by simp [comma]) (by decide) piece rest
    have alone := both []
    rw [List.append_nil, List.append_nil, show spelledIn ['<'] = none from rfl,
      Option.or_none] at alone
    have whole := both rest
    rw [List.append_assoc] at whole
    rw [alone]
    exact whole
termination_by text.length

/-- A text behind an opening bracket is read up to a symbol that ends what is read. -/
theorem spelledIn_open_append {stop : Char} (ends : Ends stop) (other : stop ≠ '<')
    (notComma : stop ≠ ',') {text : List Char} (unopened : '<' ∉ text) (whole : ',' ∉ text)
    (rest : List Char) :
    spelledIn ('<' :: (text ++ stop :: rest)) = (readEntry text).or (spelledIn rest) := by
  have piece : ∀ first, searchEntry (stripEnd (('<' :: (text ++ [stop])) ++ first)) =
      (readEntry text).or (searchEntry (stripEnd ([] ++ first))) := by
    intro first
    have kept := stripEnd_append_solid ends.space ('<' :: text) first
    rw [List.cons_append] at kept
    rw [List.cons_append, List.append_assoc, List.singleton_append, kept, List.cons_append,
      searchEntry_open_append ends other unopened, List.nil_append]
  have read := spelledIn_of_piece (by simp [whole, Ne.symm notComma]) List.not_mem_nil piece rest
  rwa [List.cons_append, List.append_assoc] at read

theorem spelledIn_open {text : List Char} (unopened : '<' ∉ text) (whole : ',' ∉ text)
    (unpadded : ∀ last, text.getLast? = some last → isSpace last = false) :
    spelledIn ('<' :: text) = readEntry text := by
  have kept : stripEnd ('<' :: text) = '<' :: text := by
    rw [stripEnd, List.rdropWhile_eq_self_iff]
    intro present space
    cases text with
    | nil => exact absurd (show isSpace '<' = true from space) (by decide)
    | cons next more =>
        have last := unpadded ((next :: more).getLast (List.cons_ne_nil _ _))
          (List.getLast?_eq_getLast_of_ne_nil _)
        rw [List.getLast_cons (List.cons_ne_nil next more), last] at space
        contradiction
  rw [spelledIn_of_not_mem (by simp [whole]), kept, searchEntry_cons, if_pos rfl,
    searchEntry_of_not_mem unopened, Option.or_none]

/-! ### What a host is made of -/

theorem host_of_readHost {text : List Char} {reading : RouteReading}
    (read : readHost text = some reading) :
    ∀ character ∈ reading.host, routeHostClass character = true := by
  rw [readHost] at read
  split at read
  · contradiction
  · cases read
    exact fun character member => List.mem_takeWhile_imp member

theorem host_of_readTarget {text : List Char} {reading : RouteReading}
    (read : readTarget text = some reading) :
    ∀ character ∈ reading.host, routeHostClass character = true := by
  rw [readTarget] at read
  split at read
  · rcases Option.or_eq_some_iff.mp read with behind | ⟨_, plain⟩
    · exact host_of_readHost behind
    · exact host_of_readHost plain
  · exact host_of_readHost read

theorem host_of_searchEntry {part : List Char} {reading : RouteReading}
    (found : searchEntry part = some reading) :
    ∀ character ∈ reading.host, routeHostClass character = true := by
  induction part with
  | nil => cases found
  | cons next rest ih =>
      rw [searchEntry_cons] at found
      rcases Option.or_eq_some_iff.mp found with here | ⟨_, later⟩
      · split at here
        · obtain ⟨target, _, read⟩ := Option.bind_eq_some_iff.mp here
          exact host_of_readTarget read
        · cases here
      · exact ih later

theorem host_of_spelledIn {raw : List Char} {reading : RouteReading}
    (found : spelledIn raw = some reading) : ':' ∉ reading.host := by
  obtain ⟨part, _, read⟩ := List.exists_of_findSome?_eq_some found
  intro colon
  exact absurd (host_of_searchEntry read ':' colon) (by decide)

/-! ### The entry that is read -/

inductive EntryPart where
  | outside
  | quoted
  | escaped
  | bracketed
  deriving DecidableEq

def EntryPart.next : EntryPart → Char → EntryPart
  | outside, character =>
      if character = '"' then quoted else if character = '<' then bracketed else outside
  | quoted, character =>
      if character = '\\' then escaped else if character = '"' then outside else quoted
  | escaped, _ => quoted
  | bracketed, character => if character = '>' then outside else bracketed

/-- The first entry of a value and what is left behind it.  A comma in a quoted string or
between angle brackets does not separate entries. -/
def splitEntry (part : EntryPart) : List Char → List Char × List Char
  | [] => ([], [])
  | next :: rest =>
      if part = .outside ∧ next = ',' then ([], next :: rest)
      else
        let behind := splitEntry (part.next next) rest
        (next :: behind.1, behind.2)

def firstEntry (raw : List Char) : List Char :=
  (splitEntry .outside raw).1

def behindEntry (raw : List Char) : List Char :=
  (splitEntry .outside raw).2

theorem splitEntry_parts (part : EntryPart) (raw : List Char) :
    raw = (splitEntry part raw).1 ++ (splitEntry part raw).2 ∧
      ((splitEntry part raw).2 = [] ∨ ∃ more, (splitEntry part raw).2 = ',' :: more) := by
  induction raw generalizing part with
  | nil => exact ⟨rfl, Or.inl rfl⟩
  | cons next rest ih =>
      rw [splitEntry]
      by_cases separates : part = .outside ∧ next = ','
      · rw [if_pos separates]
        exact ⟨rfl, Or.inr ⟨rest, by rw [separates.2]⟩⟩
      · obtain ⟨parts, ending⟩ := ih (part.next next)
        rw [if_neg separates]
        exact ⟨congrArg (next :: ·) parts, ending⟩

/-- The first entry is searched before what is behind it. -/
theorem spelledIn_entry (raw : List Char) :
    spelledIn raw = (spelledIn (firstEntry raw)).or (spelledIn (behindEntry raw)) := by
  obtain ⟨parts, ending⟩ := splitEntry_parts .outside raw
  change raw = firstEntry raw ++ behindEntry raw at parts
  change behindEntry raw = [] ∨ ∃ more, behindEntry raw = ',' :: more at ending
  rcases ending with atEnd | ⟨more, comma⟩
  · rw [atEnd, List.append_nil] at parts
    rw [atEnd, show spelledIn [] = none from rfl, Option.or_none, ← parts]
  · rw [comma] at parts
    rw [comma, spelledIn_cons (by decide)]
    nth_rewrite 1 [parts]
    exact spelledIn_comma _ _

def topReading (request : RouteRequest) : Option RouteReading :=
  match routeHeaderValues request with
  | [] => none
  | top :: _ => spelledIn (firstEntry top.toList)

def laterReading (request : RouteRequest) : Option RouteReading :=
  match routeHeaderValues request with
  | [] => none
  | top :: later =>
      (spelledIn (behindEntry top.toList)).or (later.findSome? fun raw => spelledIn raw.toList)

def topTarget (request : RouteRequest) (defaultPort : Nat) : Option (String × Nat) :=
  (topReading request).map (RouteReading.target defaultPort)

theorem parseTopRouteTarget_eq (request : RouteRequest) (defaultPort : Nat) :
    parseTopRouteTarget (some request) defaultPort =
      ((topReading request).or (laterReading request)).map (RouteReading.target defaultPort) := by
  rw [parseTopRouteTarget, topReading, laterReading]
  cases routeHeaderValues request with
  | nil => rfl
  | cons top later =>
      rw [← Option.or_assoc, ← spelledIn_entry, List.findSome?_cons]
      cases spelledIn top.toList <;> rfl

/-- The target is that of the top entry, and there is none if the top entry names none,
exactly if the top entry names one or nothing behind it does. -/
theorem parseTopRouteTarget_top_iff (request : RouteRequest) (defaultPort : Nat) :
    ((∀ target, parseTopRouteTarget (some request) defaultPort = some target →
        topTarget request defaultPort = some target) ∧
      (topTarget request defaultPort = none →
        parseTopRouteTarget (some request) defaultPort = none)) ↔
      (topReading request).isSome ∨ laterReading request = none := by
  rw [parseTopRouteTarget_eq, topTarget]
  cases topReading request with
  | some reading => simp
  | none => cases laterReading request <;> simp

def RouteRequest.carrying (values : List String) : RouteRequest where
  getHFBodys := some fun name =>
    if name = "route" then values.map fun value => { text := value } else []

@[simp] theorem routeHeaderValues_carrying (values : List String) :
    routeHeaderValues (.carrying values) = values := by
  simp [routeHeaderValues, RouteRequest.carrying, Function.comp_def]

/-- The top entry has no angle brackets, and the next one is taken. -/
theorem parseTopRouteTarget_skips_top :
    topTarget (.carrying ["sip:a", "<sip:b:5070>"]) 5060 = none ∧
      parseTopRouteTarget (some (.carrying ["sip:a", "<sip:b:5070>"])) 5060 = some ("b", 5070) := by
  decide +kernel

end AsPlatform
