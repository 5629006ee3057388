/-
The peer that the stack names in a line of its log.

The pattern `(\S+):(\d+)` knows nothing of addresses.  What it reads is told in terms of
the text alone, so that a line of the stack can be checked against it.
-/

import AsPlatform.Library.Searching
import AsPlatform.Observability.Messages

namespace AsPlatform

open Backtracking Pattern

/-! ### Digits and white space -/

theorem exists_row_of_isDecimal {character : Char} (decimal : isDecimal character = true) :
    ∃ first ∈ decimalZeros, first ≤ character.toNat ∧ character.toNat < first + 10 := by
  obtain ⟨value, found⟩ := Option.isSome_iff_exists.mp decimal
  obtain ⟨first, member, isValue⟩ := List.exists_of_findSome?_eq_some found
  exact ⟨first, member, (Option.ite_none_right_eq_some.mp isValue).1⟩

theorem decimalZeros_apart : ∀ first ∈ decimalZeros,
    (33 ≤ first ∧ first + 10 ≤ 0x85) ∨ (0xA1 ≤ first ∧ first + 10 ≤ 0x1680) ∨
      (0x1681 ≤ first ∧ first + 10 ≤ 0x2000) ∨ 0x3001 ≤ first := by
  decide

theorem notSpace_of_isDecimal {character : Char} (decimal : isDecimal character = true) :
    notSpace character = true := by
  obtain ⟨first, member, low, high⟩ := exists_row_of_isDecimal decimal
  have apart := decimalZeros_apart first member
  rw [notSpace, Bool.not_eq_true']
  simp only [isSpace, Bool.or_eq_false_iff, Bool.and_eq_false_iff, decide_eq_false_iff_not,
    beq_eq_false_iff_ne]
  omega

/-! ### What is read -/

def StartsPort (text : List Char) : Prop :=
  ∃ digit rest, text = ':' :: digit :: rest ∧ isDecimal digit = true

/-- Somewhere a colon stands between no white space and a decimal. -/
def Marked (text : List Char) : Prop :=
  ∃ front previous digit back, text = front ++ previous :: ':' :: digit :: back ∧
    notSpace previous = true ∧ isDecimal digit = true

/-- An address and a port, in a text that goes on with `after`: the address begins a word,
nothing before it is marked, and nothing behind it in its word. -/
structure PeerAt (before address port after : List Char) : Prop where
  unmarked : ¬Marked before
  opened : ∀ previous ∈ before.getLast?, notSpace previous = false
  named : address ≠ []
  solid : ∀ character ∈ address, notSpace character = true
  numbered : port ≠ []
  decimal : ∀ character ∈ port, isDecimal character = true
  ended : ∀ next ∈ after.head?, isDecimal next = false
  last : ¬Marked ((port ++ after).takeWhile notSpace)

def NamesPeer (text address port : List Char) : Prop :=
  ∃ before after, text = before ++ (address ++ ':' :: (port ++ after)) ∧
    PeerAt before address port after

/-- `:(\d+)`. -/
def portPattern : Regex :=
  seq (symbol (exactly ':')) (group 2 (plus isDecimal))

theorem startsPort_port {port : List Char} (numbered : port ≠ [])
    (decimal : ∀ character ∈ port, isDecimal character = true) (after : List Char) :
    StartsPort (':' :: (port ++ after)) := by
  cases port with
  | nil => exact absurd rfl numbered
  | cons digit more => exact ⟨digit, more ++ after, rfl, decimal digit List.mem_cons_self⟩

theorem portPattern_colon (previous : Option Char) (tail : List Char)
    (captured : List (Nat × List Char)) :
    portPattern.matchAt ⟨previous, ':' :: tail, captured⟩ =
      if tail.takeWhile isDecimal = [] then none
      else some { longest isDecimal ⟨some ':', tail, captured⟩ with
        captured := (2, tail.takeWhile isDecimal) :: captured } := by
  rw [portPattern, matchAt_seq, ways_symbol_cons, if_pos (by decide), List.findSome?_singleton,
    matchAt_group, matchAt_plus]
  split
  · rfl
  · rw [Option.map_some, capture_longest]

theorem portPattern_of_ne {previous : Option Char} {rest : List Char}
    {captured : List (Nat × List Char)} (other : rest.head? ≠ some ':') :
    portPattern.matchAt ⟨previous, rest, captured⟩ = none := by
  rw [portPattern, matchAt_seq]
  cases rest with
  | nil => rfl
  | cons next tail =>
      have differs : ¬exactly ':' next = true := fun same =>
        other (congrArg some (beq_iff_eq.mp same))
      rw [ways_symbol_cons, if_neg differs]
      rfl

theorem portPattern_eq_some {previous : Option Char} {rest : List Char}
    {captured : List (Nat × List Char)} {found : Cursor Char}
    (matched : portPattern.matchAt ⟨previous, rest, captured⟩ = some found) :
    ∃ port after, rest = ':' :: (port ++ after) ∧ port ≠ [] ∧
      (∀ character ∈ port, isDecimal character = true) ∧
      (∀ next ∈ after.head?, isDecimal next = false) ∧
      found.captured = (2, port) :: captured := by
  by_cases colon : rest.head? = some ':'
  · obtain ⟨tail, rfl⟩ := List.head?_eq_some_iff.mp colon
    rw [portPattern_colon] at matched
    obtain ⟨numbered, isFound⟩ := Option.ite_none_left_eq_some.mp matched
    refine ⟨tail.takeWhile isDecimal, tail.dropWhile isDecimal, ?_, numbered, ?_, ?_, ?_⟩
    · rw [List.takeWhile_append_dropWhile]
    · exact fun character member => List.mem_takeWhile_imp member
    · intro next isHead
      have stops := List.head?_dropWhile_not isDecimal tail
      rw [Option.mem_def.mp isHead] at stops
      exact stops
    · rw [← Option.some.inj isFound]
  · rw [portPattern_of_ne colon] at matched
    cases matched

theorem portPattern_eq_none_iff {previous : Option Char} {rest : List Char}
    {captured : List (Nat × List Char)} :
    portPattern.matchAt ⟨previous, rest, captured⟩ = none ↔ ¬StartsPort rest := by
  constructor
  · rintro unmatched ⟨digit, tail, rfl, decimal⟩
    rw [portPattern_colon, List.takeWhile_cons_of_pos decimal, if_neg (List.cons_ne_nil _ _)]
      at unmatched
    cases unmatched
  · intro none
    refine Option.eq_none_iff_forall_ne_some.mpr fun found matched => none ?_
    obtain ⟨port, after, rfl, numbered, decimal, _, _⟩ := portPattern_eq_some matched
    exact startsPort_port numbered decimal after

/-! ### Where it is read -/

/-- The pattern can be matched where a word has a port behind it. -/
theorem peerInPrefix_eq_none_iff {previous : Option Char} {rest : List Char} :
    peerInPrefix.matchAt ⟨previous, rest, []⟩ = none ↔
      ∀ word behind, rest = word ++ behind → word ≠ [] →
        (∀ character ∈ word, notSpace character = true) → ¬StartsPort behind := by
  rw [peerInPrefix, matchAt_seq_group_plus_eq_none_iff]
  exact forall_congr' fun word => forall_congr' fun behind => forall_congr' fun _ =>
    forall_congr' fun _ => forall_congr' fun _ => portPattern_eq_none_iff

theorem marked_of_word (front : List Char) {word behind : List Char} (present : word ≠ [])
    (solid : ∀ character ∈ word, notSpace character = true) (starts : StartsPort behind) :
    Marked (front ++ (word ++ behind)) := by
  obtain ⟨digit, back, rfl, decimal⟩ := starts
  obtain ⟨begun, last, rfl⟩ := List.eq_nil_or_concat word |>.resolve_left present
  refine ⟨front ++ begun, last, digit, back, ?_, solid last (by simp), decimal⟩
  simp

theorem search_eq_none_iff {text : List Char} : peerInPrefix.search text = none ↔ ¬Marked text := by
  rw [search, searchFrom_eq_none_iff]
  constructor
  · rintro unmatched ⟨front, previous, digit, back, rfl, solid, decimal⟩
    have none := peerInPrefix_eq_none_iff.mp
      (unmatched front (previous :: ':' :: digit :: back) rfl)
    exact none [previous] _ rfl (List.cons_ne_nil _ _)
      (fun _ member => List.mem_singleton.mp member ▸ solid) ⟨digit, back, rfl, decimal⟩
  · rintro unmarked before rest rfl
    refine peerInPrefix_eq_none_iff.mpr ?_
    rintro word behind rfl present solid starts
    exact unmarked (marked_of_word before present solid starts)

theorem colon_notSpace : notSpace ':' = true := by decide

theorem marked_takeWhile_iff {text : List Char} :
    Marked (text.takeWhile notSpace) ↔ ∃ word behind, text = word ++ behind ∧ word ≠ [] ∧
      (∀ character ∈ word, notSpace character = true) ∧ StartsPort behind := by
  constructor
  · rintro ⟨front, previous, digit, back, read, _, decimal⟩
    have parts := List.takeWhile_append_dropWhile (p := notSpace) (l := text)
    have solid : ∀ character ∈ text.takeWhile notSpace, notSpace character = true :=
      fun character member => List.mem_takeWhile_imp member
    rw [read] at parts solid
    refine ⟨front ++ [previous], ':' :: digit :: (back ++ text.dropWhile notSpace), ?_, by simp, ?_,
      digit, _, rfl, decimal⟩
    · exact parts.symm.trans (by simp)
    · intro character member
      refine solid character ?_
      rcases List.mem_append.mp member with early | late
      · exact List.mem_append_left _ early
      · rw [List.mem_singleton.mp late]
        exact List.mem_append_right _ List.mem_cons_self
  · rintro ⟨word, behind, rfl, present, solid, digit, back, rfl, decimal⟩
    rw [List.takeWhile_append_of_pos solid, List.takeWhile_cons_of_pos colon_notSpace,
      List.takeWhile_cons_of_pos (notSpace_of_isDecimal decimal)]
    exact marked_of_word [] present solid ⟨digit, _, rfl, decimal⟩

theorem search_eq_some {text : List Char} {found : Cursor Char}
    (matched : peerInPrefix.search text = some found) :
    ∃ address port, NamesPeer text address port ∧ found.captured = [(2, port), (1, address)] := by
  rw [search, searchFrom_eq_some_iff] at matched
  obtain ⟨before, rest, rfl, matched, leftmost⟩ := matched
  obtain ⟨address, behind, isRest, named, solid, follows, longest⟩ :=
    matchAt_seq_group_plus_eq_some_iff.mp matched
  obtain ⟨port, after, isBehind, numbered, decimal, ended, captured⟩ := portPattern_eq_some follows
  change rest = _ at isRest
  subst isRest isBehind
  refine ⟨address, port, ⟨before, after, rfl, ?_, ?_, named, solid, numbered, decimal, ended, ?_⟩,
    captured⟩
  · rintro ⟨front, previous, digit, back, rfl, seen, isDigit⟩
    refine peerInPrefix_eq_none_iff.mp (leftmost front (previous :: ':' :: digit :: back) rfl
      (List.cons_ne_nil _ _)) [previous] _ rfl (List.cons_ne_nil _ _) ?_ ⟨digit, _, rfl, isDigit⟩
    exact fun _ member => List.mem_singleton.mp member ▸ seen
  · intro previous isLast
    obtain ⟨front, rfl⟩ := List.getLast?_eq_some_iff.mp isLast
    rw [← Bool.not_eq_true]
    intro seen
    refine peerInPrefix_eq_none_iff.mp (leftmost front [previous] rfl (List.cons_ne_nil _ _))
      (previous :: address) _ rfl (List.cons_ne_nil _ _) ?_ (startsPort_port numbered decimal after)
    exact List.forall_mem_cons.mpr ⟨seen, solid⟩
  · rw [marked_takeWhile_iff]
    rintro ⟨word, later, split, present, seen, starts⟩
    refine portPattern_eq_none_iff.mp (longest (':' :: word) later ?_ (List.cons_ne_nil _ _) ?_)
      starts
    · rw [split]
      rfl
    · exact List.forall_mem_cons.mpr ⟨colon_notSpace, seen⟩

/-- Before a peer nothing has a word with a port behind it. -/
theorem PeerAt.leftmost {before address port after : List Char}
    (peer : PeerAt before address port after) {front back word behind : List Char}
    (isBefore : before = front ++ back) (inside : back ≠ [])
    (split : back ++ (address ++ ':' :: (port ++ after)) = word ++ behind) (present : word ≠ [])
    (solid : ∀ character ∈ word, notSpace character = true) : ¬StartsPort behind := by
  rintro ⟨digit, rest, rfl, decimal⟩
  obtain ⟨begun, last, rfl⟩ := (List.eq_nil_or_concat back).resolve_left inside
  rw [List.concat_eq_append] at isBefore split
  have blank : notSpace last = false :=
    peer.opened last (by rw [isBefore, ← List.append_assoc, List.getLast?_concat]; rfl)
  rcases List.append_eq_append_iff.mp split with ⟨more, isWord, _⟩ | ⟨more, isBack, isRest⟩
  · -- the word goes on behind the blank
    have seen := solid last (by rw [isWord]; simp)
    rw [blank] at seen
    cases seen
  · rcases List.eq_nil_or_concat more with none | ⟨middle, final, isMore⟩
    · rw [none, List.append_nil] at isBack
      have seen := solid last (by rw [← isBack]; simp)
      rw [blank] at seen
      cases seen
    · rw [isMore, List.concat_eq_append, ← List.append_assoc] at isBack
      obtain ⟨isBegun, isLast⟩ := List.append_inj' isBack rfl
      cases isLast
      rw [isMore, List.concat_eq_append] at isRest
      cases middle with
      | nil =>
          -- the blank would be the colon
          cases (List.cons_eq_cons.mp isRest).1
          rw [colon_notSpace] at blank
          cases blank
      | cons colon middle =>
          obtain ⟨rfl, isMiddle⟩ := List.cons_eq_cons.mp isRest
          have starts : StartsPort (':' :: (middle ++ [last])) := by
            cases middle with
            | nil =>
                obtain ⟨rfl, _⟩ := List.cons_eq_cons.mp isMiddle
                exact ⟨_, [], rfl, decimal⟩
            | cons second middle =>
                obtain ⟨rfl, _⟩ := List.cons_eq_cons.mp isMiddle
                exact ⟨_, middle ++ [last], rfl, decimal⟩
          refine peer.unmarked ?_
          rw [isBefore, isBegun, List.append_assoc]
          exact marked_of_word front present solid starts

theorem PeerAt.takeWhile_port {before address port after : List Char}
    (peer : PeerAt before address port after) : (port ++ after).takeWhile isDecimal = port := by
  rw [List.takeWhile_append_of_pos peer.decimal]
  cases isAfter : after with
  | nil => exact List.append_nil port
  | cons next more =>
      have stops := peer.ended next (by rw [isAfter]; rfl)
      rw [List.takeWhile_cons_of_neg (by rw [stops]; decide), List.append_nil]

/-- A peer that the text names is what is read. -/
theorem search_of_names {text address port : List Char} (names : NamesPeer text address port) :
    ∃ found, peerInPrefix.search text = some found ∧
      found.captured = [(2, port), (1, address)] := by
  obtain ⟨before, after, rfl, peer⟩ := names
  let found : Cursor Char :=
    { longest isDecimal ⟨some ':', port ++ after, [(1, address)]⟩ with
      captured := [(2, port), (1, address)] }
  have follows : ∀ previous, portPattern.matchAt
      ⟨previous, ':' :: (port ++ after), [(1, address)]⟩ = some found := by
    intro previous
    rw [portPattern_colon, peer.takeWhile_port, if_neg peer.numbered]
  refine ⟨found, searchFrom_eq_some_iff.mpr ⟨before, _, rfl,
    matchAt_seq_group_plus_eq_some_iff.mpr ⟨address, _, rfl, peer.named, peer.solid, follows _, ?_⟩,
    ?_⟩, rfl⟩
  · intro more later split present solid
    refine portPattern_eq_none_iff.mpr fun starts => ?_
    cases more with
    | nil => exact present rfl
    | cons colon word =>
        obtain ⟨rfl, isLater⟩ := List.cons_eq_cons.mp split
        cases word with
        | nil =>
            -- a port does not begin with a colon
            obtain ⟨digit, rest, isColon, _⟩ := starts
            obtain ⟨first, others, isPort⟩ := List.exists_cons_of_ne_nil peer.numbered
            have same : port ++ after = ':' :: digit :: rest := isLater.trans isColon
            rw [isPort] at same
            obtain ⟨isFirst, _⟩ := List.cons_eq_cons.mp same
            have decimal := peer.decimal first (by rw [isPort]; exact List.mem_cons_self)
            rw [isFirst] at decimal
            exact nomatch decimal
        | cons next word =>
            exact peer.last (marked_takeWhile_iff.mpr ⟨next :: word, later, isLater,
              List.cons_ne_nil _ _, (List.forall_mem_cons.mp solid).2, starts⟩)
  · intro front back isBefore inside
    refine peerInPrefix_eq_none_iff.mpr fun word behind split present solid => ?_
    exact peer.leftmost isBefore inside split present solid

/-! ### The peer -/

/-- `udp:` and brackets are taken off the address. -/
def bareAddress (address : List Char) : List Char :=
  removeSuffix [']'] (removePrefix ['['] (removePrefix ['u', 'd', 'p', ':'] address))

theorem NamesPeer.unique {text address port other number : List Char}
    (names : NamesPeer text address port) (namesOther : NamesPeer text other number) :
    address = other ∧ port = number := by
  obtain ⟨found, matched, captured⟩ := search_of_names names
  obtain ⟨_, matchedOther, capturedOther⟩ := search_of_names namesOther
  cases matched.symm.trans matchedOther
  rw [captured] at capturedOther
  simpa [and_comm] using capturedOther

theorem exists_names_of_marked {text : List Char} (marked : Marked text) :
    ∃ address port, NamesPeer text address port := by
  obtain ⟨found, matched⟩ := Option.ne_none_iff_exists'.mp
    (mt search_eq_none_iff.mp (not_not.mpr marked))
  obtain ⟨address, port, names, _⟩ := search_eq_some matched
  exact ⟨address, port, names⟩

theorem peerFromPrefix_of_names {logPrefix : String} {address port : List Char}
    (names : NamesPeer logPrefix.toList address port) :
    peerFromPrefix logPrefix = String.ofList (bareAddress address ++ ':' :: port) := by
  obtain ⟨found, matched, captured⟩ := search_of_names names
  have first : found.group 1 = some address := by
    rw [Cursor.group, captured]
    rfl
  have second : found.group 2 = some port := by
    rw [Cursor.group, captured]
    rfl
  unfold peerFromPrefix
  rw [matched]
  dsimp only
  rw [first, second]
  rfl

/-- For every prefix: where no colon stands between no white space and a decimal the peer is `-`.
Otherwise exactly one address and port are named, by the first word with such a colon and its last
such colon, and the peer is that address, without `udp:` and brackets, and that port. -/
theorem peerFromPrefix_reads (logPrefix : String) :
    (¬Marked logPrefix.toList → peerFromPrefix logPrefix = "-") ∧
      (Marked logPrefix.toList → ∃ address port, NamesPeer logPrefix.toList address port ∧
        (∀ other number, NamesPeer logPrefix.toList other number →
          other = address ∧ number = port) ∧
        peerFromPrefix logPrefix = String.ofList (bareAddress address ++ ':' :: port)) := by
  constructor
  · intro unmarked
    unfold peerFromPrefix
    rw [search_eq_none_iff.mpr unmarked]
  · intro marked
    obtain ⟨address, port, names⟩ := exists_names_of_marked marked
    exact ⟨address, port, names, fun other number namesOther => namesOther.unique names,
      peerFromPrefix_of_names names⟩

/-! ### Lines of the stack -/

theorem removePrefix_append (front text : List Char) :
    removePrefix front (front ++ text) = text := by
  unfold removePrefix
  rw [if_pos (List.isPrefixOf_iff_prefix.mpr (List.prefix_append _ _)), List.drop_left]

theorem removeSuffix_append (back text : List Char) : removeSuffix back (text ++ back) = text := by
  unfold removeSuffix
  rw [if_pos (List.isSuffixOf_iff_suffix.mpr (List.suffix_append _ _)), List.length_append,
    Nat.add_sub_cancel, List.take_left]

inductive HostText (address : List Char) : List Char → Prop where
  | bare (unopened : address.head? ≠ some '[') (unclosed : address.getLast? ≠ some ']') :
      HostText address address
  | bracketed : HostText address ('[' :: (address ++ [']']))

theorem HostText.bareAddress {address host : List Char} (isHost : HostText address host) :
    bareAddress ("udp:".toList ++ host) = address := by
  have isUdp : "udp:".toList = ['u', 'd', 'p', ':'] := rfl
  unfold AsPlatform.bareAddress
  rw [isUdp, removePrefix_append]
  cases isHost with
  | bare unopened unclosed =>
      have kept : removePrefix ['['] address = address := by
        refine if_neg fun opened => unopened ?_
        obtain ⟨rest, rfl⟩ := List.isPrefixOf_iff_prefix.mp opened
        rfl
      have keptToo : removeSuffix [']'] address = address := by
        refine if_neg fun closed => unclosed ?_
        obtain ⟨rest, rfl⟩ := List.isSuffixOf_iff_suffix.mp closed
        exact List.getLast?_concat
      rw [kept, keptToo]
  | bracketed =>
      have opened : removePrefix ['['] ('[' :: (address ++ [']'])) = address ++ [']'] :=
        removePrefix_append ['['] (address ++ [']'])
      rw [opened, removeSuffix_append]

theorem isDecimal_of_mem_toDigits {port : Nat} {character : Char}
    (member : character ∈ Nat.toDigits 10 port) : isDecimal character = true := by
  have digit := Nat.isDigit_of_mem_toDigits (by decide) (by decide) member
  rw [isDecimal, digitValue_of_isDigit digit]
  rfl

/-- What the stack writes before a message: some words, the host and the port it has to do with,
and what stands behind them. -/
def logLine (lead : String) (host : List Char) (port : Nat) (tail : String) : String :=
  lead ++ "udp:" ++ String.ofList host ++ ":" ++ toString port ++ tail

theorem HostText.solid {address host : List Char} (isHost : HostText address host)
    (solid : ∀ character ∈ address, notSpace character = true) :
    ∀ character ∈ "udp:".toList ++ host, notSpace character = true := by
  have scheme : ∀ character ∈ "udp:".toList, notSpace character = true := by decide
  refine List.forall_mem_append.mpr ⟨scheme, ?_⟩
  cases isHost with
  | bare unopened unclosed => exact solid
  | bracketed =>
      refine List.forall_mem_cons.mpr ⟨by decide, List.forall_mem_append.mpr ⟨solid, ?_⟩⟩
      exact fun character member => List.mem_singleton.mp member ▸ by decide

theorem not_marked_digits {digits word : List Char}
    (decimal : ∀ character ∈ digits, isDecimal character = true)
    (none : ∀ character ∈ word, isDecimal character = false) : ¬Marked (digits ++ word) := by
  rintro ⟨front, previous, digit, back, split, _, isDigit⟩
  rw [List.append_cons] at split
  rcases List.append_eq_append_iff.mp split with ⟨more, _, isWord⟩ | ⟨more, isDigits, isRest⟩
  · have inWord := none digit (by rw [isWord]; simp)
    exact nomatch inWord.symm.trans isDigit
  · cases more with
    | nil =>
        have inWord := none digit (by rw [← List.nil_append word, ← isRest]; simp)
        exact nomatch inWord.symm.trans isDigit
    | cons colon more =>
        obtain ⟨rfl, _⟩ := List.cons_eq_cons.mp isRest
        exact nomatch decimal ':' (by rw [isDigits]; simp)

theorem not_marked_of_not_mem {text : List Char} (absent : ':' ∉ text) : ¬Marked text := by
  rintro ⟨front, previous, digit, back, rfl, _, _⟩
  exact absent (by simp)

end AsPlatform
