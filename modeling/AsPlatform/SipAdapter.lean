/-
What the signalling adapter does with a Request-URI and a Call-ID.

How `repr` writes a text into the detail of an error is a parameter, and so is what
`ip_address` makes of a literal.
-/

import AsPlatform.Rfc3261
import AsPlatform.Errors
import AsPlatform.Hop

namespace AsPlatform

open Backtracking Pattern

/-! ### The functions -/

def userClass : Char → Bool := noneOf ['@', ';', '?']

/-- `_USER_FROM_URI`: `^sips?:([^@;?]+)@`. -/
def userFromUri : Regex :=
  seq (between textStart)
    (sipScheme exactly (seq (group 1 (plus userClass)) (symbol (exactly '@'))))

def extractCalledNumber (repr : String → String) (requestUri : String) :
    Except AsError String :=
  match userFromUri.matchStart (strip requestUri).toList with
  | none =>
      .error (AsError.create SkeletonErrorCode.peerMalformedRequest
        (some ("request-uri has no user part: " ++ repr requestUri)) none
        (OrderedDict.singleton "request_uri" requestUri))
  | some found => .ok (String.ofList ((found.group 1).getD []))

def Transport.text : Transport → String
  | .udp => "udp"
  | .tls => "tls"

inductive IpVersion where
  | v4
  | v6
  deriving DecidableEq

/-- `ipAddress` gives the version of the address, and nothing where `ip_address` raises a
`ValueError`. -/
def isIpv6 (ipAddress : String → Option IpVersion) (address : String) : Bool :=
  match ipAddress address with
  | some version => version = .v6
  | none => false

def buildRequestUri (ipAddress : String → Option IpVersion) (number : String) (hop : NextHop) :
    String :=
  let host :=
    if isIpv6 ipAddress hop.address = false then hop.address else "[" ++ hop.address ++ "]"
  "sip:" ++ number ++ "@" ++ host ++ ":" ++ toString hop.port ++ ";transport=" ++
    hop.transport.text

def b2buaCallIdSuffix : String := "-b2b_1"

def outboundCallId (trunkCallId : String) : String :=
  trunkCallId ++ b2buaCallIdSuffix

/-! ### What the pattern reads -/

def readUser (text : List Char) : Option (List Char) :=
  match text.takeWhile userClass, text.dropWhile userClass with
  | first :: more, '@' :: _ => some (first :: more)
  | _, _ => none

theorem matchAt_user (previous : Option Char) (rest : List Char) :
    ((seq (group 1 (plus userClass)) (symbol (exactly '@'))).matchAt ⟨previous, rest, []⟩).map
      (fun found => (found.group 1).getD []) = readUser rest := by
  have committed := ways_exactly_of_class (show userClass '@' = false by decide)
  rw [matchAt, ways_seq_group_plus_of_committed 1 committed, readUser]
  cases user : rest.takeWhile userClass with
  | nil => rfl
  | cons first more =>
      rw [if_neg (List.cons_ne_nil _ _), capture_longest]
      cases behind : rest.dropWhile userClass with
      | nil => simp [longest, Cursor.past, behind, ways_symbol_nil]
      | cons next others =>
          by_cases isAt : next = '@'
          · subst isAt
            simp [longest, Cursor.past, behind, ways_symbol_cons, exactly, Cursor.group,
              user]
          · simp [longest, Cursor.past, behind, ways_symbol_cons, exactly, isAt]

theorem matchStart_userFromUri (text : List Char) :
    (userFromUri.matchStart text).map (fun found => (found.group 1).getD []) =
      (readScheme exactly text).bind readUser := by
  have atStart : (between textStart).ways ⟨none, text, []⟩ = [⟨none, text, []⟩] := rfl
  rw [matchStart, userFromUri, matchAt_seq, atStart, List.findSome?_singleton]
  exact matchAt_sipScheme (by decide) matchAt_user none text

/-- The user is read behind the scheme, or the request is malformed. -/
theorem extractCalledNumber_eq (repr : String → String) (requestUri : String) :
    extractCalledNumber repr requestUri =
      match (readScheme exactly (strip requestUri).toList).bind readUser with
      | none =>
          .error (AsError.create SkeletonErrorCode.peerMalformedRequest
            (some ("request-uri has no user part: " ++ repr requestUri)) none
            (OrderedDict.singleton "request_uri" requestUri))
      | some user => .ok (String.ofList user) := by
  rw [extractCalledNumber, ← matchStart_userFromUri]
  cases userFromUri.matchStart (strip requestUri).toList <;> rfl

/-! ### Users of a URI -/

def UriScheme.Lower (scheme : UriScheme) : Prop :=
  scheme.text = ['s', 'i', 'p'] ∨ scheme.text = ['s', 'i', 'p', 's']

instance (scheme : UriScheme) : Decidable scheme.Lower :=
  inferInstanceAs (Decidable (scheme.text = ['s', 'i', 'p'] ∨ scheme.text = ['s', 'i', 'p', 's']))

theorem eq_of_spelledBy_exactly {letters text rest : List Char} (noColon : ':' ∉ letters)
    (textColon : ':' ∉ text)
    (spelled : spelledBy ((letters ++ [':']).map exactly) (text ++ ':' :: rest) = true) :
    text = letters := by
  obtain ⟨behind, parts⟩ := spelledBy_exactly spelled
  rw [List.append_assoc, List.singleton_append] at parts
  exact (split_unique noColon textColon parts).1.symm

theorem readScheme_exactly (scheme : UriScheme) (rest : List Char) :
    readScheme exactly (scheme.text ++ ':' :: rest) = some rest ∧ scheme.Lower ∨
      readScheme exactly (scheme.text ++ ':' :: rest) = none ∧ ¬scheme.Lower := by
  by_cases lower : scheme.Lower
  · refine Or.inl ⟨?_, lower⟩
    rcases lower with sip | sips
    · rw [sip]
      rfl
    · rw [sips]
      rfl
  · have noColon : ':' ∉ scheme.text := scheme.not_mem (by decide)
    refine Or.inr ⟨?_, lower⟩
    rw [readScheme, if_neg, if_neg]
    · intro spelled
      exact lower (Or.inl (@eq_of_spelledBy_exactly ['s', 'i', 'p'] _ rest (by decide) noColon
        spelled))
    · intro spelled
      exact lower (Or.inr (@eq_of_spelledBy_exactly ['s', 'i', 'p', 's'] _ rest (by decide) noColon
        spelled))

theorem readUser_of_stop {text rest : List Char}
    (accepted : ∀ character ∈ text, userClass character = true)
    (ending : rest = [] ∨ ∃ stop more, rest = stop :: more ∧ (stop = ';' ∨ stop = '?')) :
    readUser (text ++ rest) = none := by
  rw [readUser, List.takeWhile_append_of_pos accepted, List.dropWhile_append_of_pos accepted]
  rcases ending with rfl | ⟨stop, more, rfl, isStop⟩
  · cases text ++ List.takeWhile userClass [] <;> rfl
  · rcases isStop with rfl | rfl
    · cases text ++ List.takeWhile userClass (';' :: more) <;> rfl
    · cases text ++ List.takeWhile userClass ('?' :: more) <;> rfl

theorem readUser_of_at {text rest : List Char}
    (accepted : ∀ character ∈ text, userClass character = true) (nonempty : text ≠ []) :
    readUser (text ++ '@' :: rest) = some text := by
  have refused : userClass '@' = false := by decide
  obtain ⟨first, more, rfl⟩ := List.exists_cons_of_ne_nil nonempty
  rw [readUser, takeWhile_append_stop refused, dropWhile_append_stop refused,
    List.takeWhile_eq_self_iff.mpr accepted, List.dropWhile_eq_nil_iff.mpr accepted]
  rfl

def SipUri.behindScheme (uri : SipUri) : List Char :=
  uri.userText ++ (uri.host.text ++ (uri.portText ++ (uri.paramText ++ uri.headerText)))

theorem userClass_of_place (uri : SipUri) :
    ∀ character ∈ uri.host.text ++ uri.portText, userClass character = true := by
  intro character member
  rcases List.mem_append.mp member with inHost | inPort
  · exact noneOf_of_class (by decide) (uri.host.accepted character inHost)
  · exact noneOf_of_class (by decide) (uri.portText_accepted character inPort)

theorem tail_stop (uri : SipUri) :
    uri.paramText ++ uri.headerText = [] ∨
      ∃ stop more, uri.paramText ++ uri.headerText = stop :: more ∧ (stop = ';' ∨ stop = '?') := by
  rw [SipUri.paramText, SipUri.headerText]
  cases uri.params with
  | cons param more => exact Or.inr ⟨';', _, rfl, Or.inl rfl⟩
  | nil =>
      cases uri.headers with
      | nil => exact Or.inl rfl
      | cons header more => exact Or.inr ⟨'?', _, rfl, Or.inr rfl⟩

theorem readUser_of_none {uri : SipUri} (noUser : uri.userinfo = none) :
    readUser uri.behindScheme = none := by
  have empty : uri.userText = [] := by rw [SipUri.userText, noUser]; rfl
  rw [SipUri.behindScheme, empty, List.nil_append, ← List.append_assoc]
  exact readUser_of_stop (userClass_of_place uri) (tail_stop uri)

theorem userClass_of_userChar {text : List Char}
    (accepted : ∀ character ∈ text, userChar character = true)
    (noSemicolon : ';' ∉ text) (noQuestion : '?' ∉ text) :
    ∀ character ∈ text, userClass character = true := by
  intro character member
  have plain : (userChar character && (character != ';' && character != '?')) = true := by
    have notSemicolon : character ≠ ';' := fun same => noSemicolon (same ▸ member)
    have notQuestion : character ≠ '?' := fun same => noQuestion (same ▸ member)
    simp [accepted character member, notSemicolon, notQuestion]
  exact @noneOf_of_class
    (fun character => userChar character && (character != ';' && character != '?')) _
    (by decide) character plain

/-- A user that has a semicolon or a question mark is cut there. -/
theorem user_cut {text : List Char} (accepted : ∀ character ∈ text, userChar character = true)
    (special : ';' ∈ text ∨ '?' ∈ text) :
    ∃ stop more, text = text.takeWhile userClass ++ stop :: more ∧ (stop = ';' ∨ stop = '?') := by
  have parts := List.takeWhile_append_dropWhile (p := userClass) (l := text)
  cases behind : text.dropWhile userClass with
  | nil =>
      have all := List.dropWhile_eq_nil_iff.mp behind
      rcases special with semicolon | question
      · exact absurd (all ';' semicolon) (by decide)
      · exact absurd (all '?' question) (by decide)
  | cons stop more =>
      have refused := List.head?_dropWhile_not userClass text
      have member : stop ∈ text := by
        rw [← parts, behind]
        simp
      have notAt : stop ≠ '@' := by
        rintro rfl
        exact absurd (accepted '@' member) (by decide)
      rw [behind] at refused parts
      have rejected : userClass stop = false := by simpa using refused
      have isStop : stop = ';' ∨ stop = '?' := by
        simpa [userClass, noneOf, notAt, ← or_iff_not_imp_left] using rejected
      exact ⟨stop, more, parts.symm, isStop⟩

theorem readUser_of_some {uri : SipUri} {userinfo : UserInfo}
    (given : uri.userinfo = some userinfo) :
    readUser uri.behindScheme = some userinfo.user.text ↔
      userinfo.password = none ∧ ';' ∉ userinfo.user.text ∧ '?' ∉ userinfo.user.text := by
  have user : ∃ rest, uri.behindScheme = userinfo.text ++ '@' :: rest := by
    refine ⟨uri.host.text ++ (uri.portText ++ (uri.paramText ++ uri.headerText)), ?_⟩
    rw [SipUri.behindScheme, SipUri.userText, given, Option.elim_some, List.append_assoc,
      List.singleton_append]
  obtain ⟨rest, text⟩ := user
  rw [text]
  by_cases special : ';' ∈ userinfo.user.text ∨ '?' ∈ userinfo.user.text
  · obtain ⟨stop, more, parts, isStop⟩ := user_cut userinfo.user.accepted special
    have unread : readUser (userinfo.text ++ '@' :: rest) = none := by
      rw [UserInfo.text, parts, List.append_assoc, List.append_assoc, List.cons_append]
      exact readUser_of_stop (fun character member => List.mem_takeWhile_imp member)
        (Or.inr ⟨stop, _, rfl, isStop⟩)
    rw [unread]
    tauto
  · obtain ⟨noSemicolon, noQuestion⟩ := not_or.mp special
    have accepted := userClass_of_userChar userinfo.user.accepted noSemicolon noQuestion
    cases password : userinfo.password with
    | none =>
        have alone : userinfo.text = userinfo.user.text := by
          rw [UserInfo.text, password, Option.elim_none, List.append_nil]
        rw [alone, readUser_of_at accepted userinfo.user.nonempty]
        tauto
    | some password' =>
        have both : userinfo.text = userinfo.user.text ++ ':' :: password'.text := by
          rw [UserInfo.text, password, Option.elim_some]
        have acceptedBoth : ∀ character ∈ userinfo.user.text ++ ':' :: password'.text,
            userClass character = true := by
          intro character member
          rcases List.mem_append.mp member with inUser | inPassword
          · exact accepted character inUser
          · rcases List.mem_cons.mp inPassword with rfl | inPassword
            · rfl
            · exact noneOf_of_class (by decide) (password'.accepted character inPassword)
        rw [both, readUser_of_at acceptedBoth (by simp)]
        simp

/-! ### The called number of a URI -/

def SipUri.surrounded (uri : SipUri) (before behind : Text isSpace) : String :=
  String.ofList (before.text ++ (uri.text ++ behind.text))

theorem read_surrounded (uri : SipUri) (before behind : Text isSpace) :
    (readScheme exactly (strip (uri.surrounded before behind)).toList).bind readUser =
      if uri.scheme.Lower then readUser uri.behindScheme else none := by
  rw [SipUri.surrounded, strip_surrounded before.accepted uri.text_solid behind.accepted]
  change (readScheme exactly (uri.scheme.text ++ ':' :: uri.behindScheme)).bind readUser = _
  rcases readScheme_exactly uri.scheme uri.behindScheme with ⟨read, lower⟩ | ⟨unread, notLower⟩
  · rw [read, if_pos lower]
    rfl
  · rw [unread, if_neg notLower]
    rfl

theorem extractCalledNumber_ok_iff (repr : String → String) (requestUri : String)
    (user : List Char) :
    extractCalledNumber repr requestUri = .ok (String.ofList user) ↔
      (readScheme exactly (strip requestUri).toList).bind readUser = some user := by
  rw [extractCalledNumber_eq]
  cases (readScheme exactly (strip requestUri).toList).bind readUser with
  | none => simp
  | some other =>
      rw [Except.ok.injEq, Option.some.injEq]
      exact ⟨fun same => String.ofList_injective same, congrArg String.ofList⟩

theorem extractCalledNumber_error_iff (repr : String → String) (requestUri : String) :
    (∃ error, extractCalledNumber repr requestUri = .error error ∧
      error.code = SkeletonErrorCode.peerMalformedRequest) ↔
      (readScheme exactly (strip requestUri).toList).bind readUser = none := by
  rw [extractCalledNumber_eq]
  cases (readScheme exactly (strip requestUri).toList).bind readUser with
  | none => simp [AsError.create]
  | some other => simp

/-- The user of a URI is returned, and the request is malformed exactly if there is none,
if and only if a URI with a user has its scheme in small letters, no password, and neither
a semicolon nor a question mark in the user. -/
theorem extractCalledNumber_user_iff (repr : String → String) (uri : SipUri)
    (before behind : Text isSpace) :
    ((∀ userinfo, uri.userinfo = some userinfo →
        extractCalledNumber repr (uri.surrounded before behind) =
          .ok (String.ofList userinfo.user.text)) ∧
      ((∃ error, extractCalledNumber repr (uri.surrounded before behind) = .error error ∧
          error.code = SkeletonErrorCode.peerMalformedRequest) ↔ uri.userinfo = none)) ↔
    ∀ userinfo, uri.userinfo = some userinfo →
      uri.scheme.Lower ∧ userinfo.password = none ∧
        ';' ∉ userinfo.user.text ∧ '?' ∉ userinfo.user.text := by
  simp only [extractCalledNumber_ok_iff, extractCalledNumber_error_iff, read_surrounded]
  cases given : uri.userinfo with
  | none =>
      have unread : (if uri.scheme.Lower then readUser uri.behindScheme else none) = none := by
        rw [readUser_of_none given, ite_self]
      simp [unread]
  | some userinfo =>
      by_cases lower : uri.scheme.Lower
      · have read := readUser_of_some given
        simp only [lower, if_true, true_and, Option.some.injEq, forall_eq', reduceCtorEq,
          iff_false, read]
        constructor
        · exact fun both => both.1
        · intro readable
          refine ⟨readable, ?_⟩
          rw [read.mpr readable]
          exact Option.some_ne_none _
      · simp [lower]

/-- A number-portability user part, `sip:1;rn@as`. -/
def portedUri : SipUri where
  scheme := .sip
  userinfo := some
    { user :=
        { text := ['1', ';', 'r', 'n'], accepted := by decide, nonempty := List.cons_ne_nil _ _ } }
  host := .name { text := ['a', 's'], accepted := by decide, nonempty := List.cons_ne_nil _ _ }
  port := none
  params := []
  headers := []

theorem not_extractCalledNumber_user :
    portedUri.userinfo.isSome = true ∧
      ∃ error, extractCalledNumber (fun text => text)
          (portedUri.surrounded ⟨[], by simp⟩ ⟨[], by simp⟩) = .error error ∧
        error.code = SkeletonErrorCode.peerMalformedRequest :=
  ⟨rfl, (extractCalledNumber_error_iff _ _).mpr (by decide +kernel)⟩

/-! ### Building a Request-URI -/

theorem isIpv6_iff {ipAddress : String → Option IpVersion} {address : String} :
    isIpv6 ipAddress address = true ↔ ipAddress address = some .v6 := by
  rw [isIpv6]
  cases ipAddress address <;> simp

def hostText (version6 : Bool) (address : String) : List Char :=
  if version6 then '[' :: (address.toList ++ [']']) else address.toList

theorem toList_buildRequestUri (ipAddress : String → Option IpVersion) (number : String)
    (hop : NextHop) :
    (buildRequestUri ipAddress number hop).toList =
      's' :: 'i' :: 'p' :: ':' :: (number.toList ++ '@' ::
        (hostText (isIpv6 ipAddress hop.address) hop.address ++
          ':' :: (Nat.toDigits 10 hop.port ++
            ';' :: ("transport=".toList ++ hop.transport.text.toList)))) := by
  rw [buildRequestUri, hostText]
  cases isIpv6 ipAddress hop.address <;> simp [Nat.toString_eq_repr]

def separators : List Char := ['@', ':', ';', '[', ']']

def Ipv4Literal (address : String) : Prop :=
  ∃ first second third fourth : Nat,
    (first < 256 ∧ second < 256 ∧ third < 256 ∧ fourth < 256) ∧
      address = toString first ++ "." ++ toString second ++ "." ++ toString third ++ "." ++
        toString fourth

/-- `literal6` tells which texts are IPv6 literals, with a zone or without. -/
inductive AddressKind (literal6 : String → Prop) (address : String) : Prop where
  | ipv4 (literal : Ipv4Literal address)
  | ipv6 (literal : literal6 address)
  | name (free : ∀ separator ∈ separators, separator ∉ address.toList)

structure CalledNumber (number : String) : Prop where
  nonempty : number ≠ ""
  free : ∀ separator ∈ ['@', ';', '?'], separator ∉ number.toList

theorem not_mem_toDigits {separator : Char} (notDigit : separator.isDigit = false)
    (number : Nat) : separator ∉ Nat.toDigits 10 number := by
  intro member
  have digit := Nat.isDigit_of_mem_toDigits (by decide) (by decide) member
  rw [notDigit] at digit
  contradiction

theorem Ipv4Literal.free {address : String} (literal : Ipv4Literal address) :
    ∀ separator ∈ separators, separator ∉ address.toList := by
  obtain ⟨first, second, third, fourth, _, rfl⟩ := literal
  intro separator isSeparator
  have notDigit : separator.isDigit = false ∧ separator ≠ '.' := by
    revert separator
    decide
  have absent := not_mem_toDigits notDigit.1
  simp [Nat.toString_eq_repr, absent, notDigit.2]

theorem strip_buildRequestUri (ipAddress : String → Option IpVersion) (number : String)
    (hop : NextHop) :
    (strip (buildRequestUri ipAddress number hop)).toList =
      (buildRequestUri ipAddress number hop).toList := by
  have name : ∃ front last, hop.transport.text.toList = front ++ [last] ∧ isSpace last = false := by
    cases hop.transport with
    | udp => exact ⟨['u', 'd'], 'p', rfl, rfl⟩
    | tls => exact ⟨['t', 'l'], 's', rfl, rfl⟩
  obtain ⟨front, last, name, solid⟩ := name
  have ends : ∃ text, (buildRequestUri ipAddress number hop).toList = 's' :: (text ++ [last]) := by
    refine ⟨'i' :: 'p' :: ':' :: (number.toList ++ '@' :: (hostText (isIpv6 ipAddress hop.address)
      hop.address ++
      ':' :: (Nat.toDigits 10 hop.port ++ ';' :: ("transport=".toList ++ front)))), ?_⟩
    rw [toList_buildRequestUri, name]
    simp
  obtain ⟨text, parts⟩ := ends
  have stripped := strip_of_solid_ends text (show isSpace 's' = false from rfl) solid
  rwa [← parts, String.ofList_toList] at stripped

theorem extractCalledNumber_buildRequestUri (repr : String → String)
    (ipAddress : String → Option IpVersion) {number : String} (isNumber : CalledNumber number)
    (hop : NextHop) :
    extractCalledNumber repr (buildRequestUri ipAddress number hop) = .ok number := by
  have accepted : ∀ character ∈ number.toList, userClass character = true := by
    intro character member
    simp only [userClass, noneOf, List.contains_eq_mem, Bool.not_eq_true', decide_eq_false_iff_not]
    exact fun special => isNumber.free character special member
  have nonempty : number.toList ≠ [] := by
    intro empty
    exact isNumber.nonempty (String.toList_eq_nil_iff.mp empty)
  have read := (extractCalledNumber_ok_iff repr (buildRequestUri ipAddress number hop)
    number.toList).mpr (by
      rw [strip_buildRequestUri, toList_buildRequestUri]
      exact readUser_of_at accepted nonempty)
  rwa [String.ofList_toList] at read

theorem Transport.eq_of_text {left right : Transport}
    (same : left.text.toList = right.text.toList) : left = right := by
  cases left with
  | udp =>
      cases right with
      | udp => rfl
      | tls => exact absurd same (by decide)
  | tls =>
      cases right with
      | udp => exact absurd same (by decide)
      | tls => rfl

section

variable {ipAddress : String → Option IpVersion} {literal6 : String → Prop}
  (shape : ∀ address, ipAddress address = some .v6 →
    ':' ∈ address.toList ∧ '[' ∉ address.toList ∧ ']' ∉ address.toList)
  (complete : ∀ address, literal6 address → ipAddress address = some .v6)
include shape complete

/-- An address is bracketed, or no separator is in it. -/
theorem AddressKind.cases_host {address : String} (kind : AddressKind literal6 address) :
    (hostText (isIpv6 ipAddress address) address = '[' :: (address.toList ++ [']']) ∧
      ']' ∉ address.toList) ∨
      (hostText (isIpv6 ipAddress address) address = address.toList ∧
        ∀ separator ∈ separators, separator ∉ address.toList) := by
  have plain : (∀ separator ∈ separators, separator ∉ address.toList) →
      hostText (isIpv6 ipAddress address) address = address.toList := by
    intro free
    rw [hostText, if_neg]
    intro classified
    exact free ':' (by decide) (shape address (isIpv6_iff.mp classified)).1
  cases kind with
  | ipv4 literal => exact Or.inr ⟨plain literal.free, literal.free⟩
  | ipv6 literal =>
      have classified := complete address literal
      exact Or.inl ⟨by rw [hostText, if_pos (isIpv6_iff.mpr classified)],
        (shape address classified).2.2⟩
  | name free => exact Or.inr ⟨plain free, free⟩

theorem hostText_unique {left right : String} (leftKind : AddressKind literal6 left)
    (rightKind : AddressKind literal6 right) {behindLeft behindRight : List Char}
    (same : hostText (isIpv6 ipAddress left) left ++ ':' :: behindLeft =
      hostText (isIpv6 ipAddress right) right ++ ':' :: behindRight) :
    left = right ∧ behindLeft = behindRight := by
  have notBracket : ∀ {address : String} {behind rest : List Char},
      (∀ separator ∈ separators, separator ∉ address.toList) →
      address.toList ++ ':' :: behind ≠ '[' :: rest := by
    intro address behind rest free same
    cases text : address.toList with
    | nil => simp [text] at same
    | cons first more =>
        rw [text] at same
        exact free '[' (by decide) (by rw [text, (List.cons.inj same).1]; simp)
  rcases leftKind.cases_host shape complete with ⟨leftText, leftFree⟩ | ⟨leftText, leftFree⟩ <;>
    rcases rightKind.cases_host shape complete with
      ⟨rightText, rightFree⟩ | ⟨rightText, rightFree⟩ <;>
    rw [leftText, rightText] at same
  · simp only [List.cons_append, List.append_assoc, List.nil_append, List.cons.injEq,
      true_and] at same
    obtain ⟨sameAddress, sameBehind⟩ := split_unique leftFree rightFree same
    exact ⟨String.toList_injective sameAddress, (List.cons.inj sameBehind).2⟩
  · exact absurd same.symm (notBracket rightFree)
  · exact absurd same (notBracket leftFree)
  · obtain ⟨sameAddress, sameBehind⟩ :=
      split_unique (leftFree ':' (by decide)) (rightFree ':' (by decide)) same
    exact ⟨String.toList_injective sameAddress, sameBehind⟩

end

/-- The number can be read back from a Request-URI, and so can the hop. -/
theorem buildRequestUri_unambiguous (repr : String → String)
    (ipAddress : String → Option IpVersion) (literal6 : String → Prop)
    (shape : ∀ address, ipAddress address = some .v6 →
      ':' ∈ address.toList ∧ '[' ∉ address.toList ∧ ']' ∉ address.toList)
    (complete : ∀ address, literal6 address → ipAddress address = some .v6)
    (left right : String) (isLeft : CalledNumber left) (isRight : CalledNumber right)
    (leftHop rightHop : NextHop) (leftKind : AddressKind literal6 leftHop.address)
    (rightKind : AddressKind literal6 rightHop.address) :
    extractCalledNumber repr (buildRequestUri ipAddress right rightHop) = .ok right ∧
      (buildRequestUri ipAddress left leftHop = buildRequestUri ipAddress right rightHop →
        left = right ∧ leftHop.address = rightHop.address ∧ leftHop.port = rightHop.port ∧
          leftHop.transport = rightHop.transport) := by
  refine ⟨extractCalledNumber_buildRequestUri repr ipAddress isRight rightHop, ?_⟩
  intro same
  have text := congrArg String.toList same
  rw [toList_buildRequestUri, toList_buildRequestUri] at text
  simp only [List.cons.injEq, true_and] at text
  obtain ⟨sameNumber, text⟩ :=
    split_unique (isLeft.free '@' (by decide)) (isRight.free '@' (by decide)) text
  obtain ⟨sameAddress, text⟩ := hostText_unique shape complete leftKind rightKind text
  obtain ⟨samePort, text⟩ :=
    split_unique (not_mem_toDigits (by decide) _) (not_mem_toDigits (by decide) _) text
  have portNumber : leftHop.port = rightHop.port := by
    have numbers := congrArg (fun digits => Nat.ofDigitChars 10 digits 0) samePort
    simpa only [Nat.ofDigitChars_toDigits (by decide : 1 < 10) (by decide : 10 ≤ 10)] using numbers
  exact ⟨String.toList_injective sameNumber, sameAddress, portNumber,
    Transport.eq_of_text (List.append_cancel_left text)⟩

/-- A classifier that goes by the colon and the dot. -/
def byColon (address : String) : Option IpVersion :=
  if address.toList.contains ':' && (!address.toList.contains '[' && !address.toList.contains ']')
  then some .v6
  else if address.toList.contains '.' then some .v4
  else none

theorem buildRequestUri_unambiguous_loopback :
    extractCalledNumber (fun text => text)
        (buildRequestUri byColon "+861" { name := "b", address := "::1" }) = .ok "+861" ∧
      (buildRequestUri byColon "+861" { name := "a", address := "10.0.0.1" } =
          buildRequestUri byColon "+861" { name := "b", address := "::1" } →
        "+861" = "+861" ∧ "10.0.0.1" = "::1" ∧ 5060 = 5060 ∧ Transport.udp = Transport.udp) :=
  buildRequestUri_unambiguous (fun text => text) byColon (fun address => byColon address = some .v6)
    (fun address classified => by simpa [byColon] using classified)
    (fun _ literal => literal) "+861" "+861"
    ⟨by decide, by decide +kernel⟩ ⟨by decide, by decide +kernel⟩
    { name := "a", address := "10.0.0.1" } { name := "b", address := "::1" }
    (.ipv4 ⟨10, 0, 0, 1, by decide, by decide +kernel⟩) (.ipv6 (by decide +kernel))

end AsPlatform
