/-
The SIP URI of RFC 3261 section 19.1, the name-addr entries of a `Route` header and the
text of a message.

A text of the grammar is a structure whose fields are its parts, each with the characters
it may be made of.  Of an escape `%HH` the three characters are taken one by one, and an
address inside brackets is any text of hexadecimal digits, colons and dots with a colon in
it; so there are some more texts here than in the grammar.
-/

import AsPlatform.PythonRe

namespace AsPlatform

/-! ### Characters -/

def apostrophe : Char := Char.ofNat 0x27

def graveAccent : Char := Char.ofNat 0x60

def unreservedChar (character : Char) : Bool :=
  character.isAlphanum || anyOf ['-', '_', '.', '!', '~', '*', apostrophe, '(', ')', '%'] character

def userChar (character : Char) : Bool :=
  unreservedChar character || anyOf ['&', '=', '+', '$', ',', ';', '?', '/'] character

def passwordChar (character : Char) : Bool :=
  unreservedChar character || anyOf ['&', '=', '+', '$', ','] character

def hostChar (character : Char) : Bool :=
  character.isAlphanum || anyOf ['-', '.'] character

def ipv6Char (character : Char) : Bool :=
  character.isDigit || anyOf ['a', 'b', 'c', 'd', 'e', 'f', 'A', 'B', 'C', 'D', 'E', 'F', ':', '.']
    character

def paramChar (character : Char) : Bool :=
  unreservedChar character || anyOf ['[', ']', '/', ':', '&', '+', '$'] character

def headerChar (character : Char) : Bool :=
  unreservedChar character || anyOf ['[', ']', '/', '?', ':', '+', '$'] character

def tokenChar (character : Char) : Bool :=
  character.isAlphanum ||
    anyOf ['-', '.', '!', '%', '*', '_', '+', graveAccent, apostrophe, '~'] character

def userinfoChar (character : Char) : Bool :=
  userChar character || character == ':'

def placeChar (character : Char) : Bool :=
  hostChar character || ipv6Char character || anyOf ['[', ']', ':'] character

def uriChar (character : Char) : Bool :=
  userinfoChar character || anyOf ['[', ']', '@'] character

/-- Linear white space, folded lines included. -/
def blankChar (character : Char) : Bool :=
  anyOf [' ', '\t', '\r', '\n'] character

theorem not_mem_of_class {accepts : Char → Bool} {text : List Char}
    (accepted : ∀ character ∈ text, accepts character = true) {special : Char}
    (refused : accepts special = false) : special ∉ text := by
  intro member
  rw [accepted special member] at refused
  contradiction

/-! ### Parts -/

structure Text (accepts : Char → Bool) where
  text : List Char
  accepted : ∀ character ∈ text, accepts character = true

structure Word (accepts : Char → Bool) extends Text accepts where
  nonempty : text ≠ []

structure UriScheme where
  text : List Char
  spelled : text.map Char.toLower = ['s', 'i', 'p'] ∨
    text.map Char.toLower = ['s', 'i', 'p', 's']

def UriScheme.sip : UriScheme :=
  ⟨['s', 'i', 'p'], Or.inl rfl⟩

structure UserInfo where
  user : Word userChar
  password : Option (Text passwordChar) := none

def UserInfo.text (userinfo : UserInfo) : List Char :=
  userinfo.user.text ++ userinfo.password.elim [] fun password => ':' :: password.text

inductive Host where
  | name (labels : Word hostChar)
  | ipv6 (address : Word ipv6Char) (colon : ':' ∈ address.text)

namespace Host

def text : Host → List Char
  | .name labels => labels.text
  | ipv6 address _ => '[' :: (address.text ++ [']'])

def bare : Host → List Char
  | .name labels => labels.text
  | ipv6 address _ => address.text

def isName : Host → Bool
  | .name _ => true
  | ipv6 _ _ => false

end Host

structure Param (accepts : Char → Bool) where
  name : Word accepts
  value : Option (Text accepts) := none

def Param.text {accepts : Char → Bool} (param : Param accepts) : List Char :=
  param.name.text ++ param.value.elim [] fun value => '=' :: value.text

structure SipUri where
  scheme : UriScheme
  userinfo : Option UserInfo
  host : Host
  port : Option (Word Char.isDigit)
  params : List (Param paramChar)
  headers : List (Param headerChar)

namespace SipUri

def userText (uri : SipUri) : List Char :=
  uri.userinfo.elim [] fun userinfo => userinfo.text ++ ['@']

def portText (uri : SipUri) : List Char :=
  uri.port.elim [] fun port => ':' :: port.text

def paramText (uri : SipUri) : List Char :=
  uri.params.flatMap fun param => ';' :: param.text

def headerText (uri : SipUri) : List Char :=
  match uri.headers with
  | [] => []
  | first :: more => '?' :: (first.text ++ more.flatMap fun header => '&' :: header.text)

def text (uri : SipUri) : List Char :=
  uri.scheme.text ++ ':' ::
    (uri.userText ++ (uri.host.text ++ (uri.portText ++ (uri.paramText ++ uri.headerText))))

def portNumber (uri : SipUri) : Option Nat :=
  uri.port.map fun port =>
    port.text.foldl (fun number digit => 10 * number + (digit.toNat - '0'.toNat)) 0

end SipUri

/-! ### What the parts are made of -/

theorem accepts_of_anyOf {accepts : Char → Bool} {members : List Char}
    (inside : ∀ member ∈ members, accepts member = true) {character : Char}
    (member : anyOf members character = true) : accepts character = true := by
  rw [anyOf, List.contains_eq_mem, decide_eq_true_eq] at member
  exact inside character member

theorem userinfoChar_of_unreservedChar {character : Char}
    (accepted : unreservedChar character = true) : userinfoChar character = true := by
  rw [userinfoChar, userChar, accepted]
  rfl

theorem userinfoChar_of_passwordChar {character : Char}
    (accepted : passwordChar character = true) : userinfoChar character = true := by
  rcases Bool.or_eq_true_iff.mp accepted with unreserved | special
  · exact userinfoChar_of_unreservedChar unreserved
  · exact accepts_of_anyOf (by decide) special

theorem uriChar_of_userinfoChar {character : Char}
    (accepted : userinfoChar character = true) : uriChar character = true := by
  rw [uriChar, accepted]
  rfl

theorem uriChar_of_hostChar {character : Char} (accepted : hostChar character = true) :
    uriChar character = true := by
  rcases Bool.or_eq_true_iff.mp accepted with alphanumeric | special
  · exact uriChar_of_userinfoChar
      (userinfoChar_of_unreservedChar (by rw [unreservedChar, alphanumeric]; rfl))
  · exact accepts_of_anyOf (by decide) special

theorem placeChar_of_isDigit {character : Char} (digit : character.isDigit = true) :
    placeChar character = true := by
  rw [placeChar, hostChar, Char.isAlphanum, digit, Bool.or_true]
  rfl

theorem placeChar_of_hostChar {character : Char} (accepted : hostChar character = true) :
    placeChar character = true := by
  rw [placeChar, accepted]
  rfl

theorem placeChar_of_ipv6Char {character : Char} (accepted : ipv6Char character = true) :
    placeChar character = true := by
  rw [placeChar, accepted, Bool.or_true]
  rfl

theorem uriChar_of_placeChar {character : Char} (accepted : placeChar character = true) :
    uriChar character = true := by
  rcases Bool.or_eq_true_iff.mp accepted with accepted | special
  · rcases Bool.or_eq_true_iff.mp accepted with inName | inAddress
    · exact uriChar_of_hostChar inName
    · rcases Bool.or_eq_true_iff.mp inAddress with digit | special
      · exact uriChar_of_hostChar (by rw [hostChar, Char.isAlphanum, digit, Bool.or_true]; rfl)
      · exact accepts_of_anyOf (by decide) special
  · exact accepts_of_anyOf (by decide) special

theorem uriChar_of_paramChar {character : Char} (accepted : paramChar character = true) :
    uriChar character = true := by
  rcases Bool.or_eq_true_iff.mp accepted with unreserved | special
  · exact uriChar_of_userinfoChar (userinfoChar_of_unreservedChar unreserved)
  · exact accepts_of_anyOf (by decide) special

theorem uriChar_of_headerChar {character : Char} (accepted : headerChar character = true) :
    uriChar character = true := by
  rcases Bool.or_eq_true_iff.mp accepted with unreserved | special
  · exact uriChar_of_userinfoChar (userinfoChar_of_unreservedChar unreserved)
  · exact accepts_of_anyOf (by decide) special

theorem range_of_isAlphanum {character : Char} (accepted : character.isAlphanum = true) :
    (48 ≤ character.toNat ∧ character.toNat ≤ 57) ∨
      (65 ≤ character.toNat ∧ character.toNat ≤ 90) ∨
        (97 ≤ character.toNat ∧ character.toNat ≤ 122) := by
  have between : ∀ first last : Char,
      (character.val ≥ first.val && character.val ≤ last.val) = true →
        first.toNat ≤ character.toNat ∧ character.toNat ≤ last.toNat := by
    intro first last inside
    exact ⟨of_decide_eq_true (Bool.and_eq_true_iff.mp inside).1,
      of_decide_eq_true (Bool.and_eq_true_iff.mp inside).2⟩
  rcases Bool.or_eq_true_iff.mp accepted with alpha | digit
  · rcases Bool.or_eq_true_iff.mp alpha with upper | lower
    · exact Or.inr (Or.inl (of_decide_eq_true upper))
    · exact Or.inr (Or.inr (between 'a' 'z' lower))
  · exact Or.inl (between '0' '9' digit)

theorem isSpace_of_uriChar {character : Char} (accepted : uriChar character = true) :
    isSpace character = false := by
  have alphanumeric : character.isAlphanum = true → isSpace character = false := by
    intro accepted
    have range := range_of_isAlphanum accepted
    simp only [isSpace, Bool.or_eq_false_iff, Bool.and_eq_false_iff, decide_eq_false_iff_not,
      beq_eq_false_iff_ne]
    omega
  have solid : ∀ members, (∀ member ∈ members, isSpace member = false) →
      anyOf members character = true → isSpace character = false := by
    intro members solid member
    rw [anyOf, List.contains_eq_mem, decide_eq_true_eq] at member
    exact solid character member
  rcases Bool.or_eq_true_iff.mp accepted with inUserinfo | bracketOrAt
  · rcases Bool.or_eq_true_iff.mp inUserinfo with inUser | colon
    · rcases Bool.or_eq_true_iff.mp inUser with unreserved | special
      · rcases Bool.or_eq_true_iff.mp unreserved with isAlphanumeric | mark
        · exact alphanumeric isAlphanumeric
        · exact solid _ (by decide) mark
      · exact solid _ (by decide) special
    · rw [eq_of_beq colon]
      rfl
  · exact solid _ (by decide) bracketOrAt

theorem UriScheme.not_mem (scheme : UriScheme) {special : Char}
    (other : special.toLower ∉ ['s', 'i', 'p']) : special ∉ scheme.text := by
  intro member
  have lower := List.mem_map_of_mem (f := Char.toLower) member
  rcases scheme.spelled with sip | sips
  · rw [sip] at lower
    exact other lower
  · rw [sips] at lower
    simp only [List.mem_cons, List.not_mem_nil, or_false] at lower other
    tauto

theorem UriScheme.solid (scheme : UriScheme) :
    ∀ character ∈ scheme.text, isSpace character = false := by
  intro character member
  have lower : character.toLower ∈ ['s', 'i', 'p'] := by
    by_contra other
    exact scheme.not_mem other member
  have ascii : character.toLower.toNat < 128 ∧ isSpace character.toLower = false := by
    simp only [List.mem_cons, List.not_mem_nil, or_false] at lower
    rcases lower with small | small | small <;> rw [small] <;> decide
  cases space : isSpace character with
  | false => rfl
  | true =>
      have folded := foldCase_of_ascii (toNat_lt_of_toLower ascii.1)
      rw [foldCase_of_isSpace space] at folded
      rw [folded, ascii.2] at space
      contradiction

theorem UserInfo.accepted (userinfo : UserInfo) :
    ∀ character ∈ userinfo.text, userinfoChar character = true := by
  intro character member
  rcases List.mem_append.mp member with inUser | inPassword
  · rw [userinfoChar, userinfo.user.accepted character inUser]
    rfl
  · cases given : userinfo.password with
    | none => simp [given] at inPassword
    | some password =>
        rw [given, Option.elim_some, List.mem_cons] at inPassword
        rcases inPassword with rfl | inPassword
        · rfl
        · exact userinfoChar_of_passwordChar (password.accepted character inPassword)

theorem Host.accepted (host : Host) : ∀ character ∈ host.text, placeChar character = true := by
  intro character member
  cases host with
  | name labels => exact placeChar_of_hostChar (labels.accepted character member)
  | ipv6 address colon =>
      rw [Host.text, List.mem_cons, List.mem_append, List.mem_singleton] at member
      rcases member with rfl | inAddress | rfl
      · rfl
      · exact placeChar_of_ipv6Char (address.accepted character inAddress)
      · rfl

theorem Param.accepted {accepts : Char → Bool}
    (ofUri : ∀ {character}, accepts character = true → uriChar character = true)
    (param : Param accepts) : ∀ character ∈ param.text, uriChar character = true := by
  intro character member
  rcases List.mem_append.mp member with inName | inValue
  · exact ofUri (param.name.accepted character inName)
  · cases given : param.value with
    | none => simp [given] at inValue
    | some value =>
        rw [given, Option.elim_some, List.mem_cons] at inValue
        rcases inValue with rfl | inValue
        · rfl
        · exact ofUri (value.accepted character inValue)

namespace SipUri

theorem portText_accepted (uri : SipUri) :
    ∀ character ∈ uri.portText, placeChar character = true := by
  intro character member
  rw [portText] at member
  cases given : uri.port with
  | none => simp [given] at member
  | some port =>
      rw [given, Option.elim_some, List.mem_cons] at member
      rcases member with rfl | inPort
      · rfl
      · exact placeChar_of_isDigit (port.accepted character inPort)

theorem paramText_accepted (uri : SipUri) :
    ∀ character ∈ uri.paramText, uriChar character = true := by
  intro character member
  obtain ⟨param, _, inParam⟩ := List.mem_flatMap.mp member
  rcases List.mem_cons.mp inParam with rfl | inParam
  · rfl
  · exact param.accepted uriChar_of_paramChar character inParam

theorem headerText_accepted (uri : SipUri) :
    ∀ character ∈ uri.headerText, uriChar character = true := by
  have ofHeader : ∀ header : Param headerChar, ∀ character ∈ header.text,
      uriChar character = true := fun header => header.accepted uriChar_of_headerChar
  intro character member
  rw [headerText] at member
  cases given : uri.headers with
  | nil => simp [given] at member
  | cons first more =>
      simp only [given, List.mem_cons, List.mem_append, List.mem_flatMap] at member
      rcases member with rfl | inFirst | ⟨header, _, rfl | inHeader⟩
      · rfl
      · exact ofHeader first character inFirst
      · rfl
      · exact ofHeader header character inHeader

theorem userText_accepted (uri : SipUri) :
    ∀ character ∈ uri.userText, uriChar character = true := by
  intro character member
  rw [userText] at member
  cases given : uri.userinfo with
  | none => simp [given] at member
  | some userinfo =>
      rw [given, Option.elim_some, List.mem_append, List.mem_singleton] at member
      rcases member with inUser | rfl
      · exact uriChar_of_userinfoChar (userinfo.accepted character inUser)
      · rfl

theorem text_solid (uri : SipUri) : ∀ character ∈ uri.text, isSpace character = false := by
  intro character member
  simp only [text, List.mem_append, List.mem_cons] at member
  rcases member with inScheme | rfl | inUser | inHost | inPort | inParams | inHeaders
  · exact uri.scheme.solid character inScheme
  · rfl
  · exact isSpace_of_uriChar (uri.userText_accepted character inUser)
  · exact isSpace_of_uriChar (uriChar_of_placeChar (uri.host.accepted character inHost))
  · exact isSpace_of_uriChar (uriChar_of_placeChar (uri.portText_accepted character inPort))
  · exact isSpace_of_uriChar (uri.paramText_accepted character inParams)
  · exact isSpace_of_uriChar (uri.headerText_accepted character inHeaders)

end SipUri

/-! ### Entries of a `Route` header -/

inductive QuotedPiece where
  | plain (character : Char) (accepted : character ≠ '"' ∧ character ≠ '\\')
  | escaped (character : Char)

def QuotedPiece.text : QuotedPiece → List Char
  | plain character _ => [character]
  | escaped character => ['\\', character]

def quotedText (pieces : List QuotedPiece) : List Char :=
  '"' :: (pieces.flatMap QuotedPiece.text ++ ['"'])

inductive DisplayName where
  | words (words : Text fun character => tokenChar character || blankChar character)
  | quoted (pieces : List QuotedPiece)

def DisplayName.text : DisplayName → List Char
  | .words spelled => spelled.text
  | quoted pieces => quotedText pieces

inductive EntryValue where
  | token (word : Word tokenChar)
  | host (host : Host)
  | quoted (pieces : List QuotedPiece)

def EntryValue.text : EntryValue → List Char
  | token word => word.text
  | .host place => place.text
  | quoted pieces => quotedText pieces

structure EntryParam where
  before : Text blankChar
  behind : Text blankChar
  name : Word tokenChar
  value : Option (Text blankChar × Text blankChar × EntryValue) := none

def EntryParam.text (param : EntryParam) : List Char :=
  param.before.text ++ ';' :: (param.behind.text ++ (param.name.text ++
    param.value.elim [] fun value =>
      value.1.text ++ '=' :: (value.2.1.text ++ value.2.2.text)))

/-- `[display-name] <sip:[userinfo@]host[:port][;params]>` and its own parameters. -/
structure RouteEntry where
  leading : Text blankChar
  display : Option DisplayName
  gap : Text blankChar
  inner : Text blankChar
  uri : SipUri
  noHeaders : uri.headers = []
  params : List EntryParam
  trailing : Text blankChar

namespace RouteEntry

def before (entry : RouteEntry) : List Char :=
  entry.leading.text ++ (entry.display.elim [] DisplayName.text ++ entry.gap.text)

def behind (entry : RouteEntry) : List Char :=
  entry.params.flatMap EntryParam.text ++ entry.trailing.text

def text (entry : RouteEntry) : List Char :=
  entry.before ++ '<' :: (entry.inner.text ++ (entry.uri.text ++ '>' :: entry.behind))

end RouteEntry

structure RouteValue where
  first : RouteEntry
  more : List RouteEntry

namespace RouteValue

def behind (value : RouteValue) : List Char :=
  value.first.behind ++ value.more.flatMap fun entry => ',' :: entry.text

def text (value : RouteValue) : List Char :=
  value.first.text ++ value.more.flatMap fun entry => ',' :: entry.text

theorem text_eq (value : RouteValue) :
    value.text = value.first.before ++
      '<' :: (value.first.inner.text ++ (value.first.uri.text ++ '>' :: value.behind)) := by
  simp [text, behind, RouteEntry.text]

end RouteValue

/-! ### Messages -/

inductive LineEnding where
  | crlf
  | lf

def LineEnding.text : LineEnding → List Char
  | .crlf => ['\r']
  | .lf => []

def wspChar (character : Char) : Bool :=
  anyOf [' ', '\t'] character

def lineChar (character : Char) : Bool :=
  noneOf ['\r', '\n'] character

structure HeaderLine where
  name : Word tokenChar
  gap : Text wspChar
  body : Text lineChar
  ending : LineEnding

namespace HeaderLine

def text (header : HeaderLine) : List Char :=
  header.name.text ++ (header.gap.text ++ ':' :: (header.body.text ++ header.ending.text))

def value (header : HeaderLine) : List Char :=
  (header.body.text.dropWhile wspChar).rdropWhile wspChar

/-- `Call-ID` or its compact form, in letters of any case. -/
def IsCallId (header : HeaderLine) : Prop :=
  header.name.text.map Char.toLower = ['c', 'a', 'l', 'l', '-', 'i', 'd'] ∨
    header.name.text.map Char.toLower = ['i']

instance (header : HeaderLine) : Decidable header.IsCallId :=
  inferInstanceAs (Decidable (_ ∨ _))

end HeaderLine

/-- The start line has a method or a version as its first word. -/
structure SipMessage where
  firstWord : Word fun character => tokenChar character || character == '/'
  startLine : Text lineChar
  startEnding : LineEnding
  headers : List HeaderLine
  emptyEnding : LineEnding
  body : List Char

namespace SipMessage

def startText (message : SipMessage) : List Char :=
  message.firstWord.text ++ ' ' :: (message.startLine.text ++ message.startEnding.text)

def text (message : SipMessage) : String :=
  String.ofList (message.startText ++ '\n' ::
    ((message.headers.flatMap fun header => header.text ++ ['\n']) ++
      (message.emptyEnding.text ++ '\n' :: message.body)))

def callIdHeaders (message : SipMessage) : List HeaderLine :=
  message.headers.filter fun header => header.IsCallId

def callId (message : SipMessage) : Option (List Char) :=
  message.callIdHeaders.head?.map HeaderLine.value

end SipMessage

end AsPlatform
