/-
The target of the top entry of a well-formed `Route` header.
-/

import AsPlatform.RouteHeader
import AsPlatform.Rfc3261

namespace AsPlatform

open Backtracking Pattern

/-! ### Schemes -/

theorem isSpace_of_blankChar {character : Char} (blank : blankChar character = true) :
    isSpace character = true := by
  simp only [blankChar, anyOf, List.contains_eq_mem, List.mem_cons, List.not_mem_nil, or_false,
    decide_eq_true_eq] at blank
  rcases blank with rfl | rfl | rfl | rfl <;> rfl

theorem readScheme_scheme (scheme : UriScheme) (rest : List Char) :
    readScheme caseless (scheme.text ++ ':' :: rest) = some rest := by
  obtain ⟨text, spelled⟩ := scheme
  rcases spelled with sip | sips
  · have length : text.length = 3 := by simpa using congrArg List.length sip
    have read : spelledBy [caseless 's', caseless 'i', caseless 'p', exactly ':']
        (text ++ ':' :: rest) = true := spelledBy_caseless _ text rest sip (by decide)
    cases both : spelledBy [caseless 's', caseless 'i', caseless 'p', caseless 's', exactly ':']
        (text ++ ':' :: rest) with
    | true =>
        have clash := sip_of_sips (by decide) both
        rw [read] at clash
        contradiction
    | false =>
        rw [readScheme, both, read, if_neg Bool.false_ne_true, if_pos rfl]
        simp [List.drop_append, length]
  · have length : text.length = 4 := by simpa using congrArg List.length sips
    have read : spelledBy [caseless 's', caseless 'i', caseless 'p', caseless 's', exactly ':']
        (text ++ ':' :: rest) = true := spelledBy_caseless _ text rest sips (by decide)
    rw [readScheme, read, if_pos rfl]
    simp [List.drop_append, length]

theorem head_scheme (scheme : UriScheme) :
    ∃ first more, scheme.text = first :: more ∧ isSpace first = false := by
  cases parts : scheme.text with
  | nil =>
      have spelled := scheme.spelled
      rw [parts] at spelled
      rcases spelled with sip | sips
      · contradiction
      · contradiction
  | cons first more =>
      exact ⟨first, more, rfl, scheme.solid first (by rw [parts]; exact List.mem_cons_self)⟩

theorem readEntry_uri (inner : Text blankChar) (scheme : UriScheme) (rest : List Char) :
    readEntry (inner.text ++ (scheme.text ++ ':' :: rest)) = readTarget rest := by
  obtain ⟨first, more, parts, solid⟩ := head_scheme scheme
  have blank : ∀ character ∈ inner.text, isSpace character = true :=
    fun character member => isSpace_of_blankChar (inner.accepted character member)
  have read := readScheme_scheme scheme rest
  rw [parts] at read
  rw [readEntry, List.dropWhile_append_of_pos blank, parts, List.cons_append,
    List.dropWhile_cons_of_neg (by simp [solid]), ← List.cons_append, read]
  rfl

/-! ### Hosts and ports -/

theorem isDecimal_of_isDigit {character : Char} (digit : character.isDigit = true) :
    isDecimal character = true := by
  rw [isDecimal, digitValue_of_isDigit digit]
  rfl

theorem pyInt_of_isDigit (text : List Char) (digits : ∀ digit ∈ text, digit.isDigit = true) :
    pyInt text =
      text.foldl (fun number digit => 10 * number + (digit.toNat - '0'.toNat)) 0 := by
  refine List.foldl_ext _ _ 0 fun number digit member => ?_
  rw [digitValue_of_isDigit (digits digit member), Option.getD_some]

theorem readPort_portText (uri : SipUri) :
    readPort uri.portText = uri.port.map fun port => port.text := by
  rw [SipUri.portText]
  cases uri.port with
  | none => rfl
  | some port =>
      have whole : port.text.takeWhile isDecimal = port.text :=
        List.takeWhile_eq_self_iff.mpr
          (fun digit member => isDecimal_of_isDigit (port.accepted digit member))
      rw [Option.elim_some, readPort, whole, if_neg port.nonempty]
      rfl

theorem takeWhile_portText (uri : SipUri) : uri.portText.takeWhile routeHostClass = [] := by
  rw [SipUri.portText]
  cases uri.port with
  | none => rfl
  | some port => rfl

theorem readHost_name (uri : SipUri) (labels : Word hostChar) :
    readHost (labels.text ++ uri.portText) =
      some ⟨labels.text, uri.port.map fun port => port.text⟩ := by
  have accepted : ∀ character ∈ labels.text, routeHostClass character = true :=
    fun character member => noneOf_of_class (by decide) (labels.accepted character member)
  have behind : uri.portText.dropWhile routeHostClass = uri.portText := by
    have parts := List.takeWhile_append_dropWhile (p := routeHostClass) (l := uri.portText)
    rwa [takeWhile_portText, List.nil_append] at parts
  rw [readHost, List.takeWhile_append_of_pos accepted, List.dropWhile_append_of_pos accepted,
    takeWhile_portText, behind, List.append_nil, if_neg labels.nonempty, readPort_portText]

theorem target_port (uri : SipUri) (host : List Char) (defaultPort : Nat) :
    RouteReading.target defaultPort ⟨host, uri.port.map fun port => port.text⟩ =
      (String.ofList host, uri.portNumber.getD defaultPort) := by
  rw [RouteReading.target, SipUri.portNumber]
  cases uri.port with
  | none => rfl
  | some port =>
      rw [Option.map_some, Option.map_some, Option.getD_some, ← pyInt_of_isDigit _ port.accepted]
      cases digits : port.text with
      | nil => exact absurd digits port.nonempty
      | cons digit more => rfl

/-! ### User parts -/

theorem routeUserClass_of_userinfo (userinfo : UserInfo) (plain : ';' ∉ userinfo.text) :
    ∀ character ∈ userinfo.text, routeUserClass character = true := by
  have plainChar : ∀ character ∈ userinfo.text,
      (userinfoChar character && character != ';') = true := by
    intro character member
    have notSemicolon : character ≠ ';' := fun same => plain (same ▸ member)
    simp [userinfo.accepted character member, notSemicolon]
  exact fun character member =>
    @noneOf_of_class (fun character => userinfoChar character && character != ';') _
      (by decide) character (plainChar character member)

def SipUri.PlainUser (uri : SipUri) : Prop :=
  ',' ∉ uri.userText ∧ ';' ∉ uri.userText

instance (uri : SipUri) : Decidable uri.PlainUser :=
  inferInstanceAs (Decidable (',' ∉ uri.userText ∧ ';' ∉ uri.userText))

def targetChar (character : Char) : Bool :=
  hostChar character || character == ':'

theorem targetChar_of_name (uri : SipUri) (labels : Word hostChar) :
    ∀ character ∈ labels.text ++ uri.portText, targetChar character = true := by
  intro character member
  rcases List.mem_append.mp member with inLabels | inPort
  · rw [targetChar, labels.accepted character inLabels]
    rfl
  · rw [SipUri.portText] at inPort
    cases given : uri.port with
    | none => simp [given] at inPort
    | some port =>
        rw [given, Option.elim_some, List.mem_cons] at inPort
        rcases inPort with rfl | digit
        · rfl
        · rw [targetChar, hostChar, Char.isAlphanum, port.accepted character digit, Bool.or_true]
          rfl

theorem routeUserClass_of_name (uri : SipUri) (labels : Word hostChar) :
    ∀ character ∈ labels.text ++ uri.portText, routeUserClass character = true :=
  fun character member =>
    @noneOf_of_class targetChar _ (by decide) character
      (targetChar_of_name uri labels character member)

theorem readTarget_plain (uri : SipUri) (labels : Word hostChar) (plain : uri.PlainUser) :
    readTarget (uri.userText ++ (labels.text ++ uri.portText)) =
      some ⟨labels.text, uri.port.map fun port => port.text⟩ := by
  cases given : uri.userinfo with
  | none =>
      have noUser : uri.userText = [] := by rw [SipUri.userText, given]; rfl
      have all := routeUserClass_of_name uri labels
      rw [noUser, List.nil_append, readTarget, List.takeWhile_eq_self_iff.mpr all,
        List.dropWhile_eq_nil_iff.mpr all, ← readHost_name]
      cases labels.text ++ uri.portText <;> rfl
  | some userinfo =>
      have user : uri.userText = userinfo.text ++ ['@'] := by rw [SipUri.userText, given]; rfl
      have accepted := routeUserClass_of_userinfo userinfo (by
        intro member
        exact plain.2 (by rw [user]; exact List.mem_append_left _ member))
      have present : ∃ first more, userinfo.text = first :: more := by
        obtain ⟨first, more, parts⟩ := List.exists_cons_of_ne_nil userinfo.user.nonempty
        exact ⟨first, _, by rw [UserInfo.text, parts]; rfl⟩
      obtain ⟨first, more, parts⟩ := present
      have refused : routeUserClass '@' = false := by decide
      rw [user, List.append_assoc, List.singleton_append, readTarget,
        takeWhile_append_stop refused, dropWhile_append_stop refused,
        List.takeWhile_eq_self_iff.mpr accepted, List.dropWhile_eq_nil_iff.mpr accepted,
        List.nil_append, parts]
      change (readHost (labels.text ++ uri.portText)).or _ = _
      rw [readHost_name]
      rfl

/-! ### The top entry -/

def SipUri.stub (uri : SipUri) : List Char :=
  uri.userText.takeWhile (noneOf [',', ';'])

theorem stub_of_not_plain {uri : SipUri} (notPlain : ¬uri.PlainUser) :
    ∃ stop more, uri.userText = uri.stub ++ stop :: more ∧ (stop = ',' ∨ stop = ';') := by
  have parts := List.takeWhile_append_dropWhile (p := noneOf [',', ';']) (l := uri.userText)
  cases behind : uri.userText.dropWhile (noneOf [',', ';']) with
  | nil =>
      have all := List.dropWhile_eq_nil_iff.mp behind
      refine absurd ⟨?_, ?_⟩ notPlain
      · intro comma
        exact absurd (all ',' comma) (by decide)
      · intro semicolon
        exact absurd (all ';' semicolon) (by decide)
  | cons stop more =>
      refine ⟨stop, more, ?_, ?_⟩
      · rw [SipUri.stub, ← behind, parts]
      · have refused := List.head?_dropWhile_not (noneOf [',', ';']) uri.userText
        rw [behind, List.head?_cons] at refused
        simpa [noneOf, ← or_iff_not_imp_left] using refused

theorem not_mem_of_uriChar {text : List Char}
    (accepted : ∀ character ∈ text, uriChar character = true) : '<' ∉ text :=
  not_mem_of_class accepted (by decide)

def RouteEntry.opening (entry : RouteEntry) : List Char :=
  entry.inner.text ++ (entry.uri.scheme.text ++ [':'])

theorem RouteEntry.not_mem_opening (entry : RouteEntry) (special : Char)
    (notBlank : blankChar special = false) (other : special.toLower ∉ ['s', 'i', 'p'])
    (notColon : special ≠ ':') : special ∉ entry.opening := by
  have inner := not_mem_of_class entry.inner.accepted notBlank
  have scheme := entry.uri.scheme.not_mem other
  simp [opening, inner, scheme, notColon]

theorem readEntry_opening (entry : RouteEntry) (rest : List Char) :
    readEntry (entry.opening ++ rest) = readTarget rest := by
  rw [RouteEntry.opening, List.append_assoc, List.append_assoc, List.singleton_append,
    readEntry_uri]

theorem uriText_eq (entry : RouteEntry) :
    entry.inner.text ++ entry.uri.text =
      entry.opening ++ (entry.uri.userText ++
        (entry.uri.host.text ++ (entry.uri.portText ++ entry.uri.paramText))) := by
  simp [SipUri.text, RouteEntry.opening, SipUri.headerText, entry.noHeaders]

theorem paramText_stop (uri : SipUri) (behind : List Char) :
    ∃ stop rest, uri.paramText ++ '>' :: behind = stop :: rest ∧ (stop = ';' ∨ stop = '>') := by
  rw [SipUri.paramText]
  cases uri.params with
  | nil => exact ⟨'>', behind, rfl, Or.inr rfl⟩
  | cons param more => exact ⟨';', _, rfl, Or.inl rfl⟩

theorem ends_of_stop {stop : Char} (isStop : stop = ';' ∨ stop = '>') : Ends stop := by
  rcases isStop with rfl | rfl <;> constructor <;> decide

/-- A named host behind a plain user part is read as it is meant. -/
theorem spelledIn_plain (entry : RouteEntry) (labels : Word hostChar)
    (named : entry.uri.host = .name labels) (plain : entry.uri.PlainUser) (behind : List Char) :
    spelledIn ('<' :: (entry.inner.text ++ (entry.uri.text ++ '>' :: behind))) =
      some ⟨labels.text, entry.uri.port.map fun port => port.text⟩ := by
  obtain ⟨stop, rest, parts, isStop⟩ := paramText_stop entry.uri behind
  have text : entry.inner.text ++ (entry.uri.text ++ '>' :: behind) =
      (entry.opening ++ (entry.uri.userText ++ (labels.text ++ entry.uri.portText))) ++
        stop :: rest := by
    rw [← List.append_assoc, uriText_eq, named, ← parts]
    simp [Host.text]
  have unopened : '<' ∉ entry.opening ++
      (entry.uri.userText ++ (labels.text ++ entry.uri.portText)) := by
    have inOpening := entry.not_mem_opening '<' rfl (by decide) (by decide)
    have inUser := not_mem_of_uriChar entry.uri.userText_accepted
    have inTarget : '<' ∉ labels.text ++ entry.uri.portText :=
      not_mem_of_class (targetChar_of_name entry.uri labels) rfl
    simp only [List.mem_append] at inTarget ⊢
    tauto
  have whole : ',' ∉ entry.opening ++
      (entry.uri.userText ++ (labels.text ++ entry.uri.portText)) := by
    have inOpening := entry.not_mem_opening ',' rfl (by decide) (by decide)
    have inUser := plain.1
    have inTarget : ',' ∉ labels.text ++ entry.uri.portText :=
      not_mem_of_class (targetChar_of_name entry.uri labels) rfl
    simp only [List.mem_append] at inTarget ⊢
    tauto
  have other : stop ≠ '<' ∧ stop ≠ ',' := by
    rcases isStop with rfl | rfl <;> decide
  rw [text, spelledIn_open_append (ends_of_stop isStop) other.1 other.2 unopened whole,
    readEntry_opening, readTarget_plain entry.uri labels plain]
  rfl

/-- A user part that is cut is read as a target, and what is left of the entry is skipped. -/
theorem spelledIn_cut (entry : RouteEntry) (notPlain : ¬entry.uri.PlainUser)
    (behind : List Char) :
    spelledIn ('<' :: (entry.inner.text ++ (entry.uri.text ++ '>' :: behind))) =
      (spelledIn ('<' :: (entry.opening ++ entry.uri.stub))).or (spelledIn behind) := by
  obtain ⟨stop, more, parts, isStop⟩ := stub_of_not_plain notPlain
  have text : entry.inner.text ++ (entry.uri.text ++ '>' :: behind) =
      (entry.opening ++ entry.uri.stub) ++ stop ::
        ((more ++ (entry.uri.host.text ++
            (entry.uri.portText ++ (entry.uri.paramText ++ ['>'])))) ++
          behind) := by
    rw [← List.append_assoc, uriText_eq, parts]
    simp
  have inUser : ∀ character ∈ entry.uri.stub ++ stop :: more, uriChar character = true :=
    parts ▸ entry.uri.userText_accepted
  have stubAccepted : ∀ character ∈ entry.uri.stub, uriChar character = true :=
    fun character member => inUser character (List.mem_append_left _ member)
  have unopened : '<' ∉ entry.opening ++ entry.uri.stub := by
    have inOpening := entry.not_mem_opening '<' rfl (by decide) (by decide)
    have inStub := not_mem_of_uriChar stubAccepted
    rw [List.mem_append]
    tauto
  have whole : ',' ∉ entry.opening ++ entry.uri.stub := by
    have inOpening := entry.not_mem_opening ',' rfl (by decide) (by decide)
    have inStub : ',' ∉ entry.uri.stub := by
      intro member
      exact absurd (List.mem_takeWhile_imp member) (by decide)
    rw [List.mem_append]
    tauto
  have restUnopened : '<' ∉
      more ++ (entry.uri.host.text ++ (entry.uri.portText ++ (entry.uri.paramText ++ ['>']))) := by
    have inMore : '<' ∉ more := not_mem_of_uriChar
      (fun character member => inUser character (by simp [member]))
    have inHost : '<' ∉ entry.uri.host.text := not_mem_of_class entry.uri.host.accepted rfl
    have inPort : '<' ∉ entry.uri.portText := not_mem_of_class entry.uri.portText_accepted rfl
    have inParams := not_mem_of_uriChar entry.uri.paramText_accepted
    simp [inMore, inHost, inPort, inParams]
  rw [text]
  rcases isStop with rfl | rfl
  · rw [← List.cons_append, spelledIn_comma, spelledIn_append_of_not_mem restUnopened]
  · have ends : Ends ';' := ends_of_stop (Or.inl rfl)
    have unpadded : ∀ last, (entry.opening ++ entry.uri.stub).getLast? = some last →
        isSpace last = false := by
      intro last isLast
      rw [RouteEntry.opening, List.append_assoc, List.append_assoc, List.singleton_append,
        ← List.append_assoc, List.getLast?_append] at isLast
      have member : last ∈ ':' :: entry.uri.stub := by
        cases found : (':' :: entry.uri.stub).getLast? with
        | none => simp at found
        | some last' =>
            rw [found, Option.some_or, Option.some.injEq] at isLast
            exact isLast ▸ List.mem_of_getLast? found
      rcases List.mem_cons.mp member with rfl | inStub
      · rfl
      · exact isSpace_of_uriChar (stubAccepted last inStub)
    rw [spelledIn_open_append ends (by decide) (by decide) unopened whole,
      spelledIn_append_of_not_mem restUnopened, spelledIn_open unopened whole unpadded]

/-! ### Values -/

/-- What is read instead of the URI of the top entry: what its display name spells, or
else, if the user part is cut, what the first piece of it spells or what is spelled behind
the entry. -/
def RouteValue.misread (value : RouteValue) (later : List RouteValue) : Option RouteReading :=
  (spelledIn (value.first.before ++ ['<'])).or
    (if value.first.uri.PlainUser then none
    else
      (spelledIn ('<' :: (value.first.opening ++ value.first.uri.stub))).or
        ((spelledIn value.behind).or (later.findSome? fun other => spelledIn other.text)))

/-- The host, with or without the brackets of a reference, and the port of the entry. -/
def RouteEntry.Names (entry : RouteEntry) (defaultPort : Nat) (target : String × Nat) : Prop :=
  (target.1 = String.ofList entry.uri.host.text ∨
    target.1 = String.ofList entry.uri.host.bare) ∧
  target.2 = entry.uri.portNumber.getD defaultPort

theorem parseTopRouteTarget_of_values {request : RouteRequest} {value : RouteValue}
    {later : List RouteValue}
    (carried : routeHeaderValues request =
      (value :: later).map fun each => String.ofList each.text) (defaultPort : Nat) :
    parseTopRouteTarget (some request) defaultPort =
      ((spelledIn value.text).or (later.findSome? fun other => spelledIn other.text)).map
        (RouteReading.target defaultPort) := by
  have laterText : (later.map fun each => String.ofList each.text).findSome?
      (fun raw => spelledIn raw.toList) = later.findSome? fun other => spelledIn other.text := by
    rw [List.findSome?_map]
    exact congrArg (List.findSome? · later) (funext fun other => by simp)
  rw [parseTopRouteTarget, carried, List.map_cons, List.findSome?_cons, laterText,
    String.toList_ofList]
  cases spelledIn value.text <;> rfl

/-- What is misread is returned in the place of the target. -/
theorem spelledIn_misread {value : RouteValue} {later : List RouteValue} {reading : RouteReading}
    (misread : value.misread later = some reading) :
    (spelledIn value.text).or (later.findSome? fun other => spelledIn other.text) =
      some reading := by
  rw [RouteValue.misread] at misread
  rw [value.text_eq, spelledIn_append_open]
  by_cases plain : value.first.uri.PlainUser
  · rw [if_pos plain, Option.or_none] at misread
    rw [misread]
    rfl
  · rw [if_neg plain] at misread
    rw [spelledIn_cut _ plain, Option.or_assoc, Option.or_assoc, misread]

/-- Nothing is read if nothing is misread of an entry whose user part is cut. -/
theorem spelledIn_unread {value : RouteValue} {later : List RouteValue}
    (nothing : value.misread later = none) (notPlain : ¬value.first.uri.PlainUser) :
    (spelledIn value.text).or (later.findSome? fun other => spelledIn other.text) = none := by
  rw [RouteValue.misread, if_neg notPlain] at nothing
  rw [value.text_eq, spelledIn_append_open, spelledIn_cut _ notPlain, Option.or_assoc,
    Option.or_assoc, nothing]

/-- The host of a reference is never returned: a host that is read has no colon. -/
theorem not_names_of_reading {entry : RouteEntry} (reference : entry.uri.host.isName = false)
    {raw : List Char} {reading : RouteReading} (read : spelledIn raw = some reading)
    (defaultPort : Nat) : ¬entry.Names defaultPort (reading.target defaultPort) := by
  have noColon := host_of_spelledIn read
  cases host : entry.uri.host with
  | name labels =>
      rw [host] at reference
      contradiction
  | ipv6 address colon =>
      intro names
      rcases names.1 with inBrackets | bare
      · have same : reading.host = entry.uri.host.text := String.ofList_injective inBrackets
        rw [same, host, Host.text] at noColon
        exact noColon (by simp [colon])
      · have same : reading.host = entry.uri.host.bare := String.ofList_injective bare
        rw [same, host] at noColon
        exact noColon colon

/-- The host and the port of the top entry are returned exactly if its host is a name and
either nothing is misread and its user part has no comma and no semicolon, or what is
misread happens to be the same. -/
theorem parseTopRouteTarget_names_iff (value : RouteValue) (later : List RouteValue)
    (request : RouteRequest) (defaultPort : Nat)
    (carried : routeHeaderValues request =
      (value :: later).map fun each => String.ofList each.text) :
    (∃ target, parseTopRouteTarget (some request) defaultPort = some target ∧
      value.first.Names defaultPort target) ↔
    value.first.uri.host.isName = true ∧
      ((value.misread later = none ∧ value.first.uri.PlainUser) ∨
        ∃ reading, value.misread later = some reading ∧
          value.first.Names defaultPort (reading.target defaultPort)) := by
  rw [parseTopRouteTarget_of_values carried]
  constructor
  · rintro ⟨target, returned, names⟩
    obtain ⟨reading, read, rfl⟩ := Option.map_eq_some_iff.mp returned
    constructor
    · have fromText : ∃ raw, spelledIn raw = some reading := by
        rcases Option.or_eq_some_iff.mp read with inTop | ⟨_, inLater⟩
        · exact ⟨_, inTop⟩
        · obtain ⟨other, _, found⟩ := List.exists_of_findSome?_eq_some inLater
          exact ⟨_, found⟩
      obtain ⟨raw, found⟩ := fromText
      cases host : value.first.uri.host.isName with
      | true => rfl
      | false => exact absurd names (not_names_of_reading host found defaultPort)
    · cases misread : value.misread later with
      | some other =>
          rw [spelledIn_misread misread, Option.some.injEq] at read
          exact Or.inr ⟨reading, by rw [read], names⟩
      | none =>
          refine Or.inl ⟨rfl, ?_⟩
          by_contra notPlain
          rw [spelledIn_unread misread notPlain] at read
          contradiction
  · rintro ⟨named, ⟨nothing, plain⟩ | ⟨reading, misread, names⟩⟩
    · cases host : value.first.uri.host with
      | ipv6 address colon =>
          rw [host] at named
          contradiction
      | name labels =>
          have hidden : spelledIn (value.first.before ++ ['<']) = none := by
            rwa [RouteValue.misread, if_pos plain, Option.or_none] at nothing
          have read : spelledIn value.text =
              some ⟨labels.text, value.first.uri.port.map fun port => port.text⟩ := by
            rw [value.text_eq, spelledIn_append_open, hidden,
              spelledIn_plain value.first labels host plain]
            rfl
          refine ⟨_, by rw [read]; rfl, ?_⟩
          rw [target_port]
          exact ⟨Or.inl (by rw [host]; rfl), rfl⟩
    · exact ⟨_, by rw [spelledIn_misread misread]; rfl, names⟩

def RouteValue.only (host : Host) : RouteValue where
  first :=
    { leading := ⟨[], by simp⟩
      display := none
      gap := ⟨[], by simp⟩
      inner := ⟨[], by simp⟩
      uri :=
        { scheme := .sip
          userinfo := none
          host := host
          port := none
          params := []
          headers := [] }
      noHeaders := rfl
      params := []
      trailing := ⟨[], by simp⟩ }
  more := []

def oneLabel : Host :=
  .name { text := ['h'], accepted := by decide, nonempty := List.cons_ne_nil _ _ }

def loopback : Host :=
  .ipv6 { text := [':', ':', '1'], accepted := by decide, nonempty := List.cons_ne_nil _ _ }
    (by decide)

theorem parseTopRouteTarget_names_oneLabel :
    ∃ target, parseTopRouteTarget
        (some (.carrying [String.ofList (RouteValue.only oneLabel).text])) 5060 = some target ∧
      (RouteValue.only oneLabel).first.Names 5060 target :=
  (parseTopRouteTarget_names_iff (.only oneLabel) [] _ 5060 (routeHeaderValues_carrying _)).mpr
    ⟨rfl, Or.inl ⟨by decide +kernel, by decide +kernel⟩⟩

/-- Of the reference `[::1]` only the bracket is returned. -/
theorem not_parseTopRouteTarget_names :
    parseTopRouteTarget
        (some (.carrying [String.ofList (RouteValue.only loopback).text])) 5060 =
      some ("[", 5060) ∧
    ¬∃ target, parseTopRouteTarget
        (some (.carrying [String.ofList (RouteValue.only loopback).text])) 5060 = some target ∧
      (RouteValue.only loopback).first.Names 5060 target := by
  have returned : parseTopRouteTarget
      (some (.carrying [String.ofList (RouteValue.only loopback).text])) 5060 =
        some ("[", 5060) := by decide +kernel
  refine ⟨returned, ?_⟩
  rintro ⟨target, same, names⟩
  rw [returned, Option.some.injEq] at same
  subst same
  rcases names.1 with inBrackets | bare
  · exact absurd inBrackets (by decide +kernel)
  · exact absurd bare (by decide +kernel)

end AsPlatform
