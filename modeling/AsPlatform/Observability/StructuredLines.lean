/-
What `StructuredFormatter` makes of a record that `log_event` has handed to the logger.

The attributes of a record are the entries of its dictionary, where the extra fields of the
event are stored next to those that the logging module sets itself.  An extra field cannot
take the place of one of these, but it can hide a method of the record.
-/

import AsPlatform.Library.JsonText
import AsPlatform.Observability.Logging

namespace AsPlatform

namespace StructuredFormatter

/-! ### Names -/

def logFields : List String :=
  ["timestamp", "level", "module", "call_id", "direction", "peer", "event"]

def logEventParameters : List String :=
  ["logger", "level", "event", "call_id", "direction", "peer"]

/-- What `LogRecord.__init__` sets. -/
def ownAttributes : List String :=
  ["name", "msg", "args", "levelname", "levelno", "pathname", "filename", "module", "exc_info",
    "exc_text", "stack_info", "lineno", "funcName", "created", "msecs", "relativeCreated",
    "thread", "threadName", "processName", "process"]

/-- `logging.LogRecord.__dict__`. -/
def classAttributes : List String :=
  ["__module__", "__doc__", "__init__", "__repr__", "getMessage", "__dict__", "__weakref__"]

/-- The names that the formatter passes over.  No record of the version of Python that the
project asks for has a `taskName`. -/
def passedOver : List String :=
  ["args", "msg", "levelno", "levelname", "pathname", "filename", "module", "name", "message",
    "asctime", "exc_info", "exc_text", "stack_info", "lineno", "funcName", "created", "msecs",
    "relativeCreated", "thread", "threadName", "processName", "process", "taskName"]

def isPrivate (key : String) : Bool :=
  key.toList.head? == some '_'

/-! ### The event and its record -/

section Model

variable {Value Moment ExcInfo : Type}

/-- What the code uses of Python: `call` is what comes of calling a value. -/
structure PythonLib (Value Moment ExcInfo : Type) where
  str : String → Value
  isNone : Value → Bool
  call : Value → Except PyError Value
  lower : String → String
  formatTime : Moment → String
  formatException : ExcInfo → String
  dumps : OrderedDict String Value → Except PyError String
  loads : String → Option (OrderedDict String Value)

structure LogCall (Value : Type) where
  event : String
  callId : Option String
  direction : String
  peer : Option String
  extra : OrderedDict String Value

/-- What the logging module knows of a record by itself. -/
structure Origin (Value Moment : Type) where
  levelname : String
  moduleName : String
  created : Moment
  own : OrderedDict String Value
  ownKeys : own.keys = ownAttributes

structure Record (Value Moment ExcInfo : Type) where
  levelname : String
  moduleName : String
  created : Moment
  msg : String
  excInfo : Option ExcInfo
  dict : OrderedDict String Value

/-- `text or DEFAULT_UNKNOWN`. -/
def orUnknown : Option String → String
  | some text => if text = "" then defaultUnknown else text
  | none => defaultUnknown

def extraOf (lib : PythonLib Value Moment ExcInfo) (call : LogCall Value) :
    OrderedDict String Value :=
  (OrderedDict.ofList
    [("call_id", lib.str (orUnknown call.callId)), ("direction", lib.str call.direction),
      ("peer", lib.str (orUnknown call.peer))]).update call.extra

def makeRecord (origin : Origin Value Moment) (msg : String) (extra : OrderedDict String Value) :
    Except PyError (Record Value Moment ExcInfo) :=
  if ∀ key, key ∈ extra.keys → key ∉ logRecordAttributes then
    .ok
      { levelname := origin.levelname
        moduleName := origin.moduleName
        created := origin.created
        msg := msg
        excInfo := none
        dict := origin.own.update extra }
  else .error (.keyError "Attempt to overwrite an attribute in LogRecord")

def logEvent (lib : PythonLib Value Moment ExcInfo) (enabled : Bool)
    (origin : Origin Value Moment) (call : LogCall Value) :
    Except PyError (Option (Record Value Moment ExcInfo)) :=
  if ∀ key, key ∈ call.extra.keys → key ∉ logEventParameters then
    if enabled = true then (makeRecord origin call.event (extraOf lib call)).map some
    else .ok none
  else .error (.typeError "log_event() got multiple values for an argument")

/-! ### Formatting -/

/-- `record.getMessage()`: an attribute of the record goes before the method. -/
def getMessage (lib : PythonLib Value Moment ExcInfo) (record : Record Value Moment ExcInfo) :
    Except PyError Value :=
  match record.dict.get? "getMessage" with
  | some value => lib.call value
  | none => .ok (lib.str record.msg)

def mandatory (lib : PythonLib Value Moment ExcInfo) (record : Record Value Moment ExcInfo)
    (message : Value) : OrderedDict String Value :=
  OrderedDict.ofList
    [("timestamp", lib.str (lib.formatTime record.created)),
      ("level", lib.str (lib.lower record.levelname)),
      ("module", lib.str record.moduleName),
      ("call_id", (record.dict.get? "call_id").getD (lib.str defaultUnknown)),
      ("direction", (record.dict.get? "direction").getD (lib.str defaultDirection)),
      ("peer", (record.dict.get? "peer").getD (lib.str defaultUnknown)),
      ("event", message)]

def addField (lib : PythonLib Value Moment ExcInfo) (payload : OrderedDict String Value)
    (entry : String × Value) : OrderedDict String Value :=
  if entry.1 ∈ payload.keys ∨ isPrivate entry.1 = true then payload
  else if entry.1 ∈ classAttributes ∨ entry.1 ∈ passedOver then payload
  else if lib.isNone entry.2 = true then payload
  else payload.insert entry.1 entry.2

def payload (lib : PythonLib Value Moment ExcInfo) (record : Record Value Moment ExcInfo)
    (message : Value) : OrderedDict String Value :=
  let fields := record.dict.entries.foldl (addField lib) (mandatory lib record message)
  match record.excInfo with
  | some excInfo => fields.insert "exception" (lib.str (lib.formatException excInfo))
  | none => fields

def format (lib : PythonLib Value Moment ExcInfo) (record : Record Value Moment ExcInfo) :
    Except PyError String := do
  let message ← getMessage lib record
  lib.dumps (payload lib record message)

end Model

/-! ### The property -/

section Property

variable {Value Moment ExcInfo : Type}

/-- What is relied on of Python: a text is serialisable, a serialisable value is not callable,
and `dumps` writes serialisable values without control characters and so that `loads` reads
them back. -/
structure PythonLib.Lawful (lib : PythonLib Value Moment ExcInfo) (Serialisable : Value → Prop) :
    Prop where
  str : ∀ text, Serialisable (lib.str text)
  call : ∀ value, Serialisable value → ∃ error, lib.call value = .error error
  dumps : ∀ payload, (∀ key value, payload.get? key = some value → Serialisable value) →
    ∃ text, lib.dumps payload = .ok text ∧
      (∀ character, character ∈ text.toList → 0x20 ≤ character.toNat) ∧
      lib.loads text = some payload

/-- The attributes of a `LogRecord`, methods included. -/
def recordAttributes : List String :=
  logRecordAttributes ++ classAttributes

structure Shown (lib : PythonLib Value Moment ExcInfo) (key : String) (value : Value) : Prop where
  given : lib.isNone value = false
  free : key ∉ logFields
  unreserved : key ∉ recordAttributes
  isPublic : isPrivate key = false

structure HasFields (lib : PythonLib Value Moment ExcInfo) (origin : Origin Value Moment)
    (call : LogCall Value) (object : OrderedDict String Value) : Prop where
  timestamp : object.get? "timestamp" = some (lib.str (lib.formatTime origin.created))
  level : object.get? "level" = some (lib.str (lib.lower origin.levelname))
  moduleName : object.get? "module" = some (lib.str origin.moduleName)
  callId : object.get? "call_id" = some (lib.str (orUnknown call.callId))
  direction : object.get? "direction" = some (lib.str call.direction)
  peer : object.get? "peer" = some (lib.str (orUnknown call.peer))
  event : object.get? "event" = some (lib.str call.event)

structure Tells (lib : PythonLib Value Moment ExcInfo) (origin : Origin Value Moment)
    (call : LogCall Value) (excInfo : Option ExcInfo) (object : OrderedDict String Value) : Prop
    extends HasFields lib origin call object where
  extra : ∀ key value, call.extra.get? key = some value → Shown lib key value →
    object.get? key = some value
  nothingElse : ∀ key value, object.get? key = some value →
    key ∈ logFields ∨ call.extra.get? key = some value ∧ Shown lib key value ∨
      key = "exception" ∧ excInfo.isSome = true

structure IsLine (lib : PythonLib Value Moment ExcInfo) (origin : Origin Value Moment)
    (call : LogCall Value) (excInfo : Option ExcInfo) (text : String) : Prop where
  unbroken : ∀ character, character ∈ text.toList → 0x20 ≤ character.toNat
  decoded : ∃ object, lib.loads text = some object ∧ Tells lib origin call excInfo object

/-! ### The record -/

variable {lib : PythonLib Value Moment ExcInfo} {enabled : Bool} {origin : Origin Value Moment}
  {call : LogCall Value} {record : Record Value Moment ExcInfo}

def recordOf (lib : PythonLib Value Moment ExcInfo) (origin : Origin Value Moment)
    (call : LogCall Value) : Record Value Moment ExcInfo where
  levelname := origin.levelname
  moduleName := origin.moduleName
  created := origin.created
  msg := call.event
  excInfo := none
  dict := origin.own.update (extraOf lib call)

theorem logEvent_record (logged : logEvent lib enabled origin call = .ok (some record)) :
    record = recordOf lib origin call ∧
      ∀ key, key ∈ call.extra.keys → key ∉ logEventParameters := by
  unfold logEvent at logged
  split at logged
  · rename_i bound
    split at logged
    · unfold makeRecord at logged
      split at logged
      · cases logged
        exact ⟨rfl, bound⟩
      · cases logged
    · cases logged
  · cases logged

theorem extraOf_get? (lib : PythonLib Value Moment ExcInfo) (call : LogCall Value)
    (key : String) : (extraOf lib call).get? key = (call.extra.get? key).or
      (if "peer" = key then some (lib.str (orUnknown call.peer))
        else if "direction" = key then some (lib.str call.direction)
        else if "call_id" = key then some (lib.str (orUnknown call.callId))
        else none) := by
  rw [extraOf, OrderedDict.get?_update]
  congr 1
  simp only [OrderedDict.ofList, List.foldl_cons, List.foldl_nil, OrderedDict.get?_insert]
  rfl

/-- Where `logging` sets nothing itself the record has what it was given. -/
theorem recordOf_get? {key : String} (free : key ∉ ownAttributes) :
    (recordOf lib origin call).dict.get? key = (extraOf lib call).get? key := by
  have absent : origin.own.get? key = none := by
    rw [OrderedDict.get?_eq_none_iff, origin.ownKeys]
    exact free
  rw [recordOf, OrderedDict.get?_update, absent, Option.or_none]

theorem extra_get?_parameter (bound : ∀ key, key ∈ call.extra.keys → key ∉ logEventParameters)
    {key : String} (parameter : key ∈ logEventParameters) : call.extra.get? key = none := by
  rw [OrderedDict.get?_eq_none_iff]
  exact fun member => bound key member parameter

/-! ### The payload -/

def keeps (lib : PythonLib Value Moment ExcInfo) (key : String) (value : Value) : Bool :=
  !isPrivate key && !decide (key ∈ recordAttributes ∨ key = "taskName") && !lib.isNone value

theorem passedOver_iff (key : String) :
    key ∈ classAttributes ∨ key ∈ passedOver ↔ key ∈ recordAttributes ∨ key = "taskName" := by
  have inside : ∀ name, name ∈ passedOver → name ∈ recordAttributes ∨ name = "taskName" := by decide
  have outside : ∀ name, name ∈ logRecordAttributes → name ∈ passedOver := by decide
  constructor
  · rintro (ofClass | passed)
    · exact Or.inl (List.mem_append_right _ ofClass)
    · exact inside key passed
  · rintro (reserved | rfl)
    · rcases List.mem_append.mp reserved with ofRecord | ofClass
      · exact Or.inr (outside key ofRecord)
      · exact Or.inl ofClass
    · decide

theorem addField_eq (lib : PythonLib Value Moment ExcInfo)
    (payload : OrderedDict String Value) (entry : String × Value) :
    addField lib payload entry = payload.addNew (keeps lib) entry := by
  unfold addField OrderedDict.addNew
  by_cases known : entry.1 ∈ payload.keys
  · rw [if_pos known, if_pos (Or.inl known)]
  · rw [if_neg known]
    by_cases hidden : isPrivate entry.1 = true
    · simp [hidden, keeps]
    · by_cases reserved : entry.1 ∈ recordAttributes ∨ entry.1 = "taskName"
      · simp [known, hidden, keeps, reserved, passedOver_iff]
      · by_cases none : lib.isNone entry.2 = true <;>
          simp [known, hidden, keeps, reserved, passedOver_iff, none]

theorem payload_get? (lib : PythonLib Value Moment ExcInfo)
    (record : Record Value Moment ExcInfo) (message : Value) (key : String)
    (quiet : record.excInfo = none) :
    (payload lib record message).get? key = ((mandatory lib record message).get? key).or
      ((record.dict.get? key).filter (keeps lib key)) := by
  have loop : addField lib = OrderedDict.addNew (keeps lib) := by
    funext payload entry
    exact addField_eq lib payload entry
  simp only [payload, quiet, loop]
  exact OrderedDict.get?_foldl_addNew (keeps lib) record.dict.nodup _ key

theorem mandatory_get?_none {message : Value} {key : String} (free : key ∉ logFields) :
    (mandatory lib record message).get? key = none := by
  rw [OrderedDict.get?_eq_none_iff]
  exact free

/-- The fields of the record that have a parameter of their own. -/
theorem recordOf_parameters
    (bound : ∀ key, key ∈ call.extra.keys → key ∉ logEventParameters) :
    (recordOf lib origin call).dict.get? "call_id" = some (lib.str (orUnknown call.callId)) ∧
      (recordOf lib origin call).dict.get? "direction" = some (lib.str call.direction) ∧
      (recordOf lib origin call).dict.get? "peer" = some (lib.str (orUnknown call.peer)) := by
  refine ⟨?_, ?_, ?_⟩ <;>
    rw [recordOf_get? (by decide), extraOf_get?, extra_get?_parameter bound (by decide)] <;> rfl

theorem payload_get?_free {key : String} {value : Value} (free : key ∉ logFields) :
    (payload lib (recordOf lib origin call) (lib.str call.event)).get? key = some value ↔
      (call.extra.get? key = some value ∧ Shown lib key value) ∧ key ≠ "taskName" := by
  have parameters : ∀ name, name ∈ ["peer", "direction", "call_id"] → name ∈ logFields := by decide
  have apart : ∀ name, name ∈ ["peer", "direction", "call_id"] → name ≠ key :=
    fun name member same => free (same ▸ parameters name member)
  have sets : ∀ name, name ∈ ownAttributes → name ∈ recordAttributes := by decide
  have found : key ∉ recordAttributes →
      (recordOf lib origin call).dict.get? key = call.extra.get? key := by
    intro unreserved
    rw [recordOf_get? fun own => unreserved (sets key own), extraOf_get?,
      if_neg (apart "peer" (by decide)), if_neg (apart "direction" (by decide)),
      if_neg (apart "call_id" (by decide)), Option.or_none]
  rw [payload_get? lib _ _ _ rfl, mandatory_get?_none free, Option.none_or,
    Option.filter_eq_some_iff]
  constructor
  · rintro ⟨stored, kept⟩
    simp only [keeps, Bool.and_eq_true, Bool.not_eq_true', decide_eq_false_iff_not, not_or] at kept
    obtain ⟨⟨isPublic, unreserved, noTask⟩, given⟩ := kept
    rw [found unreserved] at stored
    exact ⟨⟨stored, given, free, unreserved, isPublic⟩, noTask⟩
  · rintro ⟨⟨stored, shown⟩, noTask⟩
    rw [found shown.unreserved]
    refine ⟨stored, ?_⟩
    simp [keeps, shown.isPublic, shown.unreserved, shown.given, noTask]

theorem payload_hasFields
    (bound : ∀ key, key ∈ call.extra.keys → key ∉ logEventParameters) :
    HasFields lib origin call
      (payload lib (recordOf lib origin call) (lib.str call.event)) := by
  obtain ⟨callId, direction, peer⟩ := recordOf_parameters bound
  have field : ∀ {key value},
      (mandatory lib (recordOf lib origin call) (lib.str call.event)).get? key = some value →
        (payload lib (recordOf lib origin call) (lib.str call.event)).get? key = some value := by
    intro key value stored
    rw [payload_get? lib _ _ _ rfl, stored]
    rfl
  refine ⟨field rfl, field rfl, field rfl, field ?_, field ?_, field ?_, field rfl⟩
  · exact congrArg (fun found => some (Option.getD found _)) callId
  · exact congrArg (fun found => some (Option.getD found _)) direction
  · exact congrArg (fun found => some (Option.getD found _)) peer

/-- The formatter passes `taskName` over, whatever stands under it. -/
theorem payload_tells_iff (bound : ∀ key, key ∈ call.extra.keys → key ∉ logEventParameters) :
    Tells lib origin call none (payload lib (recordOf lib origin call) (lib.str call.event)) ↔
      ∀ value, call.extra.get? "taskName" = some value → lib.isNone value = true := by
  constructor
  · intro tells value given
    by_contra someValue
    have shown : Shown lib "taskName" value :=
      ⟨Bool.eq_false_iff.mpr someValue, by decide, by decide, by decide⟩
    have kept := tells.extra "taskName" value given shown
    exact ((payload_get?_free shown.free).mp kept).2 rfl
  · intro noTask
    refine ⟨payload_hasFields bound, ?_, ?_⟩
    · intro key value given shown
      refine (payload_get?_free shown.free).mpr ⟨⟨given, shown⟩, ?_⟩
      rintro rfl
      exact Bool.false_ne_true (shown.given.symm.trans (noTask value given))
    · intro key value stored
      by_cases isField : key ∈ logFields
      · exact Or.inl isField
      · exact Or.inr (Or.inl ((payload_get?_free isField).mp stored).1)

theorem payload_serialisable {Serialisable : Value → Prop} (lawful : lib.Lawful Serialisable)
    (bound : ∀ key, key ∈ call.extra.keys → key ∉ logEventParameters)
    (serialisable : ∀ key value, call.extra.get? key = some value → Serialisable value)
    (key : String) (value : Value)
    (stored : (payload lib (recordOf lib origin call) (lib.str call.event)).get? key =
      some value) : Serialisable value := by
  by_cases isField : key ∈ logFields
  · have fields : HasFields lib origin call _ := payload_hasFields bound
    have isText : ∃ text, value = lib.str text := by
      simp only [logFields, List.mem_cons, List.not_mem_nil, or_false] at isField
      rcases isField with rfl | rfl | rfl | rfl | rfl | rfl | rfl
      · exact ⟨_, Option.some.inj (stored.symm.trans fields.timestamp)⟩
      · exact ⟨_, Option.some.inj (stored.symm.trans fields.level)⟩
      · exact ⟨_, Option.some.inj (stored.symm.trans fields.moduleName)⟩
      · exact ⟨_, Option.some.inj (stored.symm.trans fields.callId)⟩
      · exact ⟨_, Option.some.inj (stored.symm.trans fields.direction)⟩
      · exact ⟨_, Option.some.inj (stored.symm.trans fields.peer)⟩
      · exact ⟨_, Option.some.inj (stored.symm.trans fields.event)⟩
    obtain ⟨text, rfl⟩ := isText
    exact lawful.str text
  · exact serialisable key value ((payload_get?_free isField).mp stored).1.1

/-- An attribute `getMessage` of the record hides the method. -/
theorem recordOf_getMessage (lib : PythonLib Value Moment ExcInfo)
    (origin : Origin Value Moment) (call : LogCall Value) :
    getMessage lib (recordOf lib origin call) =
      match call.extra.get? "getMessage" with
      | some value => lib.call value
      | none => .ok (lib.str call.event) := by
  have shadow : (recordOf lib origin call).dict.get? "getMessage" =
      call.extra.get? "getMessage" := by
    rw [recordOf_get? (by decide), extraOf_get?]
    exact Option.or_none
  rw [getMessage, shadow]
  rfl

/-- For every event that `log_event` hands over with serialisable extra fields: it is rendered
as one line that tells what is known of it exactly if no extra field is called `getMessage` and
none but `None` is called `taskName`. -/
theorem format_isLine_iff {Serialisable : Value → Prop} (lawful : lib.Lawful Serialisable)
    (serialisable : ∀ key value, call.extra.get? key = some value → Serialisable value)
    (logged : logEvent lib enabled origin call = .ok (some record)) :
    (∃ text, format lib record = .ok text ∧ IsLine lib origin call record.excInfo text) ↔
      "getMessage" ∉ call.extra.keys ∧
        ∀ value, call.extra.get? "taskName" = some value → lib.isNone value = true := by
  obtain ⟨isRecord, bound⟩ := logEvent_record logged
  subst isRecord
  have named := recordOf_getMessage lib origin call
  obtain ⟨text, written, unbroken, read⟩ := lawful.dumps
    (payload lib (recordOf lib origin call) (lib.str call.event))
    (payload_serialisable lawful bound serialisable)
  cases hidden : call.extra.get? "getMessage" with
  | some value =>
    obtain ⟨error, refused⟩ := lawful.call value (serialisable "getMessage" value hidden)
    have member : "getMessage" ∈ call.extra.keys :=
      (OrderedDict.mem_keys_iff call.extra "getMessage").mpr ⟨value, hidden⟩
    rw [hidden] at named
    constructor
    · rintro ⟨text, formatted, _⟩
      rw [format, named.trans refused] at formatted
      cases formatted
    · rintro ⟨free, _⟩
      exact absurd member free
  | none =>
    have free : "getMessage" ∉ call.extra.keys := (OrderedDict.get?_eq_none_iff _ _).mp hidden
    rw [hidden] at named
    have rendered : format lib (recordOf lib origin call) = .ok text := by
      rw [format, named]
      exact written
    constructor
    · rintro ⟨line, formatted, isLine⟩
      obtain ⟨object, decoded, tells⟩ := isLine.decoded
      obtain rfl : line = text := Except.ok.inj (formatted.symm.trans rendered)
      obtain rfl := Option.some.inj (decoded.symm.trans read)
      exact ⟨free, (payload_tells_iff bound).mp tells⟩
    · rintro ⟨_, noTask⟩
      exact ⟨text, rendered, unbroken, _, read, (payload_tells_iff bound).mpr noTask⟩

end Property

/-! ### Two events -/

def sampleLib : PythonLib (Option String) String String where
  str := some
  isNone := Option.isNone
  call := fun _ => .error (.typeError "object is not callable")
  lower := String.toLower
  formatTime := id
  formatException := id
  dumps := fun object => .ok (JsonText.dumps object)
  loads := JsonText.loads

theorem sampleLib_lawful : sampleLib.Lawful (fun _ => True) where
  str := fun _ => trivial
  call := fun _ _ => ⟨_, rfl⟩
  dumps := fun object _ => ⟨JsonText.dumps object, rfl,
    fun character member => Nat.le_of_not_lt (JsonText.dumps_not_control object character member),
    JsonText.loads_dumps object⟩

def sampleOrigin : Origin (Option String) String where
  levelname := "INFO"
  moduleName := "call_controller"
  created := "2026-01-01T00:00:00+0000"
  own :=
    { entries := ownAttributes.map fun key => (key, none)
      nodup := by decide }
  ownKeys := by decide

def sampleCall (key : String) : LogCall (Option String) where
  event := "call rejected"
  callId := some "c1\r\nVia: \"x\""
  direction := "in"
  peer := none
  extra := OrderedDict.singleton key (some "Busy\r\nHere")

theorem format_isLine_iff_reason :
    ∃ record, logEvent sampleLib true sampleOrigin (sampleCall "reason") = .ok (some record) ∧
      ∃ text, format sampleLib record = .ok text ∧
        IsLine sampleLib sampleOrigin (sampleCall "reason") record.excInfo text := by
  refine ⟨recordOf sampleLib sampleOrigin (sampleCall "reason"), rfl, ?_⟩
  have logged : logEvent sampleLib true sampleOrigin (sampleCall "reason") =
      .ok (some (recordOf sampleLib sampleOrigin (sampleCall "reason"))) := rfl
  refine (format_isLine_iff sampleLib_lawful (fun _ _ _ => trivial) logged).mpr
    ⟨by decide, fun value given => ?_⟩
  cases given

/-- An extra field called `getMessage` is called instead of the method. -/
theorem not_format_isLine :
    ∃ record, logEvent sampleLib true sampleOrigin (sampleCall "getMessage") = .ok (some record) ∧
      format sampleLib record = .error (.typeError "object is not callable") ∧
      ¬∃ text, format sampleLib record = .ok text ∧
        IsLine sampleLib sampleOrigin (sampleCall "getMessage") record.excInfo text := by
  refine ⟨recordOf sampleLib sampleOrigin (sampleCall "getMessage"), rfl, rfl, ?_⟩
  rintro ⟨text, formatted, _⟩
  cases formatted

end StructuredFormatter

end AsPlatform
