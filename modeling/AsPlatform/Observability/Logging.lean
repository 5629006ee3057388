/-
Structured log events: how the keywords of a call are bound, and what the
standard library refuses.

A call site passes some keywords by name and splats mappings next to them.
Python rejects a keyword that is given twice, and `makeRecord` rejects an extra
field that would overwrite an attribute of the record.
-/

import AsPlatform.Python

namespace AsPlatform

inductive LogLevel where
  | debug
  | info
  | warning
  deriving DecidableEq

namespace LogDirection

def inbound : String := "in"

def outbound : String := "out"

def internal : String := "internal"

end LogDirection

def defaultDirection : String := "-"

def defaultUnknown : String := "-"

structure LogRecord where
  level : LogLevel
  event : String
  extra : List (String × Value)
  deriving DecidableEq

def logEventPositional : List String :=
  ["logger", "level", "event"]

/-- The keys of a `LogRecord`'s dictionary, with the two that are refused although
they are only set while formatting. -/
def logRecordAttributes : List String :=
  ["message", "asctime", "name", "msg", "args", "levelname", "levelno", "pathname",
    "filename", "module", "exc_info", "exc_text", "stack_info", "lineno", "funcName",
    "created", "msecs", "relativeCreated", "thread", "threadName", "processName",
    "process"]

/-- Bind the keywords of one call: those passed by name, then the splatted mappings. -/
def bindKeywords (named : List (String × Value)) (splatted : List Fields) :
    Except PyError (List (String × Value)) :=
  let given := named ++ splatted.flatMap OrderedDict.entries
  if (given.map Prod.fst).Nodup ∧
      ∀ key, key ∈ given.map Prod.fst → key ∉ logEventPositional then
    .ok given
  else
    .error (.typeError "log_event() got multiple values for an argument")

def logExtra (given : List (String × Value)) : List (String × Value) :=
  [("call_id", ((given.lookup "call_id").getD .none).orElse (.str defaultUnknown)),
    ("direction", (given.lookup "direction").getD (.str defaultDirection)),
    ("peer", ((given.lookup "peer").getD .none).orElse (.str defaultUnknown))] ++
    given.filter (fun field => field.1 ∉ ["call_id", "direction", "peer"])

def makeRecord (level : LogLevel) (event : String) (extra : List (String × Value)) :
    Except PyError LogRecord :=
  if ∀ key, key ∈ extra.map Prod.fst → key ∉ logRecordAttributes then
    .ok { level := level, event := event, extra := extra }
  else
    .error (.keyError "Attempt to overwrite an attribute in LogRecord")

def logEvent (isEnabledFor : LogLevel → Bool) (level : LogLevel) (event : String)
    (named : List (String × Value)) (splatted : List Fields) :
    Except PyError (Option LogRecord) := do
  let given ← bindKeywords named splatted
  if isEnabledFor level then
    let record ← makeRecord level event (logExtra given)
    pure (some record)
  else
    pure none

structure KeysAccepted (enabled : Bool) (keys : List String) : Prop where
  distinct : keys.Nodup
  byName : ∀ key, key ∈ keys → key ∉ logEventPositional
  unreserved : enabled = true → ∀ key, key ∈ keys → key ∉ logRecordAttributes

instance (enabled : Bool) (keys : List String) : Decidable (KeysAccepted enabled keys) :=
  decidable_of_iff
    (keys.Nodup ∧ (∀ key, key ∈ keys → key ∉ logEventPositional) ∧
      (enabled = true → ∀ key, key ∈ keys → key ∉ logRecordAttributes))
    ⟨fun parts => ⟨parts.1, parts.2.1, parts.2.2⟩,
      fun accepted => ⟨accepted.distinct, accepted.byName, accepted.unreserved⟩⟩

def keywordKeys (named : List (String × Value)) (splatted : List Fields) : List String :=
  named.map Prod.fst ++ splatted.flatMap OrderedDict.keys

theorem bindKeywords_keys (named : List (String × Value)) (splatted : List Fields) :
    (named ++ splatted.flatMap OrderedDict.entries).map Prod.fst =
      keywordKeys named splatted := by
  simp only [keywordKeys, List.map_append, List.map_flatMap]
  rfl

def KeysBound (keys : List String) : Prop :=
  keys.Nodup ∧ ∀ key, key ∈ keys → key ∉ logEventPositional

theorem bindKeywords_of_bound (named : List (String × Value)) (splatted : List Fields)
    (bound : KeysBound (keywordKeys named splatted)) :
    bindKeywords named splatted = .ok (named ++ splatted.flatMap OrderedDict.entries) := by
  rw [KeysBound, ← bindKeywords_keys] at bound
  exact if_pos bound

theorem bindKeywords_of_not_bound (named : List (String × Value)) (splatted : List Fields)
    (clash : ¬KeysBound (keywordKeys named splatted)) :
    bindKeywords named splatted =
      .error (.typeError "log_event() got multiple values for an argument") := by
  rw [KeysBound, ← bindKeywords_keys] at clash
  exact if_neg clash

theorem logExtra_mem_keys (given : List (String × Value)) (key : String) :
    key ∈ (logExtra given).map Prod.fst ↔
      key ∈ ["call_id", "direction", "peer"] ∨ key ∈ given.map Prod.fst := by
  simp only [logExtra, List.map_append, List.mem_append, List.map_cons, List.map_nil]
  constructor
  · rintro (fixed | passed)
    · exact Or.inl fixed
    · obtain ⟨field, member, same⟩ := List.mem_map.mp passed
      exact Or.inr (List.mem_map.mpr ⟨field, List.mem_of_mem_filter member, same⟩)
  · rintro (fixed | passed)
    · exact Or.inl fixed
    · by_cases fixed : key ∈ ["call_id", "direction", "peer"]
      · exact Or.inl fixed
      · obtain ⟨field, member, same⟩ := List.mem_map.mp passed
        refine Or.inr (List.mem_map.mpr ⟨field, List.mem_filter.mpr ⟨member, ?_⟩, same⟩)
        simpa [same] using fixed

theorem makeRecord_accepted_iff (level : LogLevel) (event : String)
    (given : List (String × Value)) :
    (∃ record, makeRecord level event (logExtra given) = .ok record) ↔
      ∀ key, key ∈ given.map Prod.fst → key ∉ logRecordAttributes := by
  have keysIff : (∀ key, key ∈ (logExtra given).map Prod.fst → key ∉ logRecordAttributes) ↔
      ∀ key, key ∈ given.map Prod.fst → key ∉ logRecordAttributes := by
    constructor
    · intro all key member
      exact all key ((logExtra_mem_keys given key).mpr (Or.inr member))
    · intro all key member
      rcases (logExtra_mem_keys given key).mp member with fixed | passed
      · have unreserved : ∀ name, name ∈ ["call_id", "direction", "peer"] →
            name ∉ logRecordAttributes := by decide
        exact unreserved key fixed
      · exact all key passed
  rw [← keysIff]
  unfold makeRecord
  split
  · rename_i accepted
    exact ⟨fun _ => accepted, fun _ => ⟨_, rfl⟩⟩
  · rename_i refused
    constructor
    · rintro ⟨record, impossible⟩
      cases impossible
    · intro accepted
      exact absurd accepted refused

/-- `log_event` returns exactly when no keyword is given twice, none names a
positional parameter, and, if the level is enabled, none a record attribute. -/
theorem logEvent_accepted_iff (isEnabledFor : LogLevel → Bool) (level : LogLevel)
    (event : String) (named : List (String × Value)) (splatted : List Fields) :
    (∃ record, logEvent isEnabledFor level event named splatted = .ok record) ↔
      KeysAccepted (isEnabledFor level) (keywordKeys named splatted) := by
  unfold logEvent
  by_cases bound : KeysBound (keywordKeys named splatted)
  · rw [bindKeywords_of_bound named splatted bound]
    have made := makeRecord_accepted_iff level event
      (named ++ splatted.flatMap OrderedDict.entries)
    rw [bindKeywords_keys] at made
    cases isEnabledFor level with
    | false =>
        constructor
        · intro _
          exact ⟨bound.1, bound.2, by simp⟩
        · intro _
          exact ⟨none, rfl⟩
    | true =>
        constructor
        · rintro ⟨record, emitted⟩
          refine ⟨bound.1, bound.2, fun _ => made.mp ?_⟩
          cases result : makeRecord level event
              (logExtra (named ++ splatted.flatMap OrderedDict.entries)) with
          | error error => simp [bind, Except.bind, result] at emitted
          | ok made => exact ⟨made, rfl⟩
        · intro accepted
          obtain ⟨record, result⟩ := made.mpr (accepted.unreserved rfl)
          exact ⟨some record, by simp [bind, Except.bind, result, pure, Except.pure]⟩
  · rw [bindKeywords_of_not_bound named splatted bound]
    constructor
    · rintro ⟨record, emitted⟩
      cases emitted
    · intro accepted
      exact absurd ⟨accepted.distinct, accepted.byName⟩ bound

end AsPlatform
