/-
Which values come back from their JSON text.

What is read back is equal to what was written exactly if the value has only what JSON
has.  The encoder refuses a value exactly if some dictionary in it has a key of a class
that is no JSON key, so everything else that is lossy is stored in altered form.
-/

import AsPlatform.StateStore.Json
import Mathlib.Data.List.Chain

namespace AsPlatform

/-! ### Text -/

theorem escape_small {point : CodePoint} (small : point.val < 0x10000) :
    escape point = [⟨point.val, small⟩] :=
  dif_pos small

/-- A character outside the basic plane is escaped as a pair, which is read as one. -/
theorem escape_large {point : CodePoint} (large : ¬point.val < 0x10000) :
    ∃ high low pair, escape point = [high, low] ∧
      CodeUnit.joined high low pair = point := by
  refine ⟨_, _, ?_, dif_neg large, ?_⟩
  · unfold isHighSurrogate isLowSurrogate
    change (0xD800 ≤ 0xD800 + _ ∧ 0xD800 + _ < 0xDC00) ∧
      (0xDC00 ≤ 0xDC00 + _ ∧ 0xDC00 + _ < 0xE000)
    omega
  · apply Fin.ext
    change 0x10000 + (0xD800 + (point.val - 0x10000) / 0x400 - 0xD800) * 0x400 +
      (0xDC00 + (point.val - 0x10000) % 0x400 - 0xDC00) = point.val
    omega

theorem unescape_pair {high low : CodeUnit} (rest : List CodeUnit)
    (pair : isHighSurrogate high.val ∧ isLowSurrogate low.val) :
    unescape (high :: low :: rest) = CodeUnit.joined high low pair :: unescape rest := by
  rw [unescape, dif_pos pair]

/-- A unit that begins no pair stands for itself. -/
theorem unescape_alone (unit : CodeUnit) (rest : List CodeUnit)
    (single : ∀ next, rest.head? = some next →
      ¬(isHighSurrogate unit.val ∧ isLowSurrogate next.val)) :
    unescape (unit :: rest) = unit.alone :: unescape rest := by
  cases rest with
  | nil => rfl
  | cons next rest => rw [unescape, dif_neg (single next rfl)]

theorem head_escape {text : PyStr} {unit : CodeUnit}
    (first : (text.flatMap escape).head? = some unit) (isLow : isLowSurrogate unit.val) :
    ∃ point, text.head? = some point ∧ isLowSurrogate point.val := by
  cases text with
  | nil => cases first
  | cons point text =>
      refine ⟨point, rfl, ?_⟩
      rw [List.flatMap_cons] at first
      by_cases small : point.val < 0x10000
      · rw [escape_small small] at first
        cases first
        exact isLow
      · obtain ⟨high, low, pair, escaped, _⟩ := escape_large small
        rw [escaped] at first
        cases first
        unfold isLowSurrogate at isLow
        have isHigh := pair.1
        unfold isHighSurrogate at isHigh
        omega

theorem reread_of_unpaired {text : PyStr} (unpaired : Unpaired text) : reread text = text := by
  unfold reread
  induction text with
  | nil => rfl
  | cons point text ih =>
      obtain ⟨apart, rest⟩ := List.isChain_cons.mp unpaired
      rw [List.flatMap_cons]
      by_cases small : point.val < 0x10000
      · have single : ∀ next, (text.flatMap escape).head? = some next →
            ¬(isHighSurrogate point.val ∧ isLowSurrogate next.val) := by
          intro next first pair
          obtain ⟨other, isFirst, isLow⟩ := head_escape first pair.2
          exact apart other isFirst ⟨pair.1, isLow⟩
        rw [escape_small small, List.singleton_append, unescape_alone _ _ single, ih rest]
        rfl
      · obtain ⟨high, low, pair, escaped, same⟩ := escape_large small
        rw [escaped, List.cons_append, List.singleton_append, unescape_pair _ pair, same, ih rest]

theorem joined_large (high low : CodeUnit)
    (pair : isHighSurrogate high.val ∧ isLowSurrogate low.val) :
    0x10000 ≤ (CodeUnit.joined high low pair).val :=
  (Nat.le_add_right _ _).trans (Nat.le_add_right _ _)

theorem head_unescape {units : List CodeUnit} {point : CodePoint}
    (first : (unescape units).head? = some point) (isLow : isLowSurrogate point.val) :
    ∃ unit, units.head? = some unit ∧ isLowSurrogate unit.val := by
  fun_cases unescape units with
  | case1 => cases first
  | case2 unit =>
      cases first
      exact ⟨unit, rfl, isLow⟩
  | case3 high low rest pair =>
      have large := joined_large high low pair
      rw [unescape_pair rest pair] at first
      rw [← Option.some.inj first] at isLow
      unfold isLowSurrogate at isLow
      omega
  | case4 high low rest single =>
      rw [unescape, dif_neg single] at first
      cases first
      exact ⟨high, rfl, isLow⟩

/-- What is read has no surrogates that could have been read as a pair. -/
theorem unpaired_unescape (units : List CodeUnit) : Unpaired (unescape units) := by
  fun_induction unescape units with
  | case1 => exact List.IsChain.nil
  | case2 unit => exact List.IsChain.singleton _
  | case3 high low rest pair ih =>
      refine List.isChain_cons.mpr ⟨?_, ih⟩
      intro next _ both
      have large := joined_large high low pair
      have isHigh := both.1
      unfold isHighSurrogate at isHigh
      omega
  | case4 high low rest single ih =>
      refine List.isChain_cons.mpr ⟨?_, ih⟩
      intro next first both
      obtain ⟨unit, isFirst, isLow⟩ := head_unescape first both.2
      cases isFirst
      exact single ⟨both.1, isLow⟩

theorem reread_eq_iff (text : PyStr) : reread text = text ↔ Unpaired text := by
  constructor
  · intro same
    rw [← same]
    exact unpaired_unescape _
  · exact reread_of_unpaired

/-! ### Keys -/

theorem PyNumber.equals_self (number : PyNumber) :
    number.equals number = true ↔ number ≠ .float .nan := by
  cases number with
  | bool value => simp [PyNumber.equals, PyNumber.finite?]
  | int value => simp [PyNumber.equals, PyNumber.finite?]
  | float value => cases value <;> simp [PyNumber.equals, PyNumber.finite?]

theorem PyKey.equals_str_iff (key : PyKey) (text : PyStr) :
    key.equals (.str text) = true ↔ key = .str text := by
  cases key <;> simp [PyKey.equals]

theorem PyKey.str_equals_iff (key : PyKey) (text : PyStr) :
    (PyKey.str text).equals key = true ↔ key = .str text := by
  cases key <;> simp [PyKey.equals, eq_comm]

theorem keyText_returns {key : PyKey}
    (usual : ¬∃ className identity, key = .other className identity) :
    ∃ text, keyText key = .ok text := by
  cases key with
  | none => exact ⟨_, rfl⟩
  | number value =>
      cases value with
      | bool value => cases value <;> exact ⟨_, rfl⟩
      | int value => exact ⟨_, rfl⟩
      | float value =>
          cases value with
          | nan => exact ⟨_, rfl⟩
          | infinite negative => cases negative <;> exact ⟨_, rfl⟩
          | finite number repr => exact ⟨_, rfl⟩
  | str text => exact ⟨text, rfl⟩
  | other className identity => exact absurd ⟨className, identity, rfl⟩ usual

/-! ### What the encoder refuses -/

def Refused {Value : Type} (outcome : Except PyError Value) : Prop :=
  ∃ message, outcome = .error (.typeError message)

theorem Refused.map {Value Result : Type} {outcome : Except PyError Value}
    (refused : Refused outcome) (change : Value → Result) : Refused (outcome.map change) := by
  obtain ⟨message, error⟩ := refused
  exact ⟨message, by rw [error]; rfl⟩

mutual

/-- The encoder returns or refuses, and it refuses only a key of another class. -/
theorem dumps_outcome : ∀ value : PyValue,
    (HasOtherKey value → Refused (dumps value)) ∧
      (¬HasOtherKey value → ∃ json, dumps value = .ok json)
  | .none => ⟨False.elim, fun _ => ⟨_, rfl⟩⟩
  | .number (.bool _) => ⟨False.elim, fun _ => ⟨_, rfl⟩⟩
  | .number (.int _) => ⟨False.elim, fun _ => ⟨_, rfl⟩⟩
  | .number (.float _) => ⟨False.elim, fun _ => ⟨_, rfl⟩⟩
  | .str _ => ⟨False.elim, fun _ => ⟨_, rfl⟩⟩
  | .object _ _ => ⟨False.elim, fun _ => ⟨_, rfl⟩⟩
  | .list items => by
      obtain ⟨refuses, returns⟩ := dumpsItems_outcome items
      refine ⟨fun other => (refuses other).map _, fun usual => ?_⟩
      obtain ⟨jsons, written⟩ := returns usual
      exact ⟨.array jsons, by rw [dumps, written]; rfl⟩
  | .tuple items => by
      obtain ⟨refuses, returns⟩ := dumpsItems_outcome items
      refine ⟨fun other => (refuses other).map _, fun usual => ?_⟩
      obtain ⟨jsons, written⟩ := returns usual
      exact ⟨.array jsons, by rw [dumps, written]; rfl⟩
  | .dict entries => by
      obtain ⟨refuses, returns⟩ := dumpsEntries_outcome entries
      refine ⟨fun other => (refuses other).map _, fun usual => ?_⟩
      obtain ⟨jsons, written⟩ := returns usual
      exact ⟨.object jsons, by rw [dumps, written]; rfl⟩

theorem dumpsItems_outcome : ∀ items : List PyValue,
    (HasOtherKeyItems items → Refused (dumpsItems items)) ∧
      (¬HasOtherKeyItems items → ∃ jsons, dumpsItems items = .ok jsons)
  | [] => ⟨False.elim, fun _ => ⟨[], rfl⟩⟩
  | item :: rest => by
      obtain ⟨refuses, returns⟩ := dumps_outcome item
      obtain ⟨restRefuses, restReturns⟩ := dumpsItems_outcome rest
      constructor
      · intro other
        by_cases here : HasOtherKey item
        · obtain ⟨message, error⟩ := refuses here
          exact ⟨message, by rw [dumpsItems, error]; rfl⟩
        · obtain ⟨first, written⟩ := returns here
          obtain ⟨message, error⟩ := restRefuses (other.resolve_left here)
          exact ⟨message, by rw [dumpsItems, written, error]; rfl⟩
      · intro usual
        obtain ⟨first, written⟩ := returns (fun here => usual (Or.inl here))
        obtain ⟨others, restWritten⟩ := restReturns (fun later => usual (Or.inr later))
        exact ⟨first :: others, by rw [dumpsItems, written, restWritten]; rfl⟩

theorem dumpsEntries_outcome : ∀ entries : List (PyKey × PyValue),
    (HasOtherKeyEntries entries → Refused (dumpsEntries entries)) ∧
      (¬HasOtherKeyEntries entries → ∃ jsons, dumpsEntries entries = .ok jsons)
  | [] => ⟨False.elim, fun _ => ⟨[], rfl⟩⟩
  | (key, value) :: rest => by
      obtain ⟨refuses, returns⟩ := dumps_outcome value
      obtain ⟨restRefuses, restReturns⟩ := dumpsEntries_outcome rest
      constructor
      · intro other
        by_cases isOther : ∃ className identity, key = .other className identity
        · obtain ⟨className, identity, rfl⟩ := isOther
          exact ⟨_, rfl⟩
        · obtain ⟨text, named⟩ := keyText_returns isOther
          by_cases here : HasOtherKey value
          · obtain ⟨message, error⟩ := refuses here
            exact ⟨message, by rw [dumpsEntries, named, error]; rfl⟩
          · obtain ⟨first, written⟩ := returns here
            obtain ⟨message, error⟩ :=
              restRefuses ((other.resolve_left isOther).resolve_left here)
            exact ⟨message, by rw [dumpsEntries, named, written, error]; rfl⟩
      · intro usual
        obtain ⟨text, named⟩ := keyText_returns (fun isOther => usual (Or.inl isOther))
        obtain ⟨first, written⟩ := returns (fun here => usual (Or.inr (Or.inl here)))
        obtain ⟨others, restWritten⟩ := restReturns (fun later => usual (Or.inr (Or.inr later)))
        exact ⟨(text.flatMap escape, first) :: others, by
          rw [dumpsEntries, named, written, restWritten]; rfl⟩

end

/-! ### Dictionaries -/

def Carries (entry loaded : PyKey × PyValue) : Prop :=
  (∃ text, keyText entry.1 = .ok text ∧ loaded.1 = .str (reread text)) ∧
    (entry.2.equals loaded.2 = true ↔ Faithful entry.2)

theorem faithfulEntries_iff (entries : List (PyKey × PyValue)) :
    FaithfulEntries entries ↔ ∀ entry, entry ∈ entries →
      (∃ text, entry.1 = .str text ∧ Unpaired text) ∧ Faithful entry.2 := by
  induction entries with
  | nil => simp [FaithfulEntries]
  | cons entry rest ih =>
      obtain ⟨key, value⟩ := entry
      rw [FaithfulEntries, ih, List.forall_mem_cons, and_assoc]

theorem equalsEntries_iff (entries others : List (PyKey × PyValue)) :
    PyValue.equalsEntries entries others = true ↔ ∀ entry, entry ∈ entries →
      ∃ other, lookup entry.1 others = some other ∧ entry.2.equals other = true := by
  induction entries with
  | nil => simp [PyValue.equalsEntries]
  | cons entry rest ih =>
      obtain ⟨key, value⟩ := entry
      rw [PyValue.equalsEntries, Bool.and_eq_true, ih, List.forall_mem_cons]
      apply and_congr_left'
      cases found : lookup key others with
      | none => simp
      | some other => simp

theorem lookup_str (dict : OrderedDict PyKey PyValue) (text : PyStr) :
    lookup (.str text) dict.entries = dict.get? (.str text) := by
  unfold lookup OrderedDict.get?
  congr 2
  funext entry
  rw [Bool.eq_iff_iff, PyKey.equals_str_iff, decide_eq_true_eq]

theorem Carries.mem {entries pairs : List (PyKey × PyValue)}
    (carried : List.Forall₂ Carries entries pairs) :
    (∀ entry, entry ∈ entries → ∃ loaded, loaded ∈ pairs ∧ Carries entry loaded) ∧
      ∀ loaded, loaded ∈ pairs → ∃ text, loaded.1 = .str (reread text) := by
  induction carried with
  | nil => exact ⟨fun _ member => absurd member List.not_mem_nil,
      fun _ member => absurd member List.not_mem_nil⟩
  | cons first _ ih =>
      constructor
      · rw [List.forall_mem_cons]
        refine ⟨⟨_, List.mem_cons_self, first⟩, ?_⟩
        intro entry member
        obtain ⟨loaded, inside, carries⟩ := ih.1 entry member
        exact ⟨loaded, List.mem_cons_of_mem _ inside, carries⟩
      · rw [List.forall_mem_cons]
        obtain ⟨⟨text, _, named⟩, _⟩ := first
        exact ⟨⟨text, named⟩, ih.2⟩

theorem Carries.key {entry loaded : PyKey × PyValue} (carries : Carries entry loaded)
    {text : PyStr} (isText : entry.1 = .str text) (unpaired : Unpaired text) :
    loaded.1 = entry.1 := by
  obtain ⟨⟨written, named, read⟩, _⟩ := carries
  rw [isText] at named
  cases named
  rw [read, isText, reread_of_unpaired unpaired]

theorem Carries.keys {entries pairs : List (PyKey × PyValue)}
    (carried : List.Forall₂ Carries entries pairs)
    (texts : ∀ entry, entry ∈ entries → ∃ text, entry.1 = .str text ∧ Unpaired text) :
    pairs.map Prod.fst = entries.map Prod.fst := by
  induction carried with
  | nil => rfl
  | cons first _ ih =>
      obtain ⟨⟨text, isText, unpaired⟩, others⟩ := List.forall_mem_cons.mp texts
      rw [List.map_cons, List.map_cons, first.key isText unpaired, ih others]

/-- The value under a key that is read back as itself. -/
theorem lookup_loaded {pairs : List (PyKey × PyValue)}
    (distinct : (pairs.map Prod.fst).Nodup) {text : PyStr} {loaded : PyKey × PyValue}
    (member : loaded ∈ pairs) (named : loaded.1 = .str text) :
    lookup (.str text) (OrderedDict.ofList pairs).entries = some loaded.2 := by
  rw [lookup_str, OrderedDict.get?_eq_some_iff, OrderedDict.entries_ofList distinct, ← named]
  exact member

theorem equals_dict_iff {entries pairs : List (PyKey × PyValue)}
    (carried : List.Forall₂ Carries entries pairs) :
    (PyValue.dict entries).equals (.dict (OrderedDict.ofList pairs).entries) = true ↔
      (entries.map Prod.fst).Nodup ∧ FaithfulEntries entries := by
  obtain ⟨carriedTo, named⟩ := Carries.mem carried
  have sameLength := carried.length_eq
  rw [PyValue.equals, Bool.and_eq_true, decide_eq_true_eq, equalsEntries_iff,
    faithfulEntries_iff]
  constructor
  · rintro ⟨counted, found⟩
    have distinct : (pairs.map Prod.fst).Nodup := by
      apply (OrderedDict.length_ofList pairs).2
      rw [OrderedDict.keys, List.length_map, ← counted, sameLength]
    have faithful : ∀ entry, entry ∈ entries →
        (∃ text, entry.1 = .str text ∧ Unpaired text) ∧ Faithful entry.2 := by
      intro entry member
      obtain ⟨other, stored, equal⟩ := found entry member
      obtain ⟨loaded, inside, carries⟩ := carriedTo entry member
      -- only a text that was read can be the key that was found
      have isText : ∃ text, entry.1 = .str text ∧ Unpaired text := by
        obtain ⟨pair, search, _⟩ := Option.map_eq_some_iff.mp stored
        have among := List.mem_of_find?_eq_some search
        rw [OrderedDict.entries_ofList distinct] at among
        obtain ⟨text, isRead⟩ := named pair among
        have same := List.find?_some search
        rw [isRead] at same
        exact ⟨reread text, (PyKey.str_equals_iff _ _).mp same, unpaired_unescape _⟩
      refine ⟨isText, carries.2.mp ?_⟩
      obtain ⟨text, isKey, unpaired⟩ := isText
      have own := lookup_loaded distinct inside ((carries.key isKey unpaired).trans isKey)
      rw [← isKey, stored] at own
      rw [← Option.some.inj own]
      exact equal
    refine ⟨?_, faithful⟩
    rw [← Carries.keys carried (fun entry member => (faithful entry member).1)]
    exact distinct
  · rintro ⟨distinct, faithful⟩
    have keys := Carries.keys carried (fun entry member => (faithful entry member).1)
    rw [← keys] at distinct
    constructor
    · rw [OrderedDict.entries_ofList distinct, sameLength]
    · intro entry member
      obtain ⟨⟨text, isKey, unpaired⟩, survives⟩ := faithful entry member
      obtain ⟨loaded, inside, carries⟩ := carriedTo entry member
      refine ⟨loaded.2, ?_, carries.2.mpr survives⟩
      rw [isKey]
      exact lookup_loaded distinct inside ((carries.key isKey unpaired).trans isKey)

/-! ### Values -/

theorem map_eq_ok {Value Result : Type} {outcome : Except PyError Value}
    {change : Value → Result} {result : Result} (returned : outcome.map change = .ok result) :
    ∃ value, outcome = .ok value ∧ result = change value := by
  cases outcome with
  | error error => cases returned
  | ok value =>
      cases returned
      exact ⟨value, rfl, rfl⟩

theorem bind_eq_ok {Value Result : Type} {outcome : Except PyError Value}
    {next : Value → Except PyError Result} {result : Result}
    (returned : (outcome >>= next) = .ok result) :
    ∃ value, outcome = .ok value ∧ next value = .ok result := by
  cases outcome with
  | error error => cases returned
  | ok value => exact ⟨value, rfl, returned⟩

mutual

/-- What is read back is equal to what was written exactly if the value is faithful. -/
theorem equals_loads_iff : ∀ (value : PyValue) (json : Json), dumps value = .ok json →
    (value.equals (loads json) = true ↔ Faithful value)
  | .none, _, written => by
      cases written
      simp [loads, PyValue.equals, Faithful]
  | .number (.bool value), _, written => by
      cases written
      exact PyNumber.equals_self (.bool value)
  | .number (.int value), _, written => by
      cases written
      exact PyNumber.equals_self (.int value)
  | .number (.float value), _, written => by
      cases written
      exact PyNumber.equals_self (.float value)
  | .str text, _, written => by
      cases written
      rw [loads, PyValue.equals, decide_eq_true_eq, Faithful, ← reread_eq_iff]
      exact eq_comm
  | .list items, _, written => by
      obtain ⟨jsons, itemsWritten, rfl⟩ := map_eq_ok written
      rw [loads, PyValue.equals, Faithful]
      exact equalsItems_loads_iff items jsons itemsWritten
  | .tuple items, _, written => by
      obtain ⟨jsons, _, rfl⟩ := map_eq_ok written
      simp [loads, PyValue.equals, Faithful]
  | .dict entries, _, written => by
      obtain ⟨jsons, entriesWritten, rfl⟩ := map_eq_ok written
      rw [loads, Faithful]
      exact equals_dict_iff (carries_loads entries jsons entriesWritten)
  | .object identity text, _, written => by
      cases written
      simp [loads, PyValue.equals, Faithful]

theorem equalsItems_loads_iff : ∀ (items : List PyValue) (jsons : List Json),
    dumpsItems items = .ok jsons →
      (PyValue.equalsItems items (loadsItems jsons) = true ↔ FaithfulItems items)
  | [], _, written => by
      cases written
      simp [loadsItems, PyValue.equalsItems, FaithfulItems]
  | item :: rest, _, written => by
      obtain ⟨first, firstWritten, onward⟩ := bind_eq_ok written
      obtain ⟨others, restWritten, last⟩ := bind_eq_ok onward
      cases last
      rw [loadsItems, PyValue.equalsItems, Bool.and_eq_true, FaithfulItems,
        equals_loads_iff item first firstWritten,
        equalsItems_loads_iff rest others restWritten]

theorem carries_loads : ∀ (entries : List (PyKey × PyValue))
    (jsons : List (List CodeUnit × Json)), dumpsEntries entries = .ok jsons →
      List.Forall₂ Carries entries (loadsEntries jsons)
  | [], _, written => by
      cases written
      exact List.Forall₂.nil
  | (key, value) :: rest, _, written => by
      obtain ⟨text, named, onward⟩ := bind_eq_ok written
      obtain ⟨first, firstWritten, further⟩ := bind_eq_ok onward
      obtain ⟨others, restWritten, last⟩ := bind_eq_ok further
      cases last
      exact List.Forall₂.cons
        ⟨⟨text, named, rfl⟩, equals_loads_iff value first firstWritten⟩
        (carries_loads rest others restWritten)

end

end AsPlatform
