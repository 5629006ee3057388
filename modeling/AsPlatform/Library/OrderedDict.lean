/-
Insertion-ordered dictionaries.

The entries are kept in the order in which their keys were first inserted, and
no key occurs twice.  Storing under a key that is present replaces the value in
place; `moveToEnd` and `shrink` are what a recency-ordered store adds.
-/

import Mathlib.Data.List.Nodup
import Mathlib.Data.List.Basic
import Mathlib.Data.List.DropRight
import Mathlib.Algebra.GroupWithZero.Nat

/-- The keys of the entries are distinct, so a dictionary with a doubled key
cannot be built. -/
structure OrderedDict (Key Value : Type) where
  entries : List (Key × Value)
  nodup : (entries.map Prod.fst).Nodup

namespace OrderedDict

variable {Key Value : Type}

def empty : OrderedDict Key Value :=
  { entries := []
    nodup := List.nodup_nil }

instance : EmptyCollection (OrderedDict Key Value) := ⟨empty⟩

def keys (dict : OrderedDict Key Value) : List Key :=
  dict.entries.map Prod.fst

def values (dict : OrderedDict Key Value) : List Value :=
  dict.entries.map Prod.snd

def length (dict : OrderedDict Key Value) : Nat :=
  dict.entries.length

@[simp] theorem keys_empty : (∅ : OrderedDict Key Value).keys = [] := rfl

@[simp] theorem values_empty : (∅ : OrderedDict Key Value).values = [] := rfl

theorem keys_nodup (dict : OrderedDict Key Value) : dict.keys.Nodup :=
  dict.nodup

variable [DecidableEq Key]

def get? (dict : OrderedDict Key Value) (key : Key) : Option Value :=
  (dict.entries.find? (fun entry => entry.1 = key)).map Prod.snd

/-! ### Storing under a key -/

def insertEntry (key : Key) (value : Value) : List (Key × Value) → List (Key × Value)
  | [] => [(key, value)]
  | entry :: rest =>
      if entry.1 = key then (key, value) :: rest
      else entry :: insertEntry key value rest

theorem insertEntry_of_eq (key : Key) (value : Value) (entry : Key × Value)
    (rest : List (Key × Value)) (same : entry.1 = key) :
    insertEntry key value (entry :: rest) = (key, value) :: rest := by
  rw [insertEntry, if_pos same]

theorem insertEntry_of_ne (key : Key) (value : Value) (entry : Key × Value)
    (rest : List (Key × Value)) (different : entry.1 ≠ key) :
    insertEntry key value (entry :: rest) = entry :: insertEntry key value rest := by
  rw [insertEntry, if_neg different]

theorem insertEntry_keys (key : Key) (value : Value) (entries : List (Key × Value)) :
    (insertEntry key value entries).map Prod.fst =
      if key ∈ entries.map Prod.fst then entries.map Prod.fst
      else entries.map Prod.fst ++ [key] := by
  induction entries with
  | nil => simp [insertEntry]
  | cons entry rest ih =>
      by_cases same : entry.1 = key
      · simp [insertEntry, same]
      · have different : key ≠ entry.1 := fun equal => same equal.symm
        simp only [insertEntry, if_neg same, List.map_cons, ih, List.mem_cons, different,
          false_or]
        split <;> rfl

theorem insertEntry_nodup (key : Key) (value : Value) (entries : List (Key × Value))
    (distinct : (entries.map Prod.fst).Nodup) :
    ((insertEntry key value entries).map Prod.fst).Nodup := by
  rw [insertEntry_keys]
  split
  · exact distinct
  · rename_i fresh
    rw [List.nodup_append]
    refine ⟨distinct, List.nodup_singleton key, ?_⟩
    intro other member last lastMember
    rw [List.mem_singleton.mp lastMember]
    exact fun equal => fresh (equal ▸ member)

def insert (dict : OrderedDict Key Value) (key : Key) (value : Value) :
    OrderedDict Key Value :=
  { entries := insertEntry key value dict.entries
    nodup := insertEntry_nodup key value dict.entries dict.nodup }

def singleton (key : Key) (value : Value) : OrderedDict Key Value :=
  (∅ : OrderedDict Key Value).insert key value

/-- `dict.update(other)`: the entries of `other` are stored one by one. -/
def update (dict other : OrderedDict Key Value) : OrderedDict Key Value :=
  other.entries.foldl (fun acc entry => acc.insert entry.1 entry.2) dict

/-- `dict(pairs)`: of the pairs with one key the last one counts. -/
def ofList (pairs : List (Key × Value)) : OrderedDict Key Value :=
  pairs.foldl (fun acc pair => acc.insert pair.1 pair.2) ∅

theorem keys_insert (dict : OrderedDict Key Value) (key : Key) (value : Value) :
    (dict.insert key value).keys = if key ∈ dict.keys then dict.keys else dict.keys ++ [key] :=
  insertEntry_keys key value dict.entries

theorem keys_insert_of_mem (dict : OrderedDict Key Value) {key : Key} (value : Value)
    (member : key ∈ dict.keys) : (dict.insert key value).keys = dict.keys := by
  rw [keys_insert, if_pos member]

theorem insertEntry_find? (key other : Key) (value : Value) (entries : List (Key × Value)) :
    ((insertEntry key value entries).find? (fun entry => entry.1 = other)).map Prod.snd =
      if key = other then some value
      else (entries.find? (fun entry => entry.1 = other)).map Prod.snd := by
  induction entries with
  | nil => by_cases same : key = other <;> simp [insertEntry, same]
  | cons entry rest ih =>
      by_cases stored : entry.1 = key
      · rw [insertEntry_of_eq key value entry rest stored]
        by_cases same : key = other
        · simp [same]
        · have different : entry.1 ≠ other := fun equal => same (stored.symm.trans equal)
          simp [same, different]
      · rw [insertEntry_of_ne key value entry rest stored]
        by_cases found : entry.1 = other
        · have different : key ≠ other := fun equal => stored (found.trans equal.symm)
          simp [found, different]
        · simpa [List.find?_cons, found] using ih

theorem get?_insert (dict : OrderedDict Key Value) (key other : Key) (value : Value) :
    (dict.insert key value).get? other = if key = other then some value else dict.get? other :=
  insertEntry_find? key other value dict.entries

/-! ### Counters -/

def total (counter : OrderedDict Key Nat) : Nat :=
  counter.values.sum

/-- `counter[key] += 1`, where a missing key counts as zero. -/
def increment (counter : OrderedDict Key Nat) (key : Key) : OrderedDict Key Nat :=
  counter.insert key ((counter.get? key).getD 0 + 1)

theorem insertEntry_sum (key : Key) (entries : List (Key × Nat)) :
    ((insertEntry key
      (((entries.find? (fun entry => entry.1 = key)).map Prod.snd).getD 0 + 1)
        entries).map Prod.snd).sum = (entries.map Prod.snd).sum + 1 := by
  induction entries with
  | nil => rfl
  | cons entry rest ih =>
      by_cases stored : entry.1 = key
      · rw [insertEntry_of_eq key _ entry rest stored]
        simp only [List.find?_cons, stored, decide_true, Option.map_some, Option.getD_some,
          List.map_cons, List.sum_cons]
        omega
      · rw [insertEntry_of_ne key _ entry rest stored]
        simp only [List.find?_cons, stored, decide_false, List.map_cons, List.sum_cons, ih]
        omega

@[simp] theorem total_increment (counter : OrderedDict Key Nat) (key : Key) :
    (counter.increment key).total = counter.total + 1 :=
  insertEntry_sum key counter.entries

theorem getD_increment (counter : OrderedDict Key Nat) (key other : Key) :
    ((counter.increment key).get? other).getD 0 =
      (counter.get? other).getD 0 + if key = other then 1 else 0 := by
  rw [increment, get?_insert]
  by_cases same : key = other
  · rw [if_pos same, if_pos same, same]
    rfl
  · rw [if_neg same, if_neg same]
    rfl

def add {Amount : Type} [AddMonoid Amount] (counter : OrderedDict Key Amount) (key : Key)
    (amount : Amount) : OrderedDict Key Amount :=
  counter.insert key ((counter.get? key).getD 0 + amount)

theorem get?_add {Amount : Type} [AddMonoid Amount] (counter : OrderedDict Key Amount)
    (key other : Key) (amount : Amount) :
    (counter.add key amount).get? other =
      if key = other then some ((counter.get? other).getD 0 + amount) else counter.get? other := by
  rw [add, get?_insert]
  by_cases same : key = other
  · rw [if_pos same, if_pos same, same]
  · rw [if_neg same, if_neg same]

/-- `{key: f(value) for key, value in dict.items()}`. -/
def mapValues {Other : Type} (f : Value → Other) (dict : OrderedDict Key Value) :
    OrderedDict Key Other :=
  { entries := dict.entries.map fun entry => (entry.1, f entry.2)
    nodup := by
      have same : (dict.entries.map fun entry => (entry.1, f entry.2)).map Prod.fst =
          dict.entries.map Prod.fst := by
        rw [List.map_map]
        rfl
      rw [same]
      exact dict.nodup }

theorem get?_mapValues {Other : Type} (f : Value → Other) (dict : OrderedDict Key Value)
    (key : Key) : (dict.mapValues f).get? key = (dict.get? key).map f := by
  rw [get?, get?, mapValues, List.find?_map, Option.map_map, Option.map_map]
  rfl

/-! ### Recency order -/

def erase (dict : OrderedDict Key Value) (key : Key) : OrderedDict Key Value :=
  { entries := dict.entries.filter (fun entry => entry.1 ≠ key)
    nodup := dict.nodup.sublist (List.filter_sublist.map Prod.fst) }

/-- The entry of `key`, if there is one, becomes the last. -/
def moveToEnd (dict : OrderedDict Key Value) (key : Key) : OrderedDict Key Value :=
  match dict.get? key with
  | none => dict
  | some value => (dict.erase key).insert key value

def shrinkEntries (limit : Nat) : List (Key × Value) → List (Key × Value)
  | [] => []
  | entry :: rest =>
      if limit < (entry :: rest).length then shrinkEntries limit rest
      else entry :: rest

omit [DecidableEq Key] in
theorem shrinkEntries_suffix (limit : Nat) (entries : List (Key × Value)) :
    shrinkEntries limit entries <:+ entries := by
  induction entries with
  | nil => exact List.suffix_rfl
  | cons entry rest ih =>
      rw [shrinkEntries]
      split
      · exact ih.trans (List.suffix_cons entry rest)
      · exact List.suffix_rfl

omit [DecidableEq Key] in
/-- `while len(dict) > limit: dict.popitem(last=False)`. -/
def shrink (dict : OrderedDict Key Value) (limit : Nat) : OrderedDict Key Value :=
  { entries := shrinkEntries limit dict.entries
    nodup := dict.nodup.sublist
      ((shrinkEntries_suffix limit dict.entries).sublist.map Prod.fst) }

omit [DecidableEq Key] in
theorem shrinkEntries_eq_drop (limit : Nat) (entries : List (Key × Value)) :
    shrinkEntries limit entries = entries.drop (entries.length - limit) := by
  induction entries with
  | nil =>
      rw [List.drop_nil]
      rfl
  | cons entry rest ih =>
      rw [shrinkEntries, List.length_cons]
      split
      · rename_i above
        have one : rest.length + 1 - limit = rest.length - limit + 1 := by omega
        rw [ih, one, List.drop_succ_cons]
      · rename_i within
        have none : rest.length + 1 - limit = 0 := by omega
        rw [none, List.drop_zero]

/-! ### Entries and keys -/

theorem get?_eq_some_iff (dict : OrderedDict Key Value) (key : Key) (value : Value) :
    dict.get? key = some value ↔ (key, value) ∈ dict.entries := by
  unfold get?
  rw [Option.map_eq_some_iff]
  constructor
  · rintro ⟨⟨stored, found⟩, search, rfl⟩
    have same : stored = key := by simpa using List.find?_some search
    subst same
    exact List.mem_of_find?_eq_some search
  · intro member
    cases search : dict.entries.find? (fun entry => entry.1 = key) with
    | none =>
        have absent := List.find?_eq_none.mp search _ member
        simp at absent
    | some entry =>
        refine ⟨entry, rfl, ?_⟩
        have same : entry.1 = key := by simpa using List.find?_some search
        have equal := List.inj_on_of_nodup_map dict.nodup
          (List.mem_of_find?_eq_some search) member same
        rw [equal]

theorem get?_eq_none_iff (dict : OrderedDict Key Value) (key : Key) :
    dict.get? key = none ↔ key ∉ dict.keys := by
  rw [Option.eq_none_iff_forall_ne_some]
  constructor
  · intro absent member
    obtain ⟨⟨stored, value⟩, inside, rfl⟩ := List.mem_map.mp member
    exact absent value ((get?_eq_some_iff dict stored value).mpr inside)
  · intro absent value found
    exact absent (List.mem_map_of_mem ((get?_eq_some_iff dict key value).mp found))

theorem mem_keys_iff (dict : OrderedDict Key Value) (key : Key) :
    key ∈ dict.keys ↔ ∃ value, dict.get? key = some value := by
  rw [← Option.isSome_iff_exists, ← not_iff_not, Bool.not_eq_true, Option.isSome_eq_false_iff,
    Option.isNone_iff_eq_none]
  exact (get?_eq_none_iff dict key).symm

@[simp] theorem entries_erase (dict : OrderedDict Key Value) (key : Key) :
    (dict.erase key).entries = dict.entries.filter (fun entry => entry.1 ≠ key) := rfl

theorem keys_erase (dict : OrderedDict Key Value) (key : Key) :
    (dict.erase key).keys = dict.keys.filter (fun other => other ≠ key) := by
  rw [keys, entries_erase, keys, List.filter_map]
  rfl

theorem mem_keys_eraseAll (dict : OrderedDict Key Value) (erased : List Key) (key : Key) :
    key ∈ (erased.foldl erase dict).keys ↔ key ∈ dict.keys ∧ key ∉ erased := by
  induction erased generalizing dict with
  | nil => simp
  | cons first erased ih =>
      rw [List.foldl_cons, ih, keys_erase, List.mem_filter, List.mem_cons, decide_eq_true_eq,
        not_or, and_assoc]

omit [DecidableEq Key] in
@[simp] theorem entries_shrink (dict : OrderedDict Key Value) (limit : Nat) :
    (dict.shrink limit).entries = dict.entries.rtake limit :=
  shrinkEntries_eq_drop limit dict.entries

theorem insertEntry_of_absent (key : Key) (value : Value) (entries : List (Key × Value))
    (absent : key ∉ entries.map Prod.fst) :
    insertEntry key value entries = entries ++ [(key, value)] := by
  induction entries with
  | nil => rfl
  | cons entry rest ih =>
      rw [List.map_cons, List.mem_cons, not_or] at absent
      rw [insertEntry_of_ne key value entry rest (fun same => absent.1 same.symm), ih absent.2,
        List.cons_append]

/-! ### Dictionaries from pairs -/

theorem ofList_append (pairs : List (Key × Value)) (last : Key × Value) :
    ofList (pairs ++ [last]) = (ofList pairs).insert last.1 last.2 := by
  rw [ofList, List.foldl_append]
  rfl

theorem entries_ofList {pairs : List (Key × Value)} (distinct : (pairs.map Prod.fst).Nodup) :
    (ofList pairs).entries = pairs := by
  induction pairs using List.reverseRecOn with
  | nil => rfl
  | append_singleton pairs last ih =>
      rw [List.map_append, List.nodup_append] at distinct
      have absent : last.1 ∉ pairs.map Prod.fst := fun member =>
        distinct.2.2 last.1 member last.1 List.mem_cons_self rfl
      rw [ofList_append]
      change insertEntry last.1 last.2 (ofList pairs).entries = pairs ++ [last]
      rw [ih distinct.1, insertEntry_of_absent _ _ _ absent]

/-- A dictionary has as many entries as there are pairs only if the keys are distinct. -/
theorem length_ofList (pairs : List (Key × Value)) :
    (ofList pairs).keys.length ≤ pairs.length ∧
      ((ofList pairs).keys.length = pairs.length → (pairs.map Prod.fst).Nodup) := by
  induction pairs using List.reverseRecOn with
  | nil => exact ⟨Nat.le_refl 0, fun _ => List.nodup_nil⟩
  | append_singleton pairs last ih =>
      rw [ofList_append, keys_insert, List.length_append, List.length_singleton]
      split
      · constructor
        · omega
        · intro same
          omega
      · rename_i fresh
        rw [List.length_append, List.length_singleton]
        refine ⟨Nat.succ_le_succ ih.1, ?_⟩
        intro same
        have distinct := ih.2 (Nat.succ.inj same)
        have keys : (ofList pairs).keys = pairs.map Prod.fst := by
          rw [OrderedDict.keys, entries_ofList distinct]
        rw [keys] at fresh
        rw [List.map_append, List.nodup_append]
        refine ⟨distinct, List.nodup_singleton _, ?_⟩
        intro key member other isLast
        rw [List.map_singleton, List.mem_singleton] at isLast
        rw [isLast]
        exact fun equal => fresh (equal ▸ member)

theorem filter_insertEntry (key : Key) (value : Value) (entries : List (Key × Value)) :
    (insertEntry key value entries).filter (fun entry => entry.1 ≠ key) =
      entries.filter (fun entry => entry.1 ≠ key) := by
  induction entries with
  | nil => simp [insertEntry]
  | cons entry rest ih =>
      by_cases same : entry.1 = key
      · simp [insertEntry, same]
      · rw [insertEntry_of_ne key value entry rest same, List.filter_cons, List.filter_cons, ih]

/-- Moving a key to the end keeps its value and the order of all other entries. -/
theorem entries_moveToEnd (dict : OrderedDict Key Value) {key : Key} {value : Value}
    (stored : dict.get? key = some value) :
    (dict.moveToEnd key).entries =
      dict.entries.filter (fun entry => entry.1 ≠ key) ++ [(key, value)] := by
  have absent : key ∉ (dict.entries.filter (fun entry => entry.1 ≠ key)).map Prod.fst := by
    intro member
    obtain ⟨entry, kept, same⟩ := List.mem_map.mp member
    simp [same] at kept
  unfold moveToEnd
  rw [stored]
  exact insertEntry_of_absent key value _ absent

/-- `dict[key] = value; dict.move_to_end(key)`. -/
theorem entries_insert_moveToEnd (dict : OrderedDict Key Value) (key : Key) (value : Value) :
    ((dict.insert key value).moveToEnd key).entries =
      dict.entries.filter (fun entry => entry.1 ≠ key) ++ [(key, value)] := by
  have stored : (dict.insert key value).get? key = some value := by
    rw [get?_insert, if_pos rfl]
  rw [entries_moveToEnd _ stored]
  congr 1
  exact filter_insertEntry key value dict.entries

theorem get?_of_filter {dict picked : OrderedDict Key Value} (pick : Key → Bool)
    (entries : picked.entries = dict.entries.filter (fun entry => pick entry.1)) {key : Key}
    (chosen : pick key = true) : picked.get? key = dict.get? key := by
  apply Option.ext
  intro value
  rw [get?_eq_some_iff, get?_eq_some_iff, entries, List.mem_filter]
  exact ⟨fun both => both.1, fun member => ⟨member, chosen⟩⟩

theorem get?_moveToEnd (dict : OrderedDict Key Value) (key other : Key) :
    (dict.moveToEnd key).get? other = dict.get? other := by
  cases stored : dict.get? key with
  | none =>
      unfold moveToEnd
      rw [stored]
  | some value =>
      apply Option.ext
      intro found
      rw [get?_eq_some_iff, get?_eq_some_iff, entries_moveToEnd dict stored, List.mem_append,
        List.mem_filter, List.mem_singleton]
      by_cases same : other = key
      · subst same
        have known := (get?_eq_some_iff dict other value).mp stored
        have unique := fun member => Option.some.inj
          (stored.symm.trans ((get?_eq_some_iff dict other found).mpr member))
        constructor
        · rintro (⟨_, impossible⟩ | equal)
          · simp at impossible
          · rw [equal]
            exact known
        · intro member
          exact Or.inr (by rw [unique member])
      · constructor
        · rintro (⟨member, _⟩ | equal)
          · exact member
          · exact absurd (congrArg Prod.fst equal) same
        · exact fun member => Or.inl ⟨member, by simpa using same⟩

theorem get?_insert_moveToEnd (dict : OrderedDict Key Value) (key other : Key) (value : Value) :
    ((dict.insert key value).moveToEnd key).get? other =
      if key = other then some value else dict.get? other := by
  rw [get?_moveToEnd, get?_insert]

/-! ### Storing many entries -/

theorem find?_eq_none_of_fresh {key : Key} {entries : List (Key × Value)}
    (fresh : key ∉ entries.map Prod.fst) :
    entries.find? (fun entry => decide (entry.1 = key)) = none := by
  rw [List.find?_eq_none]
  intro entry member same
  exact fresh (of_decide_eq_true same ▸ List.mem_map_of_mem member)

theorem get?_foldl_insert {entries : List (Key × Value)}
    (distinct : (entries.map Prod.fst).Nodup) (dict : OrderedDict Key Value) (key : Key) :
    (entries.foldl (fun acc entry => acc.insert entry.1 entry.2) dict).get? key =
      ((entries.find? (fun entry => entry.1 = key)).map Prod.snd).or (dict.get? key) := by
  induction entries generalizing dict with
  | nil => rfl
  | cons entry rest ih =>
      rw [List.map_cons, List.nodup_cons] at distinct
      rw [List.foldl_cons, ih distinct.2, get?_insert, List.find?_cons]
      by_cases same : entry.1 = key
      · have fresh := find?_eq_none_of_fresh (same ▸ distinct.1)
        simp [same, fresh]
      · simp [same]

/-- What the other dictionary has goes before. -/
theorem get?_update (dict other : OrderedDict Key Value) (key : Key) :
    (dict.update other).get? key = (other.get? key).or (dict.get? key) :=
  get?_foldl_insert other.nodup dict key

/-- An entry is stored if its key is new and it is one to keep. -/
def addNew (keep : Key → Value → Bool) (dict : OrderedDict Key Value) (entry : Key × Value) :
    OrderedDict Key Value :=
  if entry.1 ∈ dict.keys then dict
  else if keep entry.1 entry.2 = true then dict.insert entry.1 entry.2
  else dict

theorem get?_addNew (keep : Key → Value → Bool) (dict : OrderedDict Key Value)
    (entry : Key × Value) (key : Key) :
    (dict.addNew keep entry).get? key = (dict.get? key).or
      (if entry.1 = key ∧ keep entry.1 entry.2 = true then some entry.2 else none) := by
  unfold addNew
  by_cases known : entry.1 ∈ dict.keys
  · rw [if_pos known]
    by_cases same : entry.1 = key
    · obtain ⟨value, stored⟩ := (mem_keys_iff dict entry.1).mp known
      rw [← same, stored]
      rfl
    · simp [same]
  · have absent := (get?_eq_none_iff dict entry.1).mpr known
    rw [if_neg known]
    by_cases kept : keep entry.1 entry.2 = true
    · rw [if_pos kept, get?_insert]
      by_cases same : entry.1 = key
      · subst same
        simp [kept, absent]
      · simp [same]
    · simp [kept]

theorem get?_foldl_addNew (keep : Key → Value → Bool) {entries : List (Key × Value)}
    (distinct : (entries.map Prod.fst).Nodup) (dict : OrderedDict Key Value) (key : Key) :
    (entries.foldl (addNew keep) dict).get? key = (dict.get? key).or
      (((entries.find? (fun entry => entry.1 = key)).map Prod.snd).filter (keep key)) := by
  induction entries generalizing dict with
  | nil => simp
  | cons entry rest ih =>
      rw [List.map_cons, List.nodup_cons] at distinct
      rw [List.foldl_cons, ih distinct.2, get?_addNew, Option.or_assoc, List.find?_cons]
      by_cases same : entry.1 = key
      · subst same
        have fresh := find?_eq_none_of_fresh distinct.1
        by_cases kept : keep entry.1 entry.2 = true
        · simp [kept, fresh, Option.filter]
        · simp [kept, fresh, Option.filter]
      · simp [same]

/-! ### One entry at a time -/

/-- `dict.setdefault(key, value)`. -/
def setDefault (dict : OrderedDict Key Value) (key : Key) (value : Value) :
    OrderedDict Key Value :=
  if key ∈ dict.keys then dict else dict.insert key value

omit [DecidableEq Key] in
/-- `dict.popitem(last=False)`. -/
def popFirst (dict : OrderedDict Key Value) : OrderedDict Key Value :=
  { entries := dict.entries.tail
    nodup := dict.nodup.sublist ((List.tail_sublist dict.entries).map Prod.fst) }

omit [DecidableEq Key] in
theorem ext_entries {dict other : OrderedDict Key Value} (same : dict.entries = other.entries) :
    dict = other := by
  cases dict
  cases other
  cases same
  rfl

theorem insertEntry_insertEntry (key : Key) (first second : Value)
    (entries : List (Key × Value)) :
    insertEntry key second (insertEntry key first entries) = insertEntry key second entries := by
  induction entries with
  | nil => rw [insertEntry, insertEntry_of_eq key second (key, first) [] rfl, insertEntry]
  | cons entry rest ih =>
      by_cases same : entry.1 = key
      · rw [insertEntry_of_eq key first entry rest same,
          insertEntry_of_eq key second (key, first) rest rfl,
          insertEntry_of_eq key second entry rest same]
      · rw [insertEntry_of_ne key first entry rest same,
          insertEntry_of_ne key second entry _ same, ih,
          insertEntry_of_ne key second entry rest same]

theorem insert_setDefault (dict : OrderedDict Key Value) (key : Key) (first second : Value) :
    (dict.setDefault key first).insert key second = dict.insert key second := by
  rw [setDefault]
  split
  · rfl
  · exact ext_entries (insertEntry_insertEntry key first second dict.entries)

theorem get?_setDefault (dict : OrderedDict Key Value) (key : Key) (value : Value) :
    (dict.setDefault key value).get? key = some ((dict.get? key).getD value) := by
  rw [setDefault]
  split
  · rename_i known
    obtain ⟨stored, found⟩ := (mem_keys_iff dict key).mp known
    rw [found, Option.getD_some]
  · rename_i unknown
    rw [get?_insert, if_pos rfl, (get?_eq_none_iff dict key).mpr unknown, Option.getD_none]

omit [DecidableEq Key] in
theorem shrinkEntries_tail {limit : Nat} {entries : List (Key × Value)}
    (above : limit < entries.length) :
    shrinkEntries limit entries.tail = shrinkEntries limit entries := by
  cases entries with
  | nil => rfl
  | cons entry rest =>
      rw [shrinkEntries, if_pos above]
      rfl

omit [DecidableEq Key] in
theorem shrink_of_le (dict : OrderedDict Key Value) {limit : Nat}
    (within : dict.length ≤ limit) : dict.shrink limit = dict := by
  have none : dict.entries.length - limit = 0 := Nat.sub_eq_zero_of_le within
  have same := shrinkEntries_eq_drop limit dict.entries
  rw [none, List.drop_zero] at same
  exact ext_entries same

omit [DecidableEq Key] in
theorem shrink_popFirst (dict : OrderedDict Key Value) {limit : Nat}
    (above : limit < dict.length) : dict.popFirst.shrink limit = dict.shrink limit :=
  ext_entries (shrinkEntries_tail above)

omit [DecidableEq Key] in
theorem length_popFirst (dict : OrderedDict Key Value) :
    dict.popFirst.length = dict.length - 1 :=
  List.length_tail

end OrderedDict
