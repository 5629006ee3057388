/-
What a trim removes from Redis.

The worker takes the keys of a family from a scan, which yields what matches a glob
pattern, and may yield a key more than once.  The keys it deletes are the most idle of
those it was given, as many as the scan was longer than the limit.
-/

import AsPlatform.StateStore.Redis
import AsPlatform.StateStore.InMemory

namespace AsPlatform

variable {Record Text Error : Type}

namespace Redis

def family (redis : Redis Text) (pre : String) : List String :=
  redis.values.keys.filter (startsWith pre)

def matched (redis : Redis Text) (glob : String → String → Bool) (pre : String) : List String :=
  redis.values.keys.filter (glob (pre ++ "*"))

/-- A scan yields every key that the pattern matches, in any order and any number of
times, and no other. -/
def Scans (redis : Redis Text) (glob : String → String → Bool) (pre : String)
    (scanned : List String) : Prop :=
  ∀ key, key ∈ scanned ↔ key ∈ redis.matched glob pre

def trim (codec : Codec Record Text Error) (scanned : List String) (redis : Redis Text)
    (pre : String) (limit : Nat) : Redis Text × Except Error Record :=
  (work codec (.trim pre limit)).run (serve scanned) redis

def gone (before after : Redis Text) : List String :=
  before.values.keys.filter fun key => key ∉ after.values.keys

/-- How many matched keys go ahead of a key: those more idle, and those as idle that the
scan yields earlier. -/
def rank (redis : Redis Text) (glob : String → String → Bool) (pre : String)
    (scanned : List String) (key : String) : Nat :=
  (redis.matched glob pre).countP fun other =>
    Ranking.Ahead redis.idle (fun found => scanned.idxOf found) other key

end Redis

structure RemovesExcess (before after : Redis Text) (pre : String) (limit : Nat) : Prop where
  family : ∀ key, key ∈ before.gone after → startsWith pre key = true
  count : (before.gone after).length = (before.family pre).length - limit
  idlest : ∀ removed kept, removed ∈ before.gone after → kept ∈ before.family pre →
    kept ∉ before.gone after → before.idle kept ≤ before.idle removed

/-- The scan is as long as the family where it counts, and the pattern and the prefix
differ on no key that would be taken or spared wrongly. -/
structure ScanFits (redis : Redis Text) (glob : String → String → Bool) (scanned : List String)
    (pre : String) (limit : Nat) : Prop where
  counted : min (scanned.length - limit) (redis.matched glob pre).length =
    (redis.family pre).length - limit
  strangers : ∀ key, key ∈ redis.matched glob pre → startsWith pre key = false →
    scanned.length - limit ≤ redis.rank glob pre scanned key
  missed : ∀ key other, key ∈ redis.family pre → glob (pre ++ "*") key = false →
    other ∈ redis.matched glob pre →
      redis.rank glob pre scanned other < scanned.length - limit →
        redis.idle key ≤ redis.idle other

/-! ### The idle times -/

namespace Redis

/-- The dictionary that the loop over the scanned keys builds. -/
def noted (redis : Redis Text) (keys : List String) : OrderedDict String Nat :=
  keys.foldl (fun idle key => idle.insert key (redis.idle key)) ∅

theorem run_idleTimes (scanned : List String) (redis : Redis Text) (keys : List String)
    (idle : OrderedDict String Nat) (stored : ∀ key, key ∈ keys → key ∈ redis.values.keys) :
    (idleTimes keys idle : RedisProgram Text Error _).run (serve scanned) redis =
      (redis, .ok (keys.foldl (fun idle key => idle.insert key (redis.idle key)) idle)) := by
  induction keys generalizing idle with
  | nil => rfl
  | cons key keys ih =>
      have present := stored key List.mem_cons_self
      rw [idleTimes, Asking.run_bind_ok _ (run_objectIdletime scanned redis key), if_pos present,
        Option.getD_some, List.foldl_cons]
      exact ih _ (fun other member => stored other (List.mem_cons_of_mem key member))

theorem noted_append (redis : Redis Text) (keys : List String) (last : String) :
    redis.noted (keys ++ [last]) = (redis.noted keys).insert last (redis.idle last) := by
  rw [noted, List.foldl_append]
  rfl

theorem mem_keys_noted (redis : Redis Text) (keys : List String) (key : String) :
    key ∈ (redis.noted keys).keys ↔ key ∈ keys := by
  induction keys using List.reverseRecOn with
  | nil => rfl
  | append_singleton keys last ih =>
      rw [noted_append, OrderedDict.keys_insert]
      split
      · rename_i known
        rw [List.mem_append, List.mem_singleton]
        constructor
        · exact fun member => Or.inl (ih.mp member)
        · rintro (member | equal)
          · exact ih.mpr member
          · rw [equal]
            exact known
      · rw [List.mem_append, List.mem_append, ih]

theorem keys_noted_ordered (redis : Redis Text) (keys : List String) :
    (redis.noted keys).keys.Pairwise
      (fun left right => keys.idxOf left < keys.idxOf right) := by
  induction keys using List.reverseRecOn with
  | nil => exact List.Pairwise.nil
  | append_singleton keys last ih =>
      have sameIndex : ∀ key, key ∈ (redis.noted keys).keys →
          (keys ++ [last]).idxOf key = keys.idxOf key := fun key member =>
        List.idxOf_append_of_mem ((mem_keys_noted redis keys key).mp member)
      have earlier : (redis.noted keys).keys.Pairwise
          (fun left right => (keys ++ [last]).idxOf left < (keys ++ [last]).idxOf right) := by
        refine ih.imp_of_mem ?_
        intro left right leftMember rightMember before
        rw [sameIndex left leftMember, sameIndex right rightMember]
        exact before
      rw [noted_append, OrderedDict.keys_insert]
      split
      · exact earlier
      · rename_i fresh
        rw [List.pairwise_append]
        refine ⟨earlier, List.pairwise_singleton _ _, ?_⟩
        intro key member other isLast
        have unseen : last ∉ keys := fun seen => fresh ((mem_keys_noted redis keys last).mpr seen)
        rw [List.mem_singleton.mp isLast, sameIndex key member,
          List.idxOf_append_of_notMem unseen]
        have bound := List.idxOf_lt_length_of_mem ((mem_keys_noted redis keys key).mp member)
        omega

theorem noted_idle (redis : Redis Text) (keys : List String) (entry : String × Nat)
    (member : entry ∈ (redis.noted keys).entries) : entry.2 = redis.idle entry.1 := by
  induction keys using List.reverseRecOn with
  | nil => cases member
  | append_singleton keys last ih =>
      have found := (OrderedDict.get?_eq_some_iff _ _ _).mpr member
      rw [noted_append, OrderedDict.get?_insert] at found
      split at found
      · rename_i same
        rw [← Option.some.inj found, same]
      · exact ih ((OrderedDict.get?_eq_some_iff _ _ _).mp found)

/-! ### The keys that are deleted -/

theorem run_deleteAll (scanned : List String) (redis : Redis Text) (keys : List String) :
    (deleteAll keys : RedisProgram Text Error Unit).run (serve scanned) redis =
      ({ redis with values := keys.foldl OrderedDict.erase redis.values }, .ok ()) := by
  induction keys generalizing redis with
  | nil => rfl
  | cons key keys ih =>
      rw [deleteAll, Asking.run_bind_ok _ (run_delete scanned redis key), ih, List.foldl_cons]

theorem countP_noted (redis : Redis Text) (scanned : List String) (entry : String × Nat)
    (member : entry ∈ (redis.noted scanned).entries) :
    (redis.noted scanned).entries.countP (fun other =>
        Ranking.Ahead Prod.snd (fun found => scanned.idxOf found.1) other entry) =
      (redis.noted scanned).keys.countP (fun other =>
        Ranking.Ahead redis.idle (fun found => scanned.idxOf found) other entry.1) := by
  rw [OrderedDict.keys, List.countP_map]
  apply List.countP_congr
  intro other otherMember
  have otherIdle := noted_idle redis scanned other otherMember
  have entryIdle := noted_idle redis scanned entry member
  rw [Function.comp_apply, decide_eq_true_eq, decide_eq_true_eq, Ranking.Ahead, Ranking.Ahead,
    otherIdle, entryIdle]

theorem mem_evicted_iff (redis : Redis Text) (scanned : List String) (count : Nat)
    (key : String) :
    key ∈ evicted (redis.noted scanned) count ↔
      key ∈ (redis.noted scanned).keys ∧ (redis.noted scanned).keys.countP (fun other =>
        Ranking.Ahead redis.idle (fun found => scanned.idxOf found) other key) < count := by
  have inOrder : (redis.noted scanned).entries.Pairwise
      (fun left right => scanned.idxOf left.1 < scanned.idxOf right.1) := by
    have ordered := keys_noted_ordered redis scanned
    rw [OrderedDict.keys, List.pairwise_map] at ordered
    exact ordered
  rw [evicted, sliceTo_natCast, List.mem_map]
  constructor
  · rintro ⟨entry, first, rfl⟩
    obtain ⟨member, few⟩ := (Ranking.mem_take_byWeight _ inOrder count entry).mp first
    rw [countP_noted redis scanned entry member] at few
    exact ⟨List.mem_map_of_mem member, few⟩
  · rintro ⟨present, few⟩
    obtain ⟨entry, member, rfl⟩ := List.mem_map.mp present
    rw [← countP_noted redis scanned entry member] at few
    exact ⟨entry, (Ranking.mem_take_byWeight _ inOrder count entry).mpr ⟨member, few⟩, rfl⟩

theorem evicted_sublist (idle : OrderedDict String Nat) (count : Nat) :
    (evicted idle count).Sublist ((Ranking.byWeight Prod.snd idle.entries).map Prod.fst) := by
  rw [evicted, sliceTo_natCast]
  exact (List.take_sublist _ _).map Prod.fst

theorem evicted_nodup (idle : OrderedDict String Nat) (count : Nat) :
    (evicted idle count).Nodup :=
  (((Ranking.byWeight_perm Prod.snd idle.entries).map Prod.fst).nodup_iff.mpr idle.nodup).sublist
    (evicted_sublist idle count)

theorem length_evicted (idle : OrderedDict String Nat) (count : Nat) :
    (evicted idle count).length = min count idle.keys.length := by
  rw [evicted, sliceTo_natCast, List.length_map, List.length_take,
    (Ranking.byWeight_perm Prod.snd idle.entries).length_eq, OrderedDict.keys, List.length_map]

/-! ### What a trim leaves -/

variable (codec : Codec Record Text Error) {redis : Redis Text} {glob : String → String → Bool}
  {pre : String} {scanned : List String}

theorem Scans.stored (scans : redis.Scans glob pre scanned) (key : String)
    (member : key ∈ scanned) : key ∈ redis.values.keys :=
  (List.mem_filter.mp ((scans key).mp member)).1

/-- The keys that the scan yields, each once, are the matched keys. -/
theorem Scans.perm (scans : redis.Scans glob pre scanned) :
    (redis.noted scanned).keys.Perm (redis.matched glob pre) := by
  have distinct : (redis.matched glob pre).Nodup := redis.values.keys_nodup.filter _
  rw [List.perm_ext_iff_of_nodup (redis.noted scanned).keys_nodup distinct]
  intro key
  rw [mem_keys_noted]
  exact scans key

/-- The worker deletes the keys it chose, and returns. -/
theorem trim_eq (scans : redis.Scans glob pre scanned) (limit : Nat) :
    redis.trim codec scanned pre limit =
      ({ redis with
          values := (evicted (redis.noted scanned)
            ((scanned.length - limit : Nat) : Int)).foldl OrderedDict.erase redis.values },
        .ok codec.none) := by
  rw [trim, work, Asking.run_bind_ok _ (run_scanIter scanned redis (pre ++ "*"))]
  split
  · rename_i above
    have excess : (scanned.length : Int) - limit = ((scanned.length - limit : Nat) : Int) := by
      omega
    rw [Asking.run_bind_ok _ (run_idleTimes scanned redis scanned ∅ scans.stored), excess,
      Asking.run_bind_ok _ (run_deleteAll scanned redis _)]
    rfl
  · rename_i within
    have nothing : scanned.length - limit = 0 := by omega
    rw [nothing, evicted, sliceTo_natCast, List.take_zero]
    rfl

theorem mem_gone_iff (scans : redis.Scans glob pre scanned) (limit : Nat) (key : String) :
    key ∈ redis.gone (redis.trim codec scanned pre limit).1 ↔
      key ∈ redis.matched glob pre ∧
        redis.rank glob pre scanned key < scanned.length - limit := by
  rw [gone, trim_eq codec scans, List.mem_filter, decide_eq_true_eq,
    OrderedDict.mem_keys_eraseAll, mem_evicted_iff, scans.perm.mem_iff, scans.perm.countP_eq]
  constructor
  · rintro ⟨stored, gone⟩
    by_contra kept
    exact gone ⟨stored, kept⟩
  · intro removed
    exact ⟨(List.mem_filter.mp removed.1).1, fun kept => kept.2 removed⟩

theorem length_gone (scans : redis.Scans glob pre scanned) (limit : Nat) :
    (redis.gone (redis.trim codec scanned pre limit).1).length =
      min (scanned.length - limit) (redis.matched glob pre).length := by
  have same : (redis.gone (redis.trim codec scanned pre limit).1).Perm
      (evicted (redis.noted scanned) ((scanned.length - limit : Nat) : Int)) := by
    have distinct : (redis.gone (redis.trim codec scanned pre limit).1).Nodup :=
      redis.values.keys_nodup.filter _
    rw [List.perm_ext_iff_of_nodup distinct (evicted_nodup _ _)]
    intro key
    rw [mem_gone_iff codec scans, mem_evicted_iff, scans.perm.mem_iff, scans.perm.countP_eq]
    rfl
  rw [same.length_eq, length_evicted, scans.perm.length_eq]

end Redis

/-- A trim removes exactly the excess of its family, whatever the pattern matches and
the scan yields, if and only if the scan fits. -/
theorem removesExcess_iff (codec : Codec Record Text Error) (glob : String → String → Bool)
    (redis : Redis Text) (scanned : List String) (pre : String) (limit : Nat)
    (scans : redis.Scans glob pre scanned) :
    RemovesExcess redis (redis.trim codec scanned pre limit).1 pre limit ↔
      ScanFits redis glob scanned pre limit := by
  have removedIff := Redis.mem_gone_iff codec scans limit
  have count := Redis.length_gone codec scans limit
  constructor
  · intro exactly
    refine ⟨count.symm.trans exactly.count, ?_, ?_⟩
    · intro key isMatched stranger
      by_contra early
      have own := exactly.family key ((removedIff key).mpr ⟨isMatched, Nat.lt_of_not_le early⟩)
      rw [stranger] at own
      cases own
    · intro key other inFamily unmatched isMatched early
      refine exactly.idlest other key ((removedIff other).mpr ⟨isMatched, early⟩) inFamily ?_
      intro removed
      have pattern := (List.mem_filter.mp ((removedIff key).mp removed).1).2
      rw [unmatched] at pattern
      cases pattern
  · intro fits
    refine ⟨?_, count.trans fits.counted, ?_⟩
    · intro key removed
      obtain ⟨isMatched, early⟩ := (removedIff key).mp removed
      by_contra stranger
      exact Nat.not_le_of_lt early
        (fits.strangers key isMatched (Bool.eq_false_of_not_eq_true stranger))
    · intro removed kept isRemoved inFamily isKept
      obtain ⟨isMatched, early⟩ := (removedIff removed).mp isRemoved
      by_cases pattern : glob (pre ++ "*") kept = true
      · have keptMatched : kept ∈ redis.matched glob pre :=
          List.mem_filter.mpr ⟨(List.mem_filter.mp inFamily).1, pattern⟩
        apply Ranking.weight_le_of_countP_lt
        refine Nat.lt_of_lt_of_le early (Nat.le_of_not_lt fun alsoEarly => ?_)
        exact isKept ((removedIff kept).mpr ⟨keptMatched, alsoEarly⟩)
      · exact fits.missed kept removed inFamily (Bool.eq_false_of_not_eq_true pattern) isMatched
          early

/-! ### Where the scan does not fit -/

def plainGlob (pattern key : String) : Bool :=
  startsWith (String.ofList pattern.toList.dropLast) key

def threeWindows : Redis Nat :=
  { values := ((OrderedDict.singleton "w:a" 1).insert "w:b" 2).insert "w:c" 3
    idle := fun key => if key = "w:a" then 30 else if key = "w:b" then 20 else 10 }

def recordCodec : Codec Nat Nat PyError :=
  { none := 0
    dumps := .ok
    loads := .ok }

/-- The scan yields a key twice, and a family within its limit loses a key. -/
theorem not_removesExcess :
    threeWindows.Scans plainGlob "w:" ["w:a", "w:b", "w:a", "w:c"] ∧
      ¬RemovesExcess threeWindows
        (threeWindows.trim recordCodec ["w:a", "w:b", "w:a", "w:c"] "w:" 3).1 "w:" 3 := by
  constructor
  · have same : threeWindows.matched plainGlob "w:" = ["w:a", "w:b", "w:c"] := by
      decide
    intro key
    rw [same]
    simp only [List.mem_cons, List.not_mem_nil]
    tauto
  · intro exactly
    have count := exactly.count
    revert count
    decide

/-- A scan that yields each key once leaves the limit. -/
theorem removesExcess_iff_once :
    threeWindows.Scans plainGlob "w:" ["w:c", "w:a", "w:b"] ∧
      (RemovesExcess threeWindows
          (threeWindows.trim recordCodec ["w:c", "w:a", "w:b"] "w:" 2).1 "w:" 2 ↔
        ScanFits threeWindows plainGlob ["w:c", "w:a", "w:b"] "w:" 2) := by
  have scans : threeWindows.Scans plainGlob "w:" ["w:c", "w:a", "w:b"] := by
    have same : threeWindows.matched plainGlob "w:" = ["w:a", "w:b", "w:c"] := by
      decide
    intro key
    rw [same]
    simp only [List.mem_cons, List.not_mem_nil]
    tauto
  exact ⟨scans, removesExcess_iff recordCodec plainGlob threeWindows _ "w:" 2 scans⟩

theorem Redis.Scans.length_le {redis : Redis Text} {glob : String → String → Bool}
    {pre : String} {scanned : List String} (scans : redis.Scans glob pre scanned) :
    (redis.matched glob pre).length ≤ scanned.length ∧
      ((redis.matched glob pre).length = scanned.length ↔ scanned.Nodup) := by
  have distinct : (redis.matched glob pre).Nodup := redis.values.keys_nodup.filter _
  have inside : (redis.matched glob pre).Subperm scanned :=
    List.subperm_of_subset distinct (fun key member => (scans key).mpr member)
  refine ⟨inside.length_le, ?_, ?_⟩
  · intro same
    exact (inside.perm_of_length_le same.ge).nodup_iff.mp distinct
  · intro once
    exact ((List.perm_ext_iff_of_nodup distinct once).mpr fun key => (scans key).symm).length_eq

theorem scanFits_iff_of_plain {redis : Redis Text} {glob : String → String → Bool}
    {pre : String} {scanned : List String} (scans : redis.Scans glob pre scanned) (limit : Nat)
    (plain : ∀ key, key ∈ redis.values.keys → glob (pre ++ "*") key = startsWith pre key) :
    ScanFits redis glob scanned pre limit ↔
      scanned.length ≤ limit ∨ scanned.Nodup ∨ limit = 0 := by
  have same : redis.matched glob pre = redis.family pre :=
    List.filter_congr plain
  obtain ⟨shorter, onceIff⟩ := scans.length_le
  rw [same] at shorter onceIff
  have empty : (redis.family pre).length = 0 → scanned.length = 0 := by
    intro none
    rw [List.length_eq_zero_iff, List.eq_nil_iff_forall_not_mem]
    intro key member
    have found := (scans key).mp member
    rw [same, List.length_eq_zero_iff.mp none] at found
    cases found
  have counted : min (scanned.length - limit) (redis.family pre).length =
      (redis.family pre).length - limit ↔
        scanned.length ≤ limit ∨ (redis.family pre).length = scanned.length ∨ limit = 0 := by
    omega
  rw [onceIff] at counted
  rw [← counted]
  constructor
  · intro fits
    have both := fits.counted
    rw [same] at both
    exact both
  · intro count
    refine ⟨by rw [same]; exact count, ?_, ?_⟩
    · intro key isMatched stranger
      have stored := (List.mem_filter.mp isMatched)
      rw [plain key stored.1, stranger] at stored
      cases stored.2
    · intro key other inFamily unmatched
      have stored := (List.mem_filter.mp inFamily)
      rw [plain key stored.1, stored.2] at unmatched
      cases unmatched

end AsPlatform
