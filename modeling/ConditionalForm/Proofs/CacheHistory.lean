import ConditionalForm.Proofs.CacheEntries
import Mathlib.Data.List.Nodup

set_option autoImplicit false

namespace ConditionalForm.Cache

inductive Event (κ α : Type) where
  | stored (key : κ) (value : α) (now : Nat)
  | asked (key : κ) (now : Nat) (answer : Option α)
  | cleared

variable {κ α : Type}

theorem least_used_member (entries : List (CacheEntry κ α)) (entry : CacheEntry κ α)
    (found : leastUsed? entries = some entry) : entry ∈ entries := by
  induction entries generalizing entry with
  | nil => cases found
  | cons first others ih =>
      rw [leastUsed?] at found
      split at found
      · cases found
        exact List.mem_cons_self
      · rename_i other later
        split at found
        · cases found
          exact List.mem_cons_of_mem _ (ih entry later)
        · cases found
          exact List.mem_cons_self

theorem least_used_none (entries : List (CacheEntry κ α)) (none : leastUsed? entries = none) :
    entries = [] := by
  cases entries with
  | nil => rfl
  | cons first others =>
      rw [leastUsed?] at none
      split at none
      · cases none
      · split at none <;> cases none

variable [DecidableEq κ]

-- Pasts have their latest event first. What was stored before a clearing does not count.
def lastStored (key : κ) : List (Event κ α) → Option α
  | [] => none
  | .stored other value _ :: past => if other = key then some value else lastStored key past
  | .asked _ _ _ :: past => lastStored key past
  | .cleared :: _ => none

def lastTouched (key : κ) : List (Event κ α) → Option Nat
  | [] => none
  | .stored other _ now :: past => if other = key then some now else lastTouched key past
  | .asked other now answer :: past =>
      if other = key ∧ answer.isSome = true then some now else lastTouched key past
  | .cleared :: past => lastTouched key past

inductive Run (capacity timeToLive : Nat) : List (Event κ α) → Cache κ α → Prop
  | start : Run capacity timeToLive [] (empty capacity timeToLive)
  | insert {past : List (Event κ α)} {cache : Cache κ α} (key : κ) (value : α) (now : Nat)
      (run : Run capacity timeToLive past cache) :
      Run capacity timeToLive (.stored key value now :: past) (cache.insert key value now)
  | get {past : List (Event κ α)} {cache : Cache κ α} (key : κ) (now : Nat)
      (run : Run capacity timeToLive past cache) :
      Run capacity timeToLive (.asked key now (cache.get key now).1 :: past) (cache.get key now).2
  | clear {past : List (Event κ α)} {cache : Cache κ α} (run : Run capacity timeToLive past cache) :
      Run capacity timeToLive (.cleared :: past) cache.clear
  | rearrange {past : List (Event κ α)} {cache : Cache κ α} {entries : List (CacheEntry κ α)}
      (run : Run capacity timeToLive past cache) (same : entries.Perm cache.entries) :
      Run capacity timeToLive past { cache with entries := entries }

def keys (cache : Cache κ α) : List κ := cache.entries.map CacheEntry.key

theorem contains_iff (key : κ) (cache : Cache κ α) : cache.contains key = true ↔ key ∈ cache.keys := by
  simp [contains, find?, keys, List.find?_isSome]

theorem contains_entry (cache : Cache κ α) (entry : CacheEntry κ α) (member : entry ∈ cache.entries) :
    cache.contains entry.key = true :=
  (contains_iff entry.key cache).mpr (List.mem_map_of_mem member)

section Operations

variable (cache : Cache κ α)

theorem put_keys (fresh : CacheEntry κ α) : (cache.put fresh).keys =
    if cache.contains fresh.key then cache.keys else cache.keys ++ [fresh.key] := by
  rw [put]
  split
  · rw [keys, keys, List.map_map]
    refine List.map_congr_left fun entry _ => ?_
    by_cases same : entry.key = fresh.key <;> simp [same]
  · simp [keys]

theorem put_distinct (fresh : CacheEntry κ α) (distinct : cache.keys.Nodup) :
    (cache.put fresh).keys.Nodup := by
  rw [put_keys]
  split
  · exact distinct
  · rename_i absent
    rw [contains_iff] at absent
    refine List.nodup_append.mpr ⟨distinct, List.pairwise_singleton _ _, fun key inKeys other single => ?_⟩
    rw [List.mem_singleton.mp single]
    exact fun same => absent (same ▸ inKeys)

theorem put_size (fresh : CacheEntry κ α) : (cache.put fresh).size =
    if cache.contains fresh.key then cache.size else cache.size + 1 := by
  rw [put]
  split <;> simp [size]

theorem put_limits (fresh : CacheEntry κ α) : (cache.put fresh).capacity = cache.capacity ∧
    (cache.put fresh).timeToLive = cache.timeToLive := by
  rw [put]
  split <;> exact ⟨rfl, rfl⟩

theorem put_contains (fresh : CacheEntry κ α) : (cache.put fresh).contains fresh.key = true :=
  contains_entry _ fresh ((mem_put_iff fresh cache fresh).mpr (.inl rfl))

theorem erase_distinct (key : κ) (distinct : cache.keys.Nodup) : (cache.erase key).keys.Nodup :=
  (List.filter_sublist.map CacheEntry.key).nodup distinct

theorem erase_size_le (key : κ) : (cache.erase key).size ≤ cache.size := List.length_filter_le _ _

theorem erase_size (key : κ) (held : cache.contains key = true) :
    (cache.erase key).size < cache.size := by
  obtain ⟨entry, member, same⟩ := List.mem_map.mp ((contains_iff key cache).mp held)
  exact List.length_filter_lt_length_iff_exists.mpr ⟨entry, member, by simp [same]⟩

theorem erase_contains (key : κ) : (cache.erase key).contains key = false := by
  rw [Bool.eq_false_iff, Ne, contains_iff]
  intro held
  obtain ⟨entry, member, same⟩ := List.mem_map.mp held
  exact absurd same (by simpa using (List.mem_filter.mp member).2)

theorem erase_member (key : κ) (entry : CacheEntry κ α) (member : entry ∈ cache.entries)
    (other : entry.key ≠ key) : entry ∈ (cache.erase key).entries :=
  List.mem_filter.mpr ⟨member, by simpa using other⟩

omit [DecidableEq κ] in
theorem victim_member (now : Nat) (victim : CacheEntry κ α) (chosen : cache.victim? now = some victim) :
    victim ∈ cache.entries := by
  rcases Option.or_eq_some_iff.mp chosen with expired | ⟨_, least⟩
  · exact List.mem_of_find?_eq_some expired
  · exact least_used_member cache.entries victim least

theorem evict_victim (now : Nat) (filled : 0 < cache.size) :
    ∃ victim, cache.victim? now = some victim ∧ cache.evict now = cache.erase victim.key := by
  rw [evict]
  cases chosen : cache.victim? now with
  | some victim => exact ⟨victim, rfl, rfl⟩
  | none =>
      have empty := least_used_none cache.entries (Option.or_eq_none_iff.mp chosen).2
      rw [size, empty] at filled
      cases filled

theorem evict_erases (now : Nat) (filled : 0 < cache.size) :
    ∃ key, cache.contains key = true ∧ cache.evict now = cache.erase key := by
  obtain ⟨victim, chosen, evicted⟩ := evict_victim cache now filled
  exact ⟨victim.key, contains_entry cache victim (victim_member cache now victim chosen), evicted⟩

theorem insert_cases (key : κ) (value : α) (now : Nat) (room : 0 < cache.capacity) :
    (cache.contains key = true ∨ cache.size < cache.capacity) ∧
        cache.insert key value now = cache.put ⟨key, value, now, 1⟩ ∨
      cache.contains key = false ∧ cache.capacity ≤ cache.size ∧
        ∃ victim, cache.contains victim = true ∧
          cache.insert key value now = (cache.erase victim).put ⟨key, value, now, 1⟩ := by
  rw [insert, if_neg (Nat.ne_of_gt room)]
  cases held : cache.contains key with
  | true => exact .inl ⟨.inl rfl, rfl⟩
  | false =>
      by_cases fits : cache.size < cache.capacity
      · exact .inl ⟨.inr fits, by simp [fits]⟩
      · have full := Nat.le_of_not_lt fits
        obtain ⟨victim, inCache, evicted⟩ := evict_erases cache now (Nat.lt_of_lt_of_le room full)
        exact .inr ⟨rfl, full, victim, inCache, by simp [fits, evicted]⟩

theorem get_cases (key : κ) (now : Nat) :
    cache.contains key = false ∧ cache.get key now = (none, cache) ∨
      ∃ entry ∈ cache.entries, entry.key = key ∧
        (entry.expired cache.timeToLive now = true ∧ cache.get key now = (none, cache.erase key) ∨
          entry.expired cache.timeToLive now = false ∧ cache.get key now =
            (some entry.value, cache.put { entry with hits := entry.hits + 1, touched := now })) := by
  rw [get]
  cases found : cache.find? key with
  | none => exact .inl ⟨by rw [contains, found]; rfl, rfl⟩
  | some entry =>
      obtain ⟨inCache, keyed⟩ := find_entry key cache entry found
      refine .inr ⟨entry, inCache, keyed, ?_⟩
      cases expired : entry.expired cache.timeToLive now with
      | true => exact .inl ⟨rfl, by simp [expired]⟩
      | false => exact .inr ⟨rfl, by simp [expired]⟩

end Operations

def Recorded (past : List (Event κ α)) (entry : CacheEntry κ α) : Prop :=
  lastStored entry.key past = some entry.value ∧ lastTouched entry.key past = some entry.touched

structure Kept (capacity timeToLive : Nat) (past : List (Event κ α)) (cache : Cache κ α) : Prop where
  limits : cache.capacity = capacity ∧ cache.timeToLive = timeToLive
  distinct : cache.keys.Nodup
  bounded : cache.size ≤ capacity
  recorded : ∀ entry ∈ cache.entries, Recorded past entry

section Kept

variable {capacity timeToLive : Nat} {past : List (Event κ α)} {cache : Cache κ α}

theorem erase_kept (key : κ) (kept : Kept capacity timeToLive past cache) :
    Kept capacity timeToLive past (cache.erase key) where
  limits := kept.limits
  distinct := erase_distinct cache key kept.distinct
  bounded := Nat.le_trans (erase_size_le cache key) kept.bounded
  recorded := fun entry member => kept.recorded entry (erase_entries key cache entry member)

theorem put_kept (fresh : CacheEntry κ α) (event : Event κ α) (kept : Kept capacity timeToLive past cache)
    (room : cache.contains fresh.key = true ∨ cache.size < capacity)
    (recorded : Recorded (event :: past) fresh)
    (others : ∀ entry, entry.key ≠ fresh.key → Recorded past entry → Recorded (event :: past) entry) :
    Kept capacity timeToLive (event :: past) (cache.put fresh) where
  limits := ⟨(put_limits cache fresh).1.trans kept.limits.1, (put_limits cache fresh).2.trans kept.limits.2⟩
  distinct := put_distinct cache fresh kept.distinct
  bounded := by
    rw [put_size]
    split
    · exact kept.bounded
    · rename_i absent
      exact room.resolve_left absent
  recorded := by
    intro entry member
    rcases (mem_put_iff fresh cache entry).mp member with rfl | ⟨inCache, other⟩
    · exact recorded
    · exact others entry other (kept.recorded entry inCache)

theorem stored_recorded (key : κ) (value : α) (now : Nat) (entry : CacheEntry κ α)
    (other : entry.key ≠ key) (recorded : Recorded past entry) :
    Recorded (.stored key value now :: past) entry := by
  rw [Recorded, lastStored, lastTouched, if_neg other.symm, if_neg other.symm]
  exact recorded

theorem asked_recorded (key : κ) (now : Nat) (answer : Option α) (entry : CacheEntry κ α)
    (other : entry.key ≠ key ∨ answer = none) (recorded : Recorded past entry) :
    Recorded (.asked key now answer :: past) entry := by
  have unfound : ¬ (key = entry.key ∧ answer.isSome = true) := by
    rintro ⟨same, found⟩
    rcases other with other | missed
    · exact other same.symm
    · rw [missed] at found
      cases found
  rw [Recorded, lastStored, lastTouched, if_neg unfound]
  exact recorded

theorem insert_kept (key : κ) (value : α) (now : Nat) (kept : Kept capacity timeToLive past cache) :
    Kept capacity timeToLive (.stored key value now :: past) (cache.insert key value now) := by
  have fresh : Recorded (.stored key value now :: past) ⟨key, value, now, 1⟩ := by
    rw [Recorded, lastStored, lastTouched, if_pos rfl, if_pos rfl]
    exact ⟨rfl, rfl⟩
  by_cases room : 0 < cache.capacity
  · rcases insert_cases cache key value now room with ⟨fits, made⟩ | ⟨_, _, victim, held, made⟩
    · rw [made]
      exact put_kept _ _ kept (kept.limits.1 ▸ fits) fresh (stored_recorded key value now)
    · have below := Nat.lt_of_lt_of_le (erase_size cache victim held) kept.bounded
      rw [made]
      exact put_kept _ _ (erase_kept victim kept) (.inr below) fresh (stored_recorded key value now)
  · have none : cache.capacity = 0 := Nat.eq_zero_of_not_pos room
    have empty : cache.entries = [] :=
      List.eq_nil_of_length_eq_zero (Nat.le_zero.mp (none ▸ kept.limits.1 ▸ kept.bounded))
    rw [insert_without_room key value now cache none]
    refine { kept with recorded := fun entry member => ?_ }
    rw [empty] at member
    cases member

theorem get_kept (key : κ) (now : Nat) (kept : Kept capacity timeToLive past cache) :
    Kept capacity timeToLive (.asked key now (cache.get key now).1 :: past) (cache.get key now).2 := by
  have missed (after : Cache κ α) (same : Kept capacity timeToLive past after) :
      Kept capacity timeToLive (.asked key now none :: past) after :=
    { same with recorded := fun entry member =>
        asked_recorded key now none entry (.inr rfl) (same.recorded entry member) }
  rcases get_cases cache key now with ⟨_, made⟩ | ⟨entry, member, rfl, ⟨_, made⟩ | ⟨_, made⟩⟩
  · rw [made]
    exact missed cache kept
  · rw [made]
    exact missed _ (erase_kept entry.key kept)
  · rw [made]
    refine put_kept _ _ kept (.inl (contains_entry cache entry member)) ⟨?_, ?_⟩ fun other apart recorded =>
      asked_recorded _ now _ other (.inl apart) recorded
    · exact (kept.recorded entry member).1
    · rw [lastTouched, if_pos ⟨rfl, rfl⟩]

theorem run_kept (run : Run capacity timeToLive past cache) : Kept capacity timeToLive past cache := by
  induction run with
  | start => exact ⟨⟨rfl, rfl⟩, List.nodup_nil, Nat.zero_le _, nofun⟩
  | insert key value now _ ih => exact insert_kept key value now ih
  | get key now _ ih => exact get_kept key now ih
  | clear _ ih => exact ⟨ih.limits, List.nodup_nil, Nat.zero_le _, nofun⟩
  | rearrange _ same ih =>
      exact {
        limits := ih.limits
        distinct := (same.map CacheEntry.key).nodup_iff.mpr ih.distinct
        bounded := Nat.le_trans (Nat.le_of_eq same.length_eq) ih.bounded
        recorded := fun entry member => ih.recorded entry (same.mem_iff.mp member) }

end Kept

def Retains (cache : Cache κ α) (key : κ) (now : Nat) (after : Cache κ α) : Prop :=
  ∀ entry ∈ cache.entries, entry.expired cache.timeToLive now = false →
    after.contains entry.key = true ∧ (entry.key ≠ key → entry ∈ after.entries)

theorem put_retains (cache : Cache κ α) (fresh : CacheEntry κ α) (now : Nat) :
    cache.Retains fresh.key now (cache.put fresh) := by
  intro entry member _
  have kept (other : entry.key ≠ fresh.key) : entry ∈ (cache.put fresh).entries :=
    (mem_put_iff fresh cache entry).mpr (.inr ⟨member, other⟩)
  refine ⟨?_, kept⟩
  by_cases same : entry.key = fresh.key
  · rw [same]
    exact put_contains cache fresh
  · exact contains_entry _ entry (kept same)

theorem get_retains (cache : Cache κ α) (key : κ) (now : Nat) (distinct : cache.keys.Nodup) :
    cache.Retains key now (cache.get key now).2 := by
  rcases get_cases cache key now with ⟨_, made⟩ | ⟨old, inCache, rfl, ⟨expired, made⟩ | ⟨_, made⟩⟩
  · rw [made]
    exact fun entry member _ => ⟨contains_entry cache entry member, fun _ => member⟩
  · rw [made]
    intro entry member fresh
    have other : entry.key ≠ old.key := by
      intro same
      have only : entry = old := List.inj_on_of_nodup_map distinct member inCache same
      rw [only, expired] at fresh
      cases fresh
    have kept := erase_member cache old.key entry member other
    exact ⟨contains_entry _ entry kept, fun _ => kept⟩
  · rw [made]
    exact put_retains cache _ now

structure Faithful (capacity timeToLive : Nat) (past : List (Event κ α)) (cache : Cache κ α) : Prop where
  bounded : cache.size ≤ capacity
  holdsNothing : capacity = 0 → ∀ key, cache.contains key = false
  insertHolds : 0 < capacity → ∀ key value now, (cache.insert key value now).contains key = true
  hit : ∀ key now value, (cache.get key now).1 = some value → lastStored key past = some value ∧
    ∃ touched, lastTouched key past = some touched ∧ now - touched ≤ timeToLive
  miss : ∀ key now, (cache.get key now).1 = none → (cache.get key now).2.contains key = false
  getRetains : ∀ key now, cache.Retains key now (cache.get key now).2
  insertRetains : ∀ key value now, cache.contains key = true ∨ cache.size < capacity →
    cache.Retains key now (cache.insert key value now)

theorem run_faithful (capacity timeToLive : Nat) (past : List (Event κ α)) (cache : Cache κ α)
    (run : Run capacity timeToLive past cache) : Faithful capacity timeToLive past cache := by
  have kept := run_kept run
  obtain ⟨rfl, rfl⟩ := kept.limits
  refine ⟨kept.bounded, fun none key => ?_, fun room key value now => ?_, fun key now value hit => ?_,
    fun key now miss => ?_, fun key now => get_retains cache key now kept.distinct,
    fun key value now fits => ?_⟩
  · have empty : cache.entries = [] := List.eq_nil_of_length_eq_zero (Nat.le_zero.mp (none ▸ kept.bounded))
    rw [contains, find?, empty]
    rfl
  · rcases insert_cases cache key value now room with ⟨_, made⟩ | ⟨_, _, victim, _, made⟩
    · rw [made]
      exact put_contains cache ⟨key, value, now, 1⟩
    · rw [made]
      exact put_contains (cache.erase victim) ⟨key, value, now, 1⟩
  · rcases get_cases cache key now with ⟨_, made⟩ | ⟨entry, member, rfl, ⟨_, made⟩ | ⟨fresh, made⟩⟩
    · rw [made] at hit
      cases hit
    · rw [made] at hit
      cases hit
    · rw [made] at hit
      cases hit
      obtain ⟨stored, touched⟩ := kept.recorded entry member
      exact ⟨stored, entry.touched, touched, by simpa [CacheEntry.expired] using fresh⟩
  · rcases get_cases cache key now with ⟨absent, made⟩ | ⟨entry, member, rfl, ⟨_, made⟩ | ⟨_, made⟩⟩
    · rw [made]
      exact absent
    · rw [made]
      exact erase_contains cache entry.key
    · rw [made] at miss
      cases miss
  · by_cases room : 0 < cache.capacity
    · rcases insert_cases cache key value now room with ⟨_, made⟩ | ⟨absent, full, _⟩
      · rw [made]
        exact put_retains cache ⟨key, value, now, 1⟩ now
      · rcases fits with held | fits
        · cases absent.symm.trans held
        · exact absurd full (Nat.not_le_of_lt fits)
    · rw [insert_without_room key value now cache (Nat.eq_zero_of_not_pos room)]
      exact fun entry member _ => ⟨contains_entry cache entry member, fun _ => member⟩

theorem stepping_back_faithful :
    Faithful 2 10 [.stored "c" 3 30, .asked "a" 5 (some 1), .stored "b" 2 21, .stored "a" 1 20]
      (⟨2, 10, [⟨"b", 2, 21, 1⟩, ⟨"c", 3, 30, 1⟩]⟩ : Cache String Nat) :=
  run_faithful 2 10 _ _ ((((Run.start.insert "a" 1 20).insert "b" 2 21).get "a" 5).insert "c" 3 30)

end ConditionalForm.Cache
