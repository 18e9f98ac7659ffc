import ConditionalForm.Cache

set_option autoImplicit false

namespace ConditionalForm.Cache

variable {κ α : Type} [DecidableEq κ]

theorem erase_entries (key : κ) (cache : Cache κ α) (entry : CacheEntry κ α)
    (member : entry ∈ (cache.erase key).entries) : entry ∈ cache.entries :=
  (List.mem_filter.mp member).1

theorem mem_put_iff (fresh : CacheEntry κ α) (cache : Cache κ α) (entry : CacheEntry κ α) :
    entry ∈ (cache.put fresh).entries ↔
      entry = fresh ∨ (entry ∈ cache.entries ∧ entry.key ≠ fresh.key) := by
  rw [put, contains, find?]
  split
  · rename_i held
    constructor
    · intro member
      obtain ⟨old, inCache, rfl⟩ := List.mem_map.mp member
      by_cases same : old.key = fresh.key
      · exact .inl (if_pos same)
      · rw [if_neg same]
        exact .inr ⟨inCache, same⟩
    · rintro (rfl | ⟨inCache, other⟩)
      · obtain ⟨old, inCache, keyed⟩ := List.find?_isSome.mp held
        exact List.mem_map.mpr ⟨old, inCache, if_pos (by simpa using keyed)⟩
      · exact List.mem_map.mpr ⟨entry, inCache, if_neg other⟩
  · rename_i absent
    rw [List.find?_isSome] at absent
    have apart : entry ∈ cache.entries → entry.key ≠ fresh.key := fun inCache same =>
      absent ⟨entry, inCache, by simp [same]⟩
    rw [List.mem_append, List.mem_singleton, or_comm]
    exact or_congr_right ⟨fun inCache => ⟨inCache, apart inCache⟩, And.left⟩

theorem put_entries (fresh : CacheEntry κ α) (cache : Cache κ α) (entry : CacheEntry κ α)
    (member : entry ∈ (cache.put fresh).entries) : entry = fresh ∨ entry ∈ cache.entries :=
  ((mem_put_iff fresh cache entry).mp member).imp_right And.left

theorem find_entry (key : κ) (cache : Cache κ α) (entry : CacheEntry κ α)
    (found : cache.find? key = some entry) : entry ∈ cache.entries ∧ entry.key = key := by
  rw [find?] at found
  exact ⟨List.mem_of_find?_eq_some found, by simpa using List.find?_some found⟩

theorem get_value (key : κ) (now : Nat) (cache : Cache κ α) (value : α)
    (hit : (cache.get key now).1 = some value) :
    ∃ entry ∈ cache.entries, entry.key = key ∧ entry.value = value := by
  rw [get] at hit
  split at hit
  · cases hit
  · rename_i entry found
    obtain ⟨inCache, keyed⟩ := find_entry key cache entry found
    split at hit
    · cases hit
    · exact ⟨entry, inCache, keyed, Option.some.inj hit⟩

theorem get_entries (key : κ) (now : Nat) (cache : Cache κ α) (entry : CacheEntry κ α)
    (member : entry ∈ (cache.get key now).2.entries) :
    ∃ old ∈ cache.entries, entry.key = old.key ∧ entry.value = old.value := by
  rw [get] at member
  split at member
  · exact ⟨entry, member, rfl, rfl⟩
  · rename_i old found
    split at member
    · exact ⟨entry, erase_entries key cache entry member, rfl, rfl⟩
    · rcases put_entries _ cache entry member with touched | kept
      · exact ⟨old, (find_entry key cache old found).1, by rw [touched], by rw [touched]⟩
      · exact ⟨entry, kept, rfl, rfl⟩

theorem evict_entries (now : Nat) (cache : Cache κ α) (entry : CacheEntry κ α)
    (member : entry ∈ (cache.evict now).entries) : entry ∈ cache.entries := by
  rw [evict] at member
  split at member
  · exact erase_entries _ cache entry member
  · exact member

theorem insert_entries (key : κ) (value : α) (now : Nat) (cache : Cache κ α)
    (entry : CacheEntry κ α) (member : entry ∈ (cache.insert key value now).entries) :
    (entry.key = key ∧ entry.value = value) ∨ entry ∈ cache.entries := by
  rw [insert] at member
  split at member
  · exact .inr member
  · rcases put_entries _ _ entry member with fresh | kept
    · exact .inl ⟨by rw [fresh], by rw [fresh]⟩
    · split at kept
      · exact .inr kept
      · exact .inr (evict_entries now cache entry kept)

theorem insert_without_room (key : κ) (value : α) (now : Nat) (cache : Cache κ α)
    (room : cache.capacity = 0) : cache.insert key value now = cache := by
  rw [insert, if_pos room]

theorem insert_empty (capacity timeToLive : Nat) (key : κ) (value : α) (now : Nat)
    (room : capacity ≠ 0) : (empty capacity timeToLive).insert key value now =
      ⟨capacity, timeToLive, [⟨key, value, now, 1⟩]⟩ := by
  have fits : 0 < capacity := Nat.pos_of_ne_zero room
  simp [insert, empty, size, put, contains, find?, room, fits]

theorem get_at_once (capacity timeToLive : Nat) (key : κ) (value : α) (now hits : Nat) :
    ((⟨capacity, timeToLive, [⟨key, value, now, hits⟩]⟩ : Cache κ α).get key now).1 = some value := by
  simp [get, find?, CacheEntry.expired]

end ConditionalForm.Cache
