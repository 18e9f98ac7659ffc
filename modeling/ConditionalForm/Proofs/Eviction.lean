import ConditionalForm.Proofs.CacheHistory
import Mathlib.Data.List.Perm.Basic

set_option autoImplicit false

namespace ConditionalForm

namespace CacheEntry

variable {κ α : Type}

theorem less_used_iff (a b : CacheEntry κ α) :
    a.lessUsed b = true ↔ a.hits < b.hits ∨ a.hits = b.hits ∧ a.touched < b.touched := by
  simp [lessUsed]

theorem less_used_irrefl (a : CacheEntry κ α) : a.lessUsed a = false := by
  simp [lessUsed]

theorem less_used_asymm (a b : CacheEntry κ α) (less : a.lessUsed b = true) : b.lessUsed a = false := by
  rw [Bool.eq_false_iff, Ne, less_used_iff]
  rw [less_used_iff] at less
  omega

theorem not_less_used_trans (a b c : CacheEntry κ α) (first : a.lessUsed b = false)
    (second : b.lessUsed c = false) : a.lessUsed c = false := by
  rw [Bool.eq_false_iff, Ne, less_used_iff] at first second ⊢
  omega

end CacheEntry

namespace Cache

variable {κ α : Type}

theorem least_used_least (entries : List (CacheEntry κ α)) (least : CacheEntry κ α)
    (found : leastUsed? entries = some least) : ∀ other ∈ entries, other.lessUsed least = false := by
  induction entries generalizing least with
  | nil => cases found
  | cons first others ih =>
      rw [leastUsed?] at found
      cases later : leastUsed? others with
      | none =>
          rw [later] at found
          cases found
          simp [least_used_none others later, CacheEntry.less_used_irrefl]
      | some other =>
          rw [later] at found
          have below := ih other later
          by_cases less : other.lessUsed first = true
          · simp only [less, if_true, Option.some.injEq] at found
            subst found
            intro entry member
            rcases List.mem_cons.mp member with rfl | inOthers
            · exact CacheEntry.less_used_asymm other entry less
            · exact below entry inOthers
          · simp only [less, Bool.false_eq_true, if_false, Option.some.injEq] at found
            subst found
            have above := Bool.eq_false_iff.mpr less
            intro entry member
            rcases List.mem_cons.mp member with rfl | inOthers
            · exact CacheEntry.less_used_irrefl entry
            · exact CacheEntry.not_less_used_trans entry other first (below entry inOthers) above

structure Expendable (timeToLive now : Nat) (entries : List (CacheEntry κ α)) (victim : CacheEntry κ α) :
    Prop where
  expired : (∃ entry ∈ entries, entry.expired timeToLive now = true) → victim.expired timeToLive now = true
  leastUsed : (∀ entry ∈ entries, entry.expired timeToLive now = false) →
    ∀ other ∈ entries, ¬ (other.hits < victim.hits ∨ other.hits = victim.hits ∧ other.touched < victim.touched)

structure Inserted (capacity timeToLive now : Nat) (entries : List (CacheEntry κ α)) (fresh : CacheEntry κ α)
    (after : List (CacheEntry κ α)) : Prop where
  renewed : fresh.key ∈ entries.map CacheEntry.key →
    ∃ old rest, old.key = fresh.key ∧ entries.Perm (old :: rest) ∧ after.Perm (fresh :: rest)
  added : fresh.key ∉ entries.map CacheEntry.key → entries.length < capacity → after.Perm (fresh :: entries)
  evicted : fresh.key ∉ entries.map CacheEntry.key → entries.length = capacity →
    ∃ victim rest, Expendable timeToLive now entries victim ∧ entries.Perm (victim :: rest) ∧
      after.Perm (fresh :: rest)

section Order

variable {timeToLive now : Nat} {scanned entries : List (CacheEntry κ α)} (order : scanned.Perm entries)

include order

theorem expendable_of_perm (victim : CacheEntry κ α) (expendable : Expendable timeToLive now scanned victim) :
    Expendable timeToLive now entries victim := by
  refine ⟨fun some => expendable.expired ?_, fun none other member => ?_⟩
  · obtain ⟨entry, member, expired⟩ := some
    exact ⟨entry, order.mem_iff.mpr member, expired⟩
  · refine expendable.leastUsed (fun entry inScanned => ?_) other (order.mem_iff.mpr member)
    exact none entry (order.mem_iff.mp inScanned)

theorem inserted_of_perm (capacity : Nat) (fresh : CacheEntry κ α) (after : List (CacheEntry κ α))
    (inserted : Inserted capacity timeToLive now scanned fresh after) :
    Inserted capacity timeToLive now entries fresh after := by
  have keys := (order.map CacheEntry.key).mem_iff (a := fresh.key)
  refine ⟨fun held => ?_, fun missing below => ?_, fun missing full => ?_⟩
  · obtain ⟨old, rest, same, split, made⟩ := inserted.renewed (keys.mpr held)
    exact ⟨old, rest, same, order.symm.trans split, made⟩
  · have made := inserted.added (mt keys.mp missing) (order.length_eq ▸ below)
    exact made.trans (order.cons fresh)
  · obtain ⟨victim, rest, expendable, split, made⟩ :=
      inserted.evicted (mt keys.mp missing) (order.length_eq.trans full)
    exact ⟨victim, rest, expendable_of_perm order victim expendable, order.symm.trans split, made⟩

end Order

variable (cache : Cache κ α)

theorem victim_expendable (now : Nat) (victim : CacheEntry κ α) (chosen : cache.victim? now = some victim) :
    Expendable cache.timeToLive now cache.entries victim := by
  rcases Option.or_eq_some_iff.mp chosen with first | ⟨none, least⟩
  · have expired : victim.expired cache.timeToLive now = true := by simpa using List.find?_some first
    refine ⟨fun _ => expired, fun fresh => ?_⟩
    have unexpired := fresh victim (victim_member cache now victim chosen)
    cases unexpired.symm.trans expired
  · refine ⟨fun some => ?_, fun _ other member => ?_⟩
    · obtain ⟨entry, member, expired⟩ := some
      exact absurd expired (List.find?_eq_none.mp none entry member)
    · rw [← CacheEntry.less_used_iff, least_used_least cache.entries victim least other member]
      exact Bool.false_ne_true

theorem distinct_entries (distinct : cache.keys.Nodup) : cache.entries.Nodup :=
  List.Nodup.of_map CacheEntry.key distinct

variable [DecidableEq κ]

theorem mem_erase_iff (key : κ) (entry : CacheEntry κ α) :
    entry ∈ (cache.erase key).entries ↔ entry ∈ cache.entries ∧ entry.key ≠ key := by
  simp [erase]

theorem erase_absent (key : κ) (absent : cache.contains key = false) : cache.erase key = cache := by
  have kept : (cache.entries.filter fun entry => entry.key ≠ key) = cache.entries := by
    refine List.filter_eq_self.mpr fun entry member => ?_
    have other : entry.key ≠ key := by
      rintro rfl
      rw [contains_entry cache entry member] at absent
      cases absent
    simpa using other
  rw [erase, kept]

theorem apart_distinct (distinct : cache.keys.Nodup) (entry : CacheEntry κ α) :
    (entry :: (cache.erase entry.key).entries).Nodup := by
  refine List.nodup_cons.mpr ⟨fun again => ?_, ?_⟩
  · exact ((mem_erase_iff cache entry.key entry).mp again).2 rfl
  · exact distinct_entries _ (erase_distinct cache entry.key distinct)

theorem erase_perm (distinct : cache.keys.Nodup) (victim : CacheEntry κ α) (member : victim ∈ cache.entries) :
    cache.entries.Perm (victim :: (cache.erase victim.key).entries) := by
  refine (List.perm_ext_iff_of_nodup (distinct_entries cache distinct)
    (apart_distinct cache distinct victim)).mpr fun entry => ?_
  rw [List.mem_cons, mem_erase_iff]
  constructor
  · intro held
    by_cases same : entry.key = victim.key
    · exact .inl (List.inj_on_of_nodup_map distinct held member same)
    · exact .inr ⟨held, same⟩
  · rintro (rfl | ⟨held, _⟩)
    · exact member
    · exact held

theorem put_perm (distinct : cache.keys.Nodup) (fresh : CacheEntry κ α) :
    (cache.put fresh).entries.Perm (fresh :: (cache.erase fresh.key).entries) := by
  refine (List.perm_ext_iff_of_nodup (distinct_entries _ (put_distinct cache fresh distinct))
    (apart_distinct cache distinct fresh)).mpr fun entry => ?_
  rw [mem_put_iff, List.mem_cons, mem_erase_iff]

theorem insert_kept_all (key : κ) (value : α) (now : Nat) (room : 0 < cache.capacity)
    (fits : cache.contains key = true ∨ cache.size < cache.capacity) :
    cache.insert key value now = cache.put ⟨key, value, now, 1⟩ := by
  rcases insert_cases cache key value now room with ⟨_, made⟩ | ⟨absent, full, _⟩
  · exact made
  · rcases fits with held | fits
    · cases absent.symm.trans held
    · exact absurd full (Nat.not_le_of_lt fits)

theorem insert_full (key : κ) (value : α) (now : Nat) (room : 0 < cache.capacity)
    (absent : cache.contains key = false) (full : cache.capacity ≤ cache.size) :
    ∃ victim, cache.victim? now = some victim ∧
      cache.insert key value now = (cache.erase victim.key).put ⟨key, value, now, 1⟩ := by
  obtain ⟨victim, chosen, evicted⟩ := evict_victim cache now (Nat.lt_of_lt_of_le room full)
  refine ⟨victim, chosen, ?_⟩
  rw [insert, if_neg (Nat.ne_of_gt room), ← evicted]
  simp [absent, Nat.not_lt_of_le full]

theorem insert_inserted (key : κ) (value : α) (now : Nat) (room : 0 < cache.capacity)
    (distinct : cache.keys.Nodup) :
    Inserted cache.capacity cache.timeToLive now cache.entries ⟨key, value, now, 1⟩
      (cache.insert key value now).entries := by
  have absent (store : Cache κ α) (missing : key ∉ store.keys) : store.contains key = false := by
    rwa [Bool.eq_false_iff, Ne, contains_iff]
  refine ⟨fun held => ?_, fun missing below => ?_, fun missing full => ?_⟩
  · obtain ⟨old, member, same⟩ := List.mem_map.mp held
    have renewed := put_perm cache distinct ⟨key, value, now, 1⟩
    rw [insert_kept_all cache key value now room (.inl ((contains_iff key cache).mpr held))]
    exact ⟨old, _, same, same ▸ erase_perm cache distinct old member, renewed⟩
  · have added := put_perm cache distinct ⟨key, value, now, 1⟩
    rw [erase_absent cache key (absent cache missing)] at added
    rw [insert_kept_all cache key value now room (.inr below)]
    exact added
  · obtain ⟨victim, chosen, made⟩ :=
      insert_full cache key value now room (absent cache missing) (Nat.le_of_eq full.symm)
    have rest := erase_distinct cache victim.key distinct
    have unheld : key ∉ (cache.erase victim.key).keys := fun again =>
      missing ((List.filter_sublist.map CacheEntry.key).subset again)
    have added := put_perm (cache.erase victim.key) rest ⟨key, value, now, 1⟩
    rw [erase_absent (cache.erase victim.key) key (absent _ unheld)] at added
    rw [made]
    exact ⟨victim, _, victim_expendable cache now victim chosen,
      erase_perm cache distinct victim (victim_member cache now victim chosen), added⟩

theorem insertion_evicts (capacity timeToLive : Nat) (past : List (Event κ α)) (cache : Cache κ α)
    (run : Run capacity timeToLive past cache) (room : 0 < capacity) (key : κ) (value : α) (now : Nat)
    (scanned : List (CacheEntry κ α)) (order : scanned.Perm cache.entries) :
    Inserted capacity timeToLive now cache.entries ⟨key, value, now, 1⟩
      (({ cache with entries := scanned } : Cache κ α).insert key value now).entries := by
  have kept := run_kept (run.rearrange order)
  obtain ⟨rfl, rfl⟩ := kept.limits
  have inserted := insert_inserted { cache with entries := scanned } key value now room kept.distinct
  exact inserted_of_perm order cache.capacity _ _ inserted

theorem read_key_stays :
    let held : Cache String Nat := ⟨2, 10, [⟨"a", 1, 22, 2⟩, ⟨"b", 2, 21, 1⟩]⟩
    let after := (({ held with entries := held.entries.reverse } : Cache String Nat).insert "c" 3 23).entries
    after = [⟨"a", 1, 22, 2⟩, ⟨"c", 3, 23, 1⟩] ∧
      ∃ victim rest, Expendable 10 23 held.entries victim ∧ held.entries.Perm (victim :: rest) ∧
        after.Perm (⟨"c", 3, 23, 1⟩ :: rest) := by
  intro held after
  have run : Run 2 10 [.asked "a" 22 (some 1), .stored "b" 2 21, .stored "a" 1 20] held :=
    ((Run.start.insert "a" 1 20).insert "b" 2 21).get "a" 22
  have inserted := insertion_evicts 2 10 _ held run (by decide) "c" 3 23 held.entries.reverse
    (List.reverse_perm _)
  exact ⟨rfl, inserted.evicted (by decide) rfl⟩

end Cache

end ConditionalForm
