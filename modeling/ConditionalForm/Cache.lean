set_option autoImplicit false

namespace ConditionalForm

structure CacheEntry (κ α : Type) where
  key : κ
  value : α
  touched : Nat
  hits : Nat
deriving Repr

structure Cache (κ α : Type) where
  capacity : Nat
  timeToLive : Nat
  entries : List (CacheEntry κ α)
deriving Repr

namespace CacheEntry

variable {κ α : Type}

-- Readings before the last touch count as that touch.
def expired (timeToLive now : Nat) (entry : CacheEntry κ α) : Bool :=
  timeToLive < now - entry.touched

def lessUsed (a b : CacheEntry κ α) : Bool :=
  a.hits < b.hits || (a.hits == b.hits && a.touched < b.touched)

end CacheEntry

namespace Cache

variable {κ α : Type} [DecidableEq κ]

def empty (capacity timeToLive : Nat) : Cache κ α := ⟨capacity, timeToLive, []⟩

def size (cache : Cache κ α) : Nat := cache.entries.length

def find? (key : κ) (cache : Cache κ α) : Option (CacheEntry κ α) :=
  cache.entries.find? fun entry => entry.key = key

def contains (key : κ) (cache : Cache κ α) : Bool := (cache.find? key).isSome

def erase (key : κ) (cache : Cache κ α) : Cache κ α :=
  { cache with entries := cache.entries.filter fun entry => entry.key ≠ key }

def clear (cache : Cache κ α) : Cache κ α := { cache with entries := [] }

def put (entry : CacheEntry κ α) (cache : Cache κ α) : Cache κ α :=
  if cache.contains entry.key then
    { cache with
      entries := cache.entries.map fun old => if old.key = entry.key then entry else old }
  else { cache with entries := cache.entries ++ [entry] }

def get (key : κ) (now : Nat) (cache : Cache κ α) : Option α × Cache κ α :=
  match cache.find? key with
  | none => (none, cache)
  | some entry =>
      if entry.expired cache.timeToLive now then (none, cache.erase key)
      else (some entry.value, cache.put { entry with hits := entry.hits + 1, touched := now })

def leastUsed? : List (CacheEntry κ α) → Option (CacheEntry κ α)
  | [] => none
  | entry :: others =>
      match leastUsed? others with
      | none => some entry
      | some other => if other.lessUsed entry then some other else some entry

def victim? (now : Nat) (cache : Cache κ α) : Option (CacheEntry κ α) :=
  (cache.entries.find? fun entry => entry.expired cache.timeToLive now).or
    (leastUsed? cache.entries)

def evict (now : Nat) (cache : Cache κ α) : Cache κ α :=
  match cache.victim? now with
  | some entry => cache.erase entry.key
  | none => cache

def insert (key : κ) (value : α) (now : Nat) (cache : Cache κ α) : Cache κ α :=
  if cache.capacity = 0 then cache
  else
    let roomy :=
      if cache.contains key || cache.size < cache.capacity then cache else cache.evict now
    roomy.put ⟨key, value, now, 1⟩

end Cache

end ConditionalForm
