import Switchyard.Topology.Buses

/-!
Calculated buses that are kept.

A cache keeps one entry for a variant, a level and a topology, and with it the generation of the
level that the buses were calculated from. The entry is served only while the level still has that
generation and its valid flag is set: reading the level drops every entry of the level that fails
this. The generation is read before anything is listed, so if the level changes while its buses are
being calculated, the entry made of them is already out of date when it is stored.
-/

namespace Switchyard

/-- What an entry of a cache is found by. -/
structure CacheKey where
  variant : UInt32
  level : String
  topology : Nat
  deriving DecidableEq, Repr

/-- Buses calculated from one generation of a level. -/
structure CacheEntry where
  key : CacheKey
  generation : Nat
  buses : Buses
  deriving DecidableEq, Repr

/-- Entries with distinct keys. -/
structure BusCache where
  entries : List CacheEntry := []
  distinct : entries.Pairwise (·.key ≠ ·.key) := by exact .nil

namespace BusCache

instance : Inhabited BusCache := ⟨{}⟩

/-- How many entries there are. -/
def size (cache : BusCache) : Nat := cache.entries.length

/-- The entry with the key. -/
def find? (cache : BusCache) (key : CacheKey) : Option CacheEntry :=
  cache.entries.find? (·.key = key)

/-- The entries that satisfy `p`. -/
def filter (p : CacheEntry → Bool) (cache : BusCache) : BusCache :=
  ⟨cache.entries.filter p, cache.distinct.filter p⟩

/-- The cache with an entry, in place of one with the same key. -/
def insert (cache : BusCache) (entry : CacheEntry) : BusCache where
  entries := entry :: (cache.filter (·.key ≠ entry.key)).entries
  distinct := by
    refine List.pairwise_cons.mpr ⟨fun other h => ?_, (cache.filter _).distinct⟩
    have := (List.mem_filter.mp h).2
    grind

/-- Drops the entries of a level of a variant. -/
def invalidate (variant : UInt32) (level : String) (cache : BusCache) : BusCache :=
  cache.filter fun e => e.key.variant ≠ variant ∨ e.key.level ≠ level

/-- Drops the entries of a variant. -/
def invalidateVariant (variant : UInt32) (cache : BusCache) : BusCache :=
  cache.filter (·.key.variant ≠ variant)

/-- Drops the entries of a level of a variant that are of another generation. -/
def retain (variant : UInt32) (level : String) (generation : Nat) (cache : BusCache) : BusCache :=
  cache.filter fun e =>
    e.key.variant ≠ variant ∨ e.key.level ≠ level ∨ e.generation = generation

/-- Drops the entries of a level that may no longer be served, as the level was just read. -/
def refresh (variant : UInt32) (level : String) (found : VoltageLevel) (cache : BusCache) :
    BusCache :=
  if found.valid then cache.retain variant level found.generation
  else cache.invalidate variant level

end BusCache

/-- The buses of a level of the working variant, from the cache if they may be served. Buses that
are calculated are stored, and the level is flagged valid. -/
def Topology.cachedBuses (topology : Topology) (context : Context) (level : String) :
    Session indexProtocol BusCache Buses := do
  let variant ← context.number
  let found ← Inquiry.level variant level
  modify (·.refresh variant level found.attributes)
  let key : CacheKey := ⟨variant, level, topology.id⟩
  match (← get).find? key with
  | some entry => return entry.buses
  | none =>
    let buses ← topology.buses context level
    Inquiry.setValid variant level true
    modify (·.insert ⟨key, found.attributes.generation, buses⟩)
    return buses

end Switchyard
