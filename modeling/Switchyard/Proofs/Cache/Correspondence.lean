import Switchyard.Proofs.Store.Following
import Switchyard.Proofs.Topology.Calls

/-!
Two caches that serve one variant alike.

With stores that hold the same of a variant, two caches serve it alike if they keep entries for the
same levels and topologies of the variant, with the same buses and with generations that the levels
have at the same time (`Corresponds`). What the caches keep for other variants does not matter. A
cached query on the variant drops the same entries from both caches, comes to the same result and
leaves such caches behind, even while other sessions disturb both stores alike.
-/

namespace Switchyard

namespace BusCache

variable {cache cache' : BusCache} {entry : CacheEntry} {key : CacheKey} {number variant : UInt32}
  {level : String} {found found' : VoltageLevel} {first second first' second' : Store}

/-! ### Looking entries up -/

/-- Entries are dropped by their keys. -/
theorem find?_filter (p : CacheKey → Bool) (cache : BusCache) (key : CacheKey) :
    (cache.filter fun entry => p entry.key).find? key =
      if p key then cache.find? key else none := by
  ext entry
  rw [find?_eq_some_iff, mem_filter]
  split
  case isTrue hkey =>
    rw [find?_eq_some_iff]
    exact ⟨fun h => ⟨h.1.1, h.2⟩, fun h => ⟨⟨h.1, h.2 ▸ hkey⟩, h.2⟩⟩
  case isFalse hkey =>
    refine iff_of_false (fun h => hkey (h.2 ▸ h.1.2)) nofun

theorem find?_insert (entry : CacheEntry) (cache : BusCache) (key : CacheKey) :
    (cache.insert entry).find? key = if entry.key = key then some entry else cache.find? key := by
  ext other
  rw [find?_eq_some_iff, mem_insert]
  split
  case isTrue hkey =>
    rw [← hkey, Option.some.injEq]
    constructor
    · rintro ⟨rfl | ⟨_, hother⟩, hsame⟩
      · rfl
      · exact absurd hsame hother
    · rintro rfl
      exact ⟨.inl rfl, rfl⟩
  case isFalse hkey =>
    rw [find?_eq_some_iff]
    constructor
    · rintro ⟨rfl | ⟨hold, _⟩, hsame⟩
      · exact absurd hsame hkey
      · exact ⟨hold, hsame⟩
    · rintro ⟨hold, hsame⟩
      exact ⟨.inr ⟨hold, fun h => hkey (h.symm.trans hsame)⟩, hsame⟩

/-- Of the entries of the level that was read, those stay that are up to date. -/
theorem find?_refresh (cache : BusCache) (key : CacheKey) :
    (cache.refresh variant level found).find? key =
      if key.variant = variant ∧ key.level = level then
        (cache.find? key).filter fun entry => found.valid ∧ entry.generation = found.generation
      else cache.find? key := by
  ext entry
  split
  case isTrue hkey =>
    rw [find?_eq_some_iff, mem_refresh, Option.filter_eq_some_iff, find?_eq_some_iff,
      decide_eq_true_eq]
    constructor
    · rintro ⟨⟨hentry, hfresh⟩, rfl⟩
      exact ⟨⟨hentry, rfl⟩, hfresh hkey.1 hkey.2⟩
    · rintro ⟨⟨hentry, rfl⟩, hfresh⟩
      exact ⟨⟨hentry, fun _ _ => hfresh⟩, rfl⟩
  case isFalse hkey =>
    rw [find?_eq_some_iff, mem_refresh, find?_eq_some_iff]
    constructor
    · rintro ⟨⟨hentry, _⟩, rfl⟩
      exact ⟨hentry, rfl⟩
    · rintro ⟨hentry, rfl⟩
      exact ⟨⟨hentry, fun hvariant hlevel => absurd ⟨hvariant, hlevel⟩ hkey⟩, rfl⟩

/-! ### Caches that correspond -/

theorem rel_imp {α : Type} {r r' : α → α → Prop} {x y : Option α} (h : Option.Rel r x y)
    (himp : ∀ a b, r a b → r' a b) : Option.Rel r' x y := by
  cases h with
  | none => exact .none
  | some hab => exact .some (himp _ _ hab)

theorem rel_filter {α : Type} {r : α → α → Prop} {p q : α → Bool} {x y : Option α}
    (h : Option.Rel r x y) (hpq : ∀ a b, r a b → p a = q b) :
    Option.Rel r (x.filter p) (y.filter q) := by
  cases h with
  | none => exact .none
  | @some a b hab =>
    rw [Option.filter_some, Option.filter_some, hpq a b hab]
    split
    · exact .some hab
    · exact .none

/-- For every level and topology, either both caches keep an entry of the variant, with the same
buses and with generations that the level has at the same time, or neither does. -/
def Corresponds (number : UInt32) (first second : Store) (cache cache' : BusCache) : Prop :=
  ∀ level topology, Option.Rel
    (fun entry entry' => entry.buses = entry'.buses ∧
      Store.Synchronous number level first second entry.generation entry'.generation)
    (cache.find? ⟨number, level, topology⟩) (cache'.find? ⟨number, level, topology⟩)

namespace Corresponds

theorem refl {store : Store}
    (h : ∀ entry ∈ cache.entries, entry.generation ≤ store.lastGeneration) :
    Corresponds number store store cache cache := by
  intro level topology
  cases hfind : cache.find? ⟨number, level, topology⟩ with
  | none => exact .none
  | some entry =>
    have hdrawn := h entry (find?_eq_some_iff.mp hfind).1
    exact .some ⟨rfl, hdrawn, hdrawn, Iff.rfl⟩

theorem apace (h : Corresponds number first second cache cache')
    (hapace : Store.Apace number first second first' second') :
    Corresponds number first' second' cache cache' :=
  fun level topology => rel_imp (h level topology) fun _ _ hentry =>
    ⟨hentry.1, hapace.keeps _ _ _ hentry.2⟩

/-- The variant is served as before by a cache that keeps the same entries of it. -/
theorem of_find? (h : Corresponds number first second cache cache') {after : BusCache}
    (hafter : ∀ level topology,
      after.find? ⟨number, level, topology⟩ = cache.find? ⟨number, level, topology⟩) :
    Corresponds number first second after cache' := by
  intro level topology
  rw [hafter]
  exact h level topology

/-- Dropping entries by their keys drops corresponding ones. -/
theorem filter (h : Corresponds number first second cache cache') (p : CacheKey → Bool) :
    Corresponds number first second (cache.filter fun entry => p entry.key)
      (cache'.filter fun entry => p entry.key) := by
  intro level topology
  rw [find?_filter, find?_filter]
  split
  · exact h level topology
  · exact .none

/-- Reading a level of the variant drops corresponding entries. -/
theorem refresh (h : Corresponds number first second cache cache')
    (hvalid : found.valid = found'.valid)
    (hfound : first.generation? number level = some found.generation)
    (hfound' : second.generation? number level = some found'.generation) :
    Corresponds number first second (cache.refresh number level found)
      (cache'.refresh number level found') := by
  intro other topology
  rw [find?_refresh, find?_refresh]
  split
  case isFalse => exact h other topology
  case isTrue hkey =>
    obtain rfl : other = level := hkey.2
    refine rel_filter (h other topology) fun entry entry' ⟨_, hsync⟩ => ?_
    have hholds := hsync.holds_iff
    rw [hfound, hfound', Option.some.injEq, Option.some.injEq] at hholds
    rw [hvalid, decide_eq_decide]
    exact and_congr_right fun _ => eq_comm.trans (hholds.trans eq_comm)

/-- Entries that are made at the same time, of the same buses, correspond. -/
theorem insert (h : Corresponds number first second cache cache')
    {topology generation generation' : Nat}
    (hsync : Store.Synchronous number level first second generation generation') (buses : Buses) :
    Corresponds number first second (cache.insert ⟨⟨number, level, topology⟩, generation, buses⟩)
      (cache'.insert ⟨⟨number, level, topology⟩, generation', buses⟩) := by
  intro other topology'
  rw [find?_insert, find?_insert]
  split
  case isTrue hkey =>
    cases hkey
    exact .some ⟨rfl, hsync⟩
  case isFalse => exact h other topology'

end Corresponds

end BusCache

namespace Topology

open Dialogue Store

variable {topology : Topology} {context : Context} {level : String} {number : UInt32}
  {start base base' : Store} {cache cache' : BusCache}

/-- What two queries leave behind: one result, stores of which one follows the other, and caches
that correspond. -/
def Served (number : UInt32) (start base base' : Store)
    (outcome outcome' : Except Fault Buses × BusCache) (state state' : Disturbed) : Prop :=
  outcome.1 = outcome'.1 ∧ Follows number start base base' state state' ∧
    BusCache.Corresponds number state.store state'.store outcome.2 outcome'.2

theorem Served.trans {mid mid' : Store} {outcome outcome' : Except Fault Buses × BusCache}
    {state state' : Disturbed} (hapace : Apace number base base' mid mid')
    (h : Served number start mid mid' outcome outcome' state state') :
    Served number start base base' outcome outcome' state state' :=
  ⟨h.1, ⟨h.2.1.reached, hapace.trans h.2.1.apace, h.2.1.pending⟩, h.2.2⟩

/-- A query on one variant leaves the entries of all others in the cache. -/
theorem Call.find?_of_ne {σ : Type} {server : Server indexProtocol σ} {state last : σ}
    {result : Except Fault Buses} {after : BusCache} {questions : List IndexQuery}
    (h : Call topology server context level cache state result after last questions)
    (hnumber : context.number ≠ .ok number) (other : String) (id : Nat) :
    after.find? ⟨number, other, id⟩ = cache.find? ⟨number, other, id⟩ := by
  have refreshed : ∀ {asked : UInt32} {found : VoltageLevel}, context.number = .ok asked →
      (cache.refresh asked level found).find? ⟨number, other, id⟩ =
        cache.find? ⟨number, other, id⟩ := by
    intro asked found hasked
    rw [BusCache.find?_refresh, if_neg]
    rintro ⟨rfl, _⟩
    exact hnumber hasked
  cases h with
  | unset | unread => rfl
  | served hcontext | failed hcontext | unflagged hcontext => exact refreshed hcontext
  | stored hcontext =>
    rw [BusCache.find?_insert, if_neg, refreshed hcontext]
    intro hkey
    cases hkey
    exact hnumber hcontext

/-- Raises the flag of a level, and stores the buses that were worked out for it. -/
def keep (topology : Topology) (number : UInt32) (level : String) (generation : Nat)
    (buses : Buses) (cache : BusCache) : Dialogue indexProtocol (Except Fault Buses × BusCache) :=
  ask (p := indexProtocol) (.setValid number level true) fun
    | .error fault => done (.error fault, cache)
    | .ok _ => done (.ok buses, cache.insert ⟨⟨number, level, topology.id⟩, generation, buses⟩)

/-- What a cached query does when it has read the level, and dropped entries from the cache. -/
def resume (topology : Topology) (context : Context) (number : UInt32) (level : String)
    (generation : Nat) (cache : BusCache) :
    Dialogue indexProtocol (Except Fault Buses × BusCache) :=
  match cache.find? ⟨number, level, topology.id⟩ with
  | some entry => done (.ok entry.buses, cache)
  | none => (topology.buses context level).run >>= fun
    | .error fault => done (.error fault, cache)
    | .ok buses => topology.keep number level generation buses cache

theorem start_cachedBuses_eq_resume (cache : BusCache) (h : context.number = .ok number) :
    (topology.cachedBuses context level).start cache =
      ask (p := indexProtocol) (.level number level) fun
        | .error fault => done (.error fault, cache)
        | .ok found => topology.resume context number level found.attributes.generation
            (cache.refresh number level found.attributes) := by
  rw [start_cachedBuses cache h]
  congr 1
  funext answer
  cases answer with
  | error fault => rfl
  | ok found =>
    unfold resume
    dsimp only
    cases (cache.refresh number level found.attributes).find? ⟨number, level, topology.id⟩ with
    | some entry => rfl
    | none =>
      dsimp only
      congr 1
      funext result
      cases result with
      | error fault => rfl
      | ok buses =>
        unfold keep
        dsimp only
        congr 1
        funext answer
        cases answer <;> rfl

theorem keep_alongside (hcaches : BusCache.Corresponds number base base' cache cache')
    {generation generation' : Nat}
    (hsync : Synchronous number level base base' generation generation') (buses : Buses) :
    Alongside disturbed (Reused number start) (Follows number start base base')
      (topology.keep number level generation buses cache)
      (topology.keep number level generation' buses cache') (Served number start base base') := by
  have hechoes := echoes_disturbed number start base base'
  refine .ask hechoes.stays (hechoes.answer (.setValid number level true) rfl) ?_
  rintro answer answer' state state' ⟨hanswers, hfollows⟩
  cases hanswers with
  | error fault => exact .inr ⟨rfl, hfollows, hcaches.apace hfollows.apace⟩
  | ok =>
    exact .inr ⟨rfl, hfollows, (hcaches.apace hfollows.apace).insert
      (hfollows.apace.keeps _ _ _ hsync) buses⟩

theorem resume_alongside (hcontext : context.number = .ok number)
    (hcaches : BusCache.Corresponds number base base' cache cache') {generation generation' : Nat}
    (hsync : Synchronous number level base base' generation generation') :
    Alongside disturbed (Reused number start) (Follows number start base base')
      (topology.resume context number level generation cache)
      (topology.resume context number level generation' cache')
      (Served number start base base') := by
  have hentry := hcaches level topology.id
  unfold resume
  cases hfind : cache.find? ⟨number, level, topology.id⟩ <;>
    cases hfind' : cache'.find? ⟨number, level, topology.id⟩ <;> rw [hfind, hfind'] at hentry
  case none.some => cases hentry
  case some.none => cases hentry
  case some.some entry entry' =>
    obtain ⟨hbuses, _⟩ : _ ∧ _ := by cases hentry; assumption
    refine .done fun state state' hfollows => ⟨?_, hfollows, hcaches.apace hfollows.apace⟩
    exact congrArg Except.ok hbuses
  case none.none =>
    have hechoes := echoes_disturbed number start base base'
    refine .bind hechoes.stays (buses_agrees hechoes hcontext) ?_
    rintro result _ state state' ⟨rfl, hfollows⟩
    cases result with
    | error fault => exact .inr ⟨rfl, hfollows, hcaches.apace hfollows.apace⟩
    | ok buses => exact keep_alongside hcaches hsync buses state state' hfollows

/-- Two queries on the variant, one beside the other, come to one result. -/
theorem cachedBuses_alongside (topology : Topology) (level : String)
    (hcontext : context.number = .ok number)
    (hcaches : BusCache.Corresponds number base base' cache cache') :
    Alongside disturbed (Reused number start) (Follows number start base base')
      ((topology.cachedBuses context level).start cache)
      ((topology.cachedBuses context level).start cache') (Served number start base base') := by
  rw [start_cachedBuses_eq_resume cache hcontext, start_cachedBuses_eq_resume cache' hcontext]
  have hechoes := echoes_disturbed number start base base'
  intro state state' hpre
  rcases hread : disturbed.answer (.level number level) state with ⟨answer, after⟩
  rcases hread' : disturbed.answer (.level number level) state' with ⟨answer', after'⟩
  rw [Dialogue.run, Dialogue.run, hread, hread']
  obtain hbad | ⟨hsame, hfollows⟩ := hechoes.of_answer rfl hpre hread hread'
  · exact .inl (run_keeps hechoes.stays _ hbad)
  obtain ⟨_, _, hlevel⟩ := read_level hread
  obtain ⟨_, _, hlevel'⟩ := read_level hread'
  have hcaches' := hcaches.apace hfollows.apace
  cases hsame with
  | error fault => exact .inr ⟨rfl, hfollows, hcaches'⟩
  | @ok found found' hsame =>
    -- the level is held in both stores as it was read
    have hfound := generation?_of_level hlevel
    have hfound' := generation?_of_level hlevel'
    have hsync := Synchronous.of_held hfollows.apace.alike.dated hfollows.apace.alike.dated'
      hfound hfound'
    have hrefreshed := hcaches'.refresh hsame.2 hfound hfound'
    exact (resume_alongside hcontext hrefreshed hsync after after' hfollows.rebase).imp_right
      (Served.trans hfollows.apace)

end Topology

end Switchyard
