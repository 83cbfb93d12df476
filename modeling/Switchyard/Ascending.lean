/-!
Collections in strictly ascending order of a key.

`Ascending key` is a list whose members' keys strictly increase, so there is at most one member to
a key and the order of the members is determined by them. It serves as a set of points, and as the
table of variants by number, of voltage levels and buses by id, of vertices by point. Inserting a
member replaces the one that had its key.
-/

namespace Switchyard

/-- Keys are linearly ordered. -/
class OrderedKey (κ : Type) [LT κ] : Prop where
  lt_irrefl : ∀ a : κ, ¬ a < a
  lt_trans : ∀ {a b c : κ}, a < b → b < c → a < c
  lt_or_eq_or_gt : ∀ a b : κ, a < b ∨ a = b ∨ b < a

instance : OrderedKey UInt32 where
  lt_irrefl := UInt32.lt_irrefl
  lt_trans := UInt32.lt_trans
  lt_or_eq_or_gt a b := by
    rcases Nat.lt_trichotomy a.toNat b.toNat with h | h | h
    · exact .inl h
    · exact .inr (.inl (UInt32.toNat_inj.mp h))
    · exact .inr (.inr h)

instance : OrderedKey String where
  lt_irrefl := String.lt_irrefl
  lt_trans := String.lt_trans
  lt_or_eq_or_gt a b := by
    rcases String.le_total a b with h | h
    · by_cases hab : b ≤ a
      · exact .inr (.inl (String.le_antisymm h hab))
      · exact .inl (String.not_le.mp hab)
    · by_cases hab : a ≤ b
      · exact .inr (.inl (String.le_antisymm hab h))
      · exact .inr (.inr (String.not_le.mp hab))

/-- A list in strictly ascending order of `key`. -/
@[ext]
structure Ascending {α κ : Type} [LT κ] (key : α → κ) where
  toList : List α
  ascending : toList.Pairwise (key · < key ·)
  deriving DecidableEq, Repr

namespace Ascending

variable {α κ : Type} [LT κ] {key : α → κ}

instance : Membership α (Ascending key) := ⟨fun s x => x ∈ s.toList⟩

instance [DecidableEq α] (x : α) (s : Ascending key) : Decidable (x ∈ s) :=
  inferInstanceAs (Decidable (x ∈ s.toList))

instance : EmptyCollection (Ascending key) := ⟨⟨[], .nil⟩⟩

instance : Inhabited (Ascending key) := ⟨∅⟩

@[simp] theorem toList_empty : (∅ : Ascending key).toList = [] := rfl

@[simp] theorem mem_toList {x : α} {s : Ascending key} : x ∈ s.toList ↔ x ∈ s := Iff.rfl

/-- How many members there are. -/
def size (s : Ascending key) : Nat := s.toList.length

/-- The member with the least key. -/
def least? (s : Ascending key) : Option α := s.toList.head?

/-- The member with the key. -/
def get? [DecidableEq κ] (s : Ascending key) (k : κ) : Option α :=
  s.toList.find? (key · = k)

/-- Whether some member has the key. -/
def hasKey [DecidableEq κ] (s : Ascending key) (k : κ) : Bool :=
  s.toList.any (key · = k)

/-- The members that satisfy `p`. -/
def filter (p : α → Bool) (s : Ascending key) : Ascending key :=
  ⟨s.toList.filter p, s.ascending.filter p⟩

/-- All members but the one with the key. -/
def erase [DecidableEq κ] (s : Ascending key) (k : κ) : Ascending key :=
  s.filter (key · ≠ k)

/-- Each member replaced by its image under a function that keeps keys. -/
def map (f : α → α) (keeps : ∀ x, key (f x) = key x) (s : Ascending key) : Ascending key :=
  ⟨s.toList.map f, by simpa [List.pairwise_map, keeps] using s.ascending⟩

/-- The list with `x` at its place, in place of a member with the same key. -/
def insertInto [DecidableLT κ] (key : α → κ) (x : α) : List α → List α
  | [] => [x]
  | y :: ys =>
    if key x < key y then x :: y :: ys
    else if key y < key x then y :: insertInto key x ys
    else x :: ys

theorem mem_insertInto [DecidableLT κ] {x y : α} {l : List α} (h : y ∈ insertInto key x l) :
    y = x ∨ y ∈ l := by
  induction l with
  | nil => simpa [insertInto] using h
  | cons z zs ih => grind [insertInto]

theorem pairwise_insertInto [DecidableLT κ] [OrderedKey κ] {x : α} {l : List α}
    (h : l.Pairwise (key · < key ·)) : (insertInto key x l).Pairwise (key · < key ·) := by
  induction l with
  | nil => simp [insertInto]
  | cons y ys ih =>
    obtain ⟨hy, hys⟩ := List.pairwise_cons.mp h
    unfold insertInto
    split
    case isTrue hxy =>
      refine List.pairwise_cons.mpr ⟨fun z hz => ?_, h⟩
      rcases List.mem_cons.mp hz with rfl | hz
      · exact hxy
      · exact OrderedKey.lt_trans hxy (hy z hz)
    case isFalse hxy =>
      split
      case isTrue hyx =>
        refine List.pairwise_cons.mpr ⟨fun z hz => ?_, ih hys⟩
        rcases mem_insertInto hz with rfl | hz
        · exact hyx
        · exact hy z hz
      case isFalse hyx =>
        have same : key x = key y := by
          rcases OrderedKey.lt_or_eq_or_gt (key x) (key y) with h | h | h
          · exact absurd h hxy
          · exact h
          · exact absurd h hyx
        exact List.pairwise_cons.mpr ⟨fun z hz => same ▸ hy z hz, hys⟩

variable [DecidableLT κ] [OrderedKey κ]

/-- The collection with `x`, in place of a member with the same key. -/
def insert (s : Ascending key) (x : α) : Ascending key :=
  ⟨insertInto key x s.toList, pairwise_insertInto s.ascending⟩

/-- The collection of the members of a list; of members with one key the last stays. -/
def ofList (key : α → κ) (l : List α) : Ascending key := l.foldl insert ∅

end Ascending

end Switchyard
