import Switchyard.Ascending

/-!
What the operations on ascending collections do to membership and look-up.

A collection is determined by its members (`ext_mem`). Inserting puts one member in and takes at
most the one with the same key out (`mem_insert`), and looking a key up finds exactly the member
that has it (`get?_eq_some_iff`).
-/

namespace Switchyard

namespace Ascending

variable {α κ : Type} [LT κ] {key : α → κ}

@[simp] theorem not_mem_empty {x : α} : ¬ x ∈ (∅ : Ascending key) := List.not_mem_nil

@[simp] theorem mem_filter {p : α → Bool} {s : Ascending key} {x : α} :
    x ∈ s.filter p ↔ x ∈ s ∧ p x = true :=
  List.mem_filter

@[simp] theorem mem_erase [DecidableEq κ] {s : Ascending key} {k : κ} {x : α} :
    x ∈ s.erase k ↔ x ∈ s ∧ key x ≠ k := by
  simp [erase]

@[simp] theorem mem_map {f : α → α} {keeps : ∀ x, key (f x) = key x} {s : Ascending key} {y : α} :
    y ∈ s.map f keeps ↔ ∃ x, x ∈ s ∧ f x = y :=
  List.mem_map

theorem get?_eq_none_iff [DecidableEq κ] {s : Ascending key} {k : κ} :
    s.get? k = none ↔ ∀ x, x ∈ s → key x ≠ k := by
  simp [get?]

theorem hasKey_eq_isSome [DecidableEq κ] {s : Ascending key} {k : κ} :
    s.hasKey k = (s.get? k).isSome := by
  rw [get?, List.isSome_find?, hasKey]

theorem exists_least? {s : Ascending key} {x : α} (h : x ∈ s) : ∃ least, s.least? = some least := by
  obtain ⟨l, hl⟩ := s
  cases l with
  | nil => exact absurd h List.not_mem_nil
  | cons z zs => exact ⟨z, rfl⟩

variable [OrderedKey κ]

theorem lt_asymm {a b : κ} (h : a < b) : ¬ b < a :=
  fun h' => OrderedKey.lt_irrefl a (OrderedKey.lt_trans h h')

theorem ne_of_lt {a b : κ} (h : a < b) : a ≠ b :=
  fun e => OrderedKey.lt_irrefl b (e ▸ h)

theorem nodup_toList (s : Ascending key) : s.toList.Nodup :=
  s.ascending.imp fun hlt hsame => ne_of_lt hlt (congrArg key hsame)

/-- Members with one key are one member. -/
theorem eq_of_key_eq {s : Ascending key} {x y : α} (hx : x ∈ s) (hy : y ∈ s)
    (h : key x = key y) : x = y := by
  obtain ⟨l, hl⟩ := s
  change x ∈ l at hx
  change y ∈ l at hy
  induction l with
  | nil => cases hx
  | cons z zs ih =>
    obtain ⟨hz, hzs⟩ := List.pairwise_cons.mp hl
    rcases List.mem_cons.mp hx with ex | hx <;> rcases List.mem_cons.mp hy with ey | hy
    · rw [ex, ey]
    · exact absurd (ex ▸ h) (ne_of_lt (hz y hy))
    · exact absurd (ey ▸ h).symm (ne_of_lt (hz x hx))
    · exact ih hzs hx hy

/-- The least member comes before all others. -/
theorem least?_eq_some_iff {s : Ascending key} {x : α} :
    s.least? = some x ↔ x ∈ s ∧ ∀ y, y ∈ s → y = x ∨ key x < key y := by
  obtain ⟨l, hl⟩ := s
  cases l with
  | nil => exact ⟨nofun, fun h => absurd h.1 List.not_mem_nil⟩
  | cons z zs =>
    have hz : ∀ y, y ∈ zs → key z < key y := (List.pairwise_cons.mp hl).1
    change some z = some x ↔ x ∈ z :: zs ∧ ∀ y, y ∈ z :: zs → y = x ∨ key x < key y
    constructor
    · intro h
      cases h
      refine ⟨List.mem_cons_self, fun y hy => ?_⟩
      exact (List.mem_cons.mp hy).imp id (hz y)
    · rintro ⟨hx, hleast⟩
      rcases List.mem_cons.mp hx with rfl | hx
      · rfl
      · rcases hleast z List.mem_cons_self with rfl | h
        · rfl
        · exact absurd h (lt_asymm (hz x hx))

/-- Collections with the same members are equal. -/
theorem ext_mem {s t : Ascending key} (h : ∀ x, x ∈ s ↔ x ∈ t) : s = t := by
  obtain ⟨l, hl⟩ := s
  obtain ⟨m, hm⟩ := t
  replace h : ∀ x, x ∈ l ↔ x ∈ m := h
  congr 1
  induction l generalizing m with
  | nil => cases m with
    | nil => rfl
    | cons y ys => exact absurd ((h y).mpr List.mem_cons_self) List.not_mem_nil
  | cons x xs ih => cases m with
    | nil => exact absurd ((h x).mp List.mem_cons_self) List.not_mem_nil
    | cons y ys =>
      obtain ⟨hx, hxs⟩ := List.pairwise_cons.mp hl
      obtain ⟨hy, hys⟩ := List.pairwise_cons.mp hm
      have same : x = y := by
        rcases List.mem_cons.mp ((h x).mp List.mem_cons_self) with e | hxy
        · exact e
        · rcases List.mem_cons.mp ((h y).mpr List.mem_cons_self) with e | hyx
          · exact e.symm
          · exact absurd (hx y hyx) (lt_asymm (hy x hxy))
      subst same
      have tails : ∀ z, z ∈ xs ↔ z ∈ ys := fun z => by
        have fresh : z ∈ xs → z ≠ x := fun hz e => OrderedKey.lt_irrefl (key x) (e ▸ hx z hz)
        have fresh' : z ∈ ys → z ≠ x := fun hz e => OrderedKey.lt_irrefl (key x) (e ▸ hy z hz)
        have := h z
        grind
      rw [ih hxs ys hys tails]

section LookUp

variable [DecidableEq κ]

/-- Looking up a key finds the member that has it. -/
theorem get?_eq_some_iff {s : Ascending key} {k : κ} {x : α} :
    s.get? k = some x ↔ x ∈ s ∧ key x = k := by
  constructor
  · intro h
    exact ⟨List.mem_of_find?_eq_some h, by simpa using List.find?_some h⟩
  · rintro ⟨hx, hk⟩
    cases h : s.get? k with
    | none => exact absurd hk (by simpa using List.find?_eq_none.mp h x hx)
    | some y =>
      have hy : y ∈ s := List.mem_of_find?_eq_some h
      have hyk : key y = k := by simpa using List.find?_some h
      rw [eq_of_key_eq hy hx (hyk.trans hk.symm)]

theorem get?_erase {s : Ascending key} {j k : κ} :
    (s.erase j).get? k = if k = j then none else s.get? k := by
  ext x
  rw [get?_eq_some_iff, mem_erase]
  split
  · grind
  · rw [get?_eq_some_iff]; grind

theorem get?_map {f : α → α} {keeps : ∀ x, key (f x) = key x} {s : Ascending key} {k : κ} :
    (s.map f keeps).get? k = (s.get? k).map f := by
  ext y
  simp only [get?_eq_some_iff, mem_map, Option.map_eq_some_iff]
  constructor
  · rintro ⟨⟨x, hx, rfl⟩, hk⟩
    exact ⟨x, ⟨hx, by rw [← keeps, hk]⟩, rfl⟩
  · rintro ⟨x, ⟨hx, hk⟩, rfl⟩
    exact ⟨⟨x, hx, rfl⟩, by rw [keeps, hk]⟩

end LookUp

variable [DecidableLT κ]

theorem mem_insertInto_iff {x y : α} {l : List α} (hl : l.Pairwise (key · < key ·)) :
    y ∈ insertInto key x l ↔ y = x ∨ y ∈ l ∧ key y ≠ key x := by
  induction l with
  | nil => simp [insertInto]
  | cons z zs ih =>
    obtain ⟨hz, hzs⟩ := List.pairwise_cons.mp hl
    unfold insertInto
    split
    case isTrue hxz =>
      have later : ∀ w ∈ z :: zs, key w ≠ key x := fun w hw => by
        rcases List.mem_cons.mp hw with rfl | hw
        · exact (ne_of_lt hxz).symm
        · exact (ne_of_lt (OrderedKey.lt_trans hxz (hz w hw))).symm
      grind
    case isFalse hxz =>
      split
      case isTrue hzx =>
        have := ne_of_lt hzx
        grind
      case isFalse hzx =>
        have same : key x = key z := by
          rcases OrderedKey.lt_or_eq_or_gt (key x) (key z) with h | h | h
          · exact absurd h hxz
          · exact h
          · exact absurd h hzx
        have later : ∀ w ∈ zs, key w ≠ key x := fun w hw => same ▸ (ne_of_lt (hz w hw)).symm
        grind

@[simp] theorem mem_insert {s : Ascending key} {x y : α} :
    y ∈ s.insert x ↔ y = x ∨ y ∈ s ∧ key y ≠ key x :=
  mem_insertInto_iff s.ascending

/-- Where the key is new, inserting is adding a member. -/
theorem insert_perm {s : Ascending key} {x : α} (h : ∀ y ∈ s, key y ≠ key x) :
    (s.insert x).toList.Perm (x :: s.toList) := by
  refine (List.perm_ext_iff_of_nodup (nodup_toList _) ?_).mpr fun y => ?_
  · exact List.nodup_cons.mpr ⟨fun hx => h x hx rfl, nodup_toList s⟩
  · rw [mem_toList, mem_insert, List.mem_cons]
    exact ⟨Or.imp_right And.left, Or.imp_right fun hy => ⟨hy, h y hy⟩⟩

/-- A member that is inserted takes the place of one with its key. -/
theorem insert_erase [DecidableEq κ] (s : Ascending key) (x : α) :
    (s.erase (key x)).insert x = s.insert x := by
  refine ext_mem fun y => ?_
  rw [mem_insert, mem_insert, mem_erase]
  grind

/-- The image of a collection with `x` is the image with that of `x`. -/
theorem map_insert {f : α → α} {keeps : ∀ x, key (f x) = key x} {s : Ascending key} {x : α} :
    (s.insert x).map f keeps = (s.map f keeps).insert (f x) := by
  refine ext_mem fun y => ?_
  simp only [mem_map, mem_insert]
  constructor
  · rintro ⟨z, rfl | ⟨hz, hne⟩, rfl⟩
    · exact .inl rfl
    · exact .inr ⟨⟨z, hz, rfl⟩, by rwa [keeps, keeps]⟩
  · rintro (rfl | ⟨⟨z, hz, rfl⟩, hne⟩)
    · exact ⟨x, .inl rfl, rfl⟩
    · exact ⟨z, .inr ⟨hz, by rwa [keeps, keeps] at hne⟩, rfl⟩

theorem get?_insert [DecidableEq κ] {s : Ascending key} {x : α} {k : κ} :
    (s.insert x).get? k = if key x = k then some x else s.get? k := by
  ext y
  rw [get?_eq_some_iff, mem_insert]
  split
  · grind
  · rw [get?_eq_some_iff]; grind

/-- Where members of a list with one key are one member, nothing of the list is lost. -/
theorem mem_ofList {l : List α} (hl : ∀ x ∈ l, ∀ y ∈ l, key x = key y → x = y) {x : α} :
    x ∈ Ascending.ofList key l ↔ x ∈ l := by
  have step : ∀ (l : List α) (s : Ascending key),
      (∀ x y, (x ∈ s ∨ x ∈ l) → (y ∈ s ∨ y ∈ l) → key x = key y → x = y) →
      (x ∈ l.foldl insert s ↔ x ∈ s ∨ x ∈ l) := by
    intro l
    induction l with
    | nil => simp
    | cons y ys ih =>
      intro s hs
      have later : ∀ a b, (a ∈ s.insert y ∨ a ∈ ys) → (b ∈ s.insert y ∨ b ∈ ys) → key a = key b →
          a = b := fun a b ha hb => hs a b (by grind [mem_insert]) (by grind [mem_insert])
      rw [List.foldl_cons, ih _ later, mem_insert]
      have := hs x y
      grind
  have hempty : ∀ x y, (x ∈ (∅ : Ascending key) ∨ x ∈ l) → (y ∈ (∅ : Ascending key) ∨ y ∈ l) →
      key x = key y → x = y := fun x y hx hy => hl x (by simpa using hx) y (by simpa using hy)
  simpa [ofList] using step l ∅ hempty

/-- Where the key is the member itself, a collection is the set of a list's members. -/
@[simp] theorem mem_ofList_id {l : List κ} {x : κ} :
    x ∈ Ascending.ofList (id : κ → κ) l ↔ x ∈ l :=
  mem_ofList fun _ _ _ _ h => h

end Ascending

end Switchyard
