import Mathlib.Data.Finset.Card
import Mathlib.Data.Finset.Image
import Switchyard.Variant

/-!
Finding names and free numbers in a list of variants.

The search for a free number ends at the first that is free, just if that is within its range
(`firstFree?_eq_some_iff`). Of the first numbers, one more than are in use, not all can be in use
(`exists_isFree`), so the search never gets further than that, whatever the list
(`search_ends_at_lowest_free`). As long as any number is free, the one that is found is really free
(`lowestFree_spec`); fewer numbers in use than there are leave one free (`exists_unused`).
-/

namespace Switchyard

namespace VariantInfo

variable {infos : List VariantInfo} {info : VariantInfo} {name : String} {number : UInt32}
  {fault : Fault}

/-! ### Names -/

theorem of_find? (h : find? name infos = some info) : info ∈ infos ∧ info.name = name :=
  ⟨List.mem_of_find?_eq_some h, by simpa using List.find?_some h⟩

theorem find?_eq_none_iff : find? name infos = none ↔ ∀ info ∈ infos, info.name ≠ name := by
  simp [find?]

theorem numberOf_eq_ok_iff :
    numberOf name infos = .ok number ↔ ∃ info, find? name infos = some info ∧
      info.number = number := by
  unfold numberOf
  cases find? name infos <;> simp

theorem numberOf_eq_error_iff :
    numberOf name infos = .error fault ↔ find? name infos = none ∧
      fault = .variantUnknown name := by
  unfold numberOf
  cases find? name infos <;> simp [eq_comm]

/-! ### Numbers -/

/-- The numbers in use, each once. -/
def numbers (infos : List VariantInfo) : Finset UInt32 := (infos.map (·.number)).toFinset

theorem mem_numbers : number ∈ numbers infos ↔ ∃ info ∈ infos, info.number = number := by
  simp [numbers]

theorem isFree_iff {candidate : Nat} :
    isFree infos candidate = true ↔ ∀ number ∈ numbers infos, number.toNat ≠ candidate := by
  simp [isFree, mem_numbers]

theorem isFree_toNat_iff : isFree infos number.toNat = true ↔ number ∉ numbers infos := by
  rw [isFree_iff]
  exact ⟨fun h hused => h number hused rfl,
    fun h other hother hsame => h (UInt32.toNat_inj.mp hsame ▸ hother)⟩

/-- Of more candidates than there are numbers in use, one is free. -/
theorem exists_isFree (infos : List VariantInfo) :
    ∃ candidate ≤ (numbers infos).card, isFree infos candidate = true := by
  have hmore : ((numbers infos).image UInt32.toNat).card <
      (Finset.range ((numbers infos).card + 1)).card := by
    rw [Finset.card_range]
    exact Nat.lt_succ_of_le Finset.card_image_le
  obtain ⟨candidate, hrange, hunused⟩ := Finset.exists_mem_notMem_of_card_lt_card hmore
  refine ⟨candidate, Nat.le_of_lt_succ (Finset.mem_range.mp hrange), ?_⟩
  rw [isFree_iff]
  intro number hnumber hsame
  exact hunused (Finset.mem_image.mpr ⟨number, hnumber, hsame⟩)

theorem card_numbers_le (infos : List VariantInfo) : (numbers infos).card ≤ infos.length :=
  (List.toFinset_card_le _).trans (List.length_map _).le

theorem exists_unused (h : (numbers infos).card < UInt32.size) :
    ∃ number, number ∉ numbers infos := by
  obtain ⟨candidate, hle, hfree⟩ := exists_isFree infos
  refine ⟨.ofNat candidate, fun hused => isFree_iff.mp hfree _ hused ?_⟩
  exact UInt32.toNat_ofNat_of_lt' (hle.trans_lt h)

/-- The search is for the first free number of its range. -/
theorem firstFree?_eq_find? (infos : List VariantInfo) (left number : Nat) :
    firstFree? infos left number = (List.range' number left).find? (isFree infos) := by
  induction left generalizing number with
  | zero => rfl
  | succ left ih =>
    rw [firstFree?, List.range'_succ, List.find?_cons, ih]
    cases isFree infos number <;> rfl

/-- The search ends at a number just if that is the first free one from where it starts, and in its
range. -/
theorem firstFree?_eq_some_iff {left number found : Nat} :
    firstFree? infos left number = some found ↔
      number ≤ found ∧ found < number + left ∧ isFree infos found = true ∧
        ∀ candidate, number ≤ candidate → candidate < found → isFree infos candidate = false := by
  rw [firstFree?_eq_find?, List.find?_range'_eq_some, List.mem_range'_1]
  simp only [Bool.not_eq_true']
  tauto

/-- The search runs through its range just if no number there is free. -/
theorem firstFree?_eq_none_iff {left number : Nat} :
    firstFree? infos left number = none ↔
      ∀ candidate, number ≤ candidate → candidate < number + left →
        isFree infos candidate = false := by
  rw [firstFree?_eq_find?, List.find?_range'_eq_none]
  simp only [Bool.not_eq_true']

/-- If any number is free, the one found is, and none below it. -/
theorem isFree_lowestFree (h : number ∉ numbers infos) :
    isFree infos (lowestFree infos).toNat = true ∧
      ∀ candidate < (lowestFree infos).toNat, isFree infos candidate = false := by
  have hfree := isFree_toNat_iff.mpr h
  have hwidth : number.toNat < UInt32.size := number.toNat_lt
  cases hsearch : firstFree? infos (UInt32.size - 1) 0 with
  | some found =>
    obtain ⟨_, hto, hisFree, hused⟩ := firstFree?_eq_some_iff.mp hsearch
    have hlowest : (lowestFree infos).toNat = found := by
      rw [lowestFree, hsearch, Option.getD_some, UInt32.toNat_ofNat_of_lt' (by omega)]
    rw [hlowest]
    exact ⟨hisFree, fun candidate => hused candidate candidate.zero_le⟩
  | none =>
    have hused := firstFree?_eq_none_iff.mp hsearch
    have hlowest : (lowestFree infos).toNat = UInt32.size - 1 := by
      rw [lowestFree, hsearch, Option.getD_none, UInt32.toNat_ofNat_of_lt' (by decide)]
    -- all numbers but the greatest are in use, so the greatest is the free one
    have hgreatest : number.toNat = UInt32.size - 1 := by
      by_contra hother
      rw [hused number.toNat (Nat.zero_le _) (by omega)] at hfree
      cases hfree
    rw [hlowest]
    exact ⟨hgreatest ▸ hfree, fun candidate hbelow => hused candidate candidate.zero_le (by omega)⟩

/-- If any number is free, the one found is; all below it are in use, and it is at most as great as
there are numbers in use. -/
theorem lowestFree_spec (h : ∃ number, number ∉ numbers infos) :
    lowestFree infos ∉ numbers infos ∧
      (∀ number < lowestFree infos, number ∈ numbers infos) ∧
      (lowestFree infos).toNat ≤ (numbers infos).card := by
  obtain ⟨unused, hunused⟩ := h
  obtain ⟨hfree, hbelow⟩ := isFree_lowestFree hunused
  refine ⟨isFree_toNat_iff.mp hfree, fun number hnumber => ?_, ?_⟩
  · by_contra hother
    have hused := hbelow number.toNat (UInt32.lt_iff_toNat_lt.mp hnumber)
    rw [isFree_toNat_iff.mpr hother] at hused
    cases hused
  · obtain ⟨candidate, hle, hcandidate⟩ := exists_isFree infos
    by_contra hmore
    have hused := hbelow candidate (by omega)
    rw [hcandidate] at hused
    cases hused

/-- If any number is free, the search from 0 on ends once its range goes beyond the lowest. -/
theorem firstFree?_zero (h : number ∉ numbers infos) (left : Nat) :
    firstFree? infos left 0 =
      if (lowestFree infos).toNat < left then some (lowestFree infos).toNat else none := by
  obtain ⟨hfree, hbelow⟩ := isFree_lowestFree h
  split
  case isTrue hto =>
    exact firstFree?_eq_some_iff.mpr
      ⟨Nat.zero_le _, by omega, hfree, fun candidate _ => hbelow candidate⟩
  case isFalse hto =>
    exact firstFree?_eq_none_iff.mpr fun candidate _ hcandidate => hbelow candidate (by omega)

/-- The search depends only on which numbers are in use. -/
theorem firstFree?_congr {others : List VariantInfo} (h : numbers others = numbers infos) :
    firstFree? others = firstFree? infos := by
  have hisFree : isFree others = isFree infos := funext fun candidate => by
    rw [Bool.eq_iff_iff, isFree_iff, isFree_iff, h]
  funext left number
  rw [firstFree?_eq_find?, firstFree?_eq_find?, hisFree]

/-- Whatever the list, as long as fewer numbers are in use than there are below the greatest, the
search from 0 on ends at a number below the greatest. It tries no number beyond the one it finds,
which is free while all below it are in use, and at most as great as the list is long. A list in
which the same numbers are in use, in any order and however often, has the same outcome. -/
theorem search_ends_at_lowest_free (infos : List VariantInfo)
    (h : (numbers infos).card < UInt32.size - 1) :
    ∃ found : UInt32,
      firstFree? infos (UInt32.size - 1) 0 = some found.toNat ∧ lowestFree infos = found ∧
      (∀ left, firstFree? infos left 0 = if found.toNat < left then some found.toNat else none) ∧
      (∀ info ∈ infos, info.number ≠ found) ∧
      (∀ number < found, ∃ info ∈ infos, info.number = number) ∧
      found.toNat ≤ (numbers infos).card ∧ found.toNat ≤ infos.length ∧
      ∀ others : List VariantInfo, numbers others = numbers infos →
        lowestFree others = found ∧ ∀ left, firstFree? others left 0 = firstFree? infos left 0 := by
  obtain ⟨unused, hunused⟩ := exists_unused (h.trans_le (Nat.sub_le _ _))
  obtain ⟨hfree, hbelow, hcard⟩ := lowestFree_spec ⟨unused, hunused⟩
  have hsearch := firstFree?_zero hunused
  refine ⟨lowestFree infos, ?_, rfl, hsearch, fun info hinfo hsame => ?_,
    fun number hnumber => mem_numbers.mp (hbelow number hnumber), hcard,
    hcard.trans (card_numbers_le infos), fun others hothers => ⟨?_, fun left => ?_⟩⟩
  · rw [hsearch, if_pos (hcard.trans_lt h)]
  · exact hfree (mem_numbers.mpr ⟨info, hinfo, hsame⟩)
  · rw [lowestFree, lowestFree, firstFree?_congr hothers]
  · rw [firstFree?_congr hothers]

/-- Of numbers that are listed in disorder, some of them twice and the greatest among them, 2 is the
lowest that is free, and so it is of the same numbers in order. -/
theorem search_ends_at_lowest_free_disordered :
    let infos : List VariantInfo :=
      [⟨3, "c"⟩, ⟨0, "a"⟩, ⟨4294967295, "d"⟩, ⟨1, "b"⟩, ⟨3, "e"⟩, ⟨0, "a"⟩]
    (numbers infos).card < UInt32.size - 1 ∧ lowestFree infos = 2 ∧
      firstFree? infos 2 0 = none ∧ firstFree? infos 3 0 = some 2 ∧
      lowestFree [⟨0, "a"⟩, ⟨1, "b"⟩, ⟨3, "c"⟩, ⟨4294967295, "d"⟩] = 2 := by
  intro infos
  have hcard : (numbers infos).card < UInt32.size - 1 := by decide
  obtain ⟨found, _, hlowest, hsearch, _, _, _, _, hothers⟩ := search_ends_at_lowest_free infos hcard
  have hfound : found = 2 := hlowest.symm.trans (by decide)
  subst hfound
  exact ⟨hcard, hlowest, hsearch 2, hsearch 3, (hothers _ (by decide)).1⟩

end VariantInfo

end Switchyard
