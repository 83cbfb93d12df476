import Switchyard.Proofs.Graph.Linked

/-!
The component of a point, found by a search.

The search widens a set of points, round by round, to those one switch further away. Whatever it
finds is linked to where it started (`linked_of_mem_spread`). A round that finds nothing leaves a
set that no switch leads out of, and any other round leaves fewer points out, so with a round for
every point left out the search ends in such a set (`closed_spread`). Hence it finds just what is
linked to its start, which is what uniting classes finds: the two ways agree on every graph
(`components_agree_with_search`).
-/

namespace Switchyard

namespace Graph

variable {graph : Graph} {seen : List Point} {rounds : Nat} {start p q : Point}
  {component : PointSet}

theorem joins_iff : graph.joins p q = true ↔ Joined graph.switches p q := by
  rw [joins, List.any_eq_true]
  exact exists_congr fun e => and_congr_right fun _ => decide_eq_true_iff

theorem mem_points_of_joined (h : Joined graph.switches p q) : q ∈ graph.points := by
  obtain ⟨e, he, ⟨_, rfl⟩ | ⟨rfl, _⟩⟩ := h
  · exact graph.two_mem e he
  · exact graph.one_mem e he

/-! ### One round -/

/-- What a round finds: the points one switch away that were not seen before. -/
def fresh (graph : Graph) (seen : List Point) : List Point :=
  graph.points.filter fun q => q ∉ seen ∧ seen.any (graph.joins · q)

/-- The points of the graph that were not seen. -/
def unseen (graph : Graph) (seen : List Point) : List Point := graph.points.filter (· ∉ seen)

theorem mem_unseen : q ∈ graph.unseen seen ↔ q ∈ graph.points ∧ q ∉ seen := by
  rw [unseen, List.mem_filter, decide_eq_true_iff]

theorem mem_fresh :
    q ∈ graph.fresh seen ↔ q ∉ seen ∧ ∃ p ∈ seen, Joined graph.switches p q := by
  simp only [fresh, List.mem_filter, decide_eq_true_iff, List.any_eq_true, joins_iff]
  constructor
  · rintro ⟨_, hnew, hjoined⟩
    exact ⟨hnew, hjoined⟩
  · rintro ⟨hnew, p, hp, hjoined⟩
    exact ⟨mem_points_of_joined hjoined, hnew, p, hp, hjoined⟩

theorem spread_succ (graph : Graph) (rounds : Nat) (seen : List Point) :
    graph.spread (rounds + 1) seen =
      if graph.fresh seen = [] then seen else graph.spread rounds (seen ++ graph.fresh seen) := by
  rw [spread, ← fresh]
  cases graph.fresh seen <;> rfl

/-- A round that finds something leaves fewer points out. -/
theorem length_unseen_lt (h : graph.fresh seen ≠ []) :
    (graph.unseen (seen ++ graph.fresh seen)).length < (graph.unseen seen).length := by
  obtain ⟨q, hq⟩ := List.exists_mem_of_ne_nil _ h
  have hrest : graph.unseen (seen ++ graph.fresh seen) =
      (graph.unseen seen).filter (· ∉ graph.fresh seen) := by
    rw [unseen, unseen, List.filter_filter]
    exact List.filter_congr fun p _ => by simp [Bool.and_comm]
  have hleft : q ∈ graph.unseen seen := by
    obtain ⟨hnew, p, _, hjoined⟩ := mem_fresh.mp hq
    exact mem_unseen.mpr ⟨mem_points_of_joined hjoined, hnew⟩
  rw [hrest]
  exact List.length_filter_lt_length_iff_exists.mpr ⟨q, hleft, by simpa using hq⟩

/-! ### The whole search -/

theorem mem_spread_of_mem (hp : p ∈ seen) : p ∈ graph.spread rounds seen := by
  induction rounds generalizing seen with
  | zero => exact hp
  | succ rounds ih =>
    rw [spread_succ]
    split
    · exact hp
    · exact ih (List.mem_append_left _ hp)

/-- What the search finds is linked to a point that it started from. -/
theorem linked_of_mem_spread (hq : q ∈ graph.spread rounds seen) :
    ∃ p ∈ seen, Linked graph.switches p q := by
  induction rounds generalizing seen with
  | zero => exact ⟨q, hq, .refl⟩
  | succ rounds ih =>
    rw [spread_succ] at hq
    split at hq
    · exact ⟨q, hq, .refl⟩
    · obtain ⟨r, hr, hlinked⟩ := ih hq
      rcases List.mem_append.mp hr with hr | hr
      · exact ⟨r, hr, hlinked⟩
      · obtain ⟨_, p, hp, hjoined⟩ := mem_fresh.mp hr
        exact ⟨p, hp, .head hjoined hlinked⟩

/-- With a round for every point left out, no switch leads out of what the search finds. -/
theorem closed_spread (hrounds : (graph.unseen seen).length ≤ rounds)
    (hp : p ∈ graph.spread rounds seen) (hjoined : Joined graph.switches p q) :
    q ∈ graph.spread rounds seen := by
  induction rounds generalizing seen with
  | zero =>
    have hnone : graph.unseen seen = [] := List.length_eq_zero_iff.mp (Nat.le_zero.mp hrounds)
    refine Decidable.byContradiction fun hnew => ?_
    have hleft : q ∈ graph.unseen seen := mem_unseen.mpr ⟨mem_points_of_joined hjoined, hnew⟩
    rw [hnone] at hleft
    cases hleft
  | succ rounds ih =>
    rw [spread_succ] at hp ⊢
    split at hp
    case isTrue hnone =>
      rw [if_pos hnone]
      refine Decidable.byContradiction fun hnew => ?_
      have hfresh : q ∈ graph.fresh seen := mem_fresh.mpr ⟨hnew, p, hp, hjoined⟩
      rw [hnone] at hfresh
      cases hfresh
    case isFalse hsome =>
      rw [if_neg hsome]
      have hfewer := length_unseen_lt hsome
      exact ih (by omega) hp

/-- With as many rounds as there are points, a search from one point finds what is linked to it. -/
theorem mem_spread :
    q ∈ graph.spread graph.points.length [start] ↔ Linked graph.switches start q := by
  constructor
  · intro hq
    obtain ⟨p, hp, hlinked⟩ := linked_of_mem_spread hq
    rwa [List.mem_singleton.mp hp] at hlinked
  · intro hlinked
    have hrounds : (graph.unseen [start]).length ≤ graph.points.length := List.length_filter_le _ _
    induction hlinked with
    | refl => exact mem_spread_of_mem (List.mem_singleton_self start)
    | tail _ hjoined ih => exact closed_spread hrounds ih hjoined

theorem componentOf?_eq_none_iff : graph.componentOf? start = none ↔ start ∉ graph.points := by
  rw [componentOf?]
  split <;> simp_all

/-- The search finds the component that its start is in. -/
theorem componentOf?_eq_some_iff :
    graph.componentOf? start = some component ↔
      component ∈ graph.components ∧ start ∈ component := by
  rw [componentOf?, mem_components]
  constructor
  · intro h
    split at h
    case isFalse => cases h
    case isTrue hstart =>
      obtain rfl := Option.some.inj h
      have hclass : ∀ q, q ∈ Ascending.ofList (id : Point → Point)
          (graph.spread graph.points.length [start]) ↔ Linked graph.switches start q :=
        fun q => Ascending.mem_ofList_id.trans mem_spread
      exact ⟨⟨start, hstart, hclass⟩, (hclass start).mpr .refl⟩
  · rintro ⟨⟨p, hp, hclass⟩, hstart⟩
    have hlinked : Linked graph.switches p start := (hclass start).mp hstart
    rw [if_pos (mem_points_of_linked hlinked hp)]
    refine congrArg some (Ascending.ext_mem fun q => ?_)
    rw [Ascending.mem_ofList_id, mem_spread, hclass]
    exact ⟨hlinked.trans, hlinked.symm.trans⟩

/-! ### All components -/

/-- A component is listed at its smallest point, so the list is sorted by these. -/
theorem components_sorted (graph : Graph) :
    graph.components.Pairwise fun c d =>
      ∃ p q, c.least? = some p ∧ d.least? = some q ∧ p < q := by
  rw [components, List.pairwise_filterMap]
  refine (Ascending.ascending _).imp fun {p q} hlt c hc d hd => ?_
  have hleast : ∀ {p : Point} {c : PointSet},
      (if (graph.classOf p).least? = some p then some (graph.classOf p) else none) = some c →
        c.least? = some p := by
    intro p c h
    split at h
    case isFalse => cases h
    case isTrue hleast => rwa [← Option.some.inj h]
  exact ⟨p, q, hleast hc, hleast hd, hlt⟩

/-- The sets divide the points of the graph into what its switches link, in the order of their
smallest points. -/
structure Divides (graph : Graph) (sets : List PointSet) : Prop where
  nonempty : ∀ c ∈ sets, ∃ p, p ∈ c
  disjoint : sets.Pairwise fun c d => ∀ p, p ∈ c → p ∉ d
  covers : ∀ p, p ∈ graph.points ↔ ∃ c ∈ sets, p ∈ c
  linked : ∀ p ∈ graph.points, ∀ q,
    (∃ c ∈ sets, p ∈ c ∧ q ∈ c) ↔ Linked graph.switches p q
  sorted : sets.Pairwise fun c d => ∃ p q, c.least? = some p ∧ d.least? = some q ∧ p < q

theorem exists_component (hp : p ∈ graph.points) : ∃ c ∈ graph.components, p ∈ c := by
  cases h : graph.componentOf? p with
  | none => exact absurd hp (componentOf?_eq_none_iff.mp h)
  | some c => exact ⟨c, componentOf?_eq_some_iff.mp h⟩

theorem components_disjoint (graph : Graph) :
    graph.components.Pairwise fun c d => ∀ p, p ∈ c → p ∉ d := by
  refine graph.components_sorted.imp_of_mem fun {c d} hc hd hsorted r hrc hrd => ?_
  obtain ⟨p, q, hp, hq, hlt⟩ := hsorted
  obtain rfl := eq_of_mem_components hc hd hrc hrd
  exact Ascending.ne_of_lt hlt (Option.some.inj (hp.symm.trans hq))

theorem divides_components (graph : Graph) : graph.Divides graph.components where
  nonempty c hc := by
    obtain ⟨p, _, hclass⟩ := mem_components.mp hc
    exact ⟨p, (hclass p).mpr .refl⟩
  disjoint := graph.components_disjoint
  covers p := ⟨exists_component, fun ⟨_, hc, hp⟩ => mem_points_of_mem_components hc hp⟩
  linked p hp q := by
    constructor
    · rintro ⟨c, hc, hpc, hqc⟩
      obtain ⟨r, _, hclass⟩ := mem_components.mp hc
      exact ((hclass p).mp hpc).symm.trans ((hclass q).mp hqc)
    · intro hlinked
      obtain ⟨c, hc, hpc⟩ := exists_component hp
      obtain ⟨r, _, hclass⟩ := mem_components.mp hc
      exact ⟨c, hc, hpc, (hclass q).mpr (((hclass p).mp hpc).trans hlinked)⟩
  sorted := graph.components_sorted

/-- Uniting classes divides the points of any graph into what its switches link, and searching from
a point finds the one set of this division that has the point, or none if it is not in the graph. -/
theorem components_agree_with_search (graph : Graph) :
    graph.Divides graph.components ∧ ∀ start,
      (graph.componentOf? start = none ↔ graph.contains start = false) ∧
        ∀ component, graph.componentOf? start = some component ↔
          component ∈ graph.components ∧ start ∈ component := by
  refine ⟨graph.divides_components, fun start => ⟨?_, fun component => componentOf?_eq_some_iff⟩⟩
  rw [componentOf?_eq_none_iff, contains, decide_eq_false_iff_not]

end Graph

end Switchyard
