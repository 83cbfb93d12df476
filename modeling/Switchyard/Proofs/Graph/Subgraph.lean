import Switchyard.Proofs.Graph.Search

/-!
The components of a graph beside those of a part of it.

More switches link more points, so every component of a part of a graph lies within one component of
the whole (`Within.exists_component`). If the part is the whole without one switch, little else
changes (`Severed`): a component without an end of the switch stays as it was, and the one that has
its ends falls into the components of these two ends. Points that were there for the sake of the
switch alone (`HangsOn`) go with it, and they are among its ends.
-/

namespace Switchyard

variable {edges more : List Edge} {e : Edge} {p q : Point}

theorem Joined.mono (hedges : ∀ e ∈ edges, e ∈ more) (h : Joined edges p q) : Joined more p q := by
  obtain ⟨e, he, hends⟩ := h
  exact ⟨e, hedges e he, hends⟩

theorem Linked.mono (hedges : ∀ e ∈ edges, e ∈ more) (h : Linked edges p q) : Linked more p q :=
  Relation.ReflTransGen.mono (fun _ _ => Joined.mono hedges) _ _ h

/-- A point that is linked to another one is an end of a switch. -/
theorem Linked.exists_end (h : Linked edges p q) (hne : p ≠ q) :
    ∃ e ∈ edges, e.one = p ∨ e.two = p := by
  rcases Relation.ReflTransGen.cases_head h with heq | ⟨r, hjoined, _⟩
  · exact absurd heq hne
  · exact exists_joined.mp ⟨r, hjoined⟩

namespace Graph

variable {graph part whole severed : Graph} {id : String} {component : PointSet}

/-- A component has what is linked to any of its points. -/
theorem mem_component_iff {c : PointSet} (hc : c ∈ graph.components) (hp : p ∈ c) :
    q ∈ c ↔ Linked graph.switches p q := by
  obtain ⟨r, _, hclass⟩ := mem_components.mp hc
  have hlinked := (hclass p).mp hp
  rw [hclass]
  exact ⟨hlinked.symm.trans, hlinked.trans⟩

/-! ### A part and the whole -/

/-- All points and switches of a graph are those of another. -/
structure Within (part whole : Graph) : Prop where
  points : ∀ p ∈ part.points, p ∈ whole.points
  switches : ∀ e ∈ part.switches, e ∈ whole.switches

theorem Within.refl (graph : Graph) : graph.Within graph := ⟨fun _ hp => hp, fun _ he => he⟩

/-- A component of a part lies within one component of the whole, and meets no other. -/
theorem Within.exists_component (h : part.Within whole) (hc : component ∈ part.components) :
    ∃ c ∈ whole.components, (∀ p ∈ component, p ∈ c) ∧
      ∀ other ∈ whole.components, (∃ p ∈ component, p ∈ other) → other = c := by
  obtain ⟨p, hp, hclass⟩ := mem_components.mp hc
  obtain ⟨c, hwhole, hpc⟩ := Graph.exists_component (h.points p hp)
  have hinside : ∀ q ∈ component, q ∈ c := fun q hq =>
    (mem_component_iff hwhole hpc).mpr (((hclass q).mp hq).mono h.switches)
  refine ⟨c, hwhole, hinside, ?_⟩
  rintro other hother ⟨q, hq, hqother⟩
  exact eq_of_mem_components hother hwhole hqother (hinside q hq)

/-! ### A graph without one of its switches -/

/-- Every point carries a vertex or is an end of a switch. -/
def Spanned (graph : Graph) : Prop :=
  ∀ p ∈ graph.points,
    (∃ v ∈ graph.vertices, v.point = p) ∨ ∃ e ∈ graph.switches, e.one = p ∨ e.two = p

theorem Spanned.mem_points_iff (h : graph.Spanned) :
    p ∈ graph.points ↔
      (∃ v ∈ graph.vertices, v.point = p) ∨ ∃ e ∈ graph.switches, e.one = p ∨ e.two = p := by
  refine ⟨h p, ?_⟩
  rintro (⟨v, hv, rfl⟩ | ⟨e, he, rfl | rfl⟩)
  · exact graph.vertex_mem v hv
  · exact graph.one_mem e he
  · exact graph.two_mem e he

/-- With its vertices and switches, the whole has the points of a part. -/
theorem Spanned.within (h : part.Spanned) (hvertices : ∀ v ∈ part.vertices, v ∈ whole.vertices)
    (hswitches : ∀ e ∈ part.switches, e ∈ whole.switches) : part.Within whole where
  points p hp := by
    rcases h p hp with ⟨v, hv, rfl⟩ | ⟨e, he, rfl | rfl⟩
    · exact whole.vertex_mem v (hvertices v hv)
    · exact whole.one_mem e (hswitches e he)
    · exact whole.two_mem e (hswitches e he)
  switches := hswitches

/-- The point carries no vertex and is an end of no switch but those with the id. -/
def HangsOn (graph : Graph) (id : String) (p : Point) : Prop :=
  (∀ v ∈ graph.vertices, v.point ≠ p) ∧
    ∀ e ∈ graph.switches, e.one = p ∨ e.two = p → e.switch = id

/-- The graph without a switch, the only one with its id. -/
structure Severed (graph : Graph) (e : Edge) (severed : Graph) : Prop where
  mem : e ∈ graph.switches
  only : ∀ f ∈ graph.switches, f.switch = e.switch → f = e
  level : severed.level = graph.level
  vertices : severed.vertices = graph.vertices
  switches : severed.switches = graph.switches.filter (·.switch ≠ e.switch)
  spanned : graph.Spanned
  left : severed.Spanned

theorem Severed.mem_switches_iff (h : graph.Severed e severed) {f : Edge} :
    f ∈ severed.switches ↔ f ∈ graph.switches ∧ f.switch ≠ e.switch := by
  rw [h.switches, List.mem_filter, decide_eq_true_iff]

/-- The points that hang on the switch go with it, and all others stay. -/
theorem Severed.mem_points_iff (h : graph.Severed e severed) :
    p ∈ severed.points ↔ p ∈ graph.points ∧ ¬ graph.HangsOn e.switch p := by
  rw [h.left.mem_points_iff, h.vertices]
  constructor
  · rintro (⟨v, hv, hpoint⟩ | ⟨f, hf, hends⟩)
    · exact ⟨h.spanned.mem_points_iff.mpr (.inl ⟨v, hv, hpoint⟩),
        fun hhangs => hhangs.1 v hv hpoint⟩
    · obtain ⟨hf, hid⟩ := h.mem_switches_iff.mp hf
      exact ⟨h.spanned.mem_points_iff.mpr (.inr ⟨f, hf, hends⟩),
        fun hhangs => hid (hhangs.2 f hf hends)⟩
  · rintro ⟨hp, hhangs⟩
    refine Decidable.or_iff_not_imp_left.mpr fun hbare => ?_
    refine Decidable.byContradiction fun hno =>
      hhangs ⟨fun v hv hpoint => hbare ⟨v, hv, hpoint⟩, fun f hf hends => ?_⟩
    refine Decidable.byContradiction fun hid => hno ⟨f, h.mem_switches_iff.mpr ⟨hf, hid⟩, hends⟩

theorem Severed.within (h : graph.Severed e severed) : severed.Within graph where
  points _ hp := (h.mem_points_iff.mp hp).1
  switches _ hf := (h.mem_switches_iff.mp hf).1

/-- A point that hangs on the switch is one of its ends. -/
theorem Severed.eq_end_of_hangsOn (h : graph.Severed e severed) (hp : p ∈ graph.points)
    (hhangs : graph.HangsOn e.switch p) : p = e.one ∨ p = e.two := by
  rcases h.spanned p hp with ⟨v, hv, hpoint⟩ | ⟨f, hf, hends⟩
  · exact absurd hpoint (hhangs.1 v hv)
  · obtain rfl := h.only f hf (hhangs.2 f hf hends)
    exact hends.imp Eq.symm Eq.symm

/-- What was linked before is linked still, or it is linked to the two ends of the switch. -/
theorem Severed.linked_iff (h : graph.Severed e severed) :
    Linked graph.switches p q ↔
      Linked severed.switches p q ∨
        (Linked severed.switches p e.one ∧ Linked severed.switches e.two q) ∨
        (Linked severed.switches p e.two ∧ Linked severed.switches e.one q) := by
  rw [← linked_concat]
  constructor
  · refine Linked.mono fun f hf => ?_
    by_cases hid : f.switch = e.switch
    · exact List.mem_append_right _ (List.mem_singleton.mpr (h.only f hf hid))
    · exact List.mem_append_left _ (h.mem_switches_iff.mpr ⟨hf, hid⟩)
  · refine Linked.mono fun f hf => ?_
    rcases List.mem_append.mp hf with hf | hf
    · exact h.within.switches f hf
    · rw [List.mem_singleton.mp hf]
      exact h.mem

theorem Severed.linked_ends (h : graph.Severed e severed) : Linked graph.switches e.one e.two :=
  h.linked_iff.mpr (.inr (.inl ⟨.refl, .refl⟩))

/-- The components of the two ends of the switch, as far as these are still there. -/
def sides (severed : Graph) (e : Edge) : List PointSet :=
  [e.one, e.two].filterMap severed.componentOf?

theorem mem_sides {c : PointSet} :
    c ∈ severed.sides e ↔ c ∈ severed.components ∧ (e.one ∈ c ∨ e.two ∈ c) := by
  simp only [sides, List.mem_filterMap, List.mem_cons, List.not_mem_nil, or_false,
    exists_eq_or_imp, exists_eq_left, componentOf?_eq_some_iff, ← and_or_left]

/-- A component is one that was there before and has neither end of the switch, or it is that of one
of these ends. -/
theorem Severed.mem_components_iff (h : graph.Severed e severed) {c : PointSet} :
    c ∈ severed.components ↔ c ∈ graph.components ∧ e.one ∉ c ∨ c ∈ severed.sides e := by
  rw [mem_sides]
  constructor
  · intro hc
    by_cases hend : e.one ∈ c ∨ e.two ∈ c
    · exact .inr ⟨hc, hend⟩
    obtain ⟨hone, htwo⟩ := not_or.mp hend
    refine .inl ⟨mem_components.mpr ?_, hone⟩
    obtain ⟨p, hp, hclass⟩ := mem_components.mp hc
    refine ⟨p, h.within.points p hp, fun q => ?_⟩
    rw [hclass, h.linked_iff]
    refine ⟨.inl, ?_⟩
    rintro (hlinked | ⟨hlinked, _⟩ | ⟨hlinked, _⟩)
    · exact hlinked
    · exact absurd ((hclass e.one).mpr hlinked) hone
    · exact absurd ((hclass e.two).mpr hlinked) htwo
  · rintro (⟨hc, hone⟩ | ⟨hc, _⟩)
    · obtain ⟨p, hp, hclass⟩ := mem_components.mp hc
      have htwo : e.two ∉ c := fun htwo =>
        hone ((hclass e.one).mpr (((hclass e.two).mp htwo).trans h.linked_ends.symm))
      have hpc : p ∈ c := (hclass p).mpr .refl
      refine mem_components.mpr ⟨p, h.mem_points_iff.mpr ⟨hp, fun hhangs => ?_⟩, fun q => ?_⟩
      · rcases h.eq_end_of_hangsOn hp hhangs with rfl | rfl
        · exact hone hpc
        · exact htwo hpc
      · rw [hclass]
        refine ⟨fun hlinked => ?_, Linked.mono h.within.switches⟩
        -- a chain over the switch would lead from the component to one of its ends
        rcases h.linked_iff.mp hlinked with hlinked | ⟨hlinked, _⟩ | ⟨hlinked, _⟩
        · exact hlinked
        · exact absurd ((hclass e.one).mpr (hlinked.mono h.within.switches)) hone
        · exact absurd ((hclass e.two).mpr (hlinked.mono h.within.switches)) htwo
    · exact hc

/-- Of the component that has the ends of the switch, the components of these ends keep all but what
hung on the switch. -/
theorem Severed.mem_sides_iff (h : graph.Severed e severed) (hc : component ∈ graph.components)
    (hone : e.one ∈ component) :
    (∃ side ∈ severed.sides e, p ∈ side) ↔
      p ∈ component ∧ ¬ ((p = e.one ∨ p = e.two) ∧ graph.HangsOn e.switch p) := by
  rw [mem_component_iff hc hone]
  constructor
  · rintro ⟨side, hside, hp⟩
    obtain ⟨hside, hend⟩ := mem_sides.mp hside
    have hleft := h.mem_points_iff.mp (mem_points_of_mem_components hside hp)
    refine ⟨?_, fun hhangs => hleft.2 hhangs.2⟩
    rcases hend with hend | hend
    · exact ((mem_component_iff hside hend).mp hp).mono h.within.switches
    · exact h.linked_ends.trans (((mem_component_iff hside hend).mp hp).mono h.within.switches)
  · rintro ⟨hlinked, hhangs⟩
    have hbefore : p ∈ graph.points :=
      mem_points_of_linked hlinked (mem_points_of_mem_components hc hone)
    have hleft : p ∈ severed.points := h.mem_points_iff.mpr
      ⟨hbefore, fun hhang => hhangs ⟨h.eq_end_of_hangsOn hbefore hhang, hhang⟩⟩
    obtain ⟨side, hside, hp⟩ := exists_component hleft
    refine ⟨side, mem_sides.mpr ⟨hside, ?_⟩, hp⟩
    rcases h.linked_iff.mp hlinked with hlinked | ⟨_, hlinked⟩ | ⟨_, hlinked⟩
    · exact .inl ((mem_component_iff hside hp).mpr hlinked.symm)
    · exact .inr ((mem_component_iff hside hp).mpr hlinked.symm)
    · exact .inl ((mem_component_iff hside hp).mpr hlinked.symm)

/-- If other switches still join the two ends of the switch, their component stays whole. -/
theorem Severed.mem_sides_of_linked (h : graph.Severed e severed)
    (hc : component ∈ graph.components) (hone : e.one ∈ component) (hne : e.one ≠ e.two)
    (hlinked : Linked severed.switches e.one e.two) {side : PointSet} :
    side ∈ severed.sides e ↔ side = component := by
  have hclass : ∀ q, q ∈ component ↔ Linked severed.switches e.one q := by
    intro q
    rw [mem_component_iff hc hone, h.linked_iff]
    refine ⟨?_, .inl⟩
    rintro (hq | ⟨_, hq⟩ | ⟨_, hq⟩)
    · exact hq
    · exact hlinked.trans hq
    · exact hq
  have hleft : e.one ∈ severed.points := by
    obtain ⟨f, hf, hends⟩ := hlinked.exists_end hne
    rcases hends with hend | hend
    · exact hend ▸ severed.one_mem f hf
    · exact hend ▸ severed.two_mem f hf
  have hcomponent : component ∈ severed.components := mem_components.mpr ⟨e.one, hleft, hclass⟩
  rw [mem_sides]
  constructor
  · rintro ⟨hside, hend⟩
    rcases hend with hend | hend
    · exact eq_of_mem_components hside hcomponent hend hone
    · exact eq_of_mem_components hside hcomponent hend ((hclass e.two).mpr hlinked)
  · rintro rfl
    exact ⟨hcomponent, .inl hone⟩

end Graph

end Switchyard
