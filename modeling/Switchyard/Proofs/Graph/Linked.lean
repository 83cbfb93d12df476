import Mathlib.Logic.Relation
import Switchyard.Graph.Components

/-!
The components of a graph are the classes of linked points.

Two points are linked if they are equal or a chain of switches leads from one to the other. Uniting
classes switch by switch keeps one invariant (`Classified`): every point is in a class, and a class
consists of the points linked to any of its members by the switches seen so far. One more switch
links exactly what it joins the ends of (`linked_concat`), so the invariant passes over each switch,
and at the end the classes are the components (`Graph.mem_components`).
-/

namespace Switchyard

/-- One of the switches joins the two points. -/
def Joined (edges : List Edge) (p q : Point) : Prop :=
  ∃ e ∈ edges, (e.one = p ∧ e.two = q) ∨ (e.one = q ∧ e.two = p)

/-- The points are equal, or a chain of the switches joins them. -/
def Linked (edges : List Edge) : Point → Point → Prop := Relation.ReflTransGen (Joined edges)

variable {edges : List Edge} {e : Edge} {p q r : Point}

theorem Joined.symm (h : Joined edges p q) : Joined edges q p := by
  obtain ⟨e, he, h⟩ := h
  exact ⟨e, he, h.symm⟩

theorem exists_joined : (∃ q, Joined edges p q) ↔ ∃ e ∈ edges, e.one = p ∨ e.two = p := by
  constructor
  · rintro ⟨q, e, he, ⟨hp, _⟩ | ⟨_, hp⟩⟩
    · exact ⟨e, he, .inl hp⟩
    · exact ⟨e, he, .inr hp⟩
  · rintro ⟨e, he, hp | hp⟩
    · exact ⟨e.two, e, he, .inl ⟨hp, rfl⟩⟩
    · exact ⟨e.one, e, he, .inr ⟨rfl, hp⟩⟩

theorem Linked.symm (h : Linked edges p q) : Linked edges q p := by
  induction h with
  | refl => exact .refl
  | tail _ hjoined ih => exact .head hjoined.symm ih

theorem Linked.trans (h : Linked edges p q) (h' : Linked edges q r) : Linked edges p r :=
  Relation.ReflTransGen.trans h h'

/-- More switches link more points. -/
theorem Linked.append (h : Linked edges p q) (more : List Edge) : Linked (edges ++ more) p q := by
  induction h with
  | refl => exact .refl
  | tail _ hjoined ih =>
    obtain ⟨e, he, h⟩ := hjoined
    exact .tail ih ⟨e, List.mem_append_left more he, h⟩

theorem linked_nil : Linked [] p q ↔ p = q := by
  constructor
  · intro h
    induction h with
    | refl => rfl
    | tail _ hjoined _ =>
      obtain ⟨e, he, _⟩ := hjoined
      cases he
  · rintro rfl
    exact .refl

/-- The ends of a switch are linked by it. -/
theorem linked_ends (edges : List Edge) (e : Edge) : Linked (edges ++ [e]) e.one e.two :=
  .single ⟨e, List.mem_append_right edges List.mem_cons_self, .inl ⟨rfl, rfl⟩⟩

/-- One more switch links the points linked to one end with those linked to the other. -/
theorem linked_concat :
    Linked (edges ++ [e]) p q ↔
      Linked edges p q ∨ (Linked edges p e.one ∧ Linked edges e.two q) ∨
        (Linked edges p e.two ∧ Linked edges e.one q) := by
  constructor
  · intro h
    induction h with
    | refl => exact .inl .refl
    | tail _ hjoined ih =>
      obtain ⟨f, hf, hends⟩ := hjoined
      rcases List.mem_append.mp hf with hf | hf
      · -- an old switch prolongs whichever chain there was
        have hold : Joined edges _ _ := ⟨f, hf, hends⟩
        rcases ih with h | ⟨h, h'⟩ | ⟨h, h'⟩
        · exact .inl (.tail h hold)
        · exact .inr (.inl ⟨h, .tail h' hold⟩)
        · exact .inr (.inr ⟨h, .tail h' hold⟩)
      · obtain rfl := List.mem_singleton.mp hf
        rcases hends with ⟨rfl, rfl⟩ | ⟨rfl, rfl⟩
        · rcases ih with h | ⟨h, _⟩ | ⟨h, _⟩
          · exact .inr (.inl ⟨h, .refl⟩)
          · exact .inr (.inl ⟨h, .refl⟩)
          · exact .inl h
        · rcases ih with h | ⟨h, _⟩ | ⟨h, _⟩
          · exact .inr (.inr ⟨h, .refl⟩)
          · exact .inl h
          · exact .inr (.inr ⟨h, .refl⟩)
  · rintro (h | ⟨h, h'⟩ | ⟨h, h'⟩)
    · exact h.append [e]
    · exact ((h.append [e]).trans (linked_ends edges e)).trans (h'.append [e])
    · exact ((h.append [e]).trans (linked_ends edges e).symm).trans (h'.append [e])

/-! ### Uniting classes -/

/-- Every point is in a class, and a class has all that is linked to any of its members. -/
structure Classified (points : List Point) (edges : List Edge) (classes : List (List Point)) :
    Prop where
  covers : ∀ p ∈ points, ∃ c ∈ classes, p ∈ c
  whole : ∀ c ∈ classes, ∀ p ∈ c, ∀ q, q ∈ c ↔ Linked edges p q

variable {points : List Point} {classes : List (List Point)}

theorem classified_singletons (points : List Point) :
    Classified points [] (points.map ([·])) where
  covers p hp := ⟨[p], List.mem_map_of_mem hp, List.mem_singleton_self p⟩
  whole c hc p hp q := by
    obtain ⟨r, _, rfl⟩ := List.mem_map.mp hc
    obtain rfl := List.mem_singleton.mp hp
    rw [linked_nil, List.mem_singleton, eq_comm]

/-- A class afterwards is the union of those that held one of the points, or held none of them. -/
theorem mem_unite {c : List Point} :
    c ∈ Graph.unite classes p q ↔
      c = (classes.filter fun c => p ∈ c ∨ q ∈ c).flatten ∨ c ∈ classes ∧ p ∉ c ∧ q ∉ c := by
  rw [Graph.unite, List.partition_eq_filter_filter, List.mem_cons, List.mem_filter]
  simp

/-- What is united is all that is linked to one of the two points. -/
theorem Classified.mem_united (h : Classified points edges classes) (hp : p ∈ points)
    (hq : q ∈ points) :
    r ∈ (classes.filter fun c => p ∈ c ∨ q ∈ c).flatten ↔ Linked edges p r ∨ Linked edges q r := by
  rw [List.mem_flatten]
  constructor
  · rintro ⟨c, hc, hr⟩
    obtain ⟨hc, hit⟩ := List.mem_filter.mp hc
    rcases of_decide_eq_true hit with hpc | hqc
    · exact .inl ((h.whole c hc p hpc r).mp hr)
    · exact .inr ((h.whole c hc q hqc r).mp hr)
  · rintro (hr | hr)
    · obtain ⟨c, hc, hpc⟩ := h.covers p hp
      exact ⟨c, List.mem_filter.mpr ⟨hc, decide_eq_true (.inl hpc)⟩, (h.whole c hc p hpc r).mpr hr⟩
    · obtain ⟨c, hc, hqc⟩ := h.covers q hq
      exact ⟨c, List.mem_filter.mpr ⟨hc, decide_eq_true (.inr hqc)⟩, (h.whole c hc q hqc r).mpr hr⟩

theorem Classified.unite (h : Classified points edges classes) (hone : e.one ∈ points)
    (htwo : e.two ∈ points) :
    Classified points (edges ++ [e]) (Graph.unite classes e.one e.two) where
  covers p hp := by
    obtain ⟨c, hc, hpc⟩ := h.covers p hp
    by_cases hit : e.one ∈ c ∨ e.two ∈ c
    · refine ⟨_, mem_unite.mpr (.inl rfl), List.mem_flatten.mpr ⟨c, ?_, hpc⟩⟩
      exact List.mem_filter.mpr ⟨hc, decide_eq_true hit⟩
    · exact ⟨c, mem_unite.mpr (.inr ⟨hc, not_or.mp hit⟩), hpc⟩
  whole c hc p hp q := by
    rw [linked_concat]
    rcases mem_unite.mp hc with rfl | ⟨hc, hnone, hntwo⟩
    · rw [h.mem_united hone htwo] at hp
      rw [h.mem_united hone htwo]
      constructor
      · rcases hp with hp | hp
        · rintro (hq | hq)
          · exact .inl (hp.symm.trans hq)
          · exact .inr (.inl ⟨hp.symm, hq⟩)
        · rintro (hq | hq)
          · exact .inr (.inr ⟨hp.symm, hq⟩)
          · exact .inl (hp.symm.trans hq)
      · rintro (hq | ⟨_, hq⟩ | ⟨_, hq⟩)
        · exact hp.imp (·.trans hq) (·.trans hq)
        · exact .inr hq
        · exact .inl hq
    · -- the switch has no end in this class
      rw [h.whole c hc p hp]
      refine ⟨.inl, ?_⟩
      rintro (hq | ⟨hq, _⟩ | ⟨hq, _⟩)
      · exact hq
      · exact absurd ((h.whole c hc p hp e.one).mpr hq) hnone
      · exact absurd ((h.whole c hc p hp e.two).mpr hq) hntwo

theorem Classified.foldl : ∀ {more edges : List Edge} {classes : List (List Point)},
    Classified points edges classes → (∀ e ∈ more, e.one ∈ points) → (∀ e ∈ more, e.two ∈ points) →
    Classified points (edges ++ more)
      (more.foldl (fun classes e => Graph.unite classes e.one e.two) classes)
  | [], edges, _, h, _, _ => by rwa [List.append_nil]
  | e :: more, edges, classes, h, hone, htwo => by
    rw [List.foldl_cons, List.append_cons]
    exact Classified.foldl (h.unite (hone e List.mem_cons_self) (htwo e List.mem_cons_self))
      (fun f hf => hone f (List.mem_cons_of_mem e hf))
      (fun f hf => htwo f (List.mem_cons_of_mem e hf))

/-! ### Components -/

namespace Graph

variable {graph : Graph} {component : PointSet}

theorem classified (graph : Graph) : Classified graph.points graph.switches graph.classes :=
  (classified_singletons graph.points).foldl graph.one_mem graph.two_mem

/-- The class of a point is all that is linked to it. -/
theorem mem_classOf (hp : p ∈ graph.points) : q ∈ graph.classOf p ↔ Linked graph.switches p q := by
  obtain ⟨c, hc, hpc⟩ := graph.classified.covers p hp
  obtain ⟨found, hfound⟩ : ∃ found, graph.classes.find? (p ∈ ·) = some found :=
    Option.isSome_iff_exists.mp (List.find?_isSome.mpr ⟨c, hc, decide_eq_true hpc⟩)
  have hmem : found ∈ graph.classes := List.mem_of_find?_eq_some hfound
  have hpfound : p ∈ found := by simpa using List.find?_some hfound
  rw [classOf, hfound, Option.getD_some, Ascending.mem_ofList_id]
  exact graph.classified.whole found hmem p hpfound q

/-- What is linked to a point of the graph belongs to the graph. -/
theorem mem_points_of_linked (h : Linked graph.switches p q) (hp : p ∈ graph.points) :
    q ∈ graph.points := by
  induction h with
  | refl => exact hp
  | tail _ hjoined _ =>
    obtain ⟨e, he, ⟨_, rfl⟩ | ⟨rfl, _⟩⟩ := hjoined
    · exact graph.two_mem e he
    · exact graph.one_mem e he

/-- The components are the classes of linked points. -/
theorem mem_components :
    component ∈ graph.components ↔
      ∃ p ∈ graph.points, ∀ q, q ∈ component ↔ Linked graph.switches p q := by
  have hpoints : ∀ p, p ∈ (Ascending.ofList id graph.points).toList ↔ p ∈ graph.points :=
    fun p => Ascending.mem_ofList_id
  simp only [components, List.mem_filterMap, hpoints]
  constructor
  · rintro ⟨p, hp, h⟩
    split at h
    · cases h
      exact ⟨p, hp, fun q => mem_classOf hp⟩
    · cases h
  · rintro ⟨p, hp, hclass⟩
    -- the component is listed at its smallest point
    have hmem : p ∈ component := (hclass p).mpr .refl
    obtain ⟨least, hleast⟩ : ∃ least, component.least? = some least :=
      Ascending.exists_least? hmem
    have hlinked : Linked graph.switches p least :=
      (hclass least).mp (Ascending.least?_eq_some_iff.mp hleast).1
    have hpoint := mem_points_of_linked hlinked hp
    have hsame : graph.classOf least = component := by
      refine Ascending.ext_mem fun q => ?_
      rw [mem_classOf hpoint, hclass]
      exact ⟨hlinked.trans, hlinked.symm.trans⟩
    refine ⟨least, hpoint, ?_⟩
    rw [hsame, if_pos hleast]

theorem mem_points_of_mem_components (h : component ∈ graph.components) (hp : p ∈ component) :
    p ∈ graph.points := by
  obtain ⟨q, hq, hclass⟩ := mem_components.mp h
  exact mem_points_of_linked ((hclass p).mp hp) hq

/-- Components that have a point in common are one. -/
theorem eq_of_mem_components {other : PointSet} (h : component ∈ graph.components)
    (h' : other ∈ graph.components) (hp : p ∈ component) (hp' : p ∈ other) : component = other := by
  obtain ⟨q, _, hclass⟩ := mem_components.mp h
  obtain ⟨r, _, hclass'⟩ := mem_components.mp h'
  have hlinked : Linked graph.switches q r := ((hclass p).mp hp).trans ((hclass' p).mp hp').symm
  refine Ascending.ext_mem fun s => ?_
  rw [hclass, hclass']
  exact ⟨hlinked.symm.trans, hlinked.trans⟩

end Graph

end Switchyard
