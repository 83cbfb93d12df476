import Switchyard.Proofs.Graph.Subgraph

/-!
Components of a graph joined across seams.

A seam leads from one point to another and is no switch of the graph; its ends need not be points
there. The components of the graph, and the ends of seams that it lacks as single points, are the
blocks (`IsBlock`). Points of one block are linked by the switches, so a chain of switches and seams
passes through blocks, from one to the next across a seam. If a coarser graph has a switch wherever
the graph has one or a seam leads, its components are the blocks joined in this way
(`Coarser.mem_components_iff`).
-/

namespace Switchyard

namespace Graph

variable {graph coarser : Graph} {seam : Point → Point → Prop} {block : PointSet} {p q : Point}

/-- A seam leads from one of the points to the other, either way. -/
def Meets (seam : Point → Point → Prop) (p q : Point) : Prop := seam p q ∨ seam q p

/-- A component of the graph, or an end of a seam alone that the graph does not have. -/
def IsBlock (graph : Graph) (seam : Point → Point → Prop) (block : PointSet) : Prop :=
  block ∈ graph.components ∨
    ∃ p, p ∉ graph.points ∧ (∃ q, Meets seam p q) ∧ ∀ q, q ∈ block ↔ q = p

/-- A seam leads from the first set into the second, which is a block. -/
def Crosses (graph : Graph) (seam : Point → Point → Prop) (block next : PointSet) : Prop :=
  graph.IsBlock seam next ∧ ∃ p ∈ block, ∃ q ∈ next, Meets seam p q

/-- The set has the points of a block and of all blocks that are reached from it across seams. -/
def IsJoin (graph : Graph) (seam : Point → Point → Prop) (set : PointSet) : Prop :=
  ∃ block, graph.IsBlock seam block ∧
    ∀ p, p ∈ set ↔ ∃ last, Relation.ReflTransGen (graph.Crosses seam) block last ∧ p ∈ last

/-- The graph has a switch wherever another one has a switch or a seam leads, and no other points
than these have. -/
structure Coarser (graph : Graph) (seam : Point → Point → Prop) (coarser : Graph) : Prop where
  points : ∀ p, p ∈ coarser.points ↔ p ∈ graph.points ∨ ∃ q, Meets seam p q
  joined : ∀ p q, Joined coarser.switches p q ↔ Joined graph.switches p q ∨ Meets seam p q

/-! ### Blocks -/

theorem IsBlock.exists_mem (h : graph.IsBlock seam block) : ∃ p, p ∈ block := by
  rcases h with hcomponent | ⟨p, _, _, hsingle⟩
  · obtain ⟨p, _, hclass⟩ := mem_components.mp hcomponent
    exact ⟨p, (hclass p).mpr .refl⟩
  · exact ⟨p, (hsingle p).mpr rfl⟩

/-- A block has what the switches of the graph link to any of its points. -/
theorem IsBlock.mem_iff (h : graph.IsBlock seam block) (hp : p ∈ block) :
    q ∈ block ↔ Linked graph.switches p q := by
  rcases h with hcomponent | ⟨r, hr, _, hsingle⟩
  · exact mem_component_iff hcomponent hp
  · obtain rfl := (hsingle p).mp hp
    rw [hsingle]
    constructor
    · rintro rfl
      exact .refl
    · -- a switch at the point would make it one of the graph
      intro hlinked
      refine Decidable.byContradiction fun hne => hr ?_
      obtain ⟨e, he, rfl | rfl⟩ := hlinked.exists_end (Ne.symm hne)
      · exact graph.one_mem e he
      · exact graph.two_mem e he

namespace Coarser

theorem linked (h : graph.Coarser seam coarser) (hlinked : Linked graph.switches p q) :
    Linked coarser.switches p q :=
  Relation.ReflTransGen.mono (fun p q hjoined => (h.joined p q).mpr (.inl hjoined)) _ _ hlinked

theorem mem_points_of_block (h : graph.Coarser seam coarser) (hblock : graph.IsBlock seam block)
    (hp : p ∈ block) : p ∈ coarser.points := by
  rw [h.points]
  rcases hblock with hcomponent | ⟨q, _, hmeets, hsingle⟩
  · exact .inl (mem_points_of_mem_components hcomponent hp)
  · rw [(hsingle p).mp hp]
    exact .inr hmeets

theorem exists_block (h : graph.Coarser seam coarser) (hp : p ∈ coarser.points) :
    ∃ block, graph.IsBlock seam block ∧ p ∈ block := by
  by_cases hhere : p ∈ graph.points
  · obtain ⟨c, hc, hpc⟩ := exists_component hhere
    exact ⟨c, .inl hc, hpc⟩
  · have hmeets := ((h.points p).mp hp).resolve_left hhere
    have hsingle : ∀ q, q ∈ Ascending.ofList (id : Point → Point) [p] ↔ q = p := fun q => by
      rw [Ascending.mem_ofList_id, List.mem_singleton]
    exact ⟨_, .inr ⟨p, hhere, hmeets, hsingle⟩, (hsingle p).mpr rfl⟩

/-! ### Chains of blocks -/

/-- From a point of a block, the coarser graph links what is in the blocks reached across seams. -/
theorem linked_iff (h : graph.Coarser seam coarser) (hblock : graph.IsBlock seam block)
    (hp : p ∈ block) :
    Linked coarser.switches p q ↔
      ∃ last, Relation.ReflTransGen (graph.Crosses seam) block last ∧ q ∈ last := by
  constructor
  · -- every link stays in the block that was reached, or crosses a seam into the next
    intro hlinked
    suffices hreached : ∃ last, Relation.ReflTransGen (graph.Crosses seam) block last ∧
        graph.IsBlock seam last ∧ q ∈ last from
      hreached.imp fun _ hlast => ⟨hlast.1, hlast.2.2⟩
    induction hlinked with
    | refl => exact ⟨block, .refl, hblock, hp⟩
    | @tail r s hr hjoined ih =>
      obtain ⟨last, hchain, hlast, hrlast⟩ := ih
      rcases (h.joined r s).mp hjoined with hswitch | hmeets
      · exact ⟨last, hchain, hlast, (hlast.mem_iff hrlast).mpr (.single hswitch)⟩
      · have hs : s ∈ coarser.points := (h.points s).mpr (.inr ⟨r, hmeets.symm⟩)
        obtain ⟨next, hnext, hsnext⟩ := h.exists_block hs
        exact ⟨next, hchain.tail ⟨hnext, r, hrlast, s, hsnext, hmeets⟩, hnext, hsnext⟩
  · rintro ⟨last, hchain, hq⟩
    induction hchain generalizing q with
    | refl => exact h.linked ((hblock.mem_iff hp).mp hq)
    | tail _ hcrosses ih =>
      obtain ⟨hnext, r, hr, s, hs, hmeets⟩ := hcrosses
      have hseam : Linked coarser.switches r s := .single ((h.joined r s).mpr (.inr hmeets))
      exact ((ih hr).trans hseam).trans (h.linked ((hnext.mem_iff hs).mp hq))

/-- The components of the coarser graph are the blocks joined across seams. -/
theorem mem_components_iff (h : graph.Coarser seam coarser) {set : PointSet} :
    set ∈ coarser.components ↔ graph.IsJoin seam set := by
  rw [mem_components]
  constructor
  · rintro ⟨p, hp, hclass⟩
    obtain ⟨block, hblock, hpblock⟩ := h.exists_block hp
    refine ⟨block, hblock, fun q => ?_⟩
    rw [hclass, h.linked_iff hblock hpblock]
  · rintro ⟨block, hblock, hjoin⟩
    obtain ⟨p, hp⟩ := hblock.exists_mem
    refine ⟨p, h.mem_points_of_block hblock hp, fun q => ?_⟩
    rw [hjoin, h.linked_iff hblock hp]

end Coarser

end Graph

end Switchyard
