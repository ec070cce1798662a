import SharedDocument.Proofs.Document.Runs

/-! Consistent links. The links of a document are stored twice, by child and by parent; they agree in
every state that a run reaches, and lead from every node up to the root. -/

namespace SharedDocument

def Node.childIds (node : Node) : List NodeId :=
  node.data.children.map Prod.snd

namespace Arena

def above (arena : Arena) : Nat → NodeId → Option NodeId
  | 0, id => some id
  | steps + 1, id => (arena.parentOf id).bind (arena.above steps)

structure WellFormed (arena : Arena) (root : NodeId) : Prop where
  rootAttached : ∃ node, arena.node? root = some node ∧ node.parent = none
  onlyRoot : ∀ id node, arena.node? id = some node → node.parent = none → id = root
  named : ∀ id node, arena.node? id = some node → node.id = id
  parentAttached : ∀ id node parent, arena.node? id = some node → node.parent = some parent →
    arena.contains parent = true
  childAttached : ∀ id node child, arena.node? id = some node → child ∈ node.childIds →
    arena.contains child = true
  /-- A node is listed once by the node that it names as its parent, and by no other. -/
  listedOnce : ∀ id node container stored, arena.node? id = some node →
    arena.node? container = some stored →
    stored.childIds.count id = if node.parent = some container then 1 else 0
  grounded : ∀ id, arena.contains id = true →
    ∃ steps, steps < arena.size ∧ arena.above steps id = some root
  referencesAttached : ∀ id, Keyed.contains id arena.references = true → arena.contains id = true

namespace Represents

open DataValue (Occurs)

variable {arena : Arena} {value : DataValue} (represents : arena.Represents value)

include represents

theorem exists_occurs {id : NodeId} {node : Node} (stored : arena.node? id = some node) :
    ∃ parent inner, Occurs none value parent inner ∧ inner.id = id ∧ node = inner.node parent := by
  obtain ⟨parent, inner, occurs, rfl⟩ :=
    (DataValue.mem_nodeIds_iff none value id).mp (represents.only id (by simp [stored]))
  rw [represents.holds parent inner occurs, Option.some.injEq] at stored
  exact ⟨parent, inner, occurs, rfl, stored.symm⟩

theorem contains_of_occurs {parent : Option NodeId} {inner : DataValue}
    (occurs : Occurs none value parent inner) : arena.contains inner.id = true :=
  contains_iff.mpr (represents.holds.node?_ne_none occurs.id_mem)

theorem exists_above {parent : Option NodeId} {inner : DataValue} (steps : Nat)
    (occurs : Occurs none value parent inner)
    (enough : value.nodeIds.length ≤ steps + inner.nodeIds.length) :
    ∃ taken, taken ≤ steps ∧ arena.above taken inner.id = some value.id := by
  induction steps generalizing parent inner with
  | zero =>
      rcases occurs.eq_or_child with ⟨rfl, rfl⟩ | ⟨outerParent, outer, outerOccurs, rfl, listed⟩
      · exact ⟨0, le_refl 0, rfl⟩
      · have shorter := DataValue.length_lt_of_child listed
        have within := outerOccurs.sublist_nodeIds.length_le
        omega
  | succ steps ih =>
      rcases occurs.eq_or_child with ⟨rfl, rfl⟩ | ⟨outerParent, outer, outerOccurs, rfl, listed⟩
      · exact ⟨0, Nat.zero_le _, rfl⟩
      · have shorter := DataValue.length_lt_of_child listed
        obtain ⟨taken, bound, reached⟩ := ih outerOccurs (by omega)
        refine ⟨taken + 1, by omega, ?_⟩
        have link : arena.parentOf inner.id = some outer.id := by
          simp [parentOf, represents.holds _ _ occurs, DataValue.node]
        rw [above, link]
        exact reached

theorem wellFormed : arena.WellFormed value.id := by
  refine ⟨⟨_, represents.holds.root, rfl⟩, ?_, ?_, ?_, ?_, ?_, ?_, ?_⟩
  · intro id node stored isRoot
    obtain ⟨parent, inner, occurs, rfl, rfl⟩ := represents.exists_occurs stored
    rcases occurs.eq_or_child with ⟨_, rfl⟩ | ⟨_, outer, _, rfl, _⟩
    · rfl
    · cases isRoot
  · intro id node stored
    obtain ⟨parent, inner, occurs, rfl, rfl⟩ := represents.exists_occurs stored
    rfl
  · intro id node parent stored isParent
    obtain ⟨innerParent, inner, occurs, rfl, rfl⟩ := represents.exists_occurs stored
    rcases occurs.eq_or_child with ⟨rfl, rfl⟩ | ⟨_, outer, outerOccurs, rfl, _⟩
    · cases isParent
    · cases isParent
      exact represents.contains_of_occurs outerOccurs
  · intro id node child stored listed
    obtain ⟨parent, inner, occurs, rfl, rfl⟩ := represents.exists_occurs stored
    rw [Node.childIds, DataValue.node, DataValue.children_data, List.mem_map] at listed
    obtain ⟨below, belowListed, rfl⟩ := listed
    exact represents.contains_of_occurs (occurs.child belowListed)
  · intro id node container stored nodeStored containerStored
    obtain ⟨parent, inner, occurs, rfl, rfl⟩ := represents.exists_occurs nodeStored
    obtain ⟨outerParent, outer, outerOccurs, rfl, rfl⟩ := represents.exists_occurs containerStored
    rw [Node.childIds, DataValue.node, DataValue.children_data]
    have distinct := (DataValue.childIds_sublist outer.childValues).nodup
      (DataValue.childValues_nodup (represents.distinct.sublist outerOccurs.sublist_nodeIds))
    split
    · rename_i isParent
      apply List.count_eq_one_of_mem distinct
      rcases occurs.eq_or_child with ⟨rfl, rfl⟩ | ⟨_, other, otherOccurs, rfl, listed⟩
      · cases isParent
      · obtain ⟨_, rfl⟩ := otherOccurs.unique represents.distinct outerOccurs
          (Option.some.inj isParent)
        exact List.mem_map_of_mem listed
    · rename_i notParent
      apply List.count_eq_zero_of_not_mem
      intro listed
      obtain ⟨child, childListed, same⟩ := List.mem_map.mp listed
      obtain ⟨isParent, rfl⟩ :=
        (outerOccurs.child childListed).unique represents.distinct occurs same
      exact notParent isParent.symm
  · intro id attached
    obtain ⟨parent, inner, occurs, rfl⟩ :=
      (DataValue.mem_nodeIds_iff none value id).mp (represents.only id (contains_iff.mp attached))
    have positive := List.length_pos_of_mem (DataValue.id_mem_nodeIds value)
    have innerPositive := List.length_pos_of_mem (DataValue.id_mem_nodeIds inner)
    obtain ⟨taken, bound, reached⟩ :=
      represents.exists_above (value.nodeIds.length - 1) occurs (by omega)
    have size := represents.holds.length_le_size represents.distinct
    exact ⟨taken, by omega, reached⟩
  · intro id present
    rw [Keyed.contains, Option.isSome_iff_ne_none] at present
    exact contains_iff.mpr (represents.holds.node?_ne_none (represents.references id present))

end Represents

end Arena

namespace Document

/-- After every run the links of the document are consistent, and an attached id is detached as well
exactly if a skipped element named it among the ids that it creates. -/
theorem wellFormed_performAll {value : DataValue} {start : Document} {requests : List Request}
    (ordered : value.Ordered) (built : ofValue value = .ok start)
    (requestsOrdered : ∀ request ∈ requests, request.Ordered) :
    (start.performAll requests).arena.WellFormed (start.performAll requests).root ∧
      ∀ id, (start.performAll requests).arena.contains id = true →
        ((start.performAll requests).arena.isDetached id = true ↔
          id ∈ start.skippedAlong requests) := by
  obtain ⟨next, clashes, root⟩ := holds_performAll (holds_ofValue ordered built) requestsOrdered
  rw [List.nil_append] at clashes
  refine ⟨root ▸ clashes.represents.wellFormed, fun id attached => ⟨?_, clashes.marked id⟩⟩
  exact clashes.clash id (clashes.represents.only id (Arena.contains_iff.mp attached))

/-- A skipped insertion names a node that is attached elsewhere. -/
theorem wellFormed_after_skip :
    ∃ start, ofValue (.object ⟨"root"⟩ [("left", .array ⟨"list"⟩ []), ("right", .null ⟨"leaf"⟩)]) =
        .ok start ∧
      let final := start.performAll
        [.apply .own (.single (.on ⟨"root"⟩ (.property (.remove "left")))),
          .apply (.peer "other") (.single (.on ⟨"list"⟩ (.array (.insert .zero (.null ⟨"leaf"⟩)))))]
      final.arena.WellFormed final.root ∧ final.arena.contains ⟨"leaf"⟩ = true ∧
        final.arena.isDetached ⟨"leaf"⟩ = true := by
  have ordered : (DataValue.object ⟨"root"⟩
      [("left", .array ⟨"list"⟩ []), ("right", .null ⟨"leaf"⟩)]).Ordered := by
    refine .intro ?_ ?_
    · unfold DataValue.KeysIncrease Keyed.Increasing
      decide
    · simpa [DataValue.childValues] using And.intro (.leaf rfl) (.leaf rfl)
  refine ⟨_, rfl, ?_⟩
  have requestsOrdered : ∀ request ∈
      [Request.apply .own (.single (.on ⟨"root"⟩ (.property (.remove "left")))),
        .apply (.peer "other") (.single (.on ⟨"list"⟩ (.array (.insert .zero (.null ⟨"leaf"⟩)))))],
      request.Ordered := by
    simpa [Request.Ordered, Operation.Ordered, Operation.edits, Edit.on, Change.Ordered,
      Change.createdValues, PropertyEdit.values, ArrayEdit.values] using .leaf rfl
  have run := wellFormed_performAll ordered rfl requestsOrdered
  exact ⟨run.1, by decide, (run.2 ⟨"leaf"⟩ (by decide)).mpr (by decide)⟩

end Document

end SharedDocument
