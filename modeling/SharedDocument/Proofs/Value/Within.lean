import SharedDocument.Proofs.Value.Editing

/-! Which nodes of a value lie within which. A node lies within itself and within whatever its parent
lies within. -/

namespace SharedDocument.DataValue

def Within (value : DataValue) (ancestor id : NodeId) : Prop :=
  ∃ parent inner, Occurs none value parent inner ∧ inner.id = ancestor ∧ id ∈ inner.nodeIds

theorem Within.self {value : DataValue} {id : NodeId} (listed : id ∈ value.nodeIds) :
    value.Within id id := by
  obtain ⟨parent, inner, occurs, rfl⟩ := (mem_nodeIds_iff none value id).mp listed
  exact ⟨parent, inner, occurs, rfl, id_mem_nodeIds inner⟩

theorem Within.mem {value : DataValue} {ancestor id : NodeId} (within : value.Within ancestor id) :
    ancestor ∈ value.nodeIds ∧ id ∈ value.nodeIds := by
  obtain ⟨parent, inner, occurs, rfl, listed⟩ := within
  exact ⟨occurs.id_mem, occurs.sublist_nodeIds.subset listed⟩

theorem Occurs.eq_or_child {parent innerParent : Option NodeId} {value inner : DataValue}
    (occurs : Occurs parent value innerParent inner) :
    (innerParent = parent ∧ inner = value) ∨
      ∃ outerParent outer, Occurs parent value outerParent outer ∧ innerParent = some outer.id ∧
        inner ∈ outer.childValues := by
  induction occurs with
  | here => exact Or.inl ⟨rfl, rfl⟩
  | @deeper parent value child innerParent inner listed occurs ih =>
      rcases ih with ⟨rfl, rfl⟩ | ⟨outerParent, outer, outerOccurs, same, below⟩
      · exact Or.inr ⟨parent, value, .here, rfl, listed⟩
      · exact Or.inr ⟨outerParent, outer, .deeper listed outerOccurs, same, below⟩

theorem length_lt_of_child {value child : DataValue} (listed : child ∈ value.childValues) :
    child.nodeIds.length < value.nodeIds.length := by
  rw [nodeIds_eq value, List.length_cons]
  have shorter := (sublist_flatMap_of_mem listed).length_le
  omega

theorem within_root_iff {value : DataValue} (distinct : value.nodeIds.Nodup) {ancestor : NodeId} :
    value.Within ancestor value.id ↔ ancestor = value.id := by
  constructor
  · rintro ⟨parent, inner, occurs, rfl, listed⟩
    rcases occurs.eq_or_deeper with ⟨_, rfl⟩ | ⟨child, below, deeper⟩
    · rfl
    · exact absurd (deeper.sublist_nodeIds.subset listed) (id_notMem_child distinct below)
  · rintro rfl
    exact Within.self (id_mem_nodeIds value)

theorem within_child_iff {value outer inner : DataValue} {outerParent : Option NodeId}
    (distinct : value.nodeIds.Nodup) (occurs : Occurs none value outerParent outer)
    (listed : inner ∈ outer.childValues) (ancestor : NodeId) :
    value.Within ancestor inner.id ↔ ancestor = inner.id ∨ value.Within ancestor outer.id := by
  constructor
  · rintro ⟨parent, middle, middleOccurs, rfl, inMiddle⟩
    obtain ⟨innerParent, found, foundOccurs, same⟩ :=
      (mem_nodeIds_iff parent middle inner.id).mp inMiddle
    obtain ⟨innerParentEq, rfl⟩ :=
      (middleOccurs.trans foundOccurs).unique distinct (occurs.child listed) same
    rcases foundOccurs.eq_or_child with ⟨_, rfl⟩ | ⟨lastParent, last, lastOccurs, lastId, _⟩
    · exact Or.inl rfl
    · have sameId : last.id = outer.id := Option.some.inj (lastId.symm.trans innerParentEq)
      exact Or.inr ⟨parent, middle, middleOccurs, rfl, sameId ▸ lastOccurs.id_mem⟩
  · rintro (rfl | ⟨parent, middle, middleOccurs, rfl, inMiddle⟩)
    · exact Within.self (occurs.child listed).id_mem
    · obtain ⟨foundParent, found, foundOccurs, same⟩ :=
        (mem_nodeIds_iff parent middle outer.id).mp inMiddle
      obtain ⟨_, rfl⟩ := (middleOccurs.trans foundOccurs).unique distinct occurs same
      exact ⟨parent, middle, middleOccurs, rfl, (foundOccurs.child listed).id_mem⟩

theorem strictlyWithin_child_iff {value outer inner : DataValue} {outerParent : Option NodeId}
    (distinct : value.nodeIds.Nodup) (occurs : Occurs none value outerParent outer)
    (listed : inner ∈ outer.childValues) (ancestor : NodeId) :
    value.Within ancestor inner.id ∧ ancestor ≠ inner.id ↔ value.Within ancestor outer.id := by
  rw [within_child_iff distinct occurs listed]
  constructor
  · rintro ⟨here | above, elsewhere⟩
    · exact absurd here elsewhere
    · exact above
  · intro above
    refine ⟨Or.inr above, ?_⟩
    rintro rfl
    obtain ⟨parent, middle, middleOccurs, same, inMiddle⟩ := above
    obtain ⟨_, rfl⟩ := middleOccurs.unique distinct (occurs.child listed) same
    exact id_notMem_child (distinct.sublist occurs.sublist_nodeIds) listed inMiddle

theorem Occurs.fromHere {root : DataValue} {motive : Option NodeId → DataValue → Prop}
    (atChild : ∀ parent outer child, Occurs none root parent outer → motive parent outer →
      child ∈ outer.childValues → motive (some outer.id) child)
    {outerParent parent : Option NodeId} {outer inner : DataValue}
    (reached : Occurs none root outerParent outer) (holds : motive outerParent outer)
    (occurs : Occurs outerParent outer parent inner) : motive parent inner := by
  induction occurs with
  | here => exact holds
  | deeper listed _ ih => exact ih (reached.child listed) (atChild _ _ _ reached holds listed)

/-- Induction from the root down to the nodes of a value. -/
theorem Occurs.fromRoot {root : DataValue} {motive : Option NodeId → DataValue → Prop}
    (atRoot : motive none root)
    (atChild : ∀ parent outer child, Occurs none root parent outer → motive parent outer →
      child ∈ outer.childValues → motive (some outer.id) child)
    {parent : Option NodeId} {inner : DataValue} (occurs : Occurs none root parent inner) :
    motive parent inner :=
  fromHere atChild .here atRoot occurs

theorem Within.trans {value : DataValue} (distinct : value.nodeIds.Nodup)
    {ancestor middle id : NodeId} (outer : value.Within ancestor middle)
    (inner : value.Within middle id) : value.Within ancestor id := by
  obtain ⟨parent, above, aboveOccurs, here, inAbove⟩ := outer
  obtain ⟨middleParent, between, betweenOccurs, rfl, inBetween⟩ := inner
  obtain ⟨foundParent, found, foundOccurs, same⟩ :=
    (mem_nodeIds_iff parent above between.id).mp inAbove
  obtain ⟨-, rfl⟩ := (aboveOccurs.trans foundOccurs).unique distinct betweenOccurs same
  exact ⟨parent, above, aboveOccurs, here, foundOccurs.sublist_nodeIds.subset inBetween⟩

/-- Two nodes that lie within each other are one. -/
theorem Within.antisymm {value : DataValue} (distinct : value.nodeIds.Nodup) {left right : NodeId}
    (rightInLeft : value.Within left right) (leftInRight : value.Within right left) :
    left = right := by
  obtain ⟨_, outer, outerOccurs, rfl, inOuter⟩ := rightInLeft
  obtain ⟨_, inner, innerOccurs, rfl, inInner⟩ := leftInRight
  obtain ⟨_, found, foundOccurs, same⟩ := (mem_nodeIds_iff none outer inner.id).mp inOuter
  obtain ⟨_, below⟩ := foundOccurs.exists_below _
  obtain ⟨-, rfl⟩ := (outerOccurs.trans below).unique distinct innerOccurs same
  rcases foundOccurs.eq_or_deeper with ⟨_, rfl⟩ | ⟨child, listed, deeper⟩
  · rfl
  · exact absurd (deeper.sublist_nodeIds.subset inInner)
      (id_notMem_child (distinct.sublist outerOccurs.sublist_nodeIds) listed)

theorem within_below {value outer inner : DataValue} {outerParent : Option NodeId}
    (distinct : value.nodeIds.Nodup) (occurs : Occurs none value outerParent outer)
    (listed : inner ∈ outer.childValues) {ancestor id : NodeId} (inside : id ∈ inner.nodeIds)
    (within : value.Within ancestor id) :
    inner.Within ancestor id ∨ value.Within ancestor outer.id := by
  have innerStands := occurs.child listed
  have innerDistinct := distinct.sublist innerStands.sublist_nodeIds
  obtain ⟨parent, node, nodeOccurs, rfl⟩ := (mem_nodeIds_iff none inner id).mp inside
  refine Occurs.fromRoot (motive := fun _ node => value.Within ancestor node.id →
    inner.Within ancestor node.id ∨ value.Within ancestor outer.id) ?_ ?_ nodeOccurs within
  · intro within
    rcases (within_child_iff distinct occurs listed ancestor).mp within with rfl | above
    · exact Or.inl (Within.self (id_mem_nodeIds inner))
    · exact Or.inr above
  · intro _ middle child middleOccurs ih below within
    obtain ⟨_, middleBelow⟩ := middleOccurs.exists_below (some outer.id)
    rcases (within_child_iff distinct (innerStands.trans middleBelow) below ancestor).mp within with
      rfl | above
    · exact Or.inl (Within.self (middleOccurs.child below).id_mem)
    · exact (ih above).imp_left fun inMiddle =>
        (within_child_iff innerDistinct middleOccurs below ancestor).mpr (Or.inr inMiddle)

/-- If the nodes that two values share have one parent in both, they lie within the same nodes. -/
theorem within_congr {value edited : DataValue} (distinct : value.nodeIds.Nodup)
    (editedDistinct : edited.nodeIds.Nodup) (sameRoot : edited.id = value.id)
    (places : ∀ parent inner, Occurs none edited parent inner → inner.id ∈ value.nodeIds →
      ∃ before, Occurs none value parent before ∧ before.id = inner.id)
    {id : NodeId} (listed : id ∈ value.nodeIds) (editedListed : id ∈ edited.nodeIds)
    (ancestor : NodeId) : edited.Within ancestor id ↔ value.Within ancestor id := by
  obtain ⟨parent, inner, occurs, rfl⟩ := (mem_nodeIds_iff none edited id).mp editedListed
  refine Occurs.fromRoot (motive := fun _ inner => inner.id ∈ value.nodeIds →
    (edited.Within ancestor inner.id ↔ value.Within ancestor inner.id)) ?_ ?_ occurs listed
  · intro _
    rw [within_root_iff editedDistinct, sameRoot, within_root_iff distinct]
  · intro _ outer child outerOccurs ih below inValue
    obtain ⟨before, beforeOccurs, same⟩ := places _ _ (outerOccurs.child below) inValue
    obtain ⟨absurdParent, -⟩ | ⟨_, beforeOuter, beforeOuterOccurs, sameParent, beforeBelow⟩ :=
      beforeOccurs.eq_or_child
    · cases absurdParent
    · have sameOuter : outer.id = beforeOuter.id := Option.some.inj sameParent
      rw [within_child_iff editedDistinct outerOccurs below, ← same,
        within_child_iff distinct beforeOuterOccurs beforeBelow, same,
        ih (sameOuter ▸ beforeOuterOccurs.id_mem), sameOuter]

end SharedDocument.DataValue
