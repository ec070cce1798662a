import SharedDocument.Proofs.Change
import SharedDocument.Proofs.Value.Within

/-! Edits of a value. An edit changes the node of its target, if the value has one, and leaves the
rest alone. Nodes keep their places: what an old node lies within does not change as long as it
stays. -/

namespace SharedDocument

open DataValue (Occurs Within)

structure DataValue.Proper (value : DataValue) : Prop where
  distinct : value.nodeIds.Nodup
  ordered : value.Ordered

namespace Edit

def effect (edit : Edit) (value : DataValue) : DataValue :=
  if edit.isNoOp then value else value.editAt edit.target edit.change.applyTo

def liveIds (edit : Edit) : List NodeId :=
  if edit.isNoOp then [] else edit.change.createdIds

structure Suits (edit : Edit) (blocked : NodeId → Prop) (value : DataValue) : Prop where
  fits : edit.isNoOp = false → ∀ parent inner, Occurs none value parent inner →
    inner.id = edit.target → edit.change.Fits inner
  reachable : edit.isNoOp = false → ∀ ancestor, value.Within ancestor edit.target →
    ¬ blocked ancestor

structure Fresh (edit : Edit) (value : DataValue) : Prop where
  created : edit.liveIds.Nodup
  apart : ∀ id ∈ edit.liveIds, id ∉ value.nodeIds
  ordered : edit.isNoOp = false → edit.change.Ordered

variable {edit other : Edit} {blocked : NodeId → Prop} {value : DataValue}

theorem effect_of_isNoOp (isNoOp : edit.isNoOp = true) : edit.effect value = value := by
  rw [effect, if_pos isNoOp]

theorem effect_of_live (live : edit.isNoOp = false) :
    edit.effect value = value.editAt edit.target edit.change.applyTo := by
  rw [effect, if_neg (by simp [live])]

theorem liveIds_of_live (live : edit.isNoOp = false) : edit.liveIds = edit.change.createdIds := by
  rw [liveIds, if_neg (by simp [live])]

theorem effect_of_notMem (absent : edit.target ∉ value.nodeIds) : edit.effect value = value := by
  unfold effect
  split
  · rfl
  · exact DataValue.editAt_of_notMem absent

theorem id_effect (edit : Edit) (value : DataValue) : (edit.effect value).id = value.id := by
  unfold effect
  split
  · rfl
  · exact DataValue.id_editAt (Change.id_applyTo edit.change) value

theorem suits_of_isNoOp (isNoOp : edit.isNoOp = true) : edit.Suits blocked value :=
  ⟨fun live => by simp [isNoOp] at live, fun live => by simp [isNoOp] at live⟩

theorem suits_of_notMem (absent : edit.target ∉ value.nodeIds) : edit.Suits blocked value :=
  ⟨fun _ _ _ occurs here => absurd (here ▸ occurs.id_mem) absent,
    fun _ _ within => absurd within.mem.2 absent⟩

/-- Every node after an edit stood there before, edited itself or with its children edited, or it is
created. -/
theorem occurs_effect (distinct : value.nodeIds.Nodup) {parent : Option NodeId} {inner : DataValue}
    (occurs : Occurs none (edit.effect value) parent inner) :
    (∃ before, Occurs none value parent before ∧ before.id = inner.id ∧
        ((before.id = edit.target ∧ inner = edit.change.applyTo before) ∨
          ∃ transform, inner = before.mapChildren transform)) ∨
      edit.isNoOp = false ∧ ∃ created ∈ edit.change.createdValues,
        Occurs (some edit.target) created parent inner := by
  have kept (here : Occurs none value parent inner) :
      ∃ before, Occurs none value parent before ∧ before.id = inner.id ∧
        ((before.id = edit.target ∧ inner = edit.change.applyTo before) ∨
          ∃ transform, inner = before.mapChildren transform) :=
    ⟨inner, here, rfl, Or.inr ⟨_, (DataValue.mapChildren_id inner).symm⟩⟩
  cases live : edit.isNoOp with
  | true =>
      rw [effect_of_isNoOp live] at occurs
      exact Or.inl (kept occurs)
  | false =>
      rw [effect_of_live live] at occurs
      rcases DataValue.occurs_editAt distinct occurs with
        ⟨old, oldOccurs, elsewhere, rfl, -⟩ | ⟨siteParent, site, siteOccurs, here, within⟩
      · refine Or.inl ⟨old, oldOccurs, ?_, Or.inr ⟨_, DataValue.editAt_of_ne elsewhere⟩⟩
        exact (DataValue.id_editAt (Change.id_applyTo edit.change) old).symm
      · rcases Change.occurs_applyTo within with
          ⟨rfl, rfl⟩ | ⟨child, listed, deeper⟩ | ⟨created, listed, deeper⟩
        · exact Or.inl ⟨site, siteOccurs, (Change.id_applyTo _ _).symm, Or.inl ⟨here, rfl⟩⟩
        · exact Or.inl (kept ((siteOccurs.child listed).trans deeper))
        · exact Or.inr ⟨rfl, created, listed, here ▸ deeper⟩

theorem mem_liveIds_of_created (live : edit.isNoOp = false) {created : DataValue}
    (listed : created ∈ edit.change.createdValues) {id : NodeId} (inside : id ∈ created.nodeIds) :
    id ∈ edit.liveIds := by
  rw [liveIds_of_live live]
  exact List.mem_flatMap.mpr ⟨created, listed, inside⟩

theorem occurs_before (distinct : value.nodeIds.Nodup) {parent : Option NodeId} {inner : DataValue}
    (occurs : Occurs none (edit.effect value) parent inner) (old : inner.id ∉ edit.liveIds) :
    ∃ before, Occurs none value parent before ∧ before.id = inner.id ∧
      ((before.id = edit.target ∧ inner = edit.change.applyTo before) ∨
        ∃ transform, inner = before.mapChildren transform) := by
  refine (occurs_effect distinct occurs).resolve_right ?_
  rintro ⟨live, created, listed, deeper⟩
  exact old (mem_liveIds_of_created live listed deeper.id_mem)

theorem mem_or_created (distinct : value.nodeIds.Nodup) {id : NodeId}
    (listed : id ∈ (edit.effect value).nodeIds) : id ∈ value.nodeIds ∨ id ∈ edit.liveIds := by
  obtain ⟨parent, inner, occurs, rfl⟩ := (DataValue.mem_nodeIds_iff none _ id).mp listed
  by_cases created : inner.id ∈ edit.liveIds
  · exact Or.inr created
  · obtain ⟨before, beforeOccurs, same, -⟩ := occurs_before distinct occurs created
    exact Or.inl (same ▸ beforeOccurs.id_mem)

section

variable (proper : value.Proper) (suits : edit.Suits blocked value) (fresh : edit.Fresh value)

include proper suits fresh

theorem proper_effect : (edit.effect value).Proper := by
  cases live : edit.isNoOp with
  | true =>
      rw [effect_of_isNoOp live]
      exact proper
  | false =>
      by_cases present : edit.target ∈ value.nodeIds
      · obtain ⟨parent, inner, occurs, here⟩ :=
          (DataValue.mem_nodeIds_iff none value edit.target).mp present
        have created := fresh.created
        have apart := fresh.apart
        rw [liveIds_of_live live] at created apart
        rw [effect_of_live live, ← here]
        refine ⟨Change.nodup_editAt proper.distinct occurs (proper.ordered.occurs occurs).keysIncrease
          (suits.fits live _ _ occurs here) created apart, ?_⟩
        exact DataValue.ordered_editAt proper.ordered
          fun _ ordered _ => Change.ordered_applyTo ordered (fresh.ordered live)
      · rw [effect_of_notMem present]
        exact proper

theorem within_effect_iff {id : NodeId} (listed : id ∈ value.nodeIds)
    (stays : id ∈ (edit.effect value).nodeIds) (ancestor : NodeId) :
    (edit.effect value).Within ancestor id ↔ value.Within ancestor id := by
  refine DataValue.within_congr proper.distinct (proper_effect proper suits fresh).distinct
    (id_effect edit value) ?_ listed stays ancestor
  intro parent inner occurs old
  obtain ⟨before, beforeOccurs, same, -⟩ :=
    occurs_before proper.distinct occurs fun created => fresh.apart _ created old
  exact ⟨before, beforeOccurs, same⟩

theorem suits_after (otherSuits : other.Suits blocked value)
    (different : other.target ≠ edit.target) (foreign : other.target ∉ edit.liveIds) :
    other.Suits blocked (edit.effect value) := by
  refine ⟨?_, ?_⟩
  · intro live parent inner occurs here
    obtain ⟨before, beforeOccurs, same, ⟨atTarget, -⟩ | ⟨transform, rfl⟩⟩ :=
      occurs_before proper.distinct occurs (here ▸ foreign)
    · exact absurd (here.symm.trans (same.symm.trans atTarget)) different
    · exact (Change.fits_mapChildren _ _ _).mpr
        (otherSuits.fits live _ _ beforeOccurs (same.trans here))
  · intro live ancestor within
    have old := (mem_or_created proper.distinct within.mem.2).resolve_right foreign
    exact otherSuits.reachable live ancestor
      ((within_effect_iff proper suits fresh old within.mem.2 ancestor).mp within)

theorem occurs_created (live : edit.isNoOp = false) (present : edit.target ∈ value.nodeIds)
    {created : DataValue} (listed : created ∈ edit.change.createdValues) :
    ∃ parent inner, Occurs none value parent inner ∧ inner.id = edit.target ∧
      Occurs none (edit.effect value) parent (edit.change.applyTo inner) ∧
      created ∈ (edit.change.applyTo inner).childValues := by
  obtain ⟨parent, inner, occurs, here⟩ :=
    (DataValue.mem_nodeIds_iff none value edit.target).mp present
  refine ⟨parent, inner, occurs, here, ?_, ?_⟩
  · rw [effect_of_live live, ← here]
    exact occurs.editAt_self edit.change.applyTo proper.distinct
  · have exchanged := Change.childValues_perm (suits.fits live _ _ occurs here)
      (proper.ordered.occurs occurs).keysIncrease
    rcases List.mem_append.mp (exchanged.mem_iff.mpr (List.mem_append_left _ listed)) with
      stands | gone
    · exact stands
    · have old := (occurs.child (Change.mem_discarded gone)).id_mem
      exact absurd old
        (fresh.apart _ (mem_liveIds_of_created live listed (DataValue.id_mem_nodeIds created)))

end

theorem effect_comm (different : edit.target ≠ other.target) (foreign : edit.target ∉ other.liveIds)
    (otherForeign : other.target ∉ edit.liveIds) (value : DataValue) :
    other.effect (edit.effect value) = edit.effect (other.effect value) := by
  cases live : edit.isNoOp with
  | true => rw [effect_of_isNoOp live, effect_of_isNoOp live]
  | false =>
      cases otherLive : other.isNoOp with
      | true => rw [effect_of_isNoOp otherLive, effect_of_isNoOp otherLive]
      | false =>
          simp only [effect_of_live live, effect_of_live otherLive]
          refine DataValue.editAt_comm different (Change.id_applyTo _) (Change.id_applyTo _) ?_ ?_ value
          · refine Change.applyTo_mapChildren fun created listed => ?_
            exact DataValue.editAt_of_notMem
              fun inside => otherForeign (mem_liveIds_of_created live listed inside)
          · refine Change.applyTo_mapChildren fun created listed => ?_
            exact DataValue.editAt_of_notMem
              fun inside => foreign (mem_liveIds_of_created otherLive listed inside)

/-! Edits that discard what lies below their target. -/

theorem exists_contents (discards : edit.change.discardsSubtree = true) :
    ∃ contents, edit.change = .set contents := by
  cases change : edit.change with
  | set contents => exact ⟨contents, rfl⟩
  | text inner => cases inner <;> simp [change, Change.discardsSubtree, Change.kind, TextEdit.kind,
      OperationKind.isValueSet] at discards
  | array inner => cases inner <;> simp [change, Change.discardsSubtree, Change.kind, ArrayEdit.kind,
      OperationKind.isValueSet] at discards
  | property inner => cases inner <;> simp [change, Change.discardsSubtree, Change.kind,
      PropertyEdit.kind, OperationKind.isValueSet] at discards
  | addNumber amount => simp [change, Change.discardsSubtree, Change.kind,
      OperationKind.isValueSet] at discards

/-- An edit below a node whose contents are set makes no difference. -/
theorem effect_covered (proper : value.Proper) (suits : edit.Suits blocked value)
    (fresh : edit.Fresh value) (live : edit.isNoOp = false)
    (discards : edit.change.discardsSubtree = true) (different : edit.target ≠ other.target)
    (foreign : edit.target ∉ other.liveIds) (otherForeign : other.target ∉ edit.liveIds)
    (within : value.Within edit.target other.target) :
    edit.effect (other.effect value) = edit.effect value := by
  rw [← effect_comm different foreign otherForeign]
  apply effect_of_notMem
  obtain ⟨parent, inner, occurs, here, below⟩ := within
  obtain ⟨contents, set⟩ := exists_contents discards
  have created := fresh.created
  have apart := fresh.apart
  rw [liveIds_of_live live] at created apart
  rw [effect_of_live live, ← here, Change.mem_nodeIds_editAt_iff proper.distinct occurs
    (proper.ordered.occurs occurs).keysIncrease (suits.fits live _ _ occurs here) created apart]
  rintro ⟨-, kept⟩
  apply kept
  rw [DataValue.nodeIds_eq] at below
  rw [set]
  exact (List.mem_cons.mp below).resolve_left fun same => different (here.symm.trans same.symm)

end Edit

end SharedDocument
