import SharedDocument.Proofs.Document.Runs

/-! Documents as values. A document that has a snapshot behaves like that value under plain edits: an
edit is granted exactly if it fits the value and creates new ids, and the next snapshot is the
value edited at one node. Skipping an edit keeps the snapshot unless the edit names an attached
node among those that it creates. -/

namespace SharedDocument

open DataValue (Occurs)

namespace Arena

variable {arena : Arena} {value : DataValue}

theorem Represents.dataValue_eq_ok_iff (represents : arena.Represents value) (found : DataValue) :
    arena.dataValue value.id = .ok found ↔
      found = value ∧ ∀ id ∈ value.nodeIds, arena.isDetached id = false := by
  have bound := represents.holds.length_le_size represents.distinct
  exact valueBelow_eq_ok_iff represents.holds (by omega) found

theorem applyEdits_idle {origin : Origin} {edit : Edit} (idle : edit.isNoOp = true) :
    arena.applyEdits origin [edit] = .ok (arena, []) := by
  simp [applyEdits, idle]

theorem applyEdits_single {origin : Origin} {edit : Edit} (effective : edit.isNoOp = false)
    {result : Arena × List ChangeEvent} :
    arena.applyEdits origin [edit] = .ok result ↔ arena.applyEdit origin edit = .ok result := by
  unfold applyEdits
  simp only [effective, Bool.false_eq_true, if_false]
  cases arena.applyEdit origin edit with
  | error fault => simp
  | ok edited => simp [applyEdits]

end Arena

namespace Document

variable {document : Document} {value : DataValue} {edit : Edit}

def Grants (document : Document) (value : DataValue) (edit : Edit) : Prop :=
  (∃ parent inner, Occurs none value parent inner ∧ inner.id = edit.target ∧
      edit.change.Fits inner) ∧
    edit.change.createdIds.Nodup ∧
    ∀ id ∈ edit.change.createdIds,
      document.arena.contains id = false ∧ document.arena.isDetached id = false

theorem Holds.snapshot_eq_ok_iff {clashing : List NodeId} (holds : document.Holds value clashing)
    (found : DataValue) :
    document.snapshot = .ok found ↔
      found = value ∧ ∀ id ∈ value.nodeIds, document.arena.isDetached id = false := by
  rw [snapshot, holds.2]
  exact holds.1.represents.dataValue_eq_ok_iff found

theorem apply_single_eq_ok_iff {origin : Origin} (isOpen : document.isClosed = false)
    (effective : edit.isNoOp = false) {result : Document × List Delivery} :
    document.apply origin (.single edit) = .ok result ↔ ∃ edited,
      document.arena.applyEdit origin edit = .ok edited ∧
        result = ({ document with arena := edited.1 },
          if document.receives origin then document.subscribers.receiveAll edited.2 else []) := by
  rw [apply_eq_ok_iff]
  simp only [isOpen, true_and, Operation.edits, Arena.applyEdits_single effective]

section

variable (reachable : document.Reachable) (isOpen : document.isClosed = false)
  (snapshot : document.snapshot = .ok value) (effective : edit.isNoOp = false)
  (ordered : edit.change.Ordered)

include reachable isOpen snapshot effective ordered

theorem apply_edit_spec {origin : Origin}
    (attempted : origin = .own ∨ document.arena.isDetached edit.target = false) :
    ((∃ result, document.apply origin (.single edit) = .ok result) ↔ document.Grants value edit) ∧
      ∀ result, document.apply origin (.single edit) = .ok result →
        result.1.snapshot = .ok (value.editAt edit.target edit.change.applyTo) := by
  obtain ⟨stored, clashing, holds⟩ := reachable.holds
  obtain ⟨rfl, clean⟩ := (holds.snapshot_eq_ok_iff value).mp snapshot
  have represents := holds.1.represents
  have granted {result : Document × List Delivery}
      (succeeds : document.apply origin (.single edit) = .ok result) :
      document.Grants value edit ∧
        result.1.snapshot = .ok (value.editAt edit.target edit.change.applyTo) := by
    obtain ⟨edited, applied, rfl⟩ := (apply_single_eq_ok_iff isOpen effective).mp succeeds
    have notDetached : document.arena.isDetached edit.target = false := by
      rcases attempted with rfl | notDetached
      · by_contra detached
        simp [Arena.applyEdit, Bool.not_eq_false _ ▸ detached] at applied
      · exact notDetached
    obtain ⟨⟨parent, inner, admits⟩, edits, detachedIds⟩ :=
      represents.applyEdit ordered notDetached applied
    refine ⟨⟨⟨parent, inner, admits.occurs, admits.target, admits.fits⟩, admits.fresh.1, ?_⟩, ?_⟩
    · intro id created
      have unknown := Arena.isKnown_eq_false_iff.mp (admits.fresh.2 id created)
      exact ⟨by simp [Arena.contains, unknown.1], unknown.2⟩
    · have sameRoot : document.root = (value.editAt edit.target edit.change.applyTo).id :=
        holds.2.trans (DataValue.id_editAt (Change.id_applyTo _) value).symm
      rw [Document.snapshot, sameRoot]
      refine (edits.dataValue_eq_ok_iff _).mpr ⟨rfl, fun id listed => ?_⟩
      by_contra both
      rcases (detachedIds id).mp (Bool.not_eq_false _ ▸ both) with before | lost
      · rcases ((admits.mem_nodeIds_iff represents id).mp listed).1 with created | old
        · have unknown := (Arena.isKnown_eq_false_iff.mp (admits.fresh.2 id created)).2
          simp [unknown] at before
        · simp [clean id old] at before
      · exact lost.2 listed
  refine ⟨⟨?_, ?_⟩, fun result succeeds => (granted succeeds).2⟩
  · rintro ⟨result, succeeds⟩
    exact (granted succeeds).1
  · rintro ⟨⟨parent, inner, occurs, target, fits⟩, distinct, unknown⟩
    have admits : document.arena.Admits value edit parent inner := by
      refine ⟨occurs, target, fun ancestor within => clean ancestor within.mem.1, fits, distinct, ?_⟩
      intro id created
      simp [Arena.isKnown, unknown id created]
    obtain ⟨edited, applied⟩ := represents.applyEdit_isOk origin admits
    exact ⟨_, (apply_single_eq_ok_iff isOpen effective).mpr ⟨edited, applied, rfl⟩⟩

omit ordered in
theorem apply_skipped_spec {sessionId : String}
    (detached : document.arena.isDetached edit.target = true) :
    ∃ result, document.apply (.peer sessionId) (.single edit) = .ok result ∧
      (∀ id, result.1.arena.node? id = document.arena.node? id) ∧
      (∀ id, result.1.arena.isDetached id = true ↔
        id ∈ edit.change.createdIds ∨ document.arena.isDetached id = true) ∧
      (result.1.snapshot = .ok value ↔
        ∀ id ∈ edit.change.createdIds, document.arena.contains id = false) := by
  obtain ⟨stored, clashing, holds⟩ := reachable.holds
  obtain ⟨rfl, clean⟩ := (holds.snapshot_eq_ok_iff value).mp snapshot
  have represents := holds.1.represents
  have skipped := represents.skip edit.change.createdIds
  have marks (id : NodeId) :
      (edit.change.createdIds.foldl Arena.addDetached document.arena).isDetached id = true ↔
        id ∈ edit.change.createdIds ∨ document.arena.isDetached id = true :=
    Arena.isDetached_foldl_addDetached edit.change.createdIds id
  refine ⟨_, (apply_single_eq_ok_iff isOpen effective).mpr
    ⟨_, Arena.applyEdit_skip detached, rfl⟩, ?_, ?_, ?_⟩
  · intro id
    rw [Arena.node?, Arena.nodes_foldl_addDetached, Arena.node?]
  · exact marks
  · rw [Document.snapshot, holds.2]
    refine (skipped.dataValue_eq_ok_iff value).trans ?_
    simp only [true_and]
    constructor
    · intro stillClean id created
      by_contra present
      have listed := represents.only id (Arena.contains_iff.mp (Bool.not_eq_false _ ▸ present))
      have both := (marks id).mpr (Or.inl created)
      simp [stillClean id listed] at both
    · intro absent id listed
      by_contra both
      rcases (marks id).mp (Bool.not_eq_false _ ▸ both) with created | before
      · have present := Arena.contains_iff.mpr (represents.holds.node?_ne_none listed)
        simp [absent id created] at present
      · simp [clean id listed] at before

/-- An own edit, and an edit of another session on a node that is not detached, is granted exactly
if it suits the snapshot, and edits it. An edit of another session on a detached node is always
granted; it only makes the ids that it would create count as detached, and the snapshot stays
unless one of these is attached. -/
theorem apply_refines :
    (∀ origin, origin = .own ∨ document.arena.isDetached edit.target = false →
      ((∃ result, document.apply origin (.single edit) = .ok result) ↔
        document.Grants value edit) ∧
      ∀ result, document.apply origin (.single edit) = .ok result →
        result.1.snapshot = .ok (value.editAt edit.target edit.change.applyTo)) ∧
    ∀ sessionId, document.arena.isDetached edit.target = true →
      ∃ result, document.apply (.peer sessionId) (.single edit) = .ok result ∧
        (∀ id, result.1.arena.node? id = document.arena.node? id) ∧
        (∀ id, result.1.arena.isDetached id = true ↔
          id ∈ edit.change.createdIds ∨ document.arena.isDetached id = true) ∧
        (result.1.snapshot = .ok value ↔
          ∀ id ∈ edit.change.createdIds, document.arena.contains id = false) :=
  ⟨fun _ attempted => apply_edit_spec reachable isOpen snapshot effective ordered attempted,
    fun _ detached => apply_skipped_spec reachable isOpen snapshot effective detached⟩

end

/-- The first element of an empty array. -/
theorem apply_refines_insertion :
    ∃ document : Document, document.Reachable ∧ document.snapshot = .ok (.array ⟨"list"⟩ []) ∧
      ∃ result, document.apply .own
          (.single (.on ⟨"list"⟩ (.array (.insert .zero (.null ⟨"leaf"⟩))))) = .ok result ∧
        result.1.snapshot = .ok (.array ⟨"list"⟩ [.null ⟨"leaf"⟩]) := by
  have reachable : Reachable
      ⟨⟨"list"⟩, Arena.empty.attach none (.array ⟨"list"⟩ []), .none, true, false⟩ :=
    ⟨.array ⟨"list"⟩ [], _, [], .leaf rfl, rfl, by simp, rfl⟩
  refine ⟨_, reachable, rfl, ?_⟩
  have ordered : (Change.array (.insert .zero (.null ⟨"leaf"⟩))).Ordered := by
    simpa [Change.Ordered, Change.createdValues, ArrayEdit.values] using .leaf rfl
  have spec := (@apply_refines _ _ (.on ⟨"list"⟩ (.array (.insert .zero (.null ⟨"leaf"⟩))))
    reachable rfl rfl rfl ordered).1 .own (Or.inl rfl)
  obtain ⟨result, granted⟩ := spec.1.mpr
    ⟨⟨none, .array ⟨"list"⟩ [], .here, rfl, Nat.le_refl 0⟩, by decide, by decide⟩
  exact ⟨result, granted, spec.2 result granted⟩

end Document

end SharedDocument
