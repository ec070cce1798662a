import SharedDocument.Proofs.Document.Holding
import SharedDocument.Proofs.Fallible
import SharedDocument.Proofs.Value.Within

/-! Walks in an arena that holds a value. A walk down reads the value back unless it meets a detached
id, and a walk up from a node passes exactly the nodes that it lies below. The bounds on the number
of steps never cut a walk short. -/

namespace SharedDocument

namespace Arena

variable {arena : Arena}

/-! Down. -/

theorem attached_eq_ok_iff {id : NodeId} {node : Node} :
    arena.attached id = .ok node ↔ arena.isDetached id = false ∧ arena.node? id = some node := by
  unfold attached
  split
  · rename_i detached
    simp [detached]
  · rename_i notDetached
    cases found : arena.node? id with
    | none => simp
    | some stored => simp [notDetached]

theorem attached_of_isDetached {id : NodeId} (detached : arena.isDetached id = true) :
    arena.attached id = .error (.detached id) := by
  simp [attached, detached]

theorem valueBelow_eq_ok_iff {parent : Option NodeId} {value : DataValue} {depth : Nat}
    (holds : arena.Holds parent value) (enough : value.nodeIds.length ≤ depth)
    (found : DataValue) :
    arena.valueBelow depth value.id = .ok found ↔
      found = value ∧ ∀ id ∈ value.nodeIds, arena.isDetached id = false := by
  induction value using DataValue.induction generalizing parent depth found with
  | step value ih =>
      rw [DataValue.nodeIds_eq, List.length_cons] at enough
      obtain _ | depth := depth
      · omega
      · have below : ∀ child ∈ value.childValues, ∀ result,
            arena.valueBelow depth child.id = .ok result ↔
              result = child ∧ ∀ id ∈ child.nodeIds, arena.isDetached id = false := by
          intro child listed result
          apply ih child listed (holds.child listed)
          have shorter := (DataValue.sublist_flatMap_of_mem listed).length_le
          omega
        have clear : (∀ id ∈ value.nodeIds, arena.isDetached id = false) ↔
            arena.isDetached value.id = false ∧ ∀ child ∈ value.childValues,
              ∀ id ∈ child.nodeIds, arena.isDetached id = false := by
          rw [DataValue.nodeIds_eq, List.forall_mem_cons]
          simp only [List.mem_flatMap]
          exact and_congr_right fun _ => ⟨fun all child listed id inChild => all id ⟨child, listed, inChild⟩,
            fun all id ⟨child, listed, inChild⟩ => all child listed id inChild⟩
        simp only [valueBelow, Fallible.bind_eq_ok_iff, attached_eq_ok_iff, holds.root, clear,
          Option.some.injEq, and_assoc, exists_and_left, exists_eq_left', DataValue.node]
        cases value with
        | array id children =>
            have own : (DataValue.array id children).id = id := rfl
            have items := Fallible.mapM_eq_ok_iff (fun child => child) below
            simp only [DataValue.childValues, List.map_id'] at items
            simp only [DataValue.data, Fallible.bind_eq_ok_iff, Fallible.pure_eq_ok_iff, items,
              DataValue.childValues, own]
            constructor
            · rintro ⟨notDetached, _, ⟨rfl, childrenClear⟩, rfl⟩
              exact ⟨rfl, notDetached, childrenClear⟩
            · rintro ⟨rfl, notDetached, childrenClear⟩
              exact ⟨notDetached, children, ⟨rfl, childrenClear⟩, rfl⟩
        | object id children =>
            have own : (DataValue.object id children).id = id := rfl
            have members := @Fallible.mapM_entries_eq_ok_iff _ _ _ _ _ _ _ children below
            simp only [DataValue.data, Keyed.mapValues, Fallible.bind_eq_ok_iff,
              Fallible.pure_eq_ok_iff, members, DataValue.childValues, own]
            constructor
            · rintro ⟨notDetached, _, ⟨rfl, childrenClear⟩, rfl⟩
              exact ⟨rfl, notDetached, childrenClear⟩
            · rintro ⟨rfl, notDetached, childrenClear⟩
              exact ⟨notDetached, children, ⟨rfl, childrenClear⟩, rfl⟩
        | _ =>
            simp only [DataValue.data, Fallible.pure_eq_ok_iff, DataValue.childValues,
              DataValue.id, List.not_mem_nil, false_implies, implies_true, and_true]
            exact and_comm.trans (and_congr_left fun _ => eq_comm)

/-- A walk down depends only on how the nodes stand that it passes. -/
theorem valueBelow_eq_of_holds {other : Arena} {parent : Option NodeId} {value : DataValue}
    (holds : arena.Holds parent value)
    (same : ∀ id ∈ value.nodeIds, other.attached id = arena.attached id) (depth : Nat) :
    other.valueBelow depth value.id = arena.valueBelow depth value.id := by
  induction value using DataValue.induction generalizing parent depth with
  | step value ih =>
      cases depth with
      | zero => rfl
      | succ depth =>
          have below (child : DataValue) (listed : child ∈ value.childValues) :
              other.valueBelow depth child.id = arena.valueBelow depth child.id :=
            ih child listed (holds.child listed)
              (fun id inChild => same id ((DataValue.sublist_nodeIds_of_child listed).subset inChild))
              depth
          rw [valueBelow, valueBelow, same value.id (DataValue.id_mem_nodeIds value)]
          cases found : arena.attached value.id with
          | error fault => rfl
          | ok node =>
              obtain ⟨-, stored⟩ := attached_eq_ok_iff.mp found
              rw [holds.root, Option.some.injEq] at stored
              subst stored
              cases value with
              | object id children =>
                  have members := @Fallible.mapM_congr _ _ _
                    (fun entry : String × NodeId => do
                      let value ← other.valueBelow depth entry.2
                      return (entry.1, value))
                    (fun entry => do
                      let value ← arena.valueBelow depth entry.2
                      return (entry.1, value))
                    (Keyed.mapValues DataValue.id children) fun entry listed => by
                      obtain ⟨stored, storedListed, rfl⟩ := List.mem_map.mp listed
                      simp only [below stored.2 (List.mem_map_of_mem storedListed)]
                  simp only [DataValue.node, DataValue.data, bind, Except.bind] at members ⊢
                  rw [members]
              | array id children =>
                  have items : (children.map DataValue.id).mapM (other.valueBelow depth) =
                      (children.map DataValue.id).mapM (arena.valueBelow depth) :=
                    Fallible.mapM_congr fun childId listed => by
                      obtain ⟨child, childListed, rfl⟩ := List.mem_map.mp listed
                      exact below child childListed
                  simp only [DataValue.node, DataValue.data, bind, Except.bind] at items ⊢
                  rw [items]
              | _ => rfl

/-! Up. -/

theorem attached_isOk_iff {parent : Option NodeId} {value : DataValue}
    (holds : arena.Holds parent value) :
    arena.attached value.id = .ok (value.node parent) ↔ arena.isDetached value.id = false := by
  rw [attached_eq_ok_iff, holds.root]
  simp

theorem elementOf?_child {value child : DataValue} (listed : child ∈ value.childValues) :
    ∃ element, value.data.elementOf? child.id = some element := by
  have named : child.id ∈ value.data.children.map Prod.snd := by
    rw [DataValue.children_data]
    exact List.mem_map_of_mem listed
  obtain ⟨entry, entryListed, same⟩ := List.mem_map.mp named
  have found : (value.data.children.find? fun entry => entry.2 == child.id).isSome :=
    List.find?_isSome.mpr ⟨entry, entryListed, by simp [same]⟩
  obtain ⟨first, firstFound⟩ := Option.isSome_iff_exists.mp found
  exact ⟨first.1, by simp [NodeData.elementOf?, firstFound]⟩

section

variable {value : DataValue} (holds : arena.Holds none value) (distinct : value.nodeIds.Nodup)

include holds distinct

theorem pathUp_isOk_iff {parent : Option NodeId} {inner : DataValue} {steps : Nat}
    (occurs : DataValue.Occurs none value parent inner)
    (enough : value.nodeIds.length < steps + inner.nodeIds.length) (below : Path) :
    (∃ path, arena.pathUp steps (inner.node parent) below = .ok path) ↔
      ∀ ancestor, value.Within ancestor inner.id → ancestor ≠ inner.id →
        arena.isDetached ancestor = false := by
  induction steps generalizing parent inner below with
  | zero =>
      have shorter := occurs.sublist_nodeIds.length_le
      omega
  | succ steps ih =>
      rcases occurs.eq_or_child with ⟨rfl, rfl⟩ | ⟨outerParent, outer, outerOccurs, rfl, listed⟩
      · simp only [pathUp, DataValue.node, Except.ok.injEq, exists_eq', true_iff]
        intro ancestor within elsewhere
        exact absurd (DataValue.within_root_iff distinct |>.mp within) elsewhere
      · have shorter := DataValue.length_lt_of_child listed
        obtain ⟨element, found⟩ := elementOf?_child listed
        have outerHolds : arena.Holds outerParent outer :=
          fun _ _ inOuter => holds _ _ (outerOccurs.trans inOuter)
        have above := DataValue.strictlyWithin_child_iff distinct outerOccurs listed
        simp only [pathUp, DataValue.node]
        by_cases clear : arena.isDetached outer.id = false
        · have further := ih outerOccurs (by omega) (element :: below)
          rw [DataValue.node] at further
          simp only [(attached_isOk_iff outerHolds).mpr clear, DataValue.node, found, further]
          constructor
          · intro all ancestor within elsewhere
            by_cases here : ancestor = outer.id
            · rw [here]
              exact clear
            · exact all ancestor ((above ancestor).mp ⟨within, elsewhere⟩) here
          · intro all ancestor within _
            obtain ⟨inInner, elsewhere⟩ := (above ancestor).mpr within
            exact all ancestor inInner elsewhere
        · simp only [attached_of_isDetached (by simpa using clear), reduceCtorEq, exists_false, false_iff]
          intro all
          obtain ⟨inInner, elsewhere⟩ :=
            (above outer.id).mpr (DataValue.Within.self outerOccurs.id_mem)
          exact clear (all outer.id inInner elsewhere)

theorem pathOf_isOk_iff {parent : Option NodeId} {inner : DataValue}
    (occurs : DataValue.Occurs none value parent inner) :
    (∃ path, arena.pathOf inner.id = .ok path) ↔
      ∀ ancestor, value.Within ancestor inner.id → arena.isDetached ancestor = false := by
  have innerHolds : arena.Holds parent inner := fun _ _ inInner => holds _ _ (occurs.trans inInner)
  have enough : value.nodeIds.length < arena.size + inner.nodeIds.length := by
    have bound := holds.length_le_size distinct
    have positive := List.length_pos_of_mem (DataValue.id_mem_nodeIds inner)
    omega
  have up := pathUp_isOk_iff holds distinct occurs enough []
  unfold pathOf
  by_cases clear : arena.isDetached inner.id = false
  · simp only [(attached_isOk_iff innerHolds).mpr clear, up]
    constructor
    · intro all ancestor within
      by_cases here : ancestor = inner.id
      · rw [here]
        exact clear
      · exact all ancestor within here
    · intro all ancestor within _
      exact all ancestor within
  · simp only [attached_of_isDetached (by simpa using clear), reduceCtorEq, exists_false, false_iff]
    intro all
    exact clear (all inner.id (DataValue.Within.self occurs.id_mem))

theorem climb_eq_true_iff {parent : Option NodeId} {inner : DataValue} {steps : Nat}
    (occurs : DataValue.Occurs none value parent inner)
    (enough : value.nodeIds.length ≤ steps + inner.nodeIds.length) (ancestor : NodeId) :
    Ancestry.climb arena.parentOf ancestor steps inner.id = true ↔
      value.Within ancestor inner.id ∧ ancestor ≠ inner.id := by
  induction steps generalizing parent inner with
  | zero =>
      rcases occurs.eq_or_child with ⟨rfl, rfl⟩ | ⟨outerParent, outer, outerOccurs, rfl, listed⟩
      · rw [DataValue.within_root_iff distinct]
        simp [Ancestry.climb]
      · have shorter := DataValue.length_lt_of_child listed
        have within := outerOccurs.sublist_nodeIds.length_le
        omega
  | succ steps ih =>
      have innerHolds : arena.Holds parent inner :=
        fun _ _ inInner => holds _ _ (occurs.trans inInner)
      have link : arena.parentOf inner.id = parent := by
        simp [parentOf, innerHolds.root, DataValue.node]
      rcases occurs.eq_or_child with ⟨rfl, rfl⟩ | ⟨outerParent, outer, outerOccurs, rfl, listed⟩
      · rw [DataValue.within_root_iff distinct]
        simp [Ancestry.climb, link]
      · have shorter := DataValue.length_lt_of_child listed
        rw [DataValue.strictlyWithin_child_iff distinct outerOccurs listed, Ancestry.climb, link]
        by_cases here : outer.id = ancestor
        · simp only [if_pos here, true_iff]
          exact here ▸ DataValue.Within.self outerOccurs.id_mem
        · simp only [if_neg here, ih outerOccurs (by omega)]
          exact and_iff_left (Ne.symm here)

theorem isAncestor_eq_true_iff {id : NodeId} (listed : id ∈ value.nodeIds) (ancestor : NodeId) :
    arena.isAncestor ancestor id = true ↔ value.Within ancestor id ∧ ancestor ≠ id := by
  obtain ⟨parent, inner, occurs, rfl⟩ := (DataValue.mem_nodeIds_iff none value id).mp listed
  have bound := holds.length_le_size distinct
  exact climb_eq_true_iff holds distinct occurs (by omega) ancestor

end

end Arena

end SharedDocument
