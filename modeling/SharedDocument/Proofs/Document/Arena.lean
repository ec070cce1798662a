import SharedDocument.Document.Editing
import SharedDocument.Proofs.Keyed

/-! What each write to an arena does to the look-up of a node, to the detached ids and to the
references. The nodes of an arena stay listed in increasing order of their ids. -/

namespace SharedDocument

instance : IsStrictTotalOrder NodeId (· < ·) where
  irrefl id := lt_irrefl id.text
  trans first second third := lt_trans (a := first.text) (b := second.text) (c := third.text)
  trichotomous first second notBefore notAfter := by
    have same : first.text = second.text :=
      le_antisymm (not_lt.mp notAfter) (not_lt.mp notBefore)
    cases first
    cases second
    simpa using same

namespace Arena

variable {arena : Arena}

theorem contains_iff {id : NodeId} : arena.contains id = true ↔ arena.node? id ≠ none := by
  simp [contains, Option.isSome_iff_ne_none]

theorem isKnown_eq_false_iff {id : NodeId} :
    arena.isKnown id = false ↔ arena.node? id = none ∧ arena.isDetached id = false := by
  simp [isKnown, contains]

theorem node?_setNode (node : Node) (id : NodeId) :
    (arena.setNode node).node? id = if id = node.id then some node else arena.node? id :=
  Keyed.find?_insert node.id id node arena.nodes

theorem node?_setData {id : NodeId} {node : Node} (found : arena.node? id = some node)
    (named : node.id = id) (data : NodeData) (other : NodeId) :
    (arena.setData id data).node? other =
      if other = id then some { node with data := data } else arena.node? other := by
  simp only [setData, found]
  rw [node?_setNode, named]

theorem increasing_setNode (node : Node) (sorted : Keyed.Increasing arena.nodes) :
    Keyed.Increasing (arena.setNode node).nodes :=
  Keyed.increasing_insert node.id node sorted

theorem increasing_setData (id : NodeId) (data : NodeData) (sorted : Keyed.Increasing arena.nodes) :
    Keyed.Increasing (arena.setData id data).nodes := by
  unfold setData
  split
  · exact increasing_setNode _ sorted
  · exact sorted

theorem setData_detached (id : NodeId) (data : NodeData) :
    (arena.setData id data).detached = arena.detached := by
  unfold setData
  split <;> rfl

theorem setData_references (id : NodeId) (data : NodeData) :
    (arena.setData id data).references = arena.references := by
  unfold setData
  split <;> rfl

theorem isDetached_addDetached (id other : NodeId) :
    (arena.addDetached id).isDetached other = true ↔ other = id ∨ arena.isDetached other = true := by
  unfold addDetached
  split
  · rename_i already
    refine ⟨Or.inr, ?_⟩
    rintro (rfl | before)
    · exact already
    · exact before
  · simp [isDetached]

theorem nodes_addDetached (id : NodeId) : (arena.addDetached id).nodes = arena.nodes := by
  unfold addDetached
  split <;> rfl

theorem references_addDetached (id : NodeId) :
    (arena.addDetached id).references = arena.references := by
  unfold addDetached
  split <;> rfl

theorem isDetached_foldl_addDetached (ids : List NodeId) (other : NodeId) :
    (ids.foldl addDetached arena).isDetached other = true ↔
      other ∈ ids ∨ arena.isDetached other = true := by
  induction ids generalizing arena with
  | nil => simp
  | cons id rest ih =>
      rw [List.foldl_cons, ih, isDetached_addDetached, List.mem_cons]
      tauto

theorem nodes_foldl_addDetached (ids : List NodeId) :
    (ids.foldl addDetached arena).nodes = arena.nodes := by
  induction ids generalizing arena with
  | nil => rfl
  | cons id rest ih => exact ih.trans (nodes_addDetached id)

theorem references_foldl_addDetached (ids : List NodeId) :
    (ids.foldl addDetached arena).references = arena.references := by
  induction ids generalizing arena with
  | nil => rfl
  | cons id rest ih => exact ih.trans (references_addDetached id)

theorem node?_forget (id other : NodeId) :
    (arena.forget id).node? other = if other = id then none else arena.node? other := by
  rw [node?, forget, nodes_addDetached]
  exact Keyed.find?_erase id other arena.nodes

theorem increasing_forget (id : NodeId) (sorted : Keyed.Increasing arena.nodes) :
    Keyed.Increasing (arena.forget id).nodes := by
  rw [forget, nodes_addDetached]
  exact Keyed.increasing_erase id sorted

theorem isDetached_forget (id other : NodeId) :
    (arena.forget id).isDetached other = true ↔ other = id ∨ arena.isDetached other = true :=
  isDetached_addDetached id other

theorem references_forget (id other : NodeId) :
    Keyed.find? other (arena.forget id).references =
      if other = id then none else Keyed.find? other arena.references := by
  rw [forget, references_addDetached]
  exact Keyed.find?_erase id other arena.references

theorem nodes_followReferences (id : NodeId) (follow : Word → Word) :
    (arena.followReferences id follow).nodes = arena.nodes := by
  unfold followReferences
  split <;> rfl

theorem detached_followReferences (id : NodeId) (follow : Word → Word) :
    (arena.followReferences id follow).detached = arena.detached := by
  unfold followReferences
  split <;> rfl

theorem find?_followReferences_ne_none {id : NodeId} {follow : Word → Word} {other : NodeId}
    (present : Keyed.find? other (arena.followReferences id follow).references ≠ none) :
    Keyed.find? other arena.references ≠ none := by
  unfold followReferences at present
  split at present
  · rename_i references found
    rw [Keyed.find?_insert] at present
    split at present
    · rename_i here
      rw [here, found]
      simp
    · exact present
  · exact present

theorem find?_dropReferences_ne_none {id other : NodeId}
    (present : Keyed.find? other (arena.dropReferences id).references ≠ none) :
    Keyed.find? other arena.references ≠ none := by
  intro absent
  apply present
  rw [dropReferences, Keyed.find?_erase, absent]
  split <;> rfl

theorem markSuperseded_cons (id : NodeId) (rest : List NodeId) :
    arena.markSuperseded (id :: rest) =
      (if arena.contains id then arena else arena.addDetached id).markSuperseded rest := rfl

theorem isDetached_markSuperseded (ids : List NodeId) (other : NodeId) :
    (arena.markSuperseded ids).isDetached other = true ↔
      (other ∈ ids ∧ arena.node? other = none) ∨ arena.isDetached other = true := by
  induction ids generalizing arena with
  | nil => simp [markSuperseded]
  | cons id rest ih =>
      rw [markSuperseded_cons]
      split
      · rename_i present
        rw [ih, List.mem_cons]
        have : arena.node? id ≠ none := contains_iff.mp present
        constructor
        · rintro (⟨listed, absent⟩ | before)
          · exact Or.inl ⟨Or.inr listed, absent⟩
          · exact Or.inr before
        · rintro (⟨rfl | listed, absent⟩ | before)
          · exact absurd absent this
          · exact Or.inl ⟨listed, absent⟩
          · exact Or.inr before
      · rename_i absent
        have missing : arena.node? id = none := by simpa [contains] using absent
        rw [ih, isDetached_addDetached, node?, nodes_addDetached, ← node?, List.mem_cons]
        constructor
        · rintro (⟨listed, gone⟩ | rfl | before)
          · exact Or.inl ⟨Or.inr listed, gone⟩
          · exact Or.inl ⟨Or.inl rfl, missing⟩
          · exact Or.inr before
        · rintro (⟨rfl | listed, gone⟩ | before)
          · exact Or.inr (Or.inl rfl)
          · exact Or.inl ⟨listed, gone⟩
          · exact Or.inr (Or.inr before)

theorem nodes_markSuperseded (ids : List NodeId) :
    (arena.markSuperseded ids).nodes = arena.nodes := by
  induction ids generalizing arena with
  | nil => rfl
  | cons id rest ih =>
      rw [markSuperseded_cons, ih]
      split
      · rfl
      · exact nodes_addDetached id

theorem references_markSuperseded (ids : List NodeId) :
    (arena.markSuperseded ids).references = arena.references := by
  induction ids generalizing arena with
  | nil => rfl
  | cons id rest ih =>
      rw [markSuperseded_cons, ih]
      split
      · rfl
      · exact references_addDetached id

end Arena

end SharedDocument
