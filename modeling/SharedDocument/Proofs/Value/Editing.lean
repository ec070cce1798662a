import SharedDocument.Proofs.Value

/-! Editing one node of a value. `editAt` edits the node of one id and leaves every other node alone.
Edits of different nodes commute if each of them treats the values below its node alike, whatever
they hold. -/

namespace SharedDocument.DataValue

mutual

def editAt (target : NodeId) (edit : DataValue → DataValue) : DataValue → DataValue
  | .object id children =>
      if id = target then edit (.object id children) else .object id (editMembers target edit children)
  | .array id children =>
      if id = target then edit (.array id children) else .array id (editItems target edit children)
  | value => if value.id = target then edit value else value

def editItems (target : NodeId) (edit : DataValue → DataValue) : List DataValue → List DataValue
  | [] => []
  | child :: rest => editAt target edit child :: editItems target edit rest

def editMembers (target : NodeId) (edit : DataValue → DataValue) :
    List (String × DataValue) → List (String × DataValue)
  | [] => []
  | (key, child) :: rest => (key, editAt target edit child) :: editMembers target edit rest

end

section

variable (target : NodeId) (edit : DataValue → DataValue)

theorem editItems_eq_map (children : List DataValue) :
    editItems target edit children = children.map (editAt target edit) := by
  induction children with
  | nil => rfl
  | cons child rest ih => simp [editItems, ih]

theorem editMembers_eq_mapValues (children : List (String × DataValue)) :
    editMembers target edit children = Keyed.mapValues (editAt target edit) children := by
  induction children with
  | nil => rfl
  | cons entry rest ih =>
      simp only [Keyed.mapValues] at ih
      simp [editMembers, Keyed.mapValues, ih]

theorem editAt_eq (value : DataValue) :
    value.editAt target edit =
      if value.id = target then edit value else value.mapChildren (editAt target edit) := by
  cases value with
  | object id children =>
      simp only [editAt, editMembers_eq_mapValues]
      rfl
  | array id children =>
      simp only [editAt, editItems_eq_map]
      rfl
  | _ => rfl

end

section

variable {target : NodeId} {edit : DataValue → DataValue}

theorem editAt_self {value : DataValue} (here : value.id = target) :
    value.editAt target edit = edit value := by
  rw [editAt_eq, if_pos here]

theorem editAt_of_ne {value : DataValue} (elsewhere : value.id ≠ target) :
    value.editAt target edit = value.mapChildren (editAt target edit) := by
  rw [editAt_eq, if_neg elsewhere]

theorem id_editAt (keepsId : ∀ value, (edit value).id = value.id) (value : DataValue) :
    (value.editAt target edit).id = value.id := by
  rw [editAt_eq]
  split
  · exact keepsId value
  · exact id_mapChildren _ value

theorem editAt_congr {first second : DataValue → DataValue} {parent : Option NodeId}
    {value : DataValue}
    (same : ∀ innerParent inner, Occurs parent value innerParent inner → inner.id = target →
      first inner = second inner) :
    value.editAt target first = value.editAt target second := by
  induction value using induction generalizing parent with
  | step value ih =>
      by_cases here : value.id = target
      · rw [editAt_self here, editAt_self here]
        exact same parent value .here here
      · rw [editAt_of_ne here, editAt_of_ne here]
        apply mapChildren_congr
        intro child listed
        exact ih child listed fun innerParent inner occurs =>
          same innerParent inner (.deeper listed occurs)

theorem editAt_of_notMem {value : DataValue} (absent : target ∉ value.nodeIds) :
    value.editAt target edit = value := by
  induction value using induction with
  | step value ih =>
      have elsewhere : value.id ≠ target := fun here => absent (here ▸ id_mem_nodeIds value)
      rw [editAt_of_ne elsewhere]
      calc value.mapChildren (editAt target edit) = value.mapChildren (fun child => child) := by
            apply mapChildren_congr
            intro child listed
            apply ih child listed
            intro inChild
            exact absent ((sublist_nodeIds_of_child listed).subset inChild)
        _ = value := mapChildren_id value

@[simp] theorem editAt_id (value : DataValue) : value.editAt target (fun inner => inner) = value := by
  induction value using induction with
  | step value ih =>
      rw [editAt_eq]
      split
      · rfl
      · exact (mapChildren_congr ih).trans (mapChildren_id value)

theorem editAt_editAt {first second : DataValue → DataValue}
    (keepsId : ∀ value, (first value).id = value.id) (value : DataValue) :
    (value.editAt target first).editAt target second =
      value.editAt target (fun inner => second (first inner)) := by
  induction value using induction with
  | step value ih =>
      by_cases here : value.id = target
      · rw [editAt_self here, editAt_self here, editAt_self ((keepsId value).trans here)]
      · rw [editAt_of_ne here, editAt_of_ne here, editAt_of_ne (by simpa using here),
          mapChildren_mapChildren]
        exact mapChildren_congr ih

/-- Edits of different nodes commute, if what each does at its node does not depend on what the
values below hold. -/
theorem editAt_comm {other : NodeId} {first second : DataValue → DataValue}
    (different : target ≠ other)
    (firstKeepsId : ∀ value, (first value).id = value.id)
    (secondKeepsId : ∀ value, (second value).id = value.id)
    (firstNatural : ∀ value, first (value.mapChildren (editAt other second)) =
      (first value).mapChildren (editAt other second))
    (secondNatural : ∀ value, second (value.mapChildren (editAt target first)) =
      (second value).mapChildren (editAt target first))
    (value : DataValue) :
    (value.editAt target first).editAt other second =
      (value.editAt other second).editAt target first := by
  induction value using induction with
  | step value ih =>
      by_cases atFirst : value.id = target
      · have notSecond : value.id ≠ other := fun atSecond => different (atFirst.symm.trans atSecond)
        rw [editAt_self atFirst, editAt_of_ne ((firstKeepsId value).trans_ne notSecond),
          editAt_of_ne notSecond, editAt_self (by simpa using atFirst), firstNatural]
      · by_cases atSecond : value.id = other
        · rw [editAt_of_ne atFirst, editAt_self (by simpa using atSecond), editAt_self atSecond,
            editAt_of_ne ((secondKeepsId value).trans_ne atFirst), secondNatural]
        · rw [editAt_of_ne atFirst, editAt_of_ne (by simpa using atSecond), editAt_of_ne atSecond,
            editAt_of_ne (by simpa using atFirst), mapChildren_mapChildren, mapChildren_mapChildren]
          exact mapChildren_congr ih

theorem ordered_editAt {value : DataValue} (ordered : value.Ordered)
    (kept : ∀ inner, inner.Ordered → inner.id = target → (edit inner).Ordered) :
    (value.editAt target edit).Ordered := by
  induction value using induction with
  | step value ih =>
      by_cases here : value.id = target
      · rw [editAt_self here]
        exact kept value ordered here
      · rw [editAt_of_ne here]
        refine .intro (keysIncrease_mapChildren ordered.keysIncrease) ?_
        intro child listed
        rw [childValues_mapChildren, List.mem_map] at listed
        obtain ⟨old, oldListed, rfl⟩ := listed
        exact ih old oldListed (ordered.child oldListed)

end

theorem exists_nodeIds_editAt_perm {target : NodeId} {parent innerParent : Option NodeId}
    {value inner : DataValue} (distinct : value.nodeIds.Nodup)
    (occurs : Occurs parent value innerParent inner) (here : inner.id = target) :
    ∃ others, value.nodeIds.Perm (inner.nodeIds ++ others) ∧ ∀ edit,
      (value.editAt target edit).nodeIds.Perm ((edit inner).nodeIds ++ others) := by
  induction occurs with
  | here =>
      refine ⟨[], by simp, ?_⟩
      intro edit
      simp [editAt_self here]
  | @deeper parent value child innerParent inner listed occurs ih =>
      obtain ⟨others, perm, editedPerm⟩ := ih (nodup_child distinct listed) here
      have elsewhere : value.id ≠ target := by
        intro atRoot
        apply id_notMem_child distinct listed
        rw [atRoot, ← here]
        exact occurs.id_mem
      obtain ⟨before, after, split⟩ := List.append_of_mem listed
      have moved : (value.childValues.flatMap nodeIds).Perm
          (child.nodeIds ++ (before ++ after).flatMap nodeIds) := by
        rw [split, ← List.flatMap_cons]
        exact List.perm_middle.flatMap_right nodeIds
      have apart := (List.nodup_append'.mp (moved.nodup (childValues_nodup distinct))).2.2
      have untouched (edit : DataValue → DataValue) (other : DataValue)
          (otherListed : other ∈ before ++ after) : other.editAt target edit = other := by
        apply editAt_of_notMem
        intro inOther
        exact apart (here ▸ occurs.id_mem) ((sublist_flatMap_of_mem otherListed).subset inOther)
      refine ⟨value.id :: (before ++ after).flatMap nodeIds ++ others, ?_, ?_⟩
      · rw [nodeIds_eq value]
        rw [List.perm_iff_count] at moved perm ⊢
        intro id
        have movedCount := moved id
        have count := perm id
        simp only [List.count_append, List.count_cons, List.cons_append] at movedCount count ⊢
        omega
      · intro edit
        have edited := editedPerm edit
        rw [editAt_of_ne elsewhere, nodeIds_eq, id_mapChildren, childValues_mapChildren, split,
          List.map_append, List.map_cons, List.map_congr_left fun other listed =>
            untouched edit other (List.mem_append_left _ listed),
          List.map_congr_left fun other listed =>
            untouched edit other (List.mem_append_right _ listed), List.map_id', List.map_id']
        rw [List.perm_iff_count] at edited ⊢
        intro id
        have count := edited id
        simp only [List.flatMap_append, List.flatMap_cons, List.count_append, List.count_cons,
          List.cons_append] at count ⊢
        omega

theorem Occurs.editAt_self {parent innerParent : Option NodeId} {value inner : DataValue}
    (occurs : Occurs parent value innerParent inner) (edit : DataValue → DataValue)
    (distinct : value.nodeIds.Nodup) :
    Occurs parent (value.editAt inner.id edit) innerParent (edit inner) := by
  induction occurs with
  | here =>
      rw [DataValue.editAt_self rfl]
      exact .here
  | @deeper parent value child innerParent inner listed occurs ih =>
      have elsewhere : value.id ≠ inner.id := by
        intro same
        apply id_notMem_child distinct listed
        rw [same]
        exact occurs.id_mem
      rw [editAt_of_ne elsewhere]
      have editedListed : child.editAt inner.id edit ∈
          (value.mapChildren (editAt inner.id edit)).childValues := by
        rw [childValues_mapChildren]
        exact List.mem_map_of_mem listed
      refine .deeper editedListed ?_
      rw [id_mapChildren]
      exact ih (nodup_child distinct listed)

/-- A node of an edited value is an old one that is neither the edited node nor below it, or lies in
what the edit has made of its node. -/
theorem occurs_editAt {target : NodeId} {edit : DataValue → DataValue}
    {parent innerParent : Option NodeId} {value inner : DataValue} (distinct : value.nodeIds.Nodup)
    (occurs : Occurs parent (value.editAt target edit) innerParent inner) :
    (∃ old, Occurs parent value innerParent old ∧ old.id ≠ target ∧ inner = old.editAt target edit ∧
      ∀ siteParent site, Occurs parent value siteParent site → site.id = target →
        old.id ∉ site.nodeIds) ∨
    ∃ siteParent site, Occurs parent value siteParent site ∧ site.id = target ∧
      Occurs siteParent (edit site) innerParent inner := by
  induction value using induction generalizing parent with
  | step value ih =>
      by_cases here : value.id = target
      · rw [editAt_self here] at occurs
        exact Or.inr ⟨parent, value, .here, here, occurs⟩
      · rw [editAt_of_ne here] at occurs
        rcases occurs.eq_or_deeper with ⟨rfl, rfl⟩ | ⟨child, listed, deeper⟩
        · refine Or.inl ⟨value, .here, here, (editAt_of_ne here).symm, ?_⟩
          intro siteParent site siteOccurs atSite inSite
          rcases siteOccurs.eq_or_deeper with ⟨_, rfl⟩ | ⟨other, otherListed, siteDeeper⟩
          · exact here atSite
          · exact id_notMem_child distinct otherListed
              (siteDeeper.sublist_nodeIds.subset inSite)
        · rw [childValues_mapChildren, List.mem_map] at listed
          obtain ⟨oldChild, oldListed, rfl⟩ := listed
          rw [id_mapChildren] at deeper
          rcases ih oldChild oldListed (nodup_child distinct oldListed) deeper with
            ⟨old, oldOccurs, elsewhere, same, apart⟩ | ⟨siteParent, site, siteOccurs, atSite, inSite⟩
          · refine Or.inl ⟨old, .deeper oldListed oldOccurs, elsewhere, same, ?_⟩
            intro siteParent site siteOccurs atSite inSite
            rcases siteOccurs.eq_or_deeper with ⟨_, rfl⟩ | ⟨other, otherListed, siteDeeper⟩
            · exact here atSite
            · have together : oldChild = other := eq_of_common_id (childValues_nodup distinct)
                oldListed otherListed oldOccurs.id_mem (siteDeeper.sublist_nodeIds.subset inSite)
              subst together
              exact apart siteParent site siteDeeper atSite inSite
          · exact Or.inr ⟨siteParent, site, .deeper oldListed siteOccurs, atSite, inSite⟩

end SharedDocument.DataValue
