import SharedDocument.Operation
import SharedDocument.Proofs.Value.Editing

/-! Changes as plain edits of one node of a value: a text, a list, a finite map or a scalar is edited,
and created values are inserted as they are. `Fits` says when a change is meant for a node. What
a change does does not depend on what the children of the node hold. -/

namespace SharedDocument

namespace TextEdit

def applyTo (text : String) : TextEdit → String
  | .insert index value =>
      String.ofList (text.toList.take index.val ++ value.toList ++ text.toList.drop index.val)
  | .remove index length =>
      String.ofList (text.toList.take index.val ++ text.toList.drop (index.val + length.val))

/-- The edit lies within a text of the given length, and the end of a removed stretch is a word. -/
def Fits (length : Nat) : TextEdit → Prop
  | .insert index _ => index.val ≤ length
  | .remove index count =>
      index.val + count.val ≤ length ∧ index.val + count.val < 0x10000000000000000

end TextEdit

namespace ArrayEdit

def applyTo (children : List DataValue) : ArrayEdit → List DataValue
  | .insert index value => children.insertIdx index.val value
  | .remove index => children.eraseIdx index.val
  | .replace index value => children.set index.val value
  | .move source target =>
      match children[source.val]? with
      | some child => (children.eraseIdx source.val).insertIdx target.val child
      | none => children

def Fits (length : Nat) : ArrayEdit → Prop
  | .insert index _ => index.val ≤ length
  | .remove index => index.val < length
  | .replace index _ => index.val < length
  | .move source target => source.val < length ∧ target.val < length

end ArrayEdit

namespace PropertyEdit

def applyTo (children : List (String × DataValue)) : PropertyEdit → List (String × DataValue)
  | .add key value => Keyed.insert key value children
  | .set key value => Keyed.insert key value children
  | .remove key => Keyed.erase key children

def Fits (children : List (String × DataValue)) : PropertyEdit → Prop
  | .add key _ => Keyed.find? key children = none
  | .set key _ => Keyed.find? key children ≠ none
  | .remove key => Keyed.find? key children ≠ none

end PropertyEdit

def Contents.applyTo (value : DataValue) (contents : Contents) : DataValue :=
  match contents, value with
  | .string written, .string id _ => .string id written
  | .array children, .array id _ => .array id children
  | .object children, .object id _ => .object id children
  | .number written, .number id _ => .number id written
  | .boolean written, .boolean id _ => .boolean id written
  | .date written, .date id _ => .date id written
  | _, value => value

namespace Change

/-- The node after a change; a change for another kind of node leaves it alone. -/
def applyTo (change : Change) (value : DataValue) : DataValue :=
  match change, value with
  | .set contents, value => contents.applyTo value
  | .text edit, .string id stored => .string id (edit.applyTo stored)
  | .array edit, .array id children => .array id (edit.applyTo children)
  | .property edit, .object id children => .object id (edit.applyTo children)
  | .addNumber amount, .number id stored => .number id (stored + amount)
  | _, value => value

def Fits (change : Change) (value : DataValue) : Prop :=
  match change, value with
  | .set contents, value => contents.setKind.nodeKind = value.kind
  | .text edit, .string _ stored => edit.Fits stored.length
  | .array edit, .array _ children => edit.Fits children.length
  | .property edit, .object _ children => edit.Fits children
  | .addNumber _, .number _ _ => True
  | _, _ => False

def Ordered (change : Change) : Prop :=
  (∀ value ∈ change.createdValues, value.Ordered) ∧
    match change with
    | .set (.object children) => Keyed.Increasing children
    | _ => True

theorem Fits.kind {change : Change} {value : DataValue} (fits : change.Fits value) :
    value.kind = change.kind.nodeKind := by
  cases change with
  | set contents => exact fits.symm
  | text edit => cases edit <;> cases value <;> first | rfl | exact fits.elim
  | array edit => cases edit <;> cases value <;> first | rfl | exact fits.elim
  | property edit => cases edit <;> cases value <;> first | rfl | exact fits.elim
  | addNumber amount => cases value <;> first | rfl | exact fits.elim

@[simp] theorem id_applyTo (change : Change) (value : DataValue) :
    (change.applyTo value).id = value.id := by
  cases change with
  | set contents => cases contents <;> cases value <;> rfl
  | _ => cases value <;> rfl

@[simp] theorem kind_applyTo (change : Change) (value : DataValue) :
    (change.applyTo value).kind = value.kind := by
  cases change with
  | set contents => cases contents <;> cases value <;> rfl
  | _ => cases value <;> rfl

end Change

theorem ArrayEdit.mem_applyTo {edit : ArrayEdit} {children : List DataValue} {child : DataValue}
    (listed : child ∈ edit.applyTo children) : child ∈ children ∨ child ∈ edit.values := by
  cases edit with
  | insert index value =>
      rcases List.eq_or_mem_of_mem_insertIdx listed with new | old
      · exact Or.inr (List.mem_singleton.mpr new)
      · exact Or.inl old
  | remove index => exact Or.inl (List.mem_of_mem_eraseIdx listed)
  | replace index value =>
      rcases List.mem_or_eq_of_mem_set listed with old | new
      · exact Or.inl old
      · exact Or.inr (List.mem_singleton.mpr new)
  | move source target =>
      simp only [applyTo] at listed
      split at listed
      · rename_i moved found
        rcases List.eq_or_mem_of_mem_insertIdx listed with here | other
        · exact Or.inl (here ▸ List.mem_of_getElem? found)
        · exact Or.inl (List.mem_of_mem_eraseIdx other)
      · exact Or.inl listed

theorem PropertyEdit.mem_applyTo {edit : PropertyEdit} {children : List (String × DataValue)}
    {child : DataValue} (listed : child ∈ (edit.applyTo children).map Prod.snd) :
    child ∈ children.map Prod.snd ∨ child ∈ edit.values := by
  have written {key : String} {value : DataValue}
      (listed : child ∈ (Keyed.insert key value children).map Prod.snd) :
      child ∈ children.map Prod.snd ∨ child ∈ [value] := by
    obtain ⟨entry, entryListed, rfl⟩ := List.mem_map.mp listed
    rcases Keyed.mem_insert entryListed with rfl | old
    · exact Or.inr List.mem_cons_self
    · exact Or.inl (List.mem_map_of_mem old)
  cases edit with
  | add key value => exact written listed
  | set key value => exact written listed
  | remove key =>
      exact Or.inl (((Keyed.erase_sublist key children).map Prod.snd).subset listed)

namespace Change

theorem mem_childValues_applyTo {change : Change} {value child : DataValue}
    (listed : child ∈ (change.applyTo value).childValues) :
    child ∈ value.childValues ∨ child ∈ change.createdValues := by
  cases change with
  | set contents =>
      cases contents <;> cases value <;> first | exact Or.inr listed | exact Or.inl listed
  | text edit => cases value <;> exact Or.inl listed
  | array edit =>
      cases value <;> first | exact edit.mem_applyTo listed | exact Or.inl listed
  | property edit =>
      cases value <;> first | exact edit.mem_applyTo listed | exact Or.inl listed
  | addNumber amount => cases value <;> exact Or.inl listed

end Change

/-! A change and the values below its node. -/

theorem ArrayEdit.applyTo_map {edit : ArrayEdit} {transform : DataValue → DataValue}
    (fixed : ∀ created ∈ edit.values, transform created = created) (children : List DataValue) :
    edit.applyTo (children.map transform) = (edit.applyTo children).map transform := by
  cases edit with
  | insert index value =>
      have same : transform value = value := fixed value List.mem_cons_self
      simp only [applyTo, List.map_insertIdx, same]
  | remove index => exact List.eraseIdx_map transform children index.val
  | replace index value =>
      have same : transform value = value := fixed value List.mem_cons_self
      simp only [applyTo, List.map_set, same]
  | move source target =>
      simp only [applyTo, List.getElem?_map]
      cases children[source.val]? with
      | none => rfl
      | some child => simp only [Option.map_some, List.map_insertIdx, List.eraseIdx_map]

theorem PropertyEdit.applyTo_mapValues {edit : PropertyEdit} {transform : DataValue → DataValue}
    (fixed : ∀ created ∈ edit.values, transform created = created)
    (children : List (String × DataValue)) :
    edit.applyTo (Keyed.mapValues transform children) =
      Keyed.mapValues transform (edit.applyTo children) := by
  cases edit with
  | add key value =>
      have same : transform value = value := fixed value List.mem_cons_self
      simp only [applyTo, Keyed.mapValues_insert, same]
  | set key value =>
      have same : transform value = value := fixed value List.mem_cons_self
      simp only [applyTo, Keyed.mapValues_insert, same]
  | remove key => exact (Keyed.mapValues_erase transform key children).symm

theorem PropertyEdit.fits_mapValues (edit : PropertyEdit) (transform : DataValue → DataValue)
    (children : List (String × DataValue)) :
    edit.Fits (Keyed.mapValues transform children) ↔ edit.Fits children := by
  cases edit <;> simp [Fits, Keyed.find?_mapValues]

namespace Change

theorem applyTo_mapChildren {change : Change} {transform : DataValue → DataValue}
    (fixed : ∀ created ∈ change.createdValues, transform created = created) (value : DataValue) :
    change.applyTo (value.mapChildren transform) = (change.applyTo value).mapChildren transform := by
  cases change with
  | set contents =>
      have sameItems {children : List DataValue}
          (created : ∀ child ∈ children, child ∈ (Change.set contents).createdValues) :
          children.map transform = children :=
        (List.map_congr_left fun child listed => fixed child (created child listed)).trans
          (List.map_id' children)
      cases contents with
      | array children =>
          cases value <;> try rfl
          simp only [applyTo, Contents.applyTo, DataValue.mapChildren, DataValue.array.injEq, true_and]
          exact (sameItems fun child listed => listed).symm
      | object children =>
          cases value <;> try rfl
          simp only [applyTo, Contents.applyTo, DataValue.mapChildren, DataValue.object.injEq,
            true_and, Keyed.mapValues]
          symm
          calc children.map (fun entry => (entry.1, transform entry.2))
              = children.map (fun entry => entry) := by
                apply List.map_congr_left
                intro entry listed
                rw [fixed entry.2 (List.mem_map_of_mem listed)]
            _ = children := List.map_id' children
      | _ => cases value <;> rfl
  | text edit => cases value <;> rfl
  | array edit =>
      cases value <;> try rfl
      simp only [applyTo, DataValue.mapChildren, DataValue.array.injEq, true_and]
      exact edit.applyTo_map fixed _
  | property edit =>
      cases value <;> try rfl
      simp only [applyTo, DataValue.mapChildren, DataValue.object.injEq, true_and]
      exact edit.applyTo_mapValues fixed _
  | addNumber amount => cases value <;> rfl

theorem fits_mapChildren (change : Change) (transform : DataValue → DataValue) (value : DataValue) :
    change.Fits (value.mapChildren transform) ↔ change.Fits value := by
  cases change with
  | set contents => simp [Fits]
  | text edit => cases value <;> exact Iff.rfl
  | array edit => cases value <;> simp [Fits, DataValue.mapChildren]
  | property edit =>
      cases value <;> try exact Iff.rfl
      exact edit.fits_mapValues transform _
  | addNumber amount => cases value <;> exact Iff.rfl

theorem ordered_applyTo {change : Change} {value : DataValue} (ordered : value.Ordered)
    (changeOrdered : change.Ordered) : (change.applyTo value).Ordered := by
  refine .intro ?_ ?_
  · have keys := ordered.keysIncrease
    cases change with
    | set contents =>
        cases contents with
        | object children =>
            cases value <;> first | exact changeOrdered.2 | trivial
        | _ => cases value <;> exact keys
    | property edit =>
        cases value with
        | object id children =>
            cases edit with
            | add key written => exact Keyed.increasing_insert key written keys
            | set key written => exact Keyed.increasing_insert key written keys
            | remove key => exact Keyed.increasing_erase key keys
        | _ => trivial
    | _ => cases value <;> exact keys
  · intro child listed
    rcases mem_childValues_applyTo listed with old | created
    · exact ordered.child old
    · exact changeOrdered.1 child created

theorem occurs_applyTo {change : Change} {parent innerParent : Option NodeId}
    {value inner : DataValue}
    (occurs : DataValue.Occurs parent (change.applyTo value) innerParent inner) :
    (innerParent = parent ∧ inner = change.applyTo value) ∨
      (∃ child ∈ value.childValues, DataValue.Occurs (some value.id) child innerParent inner) ∨
      ∃ created ∈ change.createdValues,
        DataValue.Occurs (some value.id) created innerParent inner := by
  rcases occurs.eq_or_deeper with here | ⟨child, listed, deeper⟩
  · exact Or.inl here
  · rw [id_applyTo] at deeper
    rcases mem_childValues_applyTo listed with old | created
    · exact Or.inr (Or.inl ⟨child, old, deeper⟩)
    · exact Or.inr (Or.inr ⟨child, created, deeper⟩)

end Change

/-! What a change takes from its node. -/

def ArrayEdit.discarded (children : List DataValue) : ArrayEdit → List DataValue
  | .remove index => children[index.val]?.toList
  | .replace index _ => children[index.val]?.toList
  | _ => []

def PropertyEdit.discarded (children : List (String × DataValue)) : PropertyEdit → List DataValue
  | .add _ _ => []
  | .set key _ => (Keyed.find? key children).toList
  | .remove key => (Keyed.find? key children).toList

def Change.discarded (change : Change) (value : DataValue) : List DataValue :=
  match change, value with
  | .set _, value => value.childValues
  | .array edit, .array _ children => edit.discarded children
  | .property edit, .object _ children => edit.discarded children
  | _, _ => []

theorem ArrayEdit.applyTo_perm {edit : ArrayEdit} {children : List DataValue}
    (fits : edit.Fits children.length) :
    (edit.applyTo children ++ edit.discarded children).Perm (edit.values ++ children) := by
  cases edit with
  | insert index value =>
      simp only [applyTo, discarded, values, List.append_nil]
      exact List.perm_insertIdx value children fits
  | remove index =>
      simp only [applyTo, discarded, values, List.getElem?_eq_getElem fits]
      exact List.perm_append_comm.trans (List.getElem_cons_eraseIdx_perm fits)
  | replace index value =>
      simp only [applyTo, discarded, values, List.getElem?_eq_getElem fits]
      have written : (children.set index.val value).Perm (value :: children.eraseIdx index.val) := by
        have erased := List.getElem_cons_eraseIdx_perm
          (l := children.set index.val value) (n := index.val) (by rwa [List.length_set])
        rw [List.getElem_set_self, List.eraseIdx_set_eq] at erased
        exact erased.symm
      have stored := List.getElem_cons_eraseIdx_perm fits
      exact List.perm_append_comm.trans
        ((written.cons _).trans ((List.Perm.swap _ _ _).trans (stored.cons value)))
  | move source target =>
      obtain ⟨sourceFits, targetFits⟩ := fits
      simp only [applyTo, discarded, values, List.getElem?_eq_getElem sourceFits, List.append_nil]
      have shorter : target.val ≤ (children.eraseIdx source.val).length := by
        rw [List.length_eraseIdx_of_lt sourceFits]
        omega
      exact (List.perm_insertIdx _ _ shorter).trans (List.getElem_cons_eraseIdx_perm sourceFits)

theorem PropertyEdit.applyTo_perm {edit : PropertyEdit} {children : List (String × DataValue)}
    (keys : Keyed.Increasing children) (fits : edit.Fits children) :
    ((edit.applyTo children).map Prod.snd ++ edit.discarded children).Perm
      (edit.values ++ children.map Prod.snd) := by
  cases edit with
  | add key value =>
      have written := Keyed.perm_insert key value keys
      rw [Keyed.erase_of_find?_eq_none fits] at written
      simp only [applyTo, discarded, values, List.append_nil]
      exact written.map Prod.snd
  | set key value =>
      obtain ⟨old, found⟩ := Option.ne_none_iff_exists'.mp fits
      have written := (Keyed.perm_insert key value keys).map Prod.snd
      have stored := (Keyed.perm_erase keys found).map Prod.snd
      simp only [applyTo, discarded, values, found]
      exact List.perm_append_comm.trans
        ((written.cons old).trans ((List.Perm.swap _ _ _).trans (stored.symm.cons value)))
  | remove key =>
      obtain ⟨old, found⟩ := Option.ne_none_iff_exists'.mp fits
      simp only [applyTo, discarded, values, found]
      exact List.perm_append_comm.trans ((Keyed.perm_erase keys found).map Prod.snd).symm

theorem Change.childValues_perm {change : Change} {value : DataValue} (fits : change.Fits value)
    (keys : value.KeysIncrease) :
    ((change.applyTo value).childValues ++ change.discarded value).Perm
      (change.createdValues ++ value.childValues) := by
  cases change with
  | set contents =>
      cases contents <;> cases value <;>
        first
        | exact List.Perm.refl _
        | simp [Fits, Contents.setKind, OperationKind.nodeKind, DataValue.kind] at fits
  | text edit => cases value <;> first | exact List.Perm.refl _ | exact fits.elim
  | array edit =>
      cases value <;> first | exact edit.applyTo_perm fits | exact fits.elim
  | property edit =>
      cases value <;> first | exact edit.applyTo_perm keys fits | exact fits.elim
  | addNumber amount => cases value <;> first | exact List.Perm.refl _ | exact fits.elim

namespace Change

theorem mem_discarded {change : Change} {value child : DataValue}
    (listed : child ∈ change.discarded value) : child ∈ value.childValues := by
  cases change with
  | set contents => exact listed
  | array edit =>
      cases value with
      | array id children =>
          cases edit with
          | remove index => exact List.mem_of_getElem? (Option.mem_toList.mp listed)
          | replace index value => exact List.mem_of_getElem? (Option.mem_toList.mp listed)
          | _ => exact absurd listed List.not_mem_nil
      | _ => exact absurd listed List.not_mem_nil
  | property edit =>
      cases value with
      | object id children =>
          cases edit with
          | add key value => exact absurd listed List.not_mem_nil
          | _ => exact List.mem_map_of_mem (Keyed.mem_of_find? (Option.mem_toList.mp listed))
      | _ => exact absurd listed List.not_mem_nil
  | _ => cases value <;> exact absurd listed List.not_mem_nil

section

variable {change : Change} {parent innerParent : Option NodeId} {value inner : DataValue}
  (distinct : value.nodeIds.Nodup) (occurs : DataValue.Occurs parent value innerParent inner)

include distinct occurs

theorem discardedIds_subset {id : NodeId}
    (listed : id ∈ (change.discarded inner).flatMap DataValue.nodeIds) :
    id ∈ inner.nodeIds ∧ id ≠ inner.id := by
  obtain ⟨child, isGone, inChild⟩ := List.mem_flatMap.mp listed
  have below := mem_discarded isGone
  refine ⟨(DataValue.sublist_nodeIds_of_child below).subset inChild, ?_⟩
  rintro rfl
  exact DataValue.id_notMem_child (distinct.sublist occurs.sublist_nodeIds) below inChild

variable (keys : inner.KeysIncrease) (fits : change.Fits inner)

include keys fits

/-- The edited value has the old ids and the created ones, without those that the change discards. -/
theorem nodeIds_editAt_perm :
    ((value.editAt inner.id change.applyTo).nodeIds ++
        (change.discarded inner).flatMap DataValue.nodeIds).Perm
      (change.createdIds ++ value.nodeIds) := by
  obtain ⟨others, oldPerm, editedPerm⟩ :=
    DataValue.exists_nodeIds_editAt_perm distinct occurs rfl
  have edited := editedPerm change.applyTo
  have below := (childValues_perm fits keys).flatMap_right DataValue.nodeIds
  rw [List.flatMap_append, List.flatMap_append] at below
  rw [DataValue.nodeIds_eq inner] at oldPerm
  rw [DataValue.nodeIds_eq (change.applyTo inner), id_applyTo] at edited
  rw [List.perm_iff_count] at oldPerm edited below ⊢
  intro id
  have oldCount := oldPerm id
  have editedCount := edited id
  have belowCount := below id
  simp only [createdIds, List.count_append, List.count_cons, List.cons_append]
    at oldCount editedCount belowCount ⊢
  omega

variable (created : change.createdIds.Nodup) (apart : ∀ id ∈ change.createdIds, id ∉ value.nodeIds)

include created apart

theorem nodup_editAt_append :
    ((value.editAt inner.id change.applyTo).nodeIds ++
      (change.discarded inner).flatMap DataValue.nodeIds).Nodup := by
  apply (nodeIds_editAt_perm distinct occurs keys fits).symm.nodup
  exact List.nodup_append'.mpr ⟨created, distinct, fun id isNew isOld => apart id isNew isOld⟩

theorem nodup_editAt : (value.editAt inner.id change.applyTo).nodeIds.Nodup :=
  (List.nodup_append'.mp (nodup_editAt_append distinct occurs keys fits created apart)).1

theorem mem_nodeIds_editAt_iff (id : NodeId) :
    id ∈ (value.editAt inner.id change.applyTo).nodeIds ↔
      (id ∈ change.createdIds ∨ id ∈ value.nodeIds) ∧
        id ∉ (change.discarded inner).flatMap DataValue.nodeIds := by
  have both := nodup_editAt_append distinct occurs keys fits created apart
  have same := (nodeIds_editAt_perm distinct occurs keys fits).mem_iff (a := id)
  rw [List.mem_append, List.mem_append] at same
  rw [← same]
  constructor
  · intro listed
    exact ⟨Or.inl listed, fun gone => (List.nodup_append'.mp both).2.2 listed gone⟩
  · rintro ⟨listed | gone, notGone⟩
    · exact listed
    · exact absurd gone notGone

/-- A child that a changed node keeps shares no node with those that it loses. -/
theorem kept_apart {child : DataValue} (kept : child ∈ (change.applyTo inner).childValues)
    {id : NodeId} (inChild : id ∈ child.nodeIds) :
    id ∉ (change.discarded inner).flatMap DataValue.nodeIds := by
  have stands := occurs.editAt_self change.applyTo distinct
  have listed := (stands.child kept).sublist_nodeIds.subset inChild
  exact ((mem_nodeIds_editAt_iff distinct occurs keys fits created apart id).mp listed).2

end

end Change

end SharedDocument
