import SharedDocument.Proofs.Merge.Node

/-! What two concurrent edits of an array leave of it. What is left of an edit after the other one still
concerns the child that the edit concerned, and it is dropped only where the other edit took that
child away or where nothing is left to do. So children and created values are neither lost nor
duplicated, and children that neither edit concerns keep their order. -/

namespace SharedDocument.ArrayEdit

def touched (children : List DataValue) : ArrayEdit → List DataValue
  | .insert _ _ => []
  | .remove index => children[index.val]?.toList
  | .replace index _ => children[index.val]?.toList
  | .move source _ => children[source.val]?.toList

def ReplaceTogether : ArrayEdit → ArrayEdit → Prop
  | .replace index _, .replace other _ => index = other
  | _, _ => False

/-- An array with two concurrent edits. Of two replacements of one child the server's counts. -/
structure Merges (children : List DataValue) (server client : ArrayEdit) (merged : List DataValue) :
    Prop where
  distinct : (merged.map DataValue.id).Nodup
  mem_iff : ∀ child, child ∈ merged ↔
    (child ∈ children ∧ child ∉ server.discarded children ∧ child ∉ client.discarded children) ∨
      child ∈ server.values ∨ (child ∈ client.values ∧ ¬ server.ReplaceTogether client)
  /-- Children that neither edit touches keep their order. -/
  order : (children.filter fun child => child.id ∉
    (server.touched children ++ client.touched children).map DataValue.id).Sublist merged
  /-- Of two elements inserted at one index the server's comes directly before the client's. -/
  adjacent : ∀ index serverValue clientValue, server = .insert index serverValue →
    client = .insert index clientValue → [serverValue, clientValue] <:+: merged

/-! One edit. -/

section

variable {α : Type} {items : List α} {keeps : α → Bool} {index : Nat}

theorem filter_insertIdx {value : α} (left : keeps value = false) :
    (items.insertIdx index value).filter keeps = items.filter keeps := by
  induction items generalizing index with
  | nil => cases index <;> simp [left]
  | cons item rest ih =>
      cases index with
      | zero => simp [left]
      | succ index => simp [List.filter_cons, ih]

theorem filter_eraseIdx (left : ∀ item ∈ items[index]?, keeps item = false) :
    (items.eraseIdx index).filter keeps = items.filter keeps := by
  induction items generalizing index with
  | nil => rfl
  | cons item rest ih =>
      cases index with
      | zero => simp [left item rfl]
      | succ index => simp [List.filter_cons, ih left]

theorem infix_insertIdx_insertIdx (inside : index ≤ items.length) (first second : α) :
    [first, second] <:+: (items.insertIdx index first).insertIdx (index + 1) second := by
  induction items generalizing index with
  | nil =>
      obtain rfl := Nat.le_zero.mp inside
      exact ⟨[], [], rfl⟩
  | cons item rest ih =>
      cases index with
      | zero => exact ⟨[], item :: rest, rfl⟩
      | succ index => exact List.infix_cons (ih (Nat.le_of_succ_le_succ inside))

end

variable {children : List DataValue} {edit server client : ArrayEdit}

/-- What an edit does not touch and does not create stands in its old order. -/
theorem filter_applyTo {keeps : DataValue → Bool} (fits : edit.Fits children.length)
    (touchedLeft : ∀ child ∈ edit.touched children, keeps child = false)
    (valuesLeft : ∀ value ∈ edit.values, keeps value = false) :
    (edit.applyTo children).filter keeps = children.filter keeps := by
  cases edit with
  | insert index value => exact filter_insertIdx (valuesLeft value List.mem_cons_self)
  | remove index =>
      exact filter_eraseIdx fun child found => touchedLeft child (Option.mem_toList.mpr found)
  | replace index value =>
      rw [applyTo, ← insertIdx_eraseIdx_same value fits,
        filter_insertIdx (valuesLeft value List.mem_cons_self)]
      exact filter_eraseIdx fun child found => touchedLeft child (Option.mem_toList.mpr found)
  | move source target =>
      have found := List.getElem?_eq_getElem fits.1
      rw [applyTo_move found, filter_insertIdx (touchedLeft _ (Option.mem_toList.mpr found))]
      exact filter_eraseIdx fun child found => touchedLeft child (Option.mem_toList.mpr found)

theorem nodup_applyTo (fits : edit.Fits children.length)
    (distinct : ((edit.values ++ children).map DataValue.id).Nodup) :
    ((edit.applyTo children).map DataValue.id).Nodup := by
  have both := ((applyTo_perm fits).map DataValue.id).nodup_iff.mpr distinct
  rw [List.map_append] at both
  exact (List.nodup_append'.mp both).1

theorem mem_applyTo_iff (fits : edit.Fits children.length)
    (distinct : ((edit.values ++ children).map DataValue.id).Nodup) (child : DataValue) :
    child ∈ edit.applyTo children ↔
      (child ∈ edit.values ∨ child ∈ children) ∧ child ∉ edit.discarded children := by
  have both := (applyTo_perm fits).nodup_iff.mpr (distinct.of_map _)
  have same := (applyTo_perm fits).mem_iff (a := child)
  rw [List.mem_append, List.mem_append] at same
  rw [← same]
  constructor
  · exact fun listed => ⟨Or.inl listed, (List.nodup_append'.mp both).2.2 listed⟩
  · exact fun both => both.1.resolve_right both.2

/-! What is left of an edit after another one. -/

/-- What is left of the own edit, where the other one comes first, concerns the same child as before. It
takes a child away if the own edit would have done so, or the other one has taken that child away
already; and it writes what the own edit would have written, unless both replace one child. -/
structure Follows (children : List DataValue) (other own : ArrayEdit)
    (left : Adapted ArrayEdit) : Prop where
  touched : left.isNoOp = false → ∀ child ∈ left.change.touched (other.applyTo children),
    child ∈ own.touched children ∨ child ∈ other.values
  discarded : left.isNoOp = false → ∀ child,
    child ∈ other.discarded children ∨ child ∈ left.change.discarded (other.applyTo children) ↔
      child ∈ other.discarded children ∨ child ∈ own.discarded children
  written : left.isNoOp = false → ¬ other.ReplaceTogether own
  dropped : left.isNoOp = true → (∀ child ∈ own.discarded children, child ∈ other.discarded children) ∧
    (own.values = [] ∨ other.ReplaceTogether own)

namespace Follows

variable {other : ArrayEdit} {index newIndex source newSource target newTarget : Word}
  {value : DataValue}

theorem insert : Follows children other (.insert index value) (.keep (.insert newIndex value)) :=
  ⟨fun _ _ listed => absurd listed List.not_mem_nil, fun _ _ => Iff.rfl,
    fun _ together => by cases other <;> exact together, fun idle => by cases idle⟩

theorem remove (traced : (other.applyTo children)[newIndex.val]? = children[index.val]?) :
    Follows children other (.remove index) (.keep (.remove newIndex)) := by
  refine ⟨fun _ child listed => Or.inl ?_, fun _ child => ?_,
    fun _ together => by cases other <;> exact together, fun idle => by cases idle⟩
  · rw [ArrayEdit.touched, ← traced]
    exact listed
  · simp only [Adapted.keep, ArrayEdit.discarded, traced]

theorem replace (traced : (other.applyTo children)[newIndex.val]? = children[index.val]?)
    (apart : ¬ other.ReplaceTogether (.replace index value)) :
    Follows children other (.replace index value) (.keep (.replace newIndex value)) := by
  refine ⟨fun _ child listed => Or.inl ?_, fun _ child => ?_, fun _ => apart,
    fun idle => by cases idle⟩
  · rw [ArrayEdit.touched, ← traced]
    exact listed
  · simp only [Adapted.keep, ArrayEdit.discarded, traced]

theorem move (traced : (other.applyTo children)[newSource.val]? = children[source.val]?) :
    Follows children other (.move source target) (.keep (.move newSource newTarget)) := by
  refine ⟨fun _ child listed => Or.inl ?_, fun _ _ => Iff.rfl,
    fun _ together => by cases other <;> exact together, fun idle => by cases idle⟩
  rw [ArrayEdit.touched, ← traced]
  exact listed

/-- The new value of a child that has been removed is inserted in its place. -/
theorem reinsert :
    Follows children (.remove index) (.replace index value) (.keep (.insert index value)) := by
  refine ⟨fun _ child listed => absurd listed List.not_mem_nil, fun _ child => ?_, fun _ => id,
    fun idle => by cases idle⟩
  simp only [Adapted.keep, ArrayEdit.discarded, List.not_mem_nil, or_false, or_self]

theorem drop {new : ArrayEdit}
    (gone : ∀ child ∈ edit.discarded children, child ∈ other.discarded children)
    (nothing : edit.values = [] ∨ other.ReplaceTogether edit) :
    Follows children other edit (.drop new) :=
  ⟨(fun live => by cases live), (fun live => by cases live), (fun live => by cases live),
    fun _ => ⟨gone, nothing⟩⟩

end Follows

section

variable {serverIndex clientIndex source target : Word} {serverValue clientValue : DataValue}
  {outcome : Outcome ArrayEdit}

theorem val_plusIf? {word next : Word} {condition : Bool} {inserted : Nat}
    (succeeds : word.plusIf? condition = .ok next)
    (pushes : condition = true ↔ inserted ≤ word.val) : next.val = pushed inserted word.val := by
  unfold Word.plusIf? at succeeds
  unfold pushed
  split at succeeds
  · rename_i up
    rw [if_pos (pushes.mp up)]
    exact (Word.plus?_eq_ok_iff _ _ _).mp succeeds
  · rename_i still
    rw [if_neg (mt pushes.mpr still)]
    cases succeeds
    rfl

theorem val_minusIf? {word next : Word} {condition : Bool} {removed : Nat}
    (succeeds : word.minusIf? condition = .ok next)
    (pulls : condition = true ↔ removed < word.val) : next.val = pulled removed word.val := by
  obtain ⟨found, same, value⟩ := minusIf?_pulled word removed pulls
  rw [succeeds] at same
  cases same
  exact value

theorem insertInsert_follows
    (succeeds : insertInsert serverIndex serverValue clientIndex clientValue = .ok outcome) :
    Follows children (.insert serverIndex serverValue) (.insert clientIndex clientValue)
      outcome.client := by
  unfold insertInsert at succeeds
  split at succeeds <;> obtain ⟨shifted, -, same⟩ := Fallible.bind_eq_ok_iff.mp succeeds <;>
    cases same <;> exact .insert

theorem insertRemove_follows
    (succeeds : insertRemove serverIndex serverValue clientIndex = .ok outcome) :
    Follows children (.remove clientIndex) (.insert serverIndex serverValue) outcome.server ∧
      Follows children (.insert serverIndex serverValue) (.remove clientIndex) outcome.client := by
  have traced := @getElem?_insertIdx_pushed _ children serverValue serverIndex.val clientIndex.val
  unfold pushed at traced
  unfold insertRemove at succeeds
  split at succeeds
  · rename_i ordered
    rw [if_pos ordered] at traced
    obtain ⟨shifted, exactly, same⟩ := Fallible.bind_eq_ok_iff.mp succeeds
    cases same
    rw [← (Word.plus?_eq_ok_iff _ _ _).mp exactly] at traced
    exact ⟨.insert, .remove traced⟩
  · rename_i ordered
    rw [if_neg ordered] at traced
    obtain ⟨shifted, -, same⟩ := Fallible.bind_eq_ok_iff.mp succeeds
    cases same
    exact ⟨.insert, .remove traced⟩

theorem insertReplace_follows
    (succeeds : insertReplace serverIndex serverValue clientIndex clientValue = .ok outcome) :
    Follows children (.replace clientIndex clientValue) (.insert serverIndex serverValue)
        outcome.server ∧
      Follows children (.insert serverIndex serverValue) (.replace clientIndex clientValue)
        outcome.client := by
  have traced := @getElem?_insertIdx_pushed _ children serverValue serverIndex.val clientIndex.val
  unfold pushed at traced
  unfold insertReplace at succeeds
  split at succeeds
  · rename_i ordered
    rw [if_pos ordered] at traced
    obtain ⟨shifted, exactly, same⟩ := Fallible.bind_eq_ok_iff.mp succeeds
    cases same
    rw [← (Word.plus?_eq_ok_iff _ _ _).mp exactly] at traced
    exact ⟨.insert, .replace traced id⟩
  · rename_i ordered
    rw [if_neg ordered] at traced
    cases succeeds
    exact ⟨.insert, .replace traced id⟩

theorem insertMove_follows
    (succeeds : insertMove serverIndex serverValue source target = .ok outcome) :
    Follows children (.move source target) (.insert serverIndex serverValue) outcome.server ∧
      Follows children (.insert serverIndex serverValue) (.move source target) outcome.client := by
  simp only [insertMove, Fallible.bind_eq_ok_iff] at succeeds
  obtain ⟨gap, -, newSource, exactly, succeeds⟩ := succeeds
  have traced := @getElem?_insertIdx_pushed _ children serverValue serverIndex.val source.val
  rw [← val_plusIf? exactly decide_eq_true_iff] at traced
  split at succeeds <;> split at succeeds <;>
    obtain ⟨shifted, -, same⟩ := Fallible.bind_eq_ok_iff.mp succeeds <;> cases same <;>
    exact ⟨.insert, .move traced⟩

theorem removeRemove_follows
    (succeeds : removeRemove serverIndex clientIndex = .ok outcome) :
    Follows children (.remove serverIndex) (.remove clientIndex) outcome.client := by
  unfold removeRemove at succeeds
  split at succeeds
  · rename_i together
    cases succeeds
    exact .drop (fun child gone => together ▸ gone) (Or.inl rfl)
  · rename_i apart
    have different : serverIndex.val ≠ clientIndex.val := fun same => apart (Word.ext_val same)
    have traced := @getElem?_eraseIdx_pulled _ children _ _ different
    unfold pulled at traced
    split at succeeds
    · rename_i ordered
      rw [if_pos ordered] at traced
      obtain ⟨shifted, exactly, same⟩ := Fallible.bind_eq_ok_iff.mp succeeds
      obtain ⟨-, rfl⟩ := (Word.minus?_eq_ok_iff _ _ _).mp exactly
      cases same
      exact .remove traced
    · rename_i ordered
      rw [if_neg ordered] at traced
      obtain ⟨shifted, -, same⟩ := Fallible.bind_eq_ok_iff.mp succeeds
      cases same
      exact .remove traced

theorem removeReplace_follows
    (succeeds : removeReplace serverIndex clientIndex clientValue = .ok outcome) :
    Follows children (.replace clientIndex clientValue) (.remove serverIndex) outcome.server ∧
      Follows children (.remove serverIndex) (.replace clientIndex clientValue)
        outcome.client := by
  unfold removeReplace at succeeds
  split at succeeds
  · rename_i together
    subst together
    cases succeeds
    exact ⟨.drop (fun child gone => gone) (Or.inl rfl), .reinsert⟩
  · rename_i apart
    have different : serverIndex.val ≠ clientIndex.val := fun same => apart (Word.ext_val same)
    have traced := @getElem?_eraseIdx_pulled _ children _ _ different
    have still : (applyTo children (.replace clientIndex clientValue))[serverIndex.val]? =
        children[serverIndex.val]? := List.getElem?_set_ne (Ne.symm different)
    unfold pulled at traced
    split at succeeds
    · rename_i ordered
      rw [if_pos ordered] at traced
      obtain ⟨shifted, exactly, same⟩ := Fallible.bind_eq_ok_iff.mp succeeds
      obtain ⟨-, rfl⟩ := (Word.minus?_eq_ok_iff _ _ _).mp exactly
      cases same
      exact ⟨.remove still, .replace traced id⟩
    · rename_i ordered
      rw [if_neg ordered] at traced
      cases succeeds
      exact ⟨.remove still, .replace traced id⟩

theorem replaceReplace_follows :
    Follows children (.replace serverIndex serverValue) (.replace clientIndex clientValue)
      (replaceReplace serverIndex serverValue clientIndex clientValue).client := by
  unfold replaceReplace
  split
  · rename_i together
    have gone : ∀ child ∈ discarded children (.replace clientIndex clientValue),
        child ∈ discarded children (.replace serverIndex serverValue) :=
      fun child gone => together ▸ gone
    unfold Outcome.writeConflict
    split <;> exact .drop gone (Or.inr together)
  · rename_i apart
    have different : serverIndex.val ≠ clientIndex.val := fun same => apart (Word.ext_val same)
    exact .replace (List.getElem?_set_ne different) apart

theorem removeMove_follows (sourceFits : source.val < children.length)
    (targetFits : target.val < children.length)
    (succeeds : removeMove serverIndex source target = .ok outcome) :
    Follows children (.move source target) (.remove serverIndex) outcome.server ∧
      Follows children (.remove serverIndex) (.move source target) outcome.client := by
  have alone := List.length_eraseIdx_of_lt sourceFits
  have moved := applyTo_move (List.getElem?_eq_getElem sourceFits) target
  unfold removeMove at succeeds
  split at succeeds
  · rename_i together
    subst together
    cases succeeds
    refine ⟨.remove ?_, .drop (fun child gone => absurd gone List.not_mem_nil) (Or.inl rfl)⟩
    rw [moved, List.getElem?_insertIdx_self, if_pos (by omega), List.getElem?_eq_getElem sourceFits]
  · rename_i apart
    have different : serverIndex.val ≠ source.val := fun same => apart (Word.ext_val same)
    simp only [Fallible.bind_eq_ok_iff, Fallible.pure_eq_ok_iff] at succeeds
    obtain ⟨gap, gapExactly, newSource, sourceExactly, newTarget, -, newIndex, indexExactly, rfl⟩ :=
      succeeds
    have gapVal := val_minusIf? gapExactly
      (show decide (source.val ≤ serverIndex.val) = true ↔ source.val < serverIndex.val by
        simp; omega)
    refine ⟨.remove ?_, .move ?_⟩
    · rw [moved, val_plusIf? indexExactly decide_eq_true_iff, getElem?_insertIdx_pushed, gapVal,
        getElem?_eraseIdx_pulled (Ne.symm different)]
    · rw [val_minusIf? sourceExactly decide_eq_true_iff]
      exact getElem?_eraseIdx_pulled different

theorem replaceMove_follows (sourceFits : source.val < children.length)
    (targetFits : target.val < children.length) :
    Follows children (.move source target) (.replace serverIndex serverValue)
        (replaceMove serverIndex serverValue source target).server ∧
      Follows children (.replace serverIndex serverValue) (.move source target)
        (replaceMove serverIndex serverValue source target).client := by
  have alone := List.length_eraseIdx_of_lt sourceFits
  have moved := applyTo_move (List.getElem?_eq_getElem sourceFits) target
  by_cases together : serverIndex.val = source.val
  · constructor
    · refine .replace ?_ id
      rw [moved, val_afterMove, if_pos together, List.getElem?_insertIdx_self, if_pos (by omega),
        together, List.getElem?_eq_getElem sourceFits]
    · refine ⟨fun _ child listed => Or.inr ?_, fun _ _ => Iff.rfl, fun _ => id,
        fun idle => by cases idle⟩
      have stands : (children.set serverIndex.val serverValue)[source.val]? = some serverValue := by
        rw [together, List.getElem?_set_self sourceFits]
      change child ∈ (children.set serverIndex.val serverValue)[source.val]?.toList at listed
      rwa [stands] at listed
  · constructor
    · refine .replace ?_ id
      rw [moved, val_afterMove, if_neg together, getElem?_insertIdx_pushed,
        getElem?_eraseIdx_pulled (Ne.symm together)]
    · exact .move (List.getElem?_set_ne together)

theorem moveMove_follows {serverSource serverTarget clientSource clientTarget : Word}
    (serverSourceFits : serverSource.val < children.length)
    (succeeds : moveMove serverSource serverTarget clientSource clientTarget = .ok outcome) :
    Follows children (.move serverSource serverTarget) (.move clientSource clientTarget)
      outcome.client := by
  have nothing : ∀ child ∈ discarded children (.move clientSource clientTarget),
      child ∈ discarded children (.move serverSource serverTarget) :=
    fun child gone => absurd gone List.not_mem_nil
  unfold moveMove at succeeds
  split at succeeds
  · split at succeeds <;> cases succeeds <;> exact .drop nothing (Or.inl rfl)
  · rename_i apart
    have different : serverSource.val ≠ clientSource.val := fun same => apart (Word.ext_val same)
    simp only [Fallible.bind_eq_ok_iff, Fallible.pure_eq_ok_iff] at succeeds
    obtain ⟨clientAlone, aloneExactly, _, -, _, -, _, -, _, -, _, -, newSource, sourceExactly, _, -,
      rfl⟩ := succeeds
    refine .move ?_
    rw [applyTo_move (List.getElem?_eq_getElem serverSourceFits),
      val_plusIf? sourceExactly decide_eq_true_iff, getElem?_insertIdx_pushed,
      val_minusIf? aloneExactly decide_eq_true_iff, getElem?_eraseIdx_pulled different]

end

theorem transform_follows (serverFits : server.Fits children.length)
    (clientFits : client.Fits children.length) {outcome : Outcome ArrayEdit}
    (succeeds : server.transform client = .ok outcome) :
    Follows children server client outcome.client := by
  cases server with
  | insert serverIndex serverValue =>
      cases client with
      | insert clientIndex clientValue => exact insertInsert_follows succeeds
      | remove clientIndex => exact (insertRemove_follows succeeds).2
      | replace clientIndex clientValue => exact (insertReplace_follows succeeds).2
      | move source target => exact (insertMove_follows succeeds).2
  | remove serverIndex =>
      cases client with
      | insert clientIndex clientValue =>
          obtain ⟨reverse, found, rfl⟩ := Fallible.map_eq_ok_iff.mp succeeds
          exact (insertRemove_follows found).1
      | remove clientIndex => exact removeRemove_follows succeeds
      | replace clientIndex clientValue => exact (removeReplace_follows succeeds).2
      | move source target => exact (removeMove_follows clientFits.1 clientFits.2 succeeds).2
  | replace serverIndex serverValue =>
      cases client with
      | insert clientIndex clientValue =>
          obtain ⟨reverse, found, rfl⟩ := Fallible.map_eq_ok_iff.mp succeeds
          exact (insertReplace_follows found).1
      | remove clientIndex =>
          obtain ⟨reverse, found, rfl⟩ := Fallible.map_eq_ok_iff.mp succeeds
          exact (removeReplace_follows found).1
      | replace clientIndex clientValue =>
          cases succeeds
          exact replaceReplace_follows
      | move source target =>
          cases succeeds
          exact (replaceMove_follows clientFits.1 clientFits.2).2
  | move serverSource serverTarget =>
      cases client with
      | insert clientIndex clientValue =>
          obtain ⟨reverse, found, rfl⟩ := Fallible.map_eq_ok_iff.mp succeeds
          exact (insertMove_follows found).1
      | remove clientIndex =>
          obtain ⟨reverse, found, rfl⟩ := Fallible.map_eq_ok_iff.mp succeeds
          exact (removeMove_follows serverFits.1 serverFits.2 found).1
      | replace clientIndex clientValue =>
          cases succeeds
          exact (replaceMove_follows serverFits.1 serverFits.2).1
      | move source target => exact moveMove_follows serverFits.1 succeeds

/-! The merged array. -/

theorem mem_children_of_discarded {child : DataValue} (gone : child ∈ edit.discarded children) :
    child ∈ children :=
  @Change.mem_discarded (.array edit) (.array default children) child gone

section

variable (serverFits : server.Fits children.length)
  (distinct : ((server.values ++ client.values ++ children).map DataValue.id).Nodup)

include distinct

theorem distinct_server : ((server.values ++ children).map DataValue.id).Nodup :=
  distinct.sublist (((List.sublist_append_left _ _).append (.refl children)).map _)

include serverFits

theorem distinct_client_after :
    ((client.values ++ server.applyTo children).map DataValue.id).Nodup := by
  have created : (client.values ++ (server.applyTo children ++ server.discarded children)).Perm
      (server.values ++ client.values ++ children) := by
    refine ((applyTo_perm serverFits).append_left client.values).trans ?_
    rw [← List.append_assoc]
    exact List.perm_append_comm.append_right children
  refine ((created.map DataValue.id).nodup_iff.mpr distinct).sublist (List.Sublist.map _ ?_)
  exact (List.Sublist.refl client.values).append (List.sublist_append_left _ _)

variable {left : Adapted ArrayEdit} (values : left.change.values = client.values)
  (fits : left.isNoOp = false → left.change.Fits (server.applyTo children).length)

include values fits

theorem nodup_run :
    ((left.run (fun edit children => edit.applyTo children) (server.applyTo children)).map
      DataValue.id).Nodup := by
  unfold Adapted.run
  split
  · exact nodup_applyTo serverFits (distinct_server distinct)
  · rename_i live
    refine nodup_applyTo (fits (Bool.eq_false_iff.mpr live)) ?_
    rw [values]
    exact distinct_client_after serverFits distinct

variable (follows : Follows children server client left)

include follows

theorem mem_run_iff (child : DataValue) :
    child ∈ left.run (fun edit children => edit.applyTo children) (server.applyTo children) ↔
      (child ∈ children ∧ child ∉ server.discarded children ∧ child ∉ client.discarded children) ∨
        child ∈ server.values ∨ (child ∈ client.values ∧ ¬ server.ReplaceTogether client) := by
  have after := mem_applyTo_iff serverFits (distinct_server distinct) child
  have serverOld := @mem_children_of_discarded children server child
  have clientOld := @mem_children_of_discarded children client child
  have isNew : child ∈ server.values ++ client.values → child ∉ children :=
    fun created old => (List.nodup_append'.mp (distinct.of_map _)).2.2 created old
  rw [List.mem_append] at isNew
  unfold Adapted.run
  split
  · rename_i idle
    obtain ⟨gone, nothing⟩ := follows.dropped idle
    have lost := gone child
    have unwritten : ¬ (child ∈ client.values ∧ ¬ server.ReplaceTogether client) := by
      rintro ⟨written, apart⟩
      rw [nothing.resolve_right apart] at written
      exact List.not_mem_nil written
    rw [after]
    grind
  · rename_i busy
    have live : left.isNoOp = false := Bool.eq_false_iff.mpr busy
    have same := follows.discarded live child
    have apart := follows.written live
    rw [mem_applyTo_iff (fits live) (values ▸ distinct_client_after serverFits distinct), values, after]
    grind

theorem order_run :
    (children.filter fun child => child.id ∉
      (server.touched children ++ client.touched children).map DataValue.id).Sublist
        (left.run (fun edit children => edit.applyTo children) (server.applyTo children)) := by
  -- Created values are left out too, so that the filter sees the same children after each edit.
  let keeps (child : DataValue) : Bool := child.id ∉
    (server.touched children ++ client.touched children).map DataValue.id ∧
      child.id ∉ (server.values ++ client.values).map DataValue.id
  have untouched : children.filter (fun child => child.id ∉
      (server.touched children ++ client.touched children).map DataValue.id) =
        children.filter keeps := by
    refine List.filter_congr fun child listed => ?_
    have isOld : child.id ∉ (server.values ++ client.values).map DataValue.id := by
      rw [List.map_append] at distinct
      exact fun created => (List.nodup_append'.mp distinct).2.2 created (List.mem_map_of_mem listed)
    simp only [keeps, isOld, not_false_eq_true, and_true]
  have touchedLeft (child : DataValue)
      (listed : child ∈ server.touched children ++ client.touched children) : keeps child = false :=
    decide_eq_false fun kept => kept.1 (List.mem_map_of_mem listed)
  have createdLeft (value : DataValue) (listed : value ∈ server.values ++ client.values) :
      keeps value = false :=
    decide_eq_false fun kept => kept.2 (List.mem_map_of_mem listed)
  have afterServer : (server.applyTo children).filter keeps = children.filter keeps :=
    filter_applyTo serverFits (fun child listed => touchedLeft child (List.mem_append_left _ listed))
      fun value listed => createdLeft value (List.mem_append_left _ listed)
  rw [untouched, ← afterServer]
  unfold Adapted.run
  split
  · exact List.filter_sublist
  · rename_i busy
    have live : left.isNoOp = false := Bool.eq_false_iff.mpr busy
    have afterBoth : (left.change.applyTo (server.applyTo children)).filter keeps =
        (server.applyTo children).filter keeps := by
      refine filter_applyTo (fits live) (fun child listed => ?_) fun value listed => ?_
      · rcases follows.touched live child listed with old | created
        · exact touchedLeft child (List.mem_append_right _ old)
        · exact createdLeft child (List.mem_append_left _ created)
      · exact createdLeft value (List.mem_append_right _ (values ▸ listed))
    rw [← afterBoth]
    exact List.filter_sublist

end

section

variable (serverFits : server.Fits children.length)
  {outcome : Outcome ArrayEdit} (succeeds : server.transform client = .ok outcome)

include serverFits succeeds

theorem adjacent_of_insertions {index : Word} {serverValue clientValue : DataValue}
    (isServer : server = .insert index serverValue) (isClient : client = .insert index clientValue) :
    [serverValue, clientValue] <:+:
      outcome.client.run (fun edit children => edit.applyTo children) (server.applyTo children) := by
  subst isServer isClient
  simp only [transform, insertInsert, if_pos (Nat.le_refl index.val), Fallible.bind_eq_ok_iff,
    Fallible.pure_eq_ok_iff] at succeeds
  obtain ⟨shifted, exactly, rfl⟩ := succeeds
  have next := (Word.plus?_eq_ok_iff _ _ _).mp exactly
  simp only [Outcome.keepBoth, Adapted.run_keep, applyTo, next]
  exact infix_insertIdx_insertIdx serverFits serverValue clientValue

end

theorem merges_run (serverFits : server.Fits children.length)
    (clientFits : client.Fits children.length)
    (distinct : ((server.values ++ client.values ++ children).map DataValue.id).Nodup)
    {outcome : Outcome ArrayEdit} (succeeds : server.transform client = .ok outcome)
    (meets : Meets children server client outcome) :
    Merges children server client
      (outcome.client.run (fun edit children => edit.applyTo children)
        (server.applyTo children)) := by
  have follows := transform_follows serverFits clientFits succeeds
  have values := (transform_keepValues server client outcome succeeds).2
  exact ⟨nodup_run serverFits distinct values meets.clientFits,
    mem_run_iff serverFits distinct values meets.clientFits follows,
    order_run serverFits distinct values meets.clientFits follows,
    fun _ _ _ => adjacent_of_insertions serverFits succeeds⟩

end SharedDocument.ArrayEdit

namespace SharedDocument

theorem DataValue.map_id_sublist (values : List DataValue) :
    (values.map DataValue.id).Sublist (values.flatMap nodeIds) := by
  induction values with
  | nil => exact .slnil
  | cons value rest ih =>
      rw [List.map_cons, List.flatMap_cons, nodeIds_eq]
      exact (ih.trans (List.sublist_append_right _ _)).cons_cons _

theorem Change.Suits.distinct {server client : ArrayEdit} {id : NodeId} {children : List DataValue}
    (serverSuits : (Change.array server).Suits (.array id children))
    (clientSuits : (Change.array client).Suits (.array id children))
    (apart : (Change.array server).Apart (.array client))
    (proper : (DataValue.array id children).Proper) :
    ((server.values ++ client.values ++ children).map DataValue.id).Nodup := by
  have below : (id :: children.flatMap DataValue.nodeIds).Nodup :=
    DataValue.nodeIds_eq (.array id children) ▸ proper.distinct
  have old {change : Change} (suits : change.Suits (.array id children)) :
      List.Disjoint change.createdIds (children.flatMap DataValue.nodeIds) :=
    fun node created stored => suits.new node created
      (DataValue.nodeIds_eq (.array id children) ▸ List.mem_cons_of_mem _ stored)
  refine List.Nodup.sublist (DataValue.map_id_sublist _) ?_
  rw [List.flatMap_append, List.flatMap_append, List.nodup_append', List.nodup_append',
    List.disjoint_append_left]
  exact ⟨⟨serverSuits.created, clientSuits.created, apart⟩, below.of_cons,
    old serverSuits, old clientSuits⟩

namespace Document

/-- Two edits of an array that is not too long for one more element merge to an array with both. -/
theorem array_mergesTo {document : Document} (reachable : document.Reachable)
    (isOpen : document.isClosed = false) {id : NodeId} {children : List DataValue}
    (stored : document.dataValue id = .ok (.array id children)) {server client : ArrayEdit}
    (rivals : document.Rivals id (.array server) (.array client))
    (small : children.length < 0xFFFFFFFFFFFFFFFF) :
    ∃ merged, document.MergesTo id (.array server) (.array client) (.array id merged) ∧
      server.Merges children client merged := by
  obtain ⟨proper, serverSuits, clientSuits⟩ := rivals.suits reachable isOpen stored
  have distinct := serverSuits.distinct clientSuits rivals.apart proper
  obtain ⟨outcome, transformed, meets⟩ := ArrayEdit.transform_meets (Nat.succ_lt_succ small)
    serverSuits.fits clientSuits.fits rivals.apart.unequal
  refine ⟨_, ?_, ArrayEdit.merges_run serverSuits.fits clientSuits.fits distinct transformed meets⟩
  exact rivals.mergesTo_lift Change.array (DataValue.array id) reachable isOpen stored
    (by simp [DataValue.kind]) (Change.transform_array transformed) meets (fun _ _ fits => fits)
    fun _ _ => rfl

/-- Two elements between the same neighbours. -/
theorem array_mergesTo_between :
    ∃ document : Document,
      document.dataValue ⟨"list"⟩ = .ok (.array ⟨"list"⟩ [.null ⟨"first"⟩, .null ⟨"last"⟩]) ∧
      ∃ merged, document.MergesTo ⟨"list"⟩ (.array (.insert ⟨1, by decide⟩ (.null ⟨"server"⟩)))
          (.array (.insert ⟨1, by decide⟩ (.null ⟨"client"⟩))) (.array ⟨"list"⟩ merged) ∧
        ArrayEdit.Merges [.null ⟨"first"⟩, .null ⟨"last"⟩]
          (.insert ⟨1, by decide⟩ (.null ⟨"server"⟩)) (.insert ⟨1, by decide⟩ (.null ⟨"client"⟩))
          merged := by
  have ordered : (DataValue.array ⟨"list"⟩ [.null ⟨"first"⟩, .null ⟨"last"⟩]).Ordered := by
    refine .intro trivial fun child listed => ?_
    rcases List.mem_pair.mp listed with rfl | rfl <;> exact .leaf rfl
  have reachable : Reachable ⟨⟨"list"⟩, Arena.empty.attach none
      (.array ⟨"list"⟩ [.null ⟨"first"⟩, .null ⟨"last"⟩]), .none, true, false⟩ :=
    ⟨_, _, [], ordered, rfl, by simp, rfl⟩
  have createdOrdered (id : NodeId) : (Change.array (.insert ⟨1, by decide⟩ (.null id))).Ordered := by
    simpa [Change.Ordered, Change.createdValues, ArrayEdit.values] using .leaf rfl
  have apart : ∀ id ∈ [NodeId.mk "server"], id ∉ [NodeId.mk "client"] := by decide
  have stored : dataValue ⟨⟨"list"⟩, Arena.empty.attach none
      (.array ⟨"list"⟩ [.null ⟨"first"⟩, .null ⟨"last"⟩]), .none, true, false⟩ ⟨"list"⟩ =
        .ok (.array ⟨"list"⟩ [.null ⟨"first"⟩, .null ⟨"last"⟩]) := rfl
  exact ⟨_, stored, array_mergesTo reachable rfl stored
    ⟨createdOrdered _, createdOrdered _, ⟨_, rfl⟩, ⟨_, rfl⟩, apart⟩ (by decide)⟩

end Document

end SharedDocument
