import SharedDocument.Proofs.Transform.Array
import SharedDocument.Proofs.Transform.Property
import SharedDocument.Proofs.Transform.Text
import SharedDocument.Transform

/-! Concurrent changes of one node. As long as the node and all that is inserted or set stay below the
largest word, every pair of changes for one kind of node has an outcome, and both orders lead to one
node. Numbers are left out: the sums of floats depend on the order. -/

namespace SharedDocument

@[simp] theorem TextEdit.nodeKind_kind (edit : TextEdit) : edit.kind.nodeKind = .string := by
  cases edit <;> rfl

@[simp] theorem ArrayEdit.nodeKind_kind (edit : ArrayEdit) : edit.kind.nodeKind = .array := by
  cases edit <;> rfl

@[simp] theorem PropertyEdit.nodeKind_kind (edit : PropertyEdit) : edit.kind.nodeKind = .object := by
  cases edit <;> rfl

@[simp] theorem OperationKind.nodeKind_numberAdd : numberAdd.nodeKind = .number := rfl

namespace DataValue

def extent : DataValue → Nat
  | .string _ value => value.length
  | .array _ children => children.length
  | _ => 0

theorem beq_eq_false_of_id_ne {left right : DataValue} (different : left.id ≠ right.id) :
    (left == right) = false := by
  change left.same right = false
  cases left <;> cases right <;>
    first
    | rfl
    | simp only [DataValue.id, ne_eq] at different
      simp [same, different]

end DataValue

namespace Change

def weight : Change → Nat
  | .set (.string value) => value.length
  | .set (.array children) => children.length
  | .text edit => edit.weight
  | .array edit => edit.values.length
  | _ => 0

def FitsExtent (extent : Nat) : Change → Prop
  | .text edit => edit.Fits extent
  | .array edit => edit.Fits extent
  | _ => True

def IsNumeric (change : Change) : Prop :=
  change.kind.nodeKind = .number

def Apart (server client : Change) : Prop :=
  ∀ id ∈ server.createdIds, id ∉ client.createdIds

theorem FitsExtent.mono {change : Change} {extent larger : Nat} (fits : change.FitsExtent extent)
    (grows : extent ≤ larger) : change.FitsExtent larger := by
  cases change with
  | text edit =>
      cases edit with
      | insert index value => exact Nat.le_trans fits grows
      | remove index length => exact ⟨Nat.le_trans fits.1 grows, fits.2⟩
  | array edit =>
      cases edit with
      | insert index value => exact Nat.le_trans fits grows
      | remove index => exact Nat.lt_of_lt_of_le fits grows
      | replace index value => exact Nat.lt_of_lt_of_le fits grows
      | move source target =>
          exact ⟨Nat.lt_of_lt_of_le fits.1 grows, Nat.lt_of_lt_of_le fits.2 grows⟩
  | _ => trivial

theorem Fits.extent {change : Change} {value : DataValue} (fits : change.Fits value) :
    change.FitsExtent value.extent := by
  cases change with
  | text edit => cases value <;> first | exact fits | exact fits.elim
  | array edit => cases value <;> first | exact fits | exact fits.elim
  | _ => trivial

theorem extent_applyTo_le (change : Change) (value : DataValue) :
    (change.applyTo value).extent ≤ value.extent + change.weight := by
  cases change with
  | set contents =>
      cases contents <;> cases value <;>
        simp [applyTo, Contents.applyTo, DataValue.extent, weight]
  | text edit =>
      cases value with
      | string id text =>
          cases edit with
          | insert index value =>
              simp only [applyTo, TextEdit.applyTo, DataValue.extent, weight, TextEdit.weight,
                String.length_ofList, List.length_append, List.length_take, List.length_drop,
                String.length_toList]
              omega
          | remove index length =>
              simp only [applyTo, TextEdit.applyTo, DataValue.extent, weight, TextEdit.weight,
                String.length_ofList, List.length_append, List.length_take, List.length_drop,
                String.length_toList]
              omega
      | _ => simp [applyTo, DataValue.extent]
  | array edit =>
      cases value with
      | array id children =>
          cases edit with
          | insert index value =>
              simp only [applyTo, ArrayEdit.applyTo, DataValue.extent, weight, ArrayEdit.values,
                List.length_singleton]
              exact List.length_insertIdx_le_succ
          | remove index =>
              exact (List.eraseIdx_sublist children index.val).length_le
          | replace index value =>
              simp [applyTo, ArrayEdit.applyTo, DataValue.extent]
          | move source target =>
              simp only [applyTo, ArrayEdit.applyTo, DataValue.extent, weight, ArrayEdit.values]
              split
              · rename_i child found
                have inside := (List.getElem?_eq_some_iff.mp found).1
                have erased := List.length_eraseIdx_of_lt inside
                have longer : ((children.eraseIdx source.val).insertIdx target.val child).length ≤
                    (children.eraseIdx source.val).length + 1 := List.length_insertIdx_le_succ
                omega
              · exact Nat.le_refl _
      | _ => simp [applyTo, DataValue.extent]
  | _ => cases value <;> simp [applyTo, DataValue.extent]

theorem Apart.unequal {server client : Change} (apart : server.Apart client) :
    ∀ value ∈ server.createdValues, ∀ other ∈ client.createdValues, (value == other) = false := by
  intro value listed other otherListed
  apply DataValue.beq_eq_false_of_id_ne
  intro same
  apply apart value.id
  · exact List.mem_flatMap.mpr ⟨value, listed, DataValue.id_mem_nodeIds value⟩
  · exact same ▸ List.mem_flatMap.mpr ⟨other, otherListed, DataValue.id_mem_nodeIds other⟩

abbrev Meets (value : DataValue) (server client : Change) (outcome : Outcome Change) : Prop :=
  outcome.Converges (fun change value => change.Fits value)
    (fun change value => change.applyTo value) value server client

section

variable {value : DataValue} {server client : Change}

theorem set_applyTo {contents : Contents} {other : DataValue}
    (fits : contents.setKind.nodeKind = value.kind) (sameKind : other.kind = value.kind)
    (sameId : other.id = value.id) : contents.applyTo other = contents.applyTo value := by
  cases contents <;> cases value <;> cases other <;>
    simp_all [Contents.applyTo, Contents.setKind, OperationKind.nodeKind, DataValue.kind,
      DataValue.id]

theorem sameItems_eq_true {left right : List DataValue}
    (unequal : ∀ value ∈ left, ∀ other ∈ right, (value == other) = false)
    (same : DataValue.sameItems left right = true) : left = right := by
  cases left with
  | nil =>
      cases right with
      | nil => rfl
      | cons other others => simp [DataValue.sameItems] at same
  | cons value values =>
      cases right with
      | nil => simp [DataValue.sameItems] at same
      | cons other others =>
          have differ : value.same other = false :=
            unequal value List.mem_cons_self other List.mem_cons_self
          simp [DataValue.sameItems, differ] at same

theorem sameMembers_eq_true {left right : List (String × DataValue)}
    (unequal : ∀ value ∈ left.map Prod.snd, ∀ other ∈ right.map Prod.snd, (value == other) = false)
    (same : DataValue.sameMembers left right = true) : left = right := by
  cases left with
  | nil =>
      cases right with
      | nil => rfl
      | cons other others => simp [DataValue.sameMembers] at same
  | cons entry entries =>
      cases right with
      | nil => simp [DataValue.sameMembers] at same
      | cons other others =>
          have differ : entry.2.same other.2 = false :=
            unequal entry.2 List.mem_cons_self other.2 List.mem_cons_self
          simp [DataValue.sameMembers, differ] at same

theorem same_contents {left right : Contents}
    (apart : Apart (.set left) (.set right)) (notNumeric : ¬ IsNumeric (.set left))
    (same : left.same right = true) : left = right := by
  have unequal := apart.unequal
  cases left with
  | string text =>
      cases right with
      | string other => exact congrArg Contents.string (by simpa [Contents.same] using same)
      | _ => simp [Contents.same] at same
  | array children =>
      cases right with
      | array others => exact congrArg Contents.array (sameItems_eq_true unequal same)
      | _ => simp [Contents.same] at same
  | object children =>
      cases right with
      | object others => exact congrArg Contents.object (sameMembers_eq_true unequal same)
      | _ => simp [Contents.same] at same
  | number written => exact absurd rfl notNumeric
  | boolean written =>
      cases right with
      | boolean other => exact congrArg Contents.boolean (by simpa [Contents.same] using same)
      | _ => simp [Contents.same] at same
  | date written =>
      cases right with
      | date other => exact congrArg Contents.date (by simpa [Contents.same] using same)
      | _ => simp [Contents.same] at same

theorem transform_text {left right : TextEdit} {outcome : Outcome TextEdit}
    (transformed : left.transform right = .ok outcome) :
    (Change.text left).transform (.text right) = .ok (some (outcome.lift .text)) := by
  simp [transform, kind, transformed, Except.map]

theorem transform_array {left right : ArrayEdit} {outcome : Outcome ArrayEdit}
    (transformed : left.transform right = .ok outcome) :
    (Change.array left).transform (.array right) = .ok (some (outcome.lift .array)) := by
  simp [transform, kind, transformed, Except.map]

theorem transform_property (left right : PropertyEdit) :
    (Change.property left).transform (.property right) =
      .ok (some ((left.transform right).lift .property)) := by
  simp [transform, kind]

/-- Setting the whole node wins over every other change of it. -/
theorem set_meets {contents : Contents} (serverFits : Change.Fits (.set contents) value) :
    Meets value (.set contents) client (.keepServer (.set contents) client) := by
  refine .keepServer ?_ ?_
  · exact serverFits.trans (kind_applyTo client value).symm
  · exact (set_applyTo serverFits (kind_applyTo client value) (id_applyTo client value)).symm

theorem setSet_meets {left right : Contents} (serverFits : Change.Fits (.set left) value)
    (apart : Apart (.set left) (.set right)) (notNumeric : ¬ IsNumeric (.set left)) :
    Meets value (.set left) (.set right)
      (.writeConflict (left.same right) (.set left) (.set right)) := by
  unfold Outcome.writeConflict
  split
  · rename_i same
    refine .dropBoth ?_
    rw [same_contents apart notNumeric same]
  · exact set_meets serverFits

theorem textText_meets (id : NodeId) {left right : TextEdit} {text : String}
    (compatible : TextEdit.Compatible text.length left right) :
    ∃ outcome, left.transform right = .ok outcome ∧
      Meets (.string id text) (.text left) (.text right) (outcome.lift .text) := by
  have letters : TextEdit.Compatible text.toList.length left right := by
    rwa [String.length_toList]
  obtain ⟨outcome, transformed, meets⟩ := TextEdit.transform_meets letters
  refine ⟨outcome, transformed, ?_⟩
  have lifted : Meets (.string id (String.ofList text.toList)) (.text left) (.text right)
      (outcome.lift .text) := by
    refine meets.lift Change.text (fun letters => DataValue.string id (String.ofList letters)) ?_ ?_
    · intro edit letters fits
      simpa [Fits] using fits
    · intro edit letters
      simp only [applyTo, edit.applyTo_ofList]
  rwa [String.ofList_toList] at lifted

theorem transform_meets (keys : value.KeysIncrease) (serverFits : server.Fits value)
    (clientFits : client.Fits value) (apart : server.Apart client)
    (serverNotNumeric : ¬ server.IsNumeric)
    (small : value.extent + server.weight + client.weight < 0xFFFFFFFFFFFFFFFF) :
    ∃ outcome, server.transform client = .ok (some outcome) ∧ Meets value server client outcome := by
  have kinds : server.kind.nodeKind = client.kind.nodeKind :=
    serverFits.kind.symm.trans clientFits.kind
  unfold transform
  rw [if_pos kinds]
  cases server with
  | set left =>
      cases client with
      | set right => exact ⟨_, rfl, setSet_meets serverFits apart serverNotNumeric⟩
      | _ => exact ⟨_, rfl, set_meets serverFits⟩
  | text left =>
      cases value with
      | string id text =>
          cases client with
          | set right => exact ⟨_, rfl, (set_meets clientFits).swap⟩
          | text right =>
              have compatible : TextEdit.Compatible text.length left right :=
                ⟨serverFits, clientFits, Nat.lt_succ_of_lt small⟩
              obtain ⟨outcome, transformed, meets⟩ := textText_meets id compatible
              exact ⟨_, by simp only [transformed]; rfl, meets⟩
          | _ => exact clientFits.elim
      | _ => exact serverFits.elim
  | array left =>
      cases value with
      | array id children =>
          cases client with
          | set right => exact ⟨_, rfl, (set_meets clientFits).swap⟩
          | array right =>
              simp only [DataValue.extent] at small
              obtain ⟨outcome, transformed, meets⟩ := ArrayEdit.transform_meets (by omega)
                serverFits clientFits apart.unequal
              exact ⟨_, by simp only [transformed]; rfl,
                meets.lift Change.array (DataValue.array id) (fun _ _ fits => fits) fun _ _ => rfl⟩
          | _ => exact clientFits.elim
      | _ => exact serverFits.elim
  | property left =>
      cases value with
      | object id children =>
          cases client with
          | set right => exact ⟨_, rfl, (set_meets clientFits).swap⟩
          | property right =>
              have meets := PropertyEdit.transform_meets keys serverFits clientFits apart.unequal
              exact ⟨_, rfl,
                meets.lift Change.property (DataValue.object id) (fun _ _ fits => fits) fun _ _ => rfl⟩
          | _ => exact clientFits.elim
      | _ => exact serverFits.elim
  | addNumber amount => exact absurd rfl serverNotNumeric

theorem Meets.fitsExtent {outcome : Outcome Change} (meets : Meets value server client outcome) :
    (outcome.server.isNoOp = false →
        outcome.server.change.FitsExtent (value.extent + client.weight)) ∧
      (outcome.client.isNoOp = false →
        outcome.client.change.FitsExtent (value.extent + server.weight)) :=
  ⟨fun live => (meets.serverFits live).extent.mono (extent_applyTo_le client value),
    fun live => (meets.clientFits live).extent.mono (extent_applyTo_le server value)⟩

def HasOutcome (server client : Change) (extent : Nat) : Prop :=
  ∃ outcome, server.transform client = .ok (some outcome) ∧
    (outcome.server.isNoOp = false →
      outcome.server.change.FitsExtent (extent + client.weight)) ∧
    (outcome.client.isNoOp = false →
      outcome.client.change.FitsExtent (extent + server.weight))

theorem hasOutcome_of_fits (value : DataValue) {extent : Nat} (same : value.extent = extent)
    (keys : value.KeysIncrease) (serverFits : server.Fits value) (clientFits : client.Fits value)
    (apart : server.Apart client) (serverNotNumeric : ¬ server.IsNumeric)
    (small : extent + server.weight + client.weight < 0xFFFFFFFFFFFFFFFF) :
    server.HasOutcome client extent := by
  subst same
  obtain ⟨outcome, transformed, meets⟩ :=
    transform_meets keys serverFits clientFits apart serverNotNumeric small
  exact ⟨outcome, transformed, meets.fitsExtent⟩

/-- Positions within one extent suffice for an outcome: a node with that extent can be imagined. -/
theorem hasOutcome {extent : Nat} (kinds : server.kind.nodeKind = client.kind.nodeKind)
    (serverFits : server.FitsExtent extent) (clientFits : client.FitsExtent extent)
    (apart : server.Apart client) (serverNotNumeric : ¬ server.IsNumeric)
    (small : extent + server.weight + client.weight < 0xFFFFFFFFFFFFFFFF) :
    server.HasOutcome client extent := by
  cases server with
  | set left =>
      unfold HasOutcome transform
      rw [if_pos kinds]
      cases client with
      | set right =>
          refine ⟨_, rfl, ?_⟩
          unfold Outcome.writeConflict
          split <;> exact ⟨fun _ => trivial, fun _ => trivial⟩
      | _ => exact ⟨_, rfl, fun _ => trivial, fun live => by cases live⟩
  | text left =>
      cases client with
      | set right =>
          unfold HasOutcome transform
          rw [if_pos kinds]
          exact ⟨_, rfl, (fun live => by cases live), fun _ => trivial⟩
      | text right =>
          have filled : (String.ofList (List.replicate extent 'a')).length = extent := by simp
          refine hasOutcome_of_fits (.string default _) filled trivial ?_ ?_ apart serverNotNumeric small
          · exact (congrArg left.Fits filled).mpr serverFits
          · exact (congrArg right.Fits filled).mpr clientFits
      | _ => simp [kind] at kinds
  | array left =>
      cases client with
      | set right =>
          unfold HasOutcome transform
          rw [if_pos kinds]
          exact ⟨_, rfl, (fun live => by cases live), fun _ => trivial⟩
      | array right =>
          have filled : (List.replicate extent (DataValue.null default)).length = extent := by simp
          refine hasOutcome_of_fits (.array default _) filled trivial ?_ ?_ apart serverNotNumeric small
          · exact (congrArg left.Fits filled).mpr serverFits
          · exact (congrArg right.Fits filled).mpr clientFits
      | _ => simp [kind] at kinds
  | property left =>
      unfold HasOutcome transform
      rw [if_pos kinds]
      cases client with
      | set right => exact ⟨_, rfl, (fun live => by cases live), fun _ => trivial⟩
      | property right => exact ⟨_, rfl, fun _ => trivial, fun _ => trivial⟩
      | _ => simp [kind] at kinds
  | addNumber amount => exact absurd rfl serverNotNumeric

theorem transform_ne_none (kinds : server.kind.nodeKind = client.kind.nodeKind) :
    server.transform client ≠ .ok none := by
  unfold transform
  rw [if_pos kinds]
  cases server with
  | set left => cases client <;> exact fun none => by cases none
  | text left =>
      cases client with
      | set right => exact fun none => by cases none
      | text right => exact Fallible.map_some_ne_none
      | _ => simp [kind] at kinds
  | array left =>
      cases client with
      | set right => exact fun none => by cases none
      | array right => exact Fallible.map_some_ne_none
      | _ => simp [kind] at kinds
  | property left =>
      cases client with
      | set right => exact fun none => by cases none
      | property right => exact fun none => by cases none
      | _ => simp [kind] at kinds
  | addNumber amount =>
      cases client with
      | set right => exact fun none => by cases none
      | addNumber right => exact fun none => by cases none
      | _ => simp [kind] at kinds

end

/-! What stays of a change when it is adapted. -/

structure Adapts (old new : Change) : Prop where
  createdValues : new.createdValues = old.createdValues
  kind : new.kind.nodeKind = old.kind.nodeKind
  weight : new.weight = old.weight
  ordered : old.Ordered → new.Ordered

namespace Adapts

theorem refl (change : Change) : Adapts change change :=
  ⟨rfl, rfl, rfl, id⟩

theorem trans {first second third : Change} (older : Adapts first second)
    (newer : Adapts second third) : Adapts first third where
  createdValues := newer.createdValues.trans older.createdValues
  kind := newer.kind.trans older.kind
  weight := newer.weight.trans older.weight
  ordered := fun ordered => newer.ordered (older.ordered ordered)

theorem createdIds {old new : Change} (adapts : Adapts old new) :
    new.createdIds = old.createdIds := by
  rw [Change.createdIds, adapts.createdValues, Change.createdIds]

theorem text {old new : TextEdit} (weight : new.weight = old.weight) :
    Adapts (.text old) (.text new) :=
  ⟨rfl, by cases old <;> cases new <;> rfl, weight, fun ordered => ⟨ordered.1, trivial⟩⟩

theorem array {old new : ArrayEdit} (values : new.values = old.values) :
    Adapts (.array old) (.array new) := by
  refine ⟨values, by cases old <;> cases new <;> rfl, congrArg List.length values, ?_⟩
  rintro ⟨ordered, -⟩
  refine ⟨fun value listed => ordered value ?_, trivial⟩
  exact (congrArg (value ∈ ·) values).mp listed

theorem property {old new : PropertyEdit} (values : new.values = old.values) :
    Adapts (.property old) (.property new) := by
  refine ⟨values, by cases old <;> cases new <;> rfl, rfl, ?_⟩
  rintro ⟨ordered, -⟩
  refine ⟨fun value listed => ordered value ?_, trivial⟩
  exact (congrArg (value ∈ ·) values).mp listed

end Adapts

theorem transform_adapts {server client : Change} {outcome : Outcome Change}
    (succeeds : server.transform client = .ok (some outcome)) :
    Adapts server outcome.server.change ∧ Adapts client outcome.client.change := by
  unfold transform at succeeds
  split at succeeds
  · split at succeeds
    · cases succeeds
      unfold Outcome.writeConflict
      split <;> exact ⟨.refl _, .refl _⟩
    · cases succeeds
      exact ⟨.refl _, .refl _⟩
    · cases succeeds
      exact ⟨.refl _, .refl _⟩
    · obtain ⟨pair, found, same⟩ := Fallible.map_eq_ok_iff.mp succeeds
      cases same
      obtain ⟨serverSame, clientSame⟩ := TextEdit.transform_weight found
      exact ⟨.text serverSame, .text clientSame⟩
    · obtain ⟨pair, found, same⟩ := Fallible.map_eq_ok_iff.mp succeeds
      cases same
      obtain ⟨serverSame, clientSame⟩ := ArrayEdit.transform_keepValues _ _ pair found
      exact ⟨.array serverSame, .array clientSame⟩
    · cases succeeds
      obtain ⟨serverSame, clientSame⟩ := PropertyEdit.transform_values _ _
      exact ⟨.property serverSame, .property clientSame⟩
    · cases succeeds
      exact ⟨.refl _, .refl _⟩
    · cases succeeds
  · cases succeeds

end Change

end SharedDocument
