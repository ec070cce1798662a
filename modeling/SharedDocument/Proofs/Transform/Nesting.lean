import SharedDocument.Proofs.Transform.Operation

/-! Groups under transformation. How an operation is grouped is one thing and which edits it makes is
another: an operation is given by the two. Transformation keeps the grouping of each side, and what
becomes of the edits depends on the edits only. -/

namespace SharedDocument

open Edit (Descends against transformAll)

inductive Nesting where
  | single
  | group (elements : List Nesting)
deriving Repr

namespace Operation

variable {ancestry : Ancestry}

mutual

def nesting : Operation → Nesting
  | .single _ => .single
  | .group elements => .group (nestings elements)

def nestings : List Operation → List Nesting
  | [] => []
  | first :: rest => nesting first :: nestings rest

end

mutual

theorem length_edits_of_nesting : {first second : Operation} →
    first.nesting = second.nesting → first.edits.length = second.edits.length
  | .single _, .single _, _ => rfl
  | .group _, .group _, same => length_groupEdits_of_nestings (Nesting.group.inj same)
  | .single _, .group _, same => by cases same
  | .group _, .single _, same => by cases same

theorem length_groupEdits_of_nestings : {first second : List Operation} →
    nestings first = nestings second → (groupEdits first).length = (groupEdits second).length
  | [], [], _ => rfl
  | _ :: _, _ :: _, same => by
      obtain ⟨head, rest⟩ := List.cons.inj same
      rw [groupEdits, groupEdits, List.length_append, List.length_append,
        length_edits_of_nesting head, length_groupEdits_of_nestings rest]
  | [], _ :: _, same => by cases same
  | _ :: _, [], same => by cases same

end

mutual

/-- An operation is given by its grouping and its edits. -/
theorem eq_of_nesting_of_edits : {first second : Operation} →
    first.nesting = second.nesting → first.edits = second.edits → first = second
  | .single _, .single _, _, same => congrArg Operation.single (List.singleton_inj.mp same)
  | .group _, .group _, nested, same =>
      congrArg Operation.group (eq_of_nestings_of_groupEdits (Nesting.group.inj nested) same)
  | .single _, .group _, nested, _ => by cases nested
  | .group _, .single _, nested, _ => by cases nested

theorem eq_of_nestings_of_groupEdits : {first second : List Operation} →
    nestings first = nestings second → groupEdits first = groupEdits second → first = second
  | [], [], _, _ => rfl
  | _ :: _, _ :: _, nested, same => by
      obtain ⟨head, rest⟩ := List.cons.inj nested
      obtain ⟨headEdits, restEdits⟩ := List.append_inj same (length_edits_of_nesting head)
      rw [eq_of_nesting_of_edits head headEdits, eq_of_nestings_of_groupEdits rest restEdits]
  | [], _ :: _, nested, _ => by cases nested
  | _ :: _, [], nested, _ => by cases nested

end

mutual

theorem nesting_transformEdit {server : Edit} : {client : Operation} →
    {result : Edit × Operation} → transformEdit ancestry server client = .ok result →
      result.2.nesting = client.nesting
  | .single _, _, succeeds => by
      obtain ⟨pair, -, rfl⟩ := Fallible.map_eq_ok_iff.mp succeeds
      rfl
  | .group _, _, succeeds => by
      obtain ⟨inner, transformed, rfl⟩ := Fallible.map_eq_ok_iff.mp succeeds
      exact congrArg Nesting.group (nestings_transformEdits transformed)

theorem nestings_transformEdits {server : Edit} : {elements : List Operation} →
    {result : Edit × List Operation} → transformEdits ancestry server elements = .ok result →
      nestings result.2 = nestings elements
  | [], _, succeeds => by
      cases succeeds
      rfl
  | first :: rest, result, succeeds => by
      rw [transformEdits] at succeeds
      split at succeeds
      · cases succeeds
      · rename_i transformed
        obtain ⟨inner, further, rfl⟩ := Fallible.map_eq_ok_iff.mp succeeds
        rw [nestings, nestings, nesting_transformEdit transformed, nestings_transformEdits further]

end

mutual

/-- Each side keeps its grouping. -/
theorem nesting_transform : {server client : Operation} → {pair : Transformed Operation} →
    transform ancestry server client = .ok pair →
      pair.server.nesting = server.nesting ∧ pair.client.nesting = client.nesting
  | .single _, _, _, succeeds => by
      obtain ⟨inner, transformed, rfl⟩ := Fallible.map_eq_ok_iff.mp succeeds
      exact ⟨rfl, nesting_transformEdit transformed⟩
  | .group _, _, _, succeeds => by
      obtain ⟨inner, transformed, rfl⟩ := Fallible.map_eq_ok_iff.mp succeeds
      obtain ⟨servers, client⟩ := nestings_transformElements transformed
      exact ⟨congrArg Nesting.group servers, client⟩

theorem nestings_transformElements : {elements : List Operation} → {client : Operation} →
    {result : List Operation × Operation} →
      transformElements ancestry elements client = .ok result →
        nestings result.1 = nestings elements ∧ result.2.nesting = client.nesting
  | [], _, _, succeeds => by
      cases succeeds
      exact ⟨rfl, rfl⟩
  | first :: rest, client, result, succeeds => by
      rw [transformElements] at succeeds
      split at succeeds
      · cases succeeds
      · rename_i pair transformed
        obtain ⟨inner, further, rfl⟩ := Fallible.map_eq_ok_iff.mp succeeds
        obtain ⟨firstServer, firstClient⟩ := nesting_transform transformed
        obtain ⟨servers, lastClient⟩ := nestings_transformElements further
        exact ⟨by rw [nestings, nestings, firstServer, servers], lastClient.trans firstClient⟩

end

theorem transform_eq_ok_iff {server client : Operation} {pair : Transformed Operation} :
    server.transform ancestry client = .ok pair ↔
      transformAll ancestry server.edits client.edits = .ok (pair.server.edits, pair.client.edits) ∧
        pair.server.nesting = server.nesting ∧ pair.client.nesting = client.nesting := by
  rw [← edits_transform, Fallible.map_eq_ok_iff]
  constructor
  · intro succeeds
    exact ⟨⟨pair, succeeds, rfl⟩, nesting_transform succeeds⟩
  · rintro ⟨⟨reached, succeeds, edits⟩, serverNested, clientNested⟩
    obtain ⟨serverEdits, clientEdits⟩ := Prod.mk.inj edits
    obtain ⟨reachedServer, reachedClient⟩ := nesting_transform succeeds
    obtain ⟨serverReached, clientReached⟩ := reached
    obtain rfl := eq_of_nesting_of_edits (reachedServer.trans serverNested.symm) serverEdits
    obtain rfl := eq_of_nesting_of_edits (reachedClient.trans clientNested.symm) clientEdits
    exact succeeds

theorem transform_eq_error_iff {server client : Operation} {fault : TransformError} :
    server.transform ancestry client = .error fault ↔
      transformAll ancestry server.edits client.edits = .error fault := by
  rw [← edits_transform, Fallible.map_eq_error_iff]

end Operation

/-! What transformation keeps. -/

/-- What an edit keeps for the system to rely on: its node, the kind of that node, and the values that
it creates. It may become a no-op, and then stays one. -/
structure Edit.Retains (old new : Edit) : Prop where
  target : new.target = old.target
  nodeKind : new.kind.nodeKind = old.kind.nodeKind
  createdValues : new.change.createdValues = old.change.createdValues
  noOp : old.isNoOp = true → new.isNoOp = true

theorem Edit.Descends.retains {old new : Edit} (descends : Descends old new) :
    Edit.Retains old new where
  target := descends.target
  nodeKind := descends.change.kind
  createdValues := descends.change.createdValues
  noOp := fun noOp => by
    cases live : new.isNoOp with
    | true => rfl
    | false => exact absurd noOp (by simp [descends.live live])

namespace Edit

theorem Retains.refl (edit : Edit) : Retains edit edit :=
  ⟨rfl, rfl, rfl, id⟩

theorem Retains.trans {first second third : Edit} (older : Retains first second)
    (newer : Retains second third) : Retains first third where
  target := newer.target.trans older.target
  nodeKind := newer.nodeKind.trans older.nodeKind
  createdValues := newer.createdValues.trans older.createdValues
  noOp := fun noOp => newer.noOp (older.noOp noOp)

theorem Retains.createdIds {old new : Edit} (retains : Retains old new) :
    new.change.createdIds = old.change.createdIds := by
  rw [Change.createdIds, retains.createdValues, Change.createdIds]

theorem flatMap_createdIds_of_retain {old new : List Edit} (retain : List.Forall₂ Retains old new) :
    (new.flatMap fun edit => edit.change.createdIds) =
      old.flatMap fun edit => edit.change.createdIds := by
  induction retain with
  | nil => rfl
  | cons head _ ih => rw [List.flatMap_cons, List.flatMap_cons, ih, head.createdIds]

end Edit

namespace Operation

variable {ancestry : Ancestry}

structure Retains (old new : Operation) : Prop where
  nesting : new.nesting = old.nesting
  edits : List.Forall₂ Edit.Retains old.edits new.edits
  createdIds : new.createdIds = old.createdIds

namespace Retains

theorem of_edits {old new : Operation} (nesting : new.nesting = old.nesting)
    (edits : List.Forall₂ Edit.Retains old.edits new.edits) : Retains old new :=
  ⟨nesting, edits, Edit.flatMap_createdIds_of_retain edits⟩

theorem refl (operation : Operation) : Retains operation operation :=
  ⟨rfl, List.forall₂_same.mpr fun edit _ => .refl edit, rfl⟩

theorem trans {first second third : Operation} (older : Retains first second)
    (newer : Retains second third) : Retains first third where
  nesting := newer.nesting.trans older.nesting
  edits := Edit.forall₂_trans older.edits newer.edits Edit.Retains.trans
  createdIds := newer.createdIds.trans older.createdIds

end Retains

/-- Whatever the two sides are, each of them keeps what the system relies on. -/
theorem retains_of_transform {server client : Operation} {pair : Transformed Operation}
    (succeeds : server.transform ancestry client = .ok pair) :
    Retains server pair.server ∧ Retains client pair.client := by
  obtain ⟨edits, serverNested, clientNested⟩ := transform_eq_ok_iff.mp succeeds
  obtain ⟨serverDescend, clientDescend⟩ := Edit.transformAll_descends edits
  exact ⟨.of_edits serverNested (serverDescend.imp fun _ _ => Edit.Descends.retains),
    .of_edits clientNested (clientDescend.imp fun _ _ => Edit.Descends.retains)⟩

end Operation

end SharedDocument
