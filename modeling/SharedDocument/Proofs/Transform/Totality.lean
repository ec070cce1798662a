import SharedDocument.Proofs.Transform.Operation

/-! Outcomes of concurrent operations. A cell of the grid has an outcome if its edits are for one kind
of node and their positions lie within an extent that leaves room for what the other side adds.
Edits that were made on attached nodes are of that sort. -/

namespace SharedDocument

open DataValue (Occurs)

namespace Edit

variable {ancestry : Ancestry} {blocked : NodeId → Prop} {value : DataValue} {limit : Nat}

/-- The positions of each edit lie within what the edits before it may have made of the limit. -/
def Positioned : Nat → List Edit → Prop
  | _, [] => True
  | limit, edit :: rest =>
      (edit.isNoOp = false → edit.change.FitsExtent limit) ∧
        Positioned (limit + edit.change.weight) rest

def Kindred (server client : Edit) : Prop :=
  server.isNoOp = false → client.isNoOp = false → server.target = client.target →
    server.change.kind.nodeKind = client.change.kind.nodeKind

theorem Kindred.descends {server client newServer newClient : Edit} (kindred : Kindred server client)
    (serverDescends : Descends server newServer) (clientDescends : Descends client newClient) :
    Kindred newServer newClient := by
  intro serverLive clientLive together
  rw [serverDescends.change.kind, clientDescends.change.kind]
  rw [serverDescends.target, clientDescends.target] at together
  exact kindred (serverDescends.live serverLive) (clientDescends.live clientLive) together

def Numeric (edit : Edit) : Prop :=
  edit.isNoOp = false ∧ edit.change.IsNumeric

theorem Descends.notNumeric {old new : Edit} (descends : Descends old new)
    (notNumeric : ¬ old.Numeric) : ¬ new.Numeric := by
  rintro ⟨live, numeric⟩
  rw [Change.IsNumeric, descends.change.kind] at numeric
  exact notNumeric ⟨descends.live live, numeric⟩

theorem exists_transform (ancestry : Ancestry) {server client : Edit}
    (kindred : Kindred server client) (notNumeric : ¬ server.Numeric)
    (serverFits : server.isNoOp = false → server.change.FitsExtent limit)
    (clientFits : client.isNoOp = false → client.change.FitsExtent limit)
    (apart : ∀ id ∈ server.liveIds, id ∉ client.liveIds)
    (small : limit + server.change.weight + client.change.weight < 0xFFFFFFFFFFFFFFFF) :
    ∃ pair, server.transform ancestry client = .ok pair ∧
      (pair.server.isNoOp = false →
        pair.server.change.FitsExtent (limit + client.change.weight)) ∧
      (pair.client.isNoOp = false →
        pair.client.change.FitsExtent (limit + server.change.weight)) := by
  have serverGrown (live : server.isNoOp = false) :
      server.change.FitsExtent (limit + client.change.weight) :=
    (serverFits live).mono (Nat.le_add_right _ _)
  have clientGrown (live : client.isNoOp = false) :
      client.change.FitsExtent (limit + server.change.weight) :=
    (clientFits live).mono (Nat.le_add_right _ _)
  unfold transform
  split
  · exact ⟨_, rfl, serverGrown, clientGrown⟩
  · rename_i busy
    obtain ⟨serverLive, clientLive⟩ := Bool.or_eq_false_iff.mp (Bool.not_eq_true _ ▸ busy)
    split
    · rename_i together
      have kinds := kindred serverLive clientLive together
      rw [liveIds_of_live serverLive, liveIds_of_live clientLive] at apart
      obtain ⟨outcome, transformed, serverPlaced, clientPlaced⟩ := Change.hasOutcome kinds
        (serverFits serverLive) (clientFits clientLive) apart
        (fun numeric => notNumeric ⟨serverLive, numeric⟩) small
      rw [transformed]
      exact ⟨_, rfl, fun live => serverPlaced (Bool.or_eq_false_iff.mp live).2,
        fun live => clientPlaced (Bool.or_eq_false_iff.mp live).2⟩
    · split
      · exact ⟨_, rfl, serverGrown, fun live => by cases live⟩
      · split
        · exact ⟨_, rfl, (fun live => by cases live), clientGrown⟩
        · exact ⟨_, rfl, serverGrown, clientGrown⟩

theorem exists_against (ancestry : Ancestry) {server : Edit} {client : List Edit}
    (kindred : ∀ edit ∈ client, Kindred server edit) (notNumeric : ¬ server.Numeric)
    (serverFits : server.isNoOp = false → server.change.FitsExtent limit)
    (positioned : Positioned limit client) (apart : ∀ id ∈ server.liveIds, id ∉ allLiveIds client)
    (small : limit + server.change.weight + weights client < 0xFFFFFFFFFFFFFFFF) :
    ∃ row, server.against ancestry client = .ok row ∧
      Positioned (limit + server.change.weight) row.2 := by
  induction client generalizing limit server with
  | nil => exact ⟨_, rfl, trivial⟩
  | cons first rest ih =>
      obtain ⟨firstKindred, restKindred⟩ := List.forall_mem_cons.mp kindred
      obtain ⟨firstFits, restPositioned⟩ := positioned
      simp only [weights] at small
      obtain ⟨pair, transformed, serverPlaced, firstPlaced⟩ :=
        exists_transform ancestry firstKindred notNumeric serverFits firstFits
          (fun id inServer inFirst => apart id inServer (List.mem_append_left _ inFirst)) (by omega)
      obtain ⟨serverDescends, firstDescends⟩ := transform_descends transformed
      have serverWeight := serverDescends.change.weight
      obtain ⟨row, further, rowPositioned⟩ := ih
        (fun edit listed => (restKindred edit listed).descends serverDescends (.refl edit))
        (serverDescends.notNumeric notNumeric) serverPlaced restPositioned
        (fun id inServer inRest => apart id (serverDescends.liveIds_sublist.subset inServer)
          (List.mem_append_right _ inRest)) (by omega)
      refine ⟨(row.1, pair.client :: row.2), ?_, firstPlaced, ?_⟩
      · simp only [against, Fallible.bind_eq_ok_iff, Fallible.pure_eq_ok_iff]
        exact ⟨pair, transformed, row, further, rfl⟩
      · rw [firstDescends.change.weight, Nat.add_right_comm, ← serverWeight]
        exact rowPositioned

/-- Operations whose edits of one node are for one kind of node have an outcome. -/
theorem exists_transformAll (ancestry : Ancestry) {server client : List Edit}
    (kindred : ∀ edit ∈ server, ∀ other ∈ client, Kindred edit other)
    (notNumeric : ∀ edit ∈ server, ¬ edit.Numeric)
    (serverPositioned : Positioned limit server) (clientPositioned : Positioned limit client)
    (apart : ∀ id ∈ allLiveIds server, id ∉ allLiveIds client)
    (small : limit + weights server + weights client < 0xFFFFFFFFFFFFFFFF) :
    ∃ result, transformAll ancestry server client = .ok result := by
  induction server generalizing limit client with
  | nil => exact ⟨_, rfl⟩
  | cons first rest ih =>
      obtain ⟨firstKindred, restKindred⟩ := List.forall_mem_cons.mp kindred
      obtain ⟨firstNotNumeric, restNotNumeric⟩ := List.forall_mem_cons.mp notNumeric
      obtain ⟨firstFits, restPositioned⟩ := serverPositioned
      simp only [weights] at small
      obtain ⟨row, rowFound, rowPositioned⟩ :=
        exists_against ancestry firstKindred firstNotNumeric firstFits clientPositioned
          (fun id inFirst => apart id (List.mem_append_left _ inFirst)) (by omega)
      have rowDescend := (against_descends rowFound).2
      have rowKindred : ∀ edit ∈ rest, ∀ other ∈ row.2, Kindred edit other := by
        intro edit listed other otherListed
        obtain ⟨older, olderListed, descends⟩ := exists_ancestor rowDescend otherListed
        exact (restKindred edit listed older olderListed).descends (.refl edit) descends
      have rowWeights := weights_descend rowDescend
      obtain ⟨later, further⟩ := ih rowKindred restNotNumeric restPositioned rowPositioned
        (fun id inRest inRow => apart id (List.mem_append_right _ inRest)
          ((allLiveIds_sublist rowDescend).subset inRow)) (by omega)
      refine ⟨(row.1 :: later.1, later.2), ?_⟩
      simp only [transformAll, Fallible.bind_eq_ok_iff, Fallible.pure_eq_ok_iff]
      exact ⟨row, rowFound, later, further, rfl⟩

/-! Without positions that fit there may be no outcome, but only because a number is too large. -/

theorem overflow_of_transform_error {server client : Edit} (kindred : Kindred server client)
    {fault : TransformError} (fails : server.transform ancestry client = .error fault) :
    ∃ overflow, fault = .overflow overflow := by
  unfold transform at fails
  split at fails
  · cases fails
  · rename_i busy
    obtain ⟨serverLive, clientLive⟩ := Bool.or_eq_false_iff.mp (Bool.not_eq_true _ ▸ busy)
    split at fails
    · rename_i together
      split at fails
      · cases fails
        exact ⟨_, rfl⟩
      · rename_i none
        exact absurd none (Change.transform_ne_none (kindred serverLive clientLive together))
      · cases fails
    · split at fails
      · cases fails
      · split at fails <;> cases fails

theorem overflow_of_against_error {server : Edit} {client : List Edit}
    (kindred : ∀ edit ∈ client, Kindred server edit) {fault : TransformError}
    (fails : server.against ancestry client = .error fault) :
    ∃ overflow, fault = .overflow overflow := by
  induction client generalizing server with
  | nil => cases fails
  | cons first rest ih =>
      obtain ⟨firstKindred, restKindred⟩ := List.forall_mem_cons.mp kindred
      simp only [against, Fallible.bind_eq_error_iff, Fallible.pure_ne_error, and_false,
        exists_false, or_false] at fails
      rcases fails with fails | ⟨pair, transformed, fails⟩
      · exact overflow_of_transform_error firstKindred fails
      · have descends := (transform_descends transformed).1
        exact ih (fun edit listed => (restKindred edit listed).descends descends (.refl edit)) fails

theorem overflow_of_transformAll_error {server client : List Edit}
    (kindred : ∀ edit ∈ server, ∀ other ∈ client, Kindred edit other) {fault : TransformError}
    (fails : transformAll ancestry server client = .error fault) :
    ∃ overflow, fault = .overflow overflow := by
  induction server generalizing client with
  | nil => cases fails
  | cons first rest ih =>
      obtain ⟨firstKindred, restKindred⟩ := List.forall_mem_cons.mp kindred
      simp only [transformAll, Fallible.bind_eq_error_iff, Fallible.pure_ne_error, and_false,
        exists_false, or_false] at fails
      rcases fails with fails | ⟨row, rowFound, fails⟩
      · exact overflow_of_against_error firstKindred fails
      · refine ih (fun edit listed other otherListed => ?_) fails
        obtain ⟨older, olderListed, descends⟩ :=
          exists_ancestor (against_descends rowFound).2 otherListed
        exact (restKindred edit listed older olderListed).descends (.refl edit) descends

end Edit

def DataValue.HasKinds (recorded : NodeId → NodeKind → Prop) (value : DataValue) : Prop :=
  ∀ outerParent parent inner, Occurs outerParent value parent inner → recorded inner.id inner.kind

namespace Edit

theorem hasKinds_effect {edit : Edit} {recorded : NodeId → NodeKind → Prop}
    (distinct : value.nodeIds.Nodup) (kinds : value.HasKinds recorded)
    (createdKinds : edit.isNoOp = false →
      ∀ created ∈ edit.change.createdValues, created.HasKinds recorded) :
    (edit.effect value).HasKinds recorded := by
  intro outerParent parent inner outerOccurs
  obtain ⟨otherParent, occurs⟩ := outerOccurs.exists_below none
  rcases occurs_effect distinct occurs with
    ⟨before, beforeOccurs, same, ⟨-, rfl⟩ | ⟨transform, rfl⟩⟩ | ⟨live, created, listed, deeper⟩
  · rw [← same, Change.kind_applyTo]
    exact kinds _ _ _ beforeOccurs
  · rw [← same, DataValue.kind_mapChildren]
    exact kinds _ _ _ beforeOccurs
  · exact createdKinds live created listed _ _ _ deeper

/-! Edits made on attached nodes. -/

def Attached : DataValue → List Edit → Prop
  | _, [] => True
  | value, edit :: rest =>
      (edit.isNoOp = false → edit.target ∈ value.nodeIds) ∧ Attached (edit.effect value) rest

namespace Prepared

variable {server client : List Edit}

theorem positioned (prepared : Prepared ancestry blocked limit value server client)
    (attached : Attached value server) : Positioned limit server := by
  induction server generalizing value limit with
  | nil => trivial
  | cons first rest ih =>
      refine ⟨?_, ih prepared.advance attached.2⟩
      intro live
      obtain ⟨parent, inner, occurs, here⟩ :=
        (DataValue.mem_nodeIds_iff none value first.target).mp (attached.1 live)
      exact (prepared.serverRuns.1.fits live _ _ occurs here).extent.mono
        (prepared.bounded _ _ _ occurs)

theorem mem_or_created (prepared : Prepared ancestry blocked limit value server client)
    (attached : Attached value server) {edit : Edit} (listed : edit ∈ server)
    (live : edit.isNoOp = false) :
    edit.target ∈ value.nodeIds ∨ edit.target ∈ allLiveIds server := by
  induction server generalizing value limit with
  | nil => simp at listed
  | cons first rest ih =>
      rcases List.mem_cons.mp listed with rfl | later
      · exact Or.inl (attached.1 live)
      · rcases ih prepared.advance attached.2 later with reached | created
        · rcases Edit.mem_or_created prepared.proper.distinct reached with old | created
          · exact Or.inl old
          · exact Or.inr (List.mem_append_left _ created)
        · exact Or.inr (List.mem_append_right _ created)

theorem hasKinds_effects (prepared : Prepared ancestry blocked limit value server client)
    {recorded : NodeId → NodeKind → Prop} (kinds : value.HasKinds recorded)
    (createdKinds : ∀ edit ∈ server, edit.isNoOp = false →
      ∀ created ∈ edit.change.createdValues, created.HasKinds recorded) :
    (effects value server).HasKinds recorded := by
  induction server generalizing value limit with
  | nil => exact kinds
  | cons first rest ih =>
      obtain ⟨firstKinds, restKinds⟩ := List.forall_mem_cons.mp createdKinds
      exact ih prepared.advance (hasKinds_effect prepared.proper.distinct kinds firstKinds) restKinds

/-- An edit is for the kind of node that is recorded for its target. -/
theorem recorded_kind (prepared : Prepared ancestry blocked limit value server client)
    {recorded : NodeId → NodeKind → Prop} (attached : Attached value server)
    (kinds : value.HasKinds recorded)
    (createdKinds : ∀ edit ∈ server, edit.isNoOp = false →
      ∀ created ∈ edit.change.createdValues, created.HasKinds recorded)
    {edit : Edit} (listed : edit ∈ server) (live : edit.isNoOp = false) :
    recorded edit.target edit.change.kind.nodeKind := by
  induction server generalizing value limit with
  | nil => simp at listed
  | cons first rest ih =>
      obtain ⟨firstKinds, restKinds⟩ := List.forall_mem_cons.mp createdKinds
      rcases List.mem_cons.mp listed with rfl | later
      · obtain ⟨parent, inner, occurs, here⟩ :=
          (DataValue.mem_nodeIds_iff none value edit.target).mp (attached.1 live)
        rw [← (prepared.serverRuns.1.fits live _ _ occurs here).kind, ← here]
        exact kinds _ _ _ occurs
      · exact ih prepared.advance attached.2
          (hasKinds_effect prepared.proper.distinct kinds firstKinds) restKinds later

end Prepared

namespace Concurrent

variable {server client : List Edit}

theorem kindred (concurrent : Concurrent ancestry blocked limit value server client)
    (serverAttached : Attached value server) (clientAttached : Attached value client) :
    ∀ edit ∈ server, ∀ other ∈ client, Kindred edit other := by
  intro edit listed other otherListed live otherLive together
  have present := (concurrent.toPrepared.mem_or_created serverAttached listed live).resolve_right
    (together ▸ concurrent.clientForeign other otherListed otherLive)
  obtain ⟨parent, inner, occurs, here⟩ := (DataValue.mem_nodeIds_iff none value _).mp present
  have kinds : value.HasKinds fun id kind => id = inner.id → kind = inner.kind := by
    intro _ _ node outerOccurs same
    obtain ⟨_, nodeOccurs⟩ := outerOccurs.exists_below none
    obtain ⟨-, rfl⟩ := nodeOccurs.unique concurrent.proper.distinct occurs same
    rfl
  have recorded {side opposite : List Edit}
      (prepared : Prepared ancestry blocked limit value side opposite)
      (attached : Attached value side) {made : Edit} (madeListed : made ∈ side)
      (madeLive : made.isNoOp = false) (sameTarget : made.target = inner.id) :
      made.change.kind.nodeKind = inner.kind := by
    refine prepared.recorded_kind attached kinds ?_ madeListed madeLive sameTarget
    intro older olderListed olderLive created createdListed _ _ node nodeOccurs same
    have isCreated := mem_liveIds_of_created olderLive createdListed nodeOccurs.id_mem
    exact absurd (same ▸ occurs.id_mem) (prepared.apart node.id
      (List.mem_append_left _ (List.mem_flatMap.mpr ⟨older, olderListed, isCreated⟩)))
  rw [recorded concurrent.toPrepared serverAttached listed live here.symm,
    recorded concurrent.swap.toPrepared clientAttached otherListed otherLive
      (together.symm.trans here.symm)]

theorem exists_outcome (concurrent : Concurrent ancestry blocked limit value server client)
    (serverAttached : Attached value server) (clientAttached : Attached value client) :
    ∃ result, transformAll ancestry server client = .ok result := by
  refine exists_transformAll ancestry (concurrent.kindred serverAttached clientAttached) ?_
    (concurrent.toPrepared.positioned serverAttached) (concurrent.swap.toPrepared.positioned clientAttached)
    ?_ concurrent.small
  · rintro edit listed ⟨live, numeric⟩
    exact (concurrent.regular edit (List.mem_append_left _ listed) live).notNumeric numeric
  · exact fun id inServer inClient =>
      (List.nodup_append'.mp concurrent.created).2.2 inServer inClient

end Concurrent

end Edit

end SharedDocument
