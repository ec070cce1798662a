import SharedDocument.Proofs.Document.Convergence

/-! Merging two changes of one node. Two clients change the same node at the same time, each
incorporates what has become of the other's change, and what the node is then can be read from the
changes alone: the rest of the document does not matter. -/

namespace SharedDocument

open DataValue (Occurs)

structure Change.Suits (change : Change) (inner : DataValue) : Prop where
  fits : change.Fits inner
  created : change.createdIds.Nodup
  new : ∀ id ∈ change.createdIds, id ∉ inner.nodeIds

theorem Change.mem_nodeIds_applyTo {change : Change} {value : DataValue} {id : NodeId}
    (listed : id ∈ (change.applyTo value).nodeIds) :
    id ∈ value.nodeIds ∨ id ∈ change.createdIds := by
  rw [DataValue.nodeIds_eq, Change.id_applyTo] at listed
  rcases List.mem_cons.mp listed with rfl | below
  · exact Or.inl (DataValue.id_mem_nodeIds value)
  · obtain ⟨child, childListed, inChild⟩ := List.mem_flatMap.mp below
    rcases mem_childValues_applyTo childListed with old | created
    · exact Or.inl ((DataValue.sublist_nodeIds_of_child old).subset inChild)
    · exact Or.inr (List.mem_flatMap.mpr ⟨child, created, inChild⟩)

theorem Adapted.id_run (adapted : Adapted Change) (value : DataValue) :
    (adapted.run (fun change value => change.applyTo value) value).id = value.id := by
  unfold run
  split
  · rfl
  · exact Change.id_applyTo _ _

theorem Adapted.mem_nodeIds_run {adapted : Adapted Change} {value : DataValue} {id : NodeId}
    (listed : id ∈ (adapted.run (fun change value => change.applyTo value) value).nodeIds) :
    id ∈ value.nodeIds ∨ id ∈ adapted.change.createdIds := by
  unfold run at listed
  split at listed
  · exact Or.inl listed
  · exact Change.mem_nodeIds_applyTo listed

namespace Document

variable {document : Document} {value inner : DataValue} {known blocked : NodeId → Prop}
  {change : Change}

theorem Mirrors.dataValue_eq_ok_iff (mirrors : document.Mirrors value known blocked)
    {parent : Option NodeId} (occurs : Occurs none value parent inner) (found : DataValue) :
    document.dataValue inner.id = .ok found ↔
      found = inner ∧ ∀ id ∈ inner.nodeIds, ¬ blocked id := by
  have represents := mirrors.arena.represents
  have inside := occurs.sublist_nodeIds.length_le
  have bound := represents.holds.length_le_size represents.distinct
  have enough : inner.nodeIds.length ≤ document.arena.size + 1 := by omega
  have read := Arena.valueBelow_eq_ok_iff (represents.occurs_holds occurs) enough found
  refine read.trans (and_congr_right fun _ => forall₂_congr fun id listed => ?_)
  rw [← mirrors.arena.blocks id (occurs.sublist_nodeIds.subset listed), Bool.not_eq_true]

theorem Mirrors.made_single (mirrors : document.Mirrors value known blocked) {id : NodeId}
    (ordered : change.Ordered)
    (accepted : ∃ result, document.apply .own (.single (.on id change)) = .ok result) :
    Edit.Made value known blocked [.on id change] := by
  obtain ⟨result, applied⟩ := accepted
  obtain ⟨-, edited, succeeds, rfl⟩ := apply_eq_ok_iff.mp applied
  refine (mirrors.arena.applyEdits_own ?_ ?_ succeeds).1 <;> intro edit listed <;>
    rw [List.mem_singleton.mp listed]
  · rfl
  · exact ordered

structure Rivals (document : Document) (id : NodeId) (server client : Change) : Prop where
  serverOrdered : server.Ordered
  clientOrdered : client.Ordered
  serverAccepted : ∃ result, document.apply .own (.single (.on id server)) = .ok result
  clientAccepted : ∃ result, document.apply .own (.single (.on id client)) = .ok result
  apart : server.Apart client

/-- What has become of two changes of one node can be incorporated in either order, and both orders
end with one node. -/
def MergesTo (document : Document) (id : NodeId) (server client : Change) (merged : DataValue) :
    Prop :=
  ∀ (ancestry : Ancestry) (serverSession clientSession : String),
    ∃ pair, Operation.transform ancestry (.single (.on id server)) (.single (.on id client)) =
        .ok pair ∧
      ∃ left right,
        document.merge (.single (.on id server)) clientSession pair.client = .ok left ∧
        document.merge (.single (.on id client)) serverSession pair.server = .ok right ∧
        left.dataValue id = .ok merged ∧ right.dataValue id = .ok merged

theorem plain_single {id : NodeId} {change : Change} (ordered : change.Ordered)
    (notNumeric : ¬ change.IsNumeric) : Operation.Plain (.single (.on id change)) := by
  refine ⟨?_, ?_, ?_⟩ <;> intro edit listed <;> rw [List.mem_singleton.mp listed]
  · exact ordered
  · rfl
  · exact notNumeric

theorem createdIds_single (edit : Edit) :
    (Operation.single edit).createdIds = edit.change.createdIds :=
  List.append_nil _

theorem suits_of_made (made : Edit.Made value known blocked [.on inner.id change])
    (covers : ∀ id ∈ value.nodeIds, known id) {parent : Option NodeId}
    (occurs : Occurs none value parent inner) : change.Suits inner where
  fits := made.runs.1.fits rfl parent inner occurs rfl
  created := by
    have created := made.created
    rw [Edit.allCreatedIds_cons] at created
    exact (List.nodup_append'.mp created).1
  new := fun id created old => made.new id (List.mem_append_left _ created)
    (covers id (occurs.sublist_nodeIds.subset old))

/-- One side of a merge: the own change is followed by what is left of the other one. -/
theorem merge_adapted (mirrors : document.Mirrors value known blocked) {own other : Change}
    (ownPlain : Operation.Plain (.single (.on inner.id own)))
    (otherPlain : Operation.Plain (.single (.on inner.id other)))
    (ownAccepted : ∃ result, document.apply .own (.single (.on inner.id own)) = .ok result)
    (otherMade : Edit.Made value known blocked [.on inner.id other])
    (apart : ∀ id ∈ other.createdIds, id ∉ own.createdIds) {adapted : Adapted Change}
    (adapts : Change.Adapts other adapted.change)
    (suits : ((Edit.on inner.id other).adapt adapted).Suits blocked
      ((Edit.on inner.id own).effect value)) (sessionId : String) :
    ∃ reached grown, document.merge (.single (.on inner.id own)) sessionId
        (.single ((Edit.on inner.id other).adapt adapted)) = .ok reached ∧
      reached.Mirrors (value.editAt inner.id fun inner =>
        adapted.run (fun change value => change.applyTo value) (own.applyTo inner)) grown blocked := by
  have apartIds : ∀ id ∈ (Operation.single (.on inner.id other)).createdIds,
      id ∉ (Operation.single (.on inner.id own)).createdIds := by
    rw [createdIds_single, createdIds_single]
    exact apart
  obtain ⟨reached, merged, last⟩ : ∃ reached, document.merge (.single (.on inner.id own)) sessionId
      (.single ((Edit.on inner.id other).adapt adapted)) = .ok reached ∧ reached.Mirrors
        (((Edit.on inner.id other).adapt adapted).effect ((Edit.on inner.id own).effect value))
        _ blocked :=
    merge_of_settled mirrors ownPlain ownAccepted sessionId otherPlain otherMade.toStanding
      (.cons (.adapt adapts) .nil) ⟨suits, trivial⟩ apartIds
  rw [Edit.effect_adapt rfl, Edit.effect_of_live rfl, Edit.on, Edit.on,
    DataValue.editAt_editAt (Change.id_applyTo _)] at last
  exact ⟨reached, _, merged, last⟩

/-- The merged node can be read if nothing at or below it was blocked. -/
theorem Mirrors.dataValue_adapted {reached : Document} {grown : NodeId → Prop}
    (mirrors : document.Mirrors value known blocked) {parent : Option NodeId}
    (occurs : Occurs none value parent inner) {own other : Change} {adapted : Adapted Change}
    (last : reached.Mirrors (value.editAt inner.id fun inner =>
      adapted.run (fun change value => change.applyTo value) (own.applyTo inner)) grown blocked)
    (ownNew : ∀ id ∈ own.createdIds, ¬ known id) (otherNew : ∀ id ∈ other.createdIds, ¬ known id)
    (clear : ∀ id ∈ inner.nodeIds, ¬ blocked id)
    (adapts : Change.Adapts other adapted.change) :
    reached.dataValue inner.id =
      .ok (adapted.run (fun change value => change.applyTo value) (own.applyTo inner)) := by
  have stands := occurs.editAt_self (fun inner =>
    adapted.run (fun change value => change.applyTo value) (own.applyTo inner))
    mirrors.arena.proper.distinct
  have sameId : (adapted.run (fun change value => change.applyTo value) (own.applyTo inner)).id =
      inner.id := by
    rw [Adapted.id_run, Change.id_applyTo]
  rw [← sameId]
  refine (last.dataValue_eq_ok_iff stands _).mpr ⟨rfl, fun id listed isBlocked => ?_⟩
  rcases Adapted.mem_nodeIds_run listed with early | created
  · rcases Change.mem_nodeIds_applyTo early with old | created
    · exact clear id old isBlocked
    · exact ownNew id created (mirrors.arena.blockedKnown id isBlocked)
  · rw [adapts.createdIds] at created
    exact otherNew id created (mirrors.arena.blockedKnown id isBlocked)

namespace Rivals

section

variable {id : NodeId} {server client : Change} (rivals : document.Rivals id server client)
  (reachable : document.Reachable) (isOpen : document.isClosed = false)

include rivals reachable isOpen

/-- Where the node stands, and that both changes were made there. -/
theorem exists_site :
    ∃ (value : DataValue) (known blocked : NodeId → Prop) (parent : Option NodeId)
      (inner : DataValue), document.Mirrors value known blocked ∧
      Occurs none value parent inner ∧ inner.id = id ∧
      Edit.Made value known blocked [.on id server] ∧
      Edit.Made value known blocked [.on id client] := by
  obtain ⟨value, mirrors⟩ := reachable.mirrors isOpen
  have serverMade := mirrors.made_single rivals.serverOrdered rivals.serverAccepted
  have clientMade := mirrors.made_single rivals.clientOrdered rivals.clientAccepted
  obtain ⟨parent, inner, occurs, same⟩ :=
    (DataValue.mem_nodeIds_iff none value id).mp (serverMade.attached.1 rfl)
  exact ⟨value, _, _, parent, inner, mirrors, occurs, same, serverMade, clientMade⟩

variable (stored : document.dataValue id = .ok inner)

include stored

/-- As `exists_site`, for a node that can be read. -/
theorem exists_place :
    inner.id = id ∧ ∃ (value : DataValue) (known blocked : NodeId → Prop) (parent : Option NodeId),
      document.Mirrors value known blocked ∧ Occurs none value parent inner ∧
      (∀ id ∈ inner.nodeIds, ¬ blocked id) ∧
      Edit.Made value known blocked [.on id server] ∧
      Edit.Made value known blocked [.on id client] := by
  obtain ⟨value, known, blocked, parent, found, mirrors, occurs, rfl, serverMade, clientMade⟩ :=
    rivals.exists_site reachable isOpen
  obtain ⟨rfl, clear⟩ := (mirrors.dataValue_eq_ok_iff occurs inner).mp stored
  exact ⟨rfl, value, _, _, parent, mirrors, occurs, clear, serverMade, clientMade⟩

end

section

variable {server client : Change} {parent : Option NodeId}
  (mirrors : document.Mirrors value known blocked) (occurs : Occurs none value parent inner)
  (serverMade : Edit.Made value known blocked [.on inner.id server])
  (clientMade : Edit.Made value known blocked [.on inner.id client])

include mirrors occurs serverMade clientMade

theorem suits_at : inner.Proper ∧ server.Suits inner ∧ client.Suits inner := by
  have covers (id : NodeId) (listed : id ∈ value.nodeIds) := mirrors.arena.known_of_mem listed
  have proper := mirrors.arena.proper
  exact ⟨⟨proper.distinct.sublist occurs.sublist_nodeIds, proper.ordered.occurs occurs⟩,
    suits_of_made serverMade covers occurs, suits_of_made clientMade covers occurs⟩

/-- Both sides of a merge go through, and each makes the node what the changes make of it. -/
theorem exists_merges (rivals : document.Rivals inner.id server client)
    (notNumeric : inner.kind ≠ .number) {outcome : Outcome Change}
    (transformed : server.transform client = .ok (some outcome))
    (meets : Change.Meets inner server client outcome) (serverSession clientSession : String) :
    (∃ left grown, document.merge (.single (.on inner.id server)) clientSession
        (.single ((Edit.on inner.id client).adapt outcome.client)) = .ok left ∧
      left.Mirrors (value.editAt inner.id fun inner =>
        outcome.client.run (fun change value => change.applyTo value) (server.applyTo inner)) grown
        blocked) ∧
    ∃ right grown, document.merge (.single (.on inner.id client)) serverSession
        (.single ((Edit.on inner.id server).adapt outcome.server)) = .ok right ∧
      right.Mirrors (value.editAt inner.id fun inner =>
        outcome.server.run (fun change value => change.applyTo value) (client.applyTo inner)) grown
        blocked := by
  obtain ⟨-, serverSuits, clientSuits⟩ := suits_at mirrors occurs serverMade clientMade
  have plain {change : Change} (ordered : change.Ordered) (suits : change.Suits inner) :
      Operation.Plain (.single (.on inner.id change)) :=
    plain_single ordered fun numeric => notNumeric (suits.fits.kind.trans numeric)
  have fresh {change : Change} (made : Edit.Made value known blocked [.on inner.id change])
      (ordered : change.Ordered) (suits : change.Suits inner) :
      (Edit.on inner.id change).Fresh value :=
    ⟨suits.created, fun id created old =>
      made.new id (List.mem_append_left _ created) (mirrors.arena.known_of_mem old), fun _ => ordered⟩
  have settles := Edit.settles_of_meets mirrors.arena.proper serverMade.runs.1 clientMade.runs.1
    (fresh serverMade rivals.serverOrdered serverSuits)
    (fresh clientMade rivals.clientOrdered clientSuits) rfl rfl rfl occurs rfl meets
  obtain ⟨serverAdapts, clientAdapts⟩ := Change.transform_adapts transformed
  have serverPlain := plain rivals.serverOrdered serverSuits
  have clientPlain := plain rivals.clientOrdered clientSuits
  exact ⟨merge_adapted mirrors serverPlain clientPlain rivals.serverAccepted clientMade
      (fun id inClient inServer => rivals.apart id inServer inClient) clientAdapts
      settles.clientSuits clientSession,
    merge_adapted mirrors clientPlain serverPlain rivals.clientAccepted serverMade rivals.apart
      serverAdapts settles.serverSuits serverSession⟩

end

theorem transform_single {id : NodeId} {server client : Change} {outcome : Outcome Change}
    (transformed : server.transform client = .ok (some outcome)) (ancestry : Ancestry) :
    Operation.transform ancestry (.single (.on id server)) (.single (.on id client)) =
      .ok ⟨.single ((Edit.on id server).adapt outcome.server),
        .single ((Edit.on id client).adapt outcome.client)⟩ := by
  simp [Operation.transform, Operation.transformEdit, Edit.transform, Edit.on, transformed,
    Except.map]

variable {id : NodeId} {server client : Change} (rivals : document.Rivals id server client)
  (reachable : document.Reachable) (isOpen : document.isClosed = false)
  (stored : document.dataValue id = .ok inner)

include rivals reachable isOpen stored

theorem suits : inner.Proper ∧ server.Suits inner ∧ client.Suits inner := by
  obtain ⟨rfl, value, known, blocked, parent, mirrors, occurs, -, serverMade, clientMade⟩ :=
    rivals.exists_place reachable isOpen stored
  exact suits_at mirrors occurs serverMade clientMade

/-- Rivals merge to the node that their changes meet in. -/
theorem mergesTo (notNumeric : inner.kind ≠ .number) {outcome : Outcome Change}
    (transformed : server.transform client = .ok (some outcome))
    (meets : Change.Meets inner server client outcome) :
    document.MergesTo id server client
      (outcome.client.run (fun change value => change.applyTo value) (server.applyTo inner)) := by
  obtain ⟨rfl, value, known, blocked, parent, mirrors, occurs, clear, serverMade, clientMade⟩ :=
    rivals.exists_place reachable isOpen stored
  have new {change : Change} (made : Edit.Made value known blocked [.on inner.id change]) :
      ∀ id ∈ change.createdIds, ¬ known id :=
    fun id created => made.new id (List.mem_append_left _ created)
  obtain ⟨serverAdapts, clientAdapts⟩ := Change.transform_adapts transformed
  intro ancestry serverSession clientSession
  refine ⟨_, transform_single transformed ancestry, ?_⟩
  obtain ⟨⟨left, _, leftMerged, leftLast⟩, right, _, rightMerged, rightLast⟩ :=
    exists_merges mirrors occurs serverMade clientMade rivals notNumeric transformed meets
      serverSession clientSession
  refine ⟨left, right, leftMerged, rightMerged, ?_, ?_⟩
  · exact mirrors.dataValue_adapted occurs leftLast (new serverMade) (new clientMade) clear
      clientAdapts
  · rw [meets.same]
    exact mirrors.dataValue_adapted occurs rightLast (new clientMade) (new serverMade) clear
      serverAdapts

end Rivals

/-- Rivals that edit the contents of one kind of node merge as their edits do. -/
theorem Rivals.mergesTo_lift {α σ : Type} (wrap : α → Change) (place : σ → DataValue)
    {Fits : α → σ → Prop} {apply : α → σ → σ} {state : σ} {left right : α} {id : NodeId}
    (rivals : document.Rivals id (wrap left) (wrap right)) (reachable : document.Reachable)
    (isOpen : document.isClosed = false) (stored : document.dataValue id = .ok (place state))
    (notNumeric : (place state).kind ≠ .number) {outcome : Outcome α}
    (transformed : (wrap left).transform (wrap right) = .ok (some (outcome.lift wrap)))
    (meets : outcome.Converges Fits apply state left right)
    (fits : ∀ edit state, Fits edit state → (wrap edit).Fits (place state))
    (applied : ∀ edit state, (wrap edit).applyTo (place state) = place (apply edit state)) :
    document.MergesTo id (wrap left) (wrap right)
      (place (outcome.client.run apply (apply left state))) := by
  have merges := rivals.mergesTo reachable isOpen stored notNumeric transformed
    (meets.lift wrap place fits applied)
  rw [applied] at merges
  exact Adapted.run_map applied outcome.client (apply left state) ▸ merges

end Document

end SharedDocument
