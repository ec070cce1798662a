import SharedDocument.Proofs.Document.Mirrors
import SharedDocument.Proofs.Document.Refinement

/-! Convergence of two clients. Each has applied an operation of its own to one document, and then
incorporates what has become of the other's. Both end with one document, whatever the two
operations did to each other's nodes. -/

namespace SharedDocument

open DataValue (Occurs)

def NodeData.extent : NodeData → Nat
  | .string value => value.length
  | .array children => children.length
  | _ => 0

theorem NodeData.extent_data (value : DataValue) : value.data.extent = value.extent := by
  cases value <;> simp [DataValue.data, NodeData.extent, DataValue.extent]

/-- The texts and arrays of the value stay below the largest word with so much more. -/
def DataValue.HasRoom (value : DataValue) (amount : Nat) : Prop :=
  ∀ outerParent parent inner, Occurs outerParent value parent inner →
    inner.extent + amount < 0xFFFFFFFFFFFFFFFF

theorem DataValue.HasRoom.bounded {value : DataValue} {amount : Nat}
    (room : value.HasRoom amount) : value.Bounded (0xFFFFFFFFFFFFFFFE - amount) := by
  intro outerParent parent inner occurs
  have bound := room outerParent parent inner occurs
  omega

theorem DataValue.HasRoom.small {value : DataValue} {amount : Nat} (room : value.HasRoom amount) :
    0xFFFFFFFFFFFFFFFE - amount + amount < 0xFFFFFFFFFFFFFFFF := by
  have bound := room none none value .here
  omega

namespace Operation

def weight (operation : Operation) : Nat :=
  Edit.weights operation.edits

structure Plain (operation : Operation) : Prop where
  ordered : operation.Ordered
  active : ∀ edit ∈ operation.edits, edit.isNoOp = false
  notNumeric : ∀ edit ∈ operation.edits, ¬ edit.change.IsNumeric

def HasRoom (operation : Operation) (amount : Nat) : Prop :=
  ∀ edit ∈ operation.edits, ∀ created ∈ edit.change.createdValues, created.HasRoom amount

theorem plain_insert (target id : NodeId) (index : Word) :
    Plain (.single (.on target (.array (.insert index (.null id))))) := by
  refine ⟨?_, ?_, ?_⟩
  · intro edit listed
    rw [List.mem_singleton.mp listed]
    refine ⟨fun value created => ?_, trivial⟩
    rw [List.mem_singleton.mp created]
    exact .leaf rfl
  · intro edit listed
    rw [List.mem_singleton.mp listed]
    rfl
  · intro edit listed
    rw [List.mem_singleton.mp listed]
    exact fun numeric => by cases numeric

theorem Plain.regular {operation : Operation} {amount : Nat} (plain : operation.Plain)
    (room : operation.HasRoom amount) {edit : Edit} (listed : edit ∈ operation.edits) :
    edit.Regular (0xFFFFFFFFFFFFFFFE - amount) :=
  ⟨plain.ordered edit listed, plain.notNumeric edit listed,
    fun created createdListed => (room edit listed created createdListed).bounded⟩

end Operation

namespace Document

def HasRoom (document : Document) (amount : Nat) : Prop :=
  ∀ id node, document.arena.node? id = some node → node.data.extent + amount < 0xFFFFFFFFFFFFFFFF

/-- Incorporates an operation of another session; ids of its no-ops will never be created. -/
def incorporate (document : Document) (sessionId : String) (remote : Operation) :
    Except DocumentError Document := do
  let result ← (document.markSuperseded remote.supersededIds).apply (.peer sessionId) remote
  return result.1

/-- The document of a client that applies an operation of its own first. -/
def merge (document : Document) (own : Operation) (sessionId : String) (remote : Operation) :
    Except DocumentError Document := do
  let edited ← document.apply .own own
  edited.1.incorporate sessionId remote

end Document

namespace Document

variable {document : Document} {value : DataValue} {known blocked : NodeId → Prop}

structure Mirrors (document : Document) (value : DataValue) (known blocked : NodeId → Prop) :
    Prop where
  arena : document.arena.Mirrors value known blocked
  root : document.root = value.id
  isOpen : document.isClosed = false

namespace Mirrors

theorem snapshot_eq {other : Document} (mirrors : document.Mirrors value known blocked)
    (otherMirrors : other.Mirrors value known blocked) : document.snapshot = other.snapshot := by
  rw [snapshot, snapshot, mirrors.root, otherMirrors.root]
  exact mirrors.arena.dataValue_eq otherMirrors.arena value.id

theorem snapshot_eq_ok (mirrors : document.Mirrors value known blocked)
    (clear : ∀ id ∈ value.nodeIds, ¬ blocked id) : document.snapshot = .ok value := by
  rw [snapshot, mirrors.root]
  refine (mirrors.arena.represents.dataValue_eq_ok_iff value).mpr ⟨rfl, fun id listed => ?_⟩
  by_contra isDetached
  exact clear id listed ((mirrors.arena.blocks id listed).mp (Bool.not_eq_false _ ▸ isDetached))

theorem apply_own (mirrors : document.Mirrors value known blocked) {operation : Operation}
    (plain : operation.Plain) {result : Document × List Delivery}
    (succeeds : document.apply .own operation = .ok result) :
    Edit.Made value known blocked operation.edits ∧
      result.1.Mirrors (Edit.effects value operation.edits)
        (fun id => known id ∨ id ∈ operation.createdIds) blocked := by
  obtain ⟨-, edited, applied, rfl⟩ := apply_eq_ok_iff.mp succeeds
  obtain ⟨made, after⟩ := mirrors.arena.applyEdits_own plain.active plain.ordered applied
  exact ⟨made, after, mirrors.root.trans (Edit.id_effects _ _).symm, mirrors.isOpen⟩

theorem incorporate (mirrors : document.Mirrors value known blocked) (sessionId : String)
    {remote : Operation}
    (ordered : ∀ edit ∈ remote.edits, edit.isNoOp = false → edit.change.Ordered)
    (standing : Edit.Standing value (fun id => known id ∨ id ∈ remote.supersededIds) blocked
      remote.edits) :
    ∃ reached, document.incorporate sessionId remote = .ok reached ∧
      reached.Mirrors (Edit.effects value remote.edits)
        (fun id => known id ∨ id ∈ remote.createdIds) blocked := by
  obtain ⟨result, succeeds, after⟩ := mirrors.arena.incorporate sessionId ordered standing
  have sameRoot : document.root = (Edit.effects value remote.edits).id :=
    mirrors.root.trans (Edit.id_effects _ _).symm
  refine ⟨{ document with arena := result.1 }, ?_, after, sameRoot, mirrors.isOpen⟩
  exact Fallible.bind_eq_ok_iff.mpr
    ⟨(_, _), apply_eq_ok_iff.mpr ⟨mirrors.isOpen, result, succeeds, rfl⟩, rfl⟩

end Mirrors

theorem Reachable.mirrors (reachable : document.Reachable) (isOpen : document.isClosed = false) :
    ∃ value, document.Mirrors value (fun id => document.arena.isKnown id = true)
      (fun id => id ∈ value.nodeIds ∧ document.arena.isDetached id = true) := by
  obtain ⟨value, clashing, holds, root⟩ := reachable.holds
  refine ⟨value, ⟨holds.represents, fun id => Iff.rfl, ?_, ?_⟩, root, isOpen⟩
  · exact fun id listed => ⟨fun detached => ⟨listed, detached⟩, And.right⟩
  · exact fun id both => (holds.represents.isKnown_iff id).mpr (Or.inl both.1)

theorem Reachable.mirrors_snapshot (reachable : document.Reachable)
    (isOpen : document.isClosed = false) (snapshot : document.snapshot = .ok value) :
    document.Mirrors value (fun id => document.arena.isKnown id = true) fun _ => False := by
  obtain ⟨stored, mirrors⟩ := reachable.mirrors isOpen
  rw [Document.snapshot, mirrors.root] at snapshot
  obtain ⟨rfl, clear⟩ := (mirrors.arena.represents.dataValue_eq_ok_iff value).mp snapshot
  refine ⟨⟨mirrors.arena.represents, mirrors.arena.knows, fun id listed => ?_, fun _ => False.elim⟩,
    mirrors.root, mirrors.isOpen⟩
  rw [clear id listed]
  exact ⟨Bool.false_ne_true, False.elim⟩

/-- Two operations that clients made on one document at the same time: each was accepted on a copy of
the document, they create no node in common, and there is room for all that they add. -/
structure Simultaneous (document : Document) (server client : Operation) : Prop where
  serverPlain : server.Plain
  clientPlain : client.Plain
  serverAccepted : ∃ result, document.apply .own server = .ok result
  clientAccepted : ∃ result, document.apply .own client = .ok result
  apart : ∀ id ∈ server.createdIds, id ∉ client.createdIds
  room : document.HasRoom (server.weight + client.weight)
  serverRoom : server.HasRoom (server.weight + client.weight)
  clientRoom : client.HasRoom (server.weight + client.weight)

namespace Simultaneous

variable {server client : Operation}

theorem valueRoom (simultaneous : document.Simultaneous server client)
    (mirrors : document.Mirrors value known blocked) :
    value.HasRoom (server.weight + client.weight) := by
  intro outerParent parent inner occurs
  obtain ⟨otherParent, stands⟩ := occurs.exists_below none
  have bound := simultaneous.room inner.id _ (mirrors.arena.represents.holds _ _ stands)
  rwa [DataValue.node, NodeData.extent_data] at bound

theorem concurrent (simultaneous : document.Simultaneous server client)
    (mirrors : document.Mirrors value known blocked)
    (serverMade : Edit.Made value known blocked server.edits)
    (clientMade : Edit.Made value known blocked client.edits) :
    Edit.Concurrent document.arena.isAncestor blocked
      (0xFFFFFFFFFFFFFFFE - (server.weight + client.weight)) value server.edits client.edits := by
  have room := simultaneous.valueRoom mirrors
  have small := room.small
  have describes := mirrors.arena.represents.describes
  have alone {operation : Operation} (plain : operation.Plain)
      (operationRoom : operation.HasRoom (server.weight + client.weight))
      (made : Edit.Made value known blocked operation.edits)
      (lighter : operation.weight ≤ server.weight + client.weight) :
      Edit.Prepared document.arena.isAncestor blocked
        (0xFFFFFFFFFFFFFFFE - (server.weight + client.weight)) value operation.edits [] := by
    refine (made.prepared mirrors.arena.proper (fun id => mirrors.arena.known_of_mem) room.bounded
      (fun edit listed _ => plain.regular operationRoom listed) ?_).consult describes.agrees ?_
    · rw [Operation.weight] at lighter
      omega
    · exact fun edit listed => describes.agreesOn_of_absent fun id isLive old =>
        made.new id (List.mem_flatMap.mpr ⟨edit, listed, isLive⟩) (mirrors.arena.known_of_mem old)
  refine serverMade.concurrent clientMade.toStanding ?_ ?_ simultaneous.apart ?_
  · exact alone simultaneous.serverPlain simultaneous.serverRoom serverMade (Nat.le_add_right _ _)
  · exact alone simultaneous.clientPlain simultaneous.clientRoom clientMade (Nat.le_add_left _ _)
  · simp only [Operation.weight] at small ⊢
    omega

end Simultaneous

theorem merge_of_settled {own : Operation} (mirrors : document.Mirrors value known blocked)
    (ownPlain : own.Plain) (ownAccepted : ∃ result, document.apply .own own = .ok result)
    (sessionId : String) {original remote : Operation} (plain : original.Plain)
    (standing : Edit.Standing value known blocked original.edits)
    (descend : List.Forall₂ Edit.Descends original.edits remote.edits)
    (runs : Edit.Runs blocked (Edit.effects value own.edits) remote.edits)
    (apart : ∀ id ∈ original.createdIds, id ∉ own.createdIds) :
    ∃ reached, document.merge own sessionId remote = .ok reached ∧
      reached.Mirrors (Edit.effects (Edit.effects value own.edits) remote.edits)
        (fun id => (known id ∨ id ∈ own.createdIds) ∨ id ∈ original.createdIds) blocked := by
  obtain ⟨edited, applied⟩ := ownAccepted
  obtain ⟨-, next⟩ := mirrors.apply_own ownPlain applied
  have sameIds : remote.createdIds = original.createdIds := Edit.allCreatedIds_descend descend
  have ordered : ∀ edit ∈ remote.edits, edit.isNoOp = false → edit.change.Ordered := by
    intro edit listed _
    obtain ⟨older, olderListed, descends⟩ := Edit.exists_ancestor descend listed
    exact descends.change.ordered (plain.ordered older olderListed)
  have live := (Edit.allLiveIds_sublist descend).subset
  have stands : Edit.Standing (Edit.effects value own.edits) (fun id => known id ∨ id ∈ own.createdIds)
      blocked remote.edits := by
    refine standing.transformed descend runs (fun id => Or.inl) ?_
    rintro id listed (isKnown | isOwn)
    · exact standing.new id (live listed) isKnown
    · exact apart id ((Edit.allLiveIds_sublist_created _).subset (live listed)) isOwn
  obtain ⟨reached, incorporated, last⟩ := next.incorporate sessionId ordered stands.superseding
  refine ⟨reached, ?_, sameIds ▸ last⟩
  simp only [merge, Fallible.bind_eq_ok_iff]
  exact ⟨edited, applied, incorporated⟩

/-- Convergence: operations made on one document at the same time can be transformed, and a client
that incorporates the one after the other ends with the same document in either order. -/
theorem merge_converges (reachable : document.Reachable) (isOpen : document.isClosed = false)
    {server client : Operation} (simultaneous : document.Simultaneous server client)
    (serverSession clientSession : String) :
    ∃ pair, Operation.transform document.arena.isAncestor server client = .ok pair ∧
      ∃ left right, document.merge server clientSession pair.client = .ok left ∧
        document.merge client serverSession pair.server = .ok right ∧
        left.snapshot = right.snapshot ∧
        ((∃ value, document.snapshot = .ok value) → ∃ value, left.snapshot = .ok value) := by
  obtain ⟨value, mirrors⟩ := reachable.mirrors isOpen
  obtain ⟨_, serverApplied⟩ := simultaneous.serverAccepted
  obtain ⟨_, clientApplied⟩ := simultaneous.clientAccepted
  obtain ⟨serverMade, -⟩ := mirrors.apply_own simultaneous.serverPlain serverApplied
  obtain ⟨clientMade, -⟩ := mirrors.apply_own simultaneous.clientPlain clientApplied
  have concurrent := simultaneous.concurrent mirrors serverMade clientMade
  obtain ⟨result, transformedEdits⟩ :=
    concurrent.exists_outcome serverMade.attached clientMade.attached
  rw [← Operation.edits_transform] at transformedEdits
  obtain ⟨pair, transformed, same⟩ := Fallible.map_eq_ok_iff.mp transformedEdits
  subst same
  rw [Operation.edits_transform] at transformedEdits
  obtain ⟨serverRuns, clientRuns, sameValue⟩ := Edit.transformAll_settles concurrent transformedEdits
  obtain ⟨serverDescend, clientDescend⟩ := Edit.transformAll_descends transformedEdits
  obtain ⟨left, leftMerged, leftMirrors⟩ := merge_of_settled mirrors simultaneous.serverPlain
    simultaneous.serverAccepted clientSession simultaneous.clientPlain clientMade.toStanding clientDescend
    clientRuns fun id inClient inServer => simultaneous.apart id inServer inClient
  obtain ⟨right, rightMerged, rightMirrors⟩ := merge_of_settled mirrors simultaneous.clientPlain
    simultaneous.clientAccepted serverSession simultaneous.serverPlain serverMade.toStanding serverDescend
    serverRuns simultaneous.apart
  refine ⟨pair, transformed, left, right, leftMerged, rightMerged, ?_, ?_⟩
  · rw [← sameValue] at rightMirrors
    refine leftMirrors.snapshot_eq ⟨rightMirrors.arena.congr ?_, rightMirrors.root,
      rightMirrors.isOpen⟩
    exact fun id => or_right_comm
  · rintro ⟨stored, snapshot⟩
    refine ⟨_, leftMirrors.snapshot_eq_ok ?_⟩
    rintro id - ⟨listed, detached⟩
    rw [Document.snapshot, mirrors.root] at snapshot
    have clear := ((mirrors.arena.represents.dataValue_eq_ok_iff stored).mp snapshot).2 id listed
    rw [clear] at detached
    exact Bool.false_ne_true detached

/-- Two first elements of one empty array. -/
theorem merge_converges_insertions :
    ∃ document : Document, document.snapshot = .ok (.array ⟨"list"⟩ []) ∧
      ∃ pair,
        Operation.transform document.arena.isAncestor
          (.single (.on ⟨"list"⟩ (.array (.insert .zero (.null ⟨"server"⟩)))))
          (.single (.on ⟨"list"⟩ (.array (.insert .zero (.null ⟨"client"⟩))))) = .ok pair ∧
        ∃ left right,
          document.merge (.single (.on ⟨"list"⟩ (.array (.insert .zero (.null ⟨"server"⟩)))))
            "client" pair.client = .ok left ∧
          document.merge (.single (.on ⟨"list"⟩ (.array (.insert .zero (.null ⟨"client"⟩)))))
            "server" pair.server = .ok right ∧
          left.snapshot = right.snapshot := by
  have reachable : Reachable
      ⟨⟨"list"⟩, Arena.empty.attach none (.array ⟨"list"⟩ []), .none, true, false⟩ :=
    ⟨.array ⟨"list"⟩ [], _, [], .leaf rfl, rfl, by simp, rfl⟩
  have plain (id : NodeId) := Operation.plain_insert ⟨"list"⟩ id .zero
  have room (id : NodeId) : Operation.HasRoom
      (.single (.on ⟨"list"⟩ (.array (.insert .zero (.null id))))) 2 := by
    intro edit listed created createdListed outerParent parent inner occurs
    rw [List.mem_singleton.mp listed] at createdListed
    rw [List.mem_singleton.mp createdListed] at occurs
    rw [occurs.eq_of_childless rfl]
    exact (by decide : 0 + 2 < 0xFFFFFFFFFFFFFFFF)
  have documentRoom : HasRoom
      ⟨⟨"list"⟩, Arena.empty.attach none (.array ⟨"list"⟩ []), .none, true, false⟩ 2 := by
    intro id node found
    change Keyed.find? id [(⟨"list"⟩, ⟨⟨"list"⟩, none, .array []⟩)] = some node at found
    rw [Keyed.find?] at found
    split at found
    · cases found
      decide
    · cases found
  have simultaneous : Simultaneous
      ⟨⟨"list"⟩, Arena.empty.attach none (.array ⟨"list"⟩ []), .none, true, false⟩
      (.single (.on ⟨"list"⟩ (.array (.insert .zero (.null ⟨"server"⟩)))))
      (.single (.on ⟨"list"⟩ (.array (.insert .zero (.null ⟨"client"⟩))))) :=
    ⟨plain _, plain _, ⟨_, rfl⟩, ⟨_, rfl⟩, by decide, documentRoom, room _, room _⟩
  obtain ⟨pair, transformed, left, right, leftMerged, rightMerged, same, -⟩ :=
    merge_converges reachable rfl simultaneous "server" "client"
  exact ⟨_, rfl, pair, transformed, left, right, leftMerged, rightMerged, same⟩

end Document

end SharedDocument
