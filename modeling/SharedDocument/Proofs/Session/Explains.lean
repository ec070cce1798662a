import SharedDocument.Proofs.Session.Ledger

/-! How a ledger explains a document. The log has led to a value, the pending edits stand on it, and the
document is a mirror of what they make of it. That stays so when an edit is made, when the first
pending ones enter the log, and when an operation of another session is put between them. -/

namespace SharedDocument

open DataValue (Occurs)

structure Edit.Sound (recorded : NodeId → NodeKind → Prop) (limit : Nat) (edit : Edit) : Prop where
  regular : edit.Regular limit
  kind : recorded edit.target edit.change.kind.nodeKind
  createdKinds : ∀ created ∈ edit.change.createdValues, created.HasKinds recorded

theorem Edit.Descends.sound {recorded : NodeId → NodeKind → Prop} {limit : Nat} {old new : Edit}
    (descends : Descends old new) (sound : old.Sound recorded limit) : new.Sound recorded limit where
  regular := descends.regular sound.regular
  kind := by
    rw [descends.target, descends.change.kind]
    exact sound.kind
  createdKinds := by
    rw [descends.change.createdValues]
    exact sound.createdKinds

namespace Ledger

/-- The log leads to the value, with some growth of its texts and arrays, and the document is what the
pending edits make of it. -/
structure Explains (base : Document) (limit : Nat) (ledger : Ledger) (document : Document)
    (pending : List Edit) (value : DataValue) (known : NodeId → Prop) (growth : Nat) : Prop where
  replayed : ∃ reached, base.replay ledger.log = .ok reached ∧
    reached.Mirrors value known fun _ => False
  mirrors : document.Mirrors (Edit.effects value pending)
    (fun id => known id ∨ id ∈ Edit.allCreatedIds pending) fun _ => False
  standing : Edit.Standing value known (fun _ => False) pending
  origin : ∀ id, known id →
    base.arena.isKnown id = true ∨ id ∈ Edit.allCreatedIds ledger.edits
  issued : ∀ id ∈ Edit.allCreatedIds pending, id ∈ Edit.allCreatedIds ledger.edits
  kinds : value.HasKinds (ledger.Recorded base)
  bounded : value.Bounded (limit + growth)
  light : growth + Edit.weights pending ≤ Edit.weights ledger.edits
  sound : ∀ edit ∈ pending, edit.isNoOp = false → edit.Sound (ledger.Recorded base) limit

namespace Explains

variable {base document : Document} {limit growth : Nat} {ledger later : Ledger}
  {pending front rest : List Edit} {value : DataValue} {known : NodeId → Prop}

theorem proper (explains : ledger.Explains base limit document pending value known growth) :
    value.Proper := by
  obtain ⟨_, -, mirrors⟩ := explains.replayed
  exact mirrors.arena.proper

theorem covers (explains : ledger.Explains base limit document pending value known growth) (id : NodeId)
    (listed : id ∈ value.nodeIds) : known id := by
  obtain ⟨_, -, mirrors⟩ := explains.replayed
  exact mirrors.arena.known_of_mem listed

theorem of_extends (explains : ledger.Explains base limit document pending value known growth)
    (extended : later.Extends ledger) (sameLog : later.log = ledger.log) :
    later.Explains base limit document pending value known growth where
  replayed := by
    rw [sameLog]
    exact explains.replayed
  mirrors := explains.mirrors
  standing := explains.standing
  origin := fun id isKnown =>
    (explains.origin id isKnown).imp_right fun listed => (extended.edits.flatMap _).subset listed
  issued := fun id listed => (extended.edits.flatMap _).subset (explains.issued id listed)
  kinds := fun _ _ _ occurs => extended.recorded (explains.kinds _ _ _ occurs)
  bounded := explains.bounded
  light := Nat.le_trans explains.light (Edit.weights_sublist extended.edits)
  sound := fun edit listed live =>
    have sound := explains.sound edit listed live
    ⟨sound.regular, extended.recorded sound.kind,
      fun created createdListed _ _ _ occurs =>
        extended.recorded (sound.createdKinds created createdListed _ _ _ occurs)⟩

theorem prepared (explains : ledger.Explains base limit document pending value known growth)
    (fair : ledger.Fair base limit) :
    Edit.Prepared .unrelated (fun _ => False) (limit + growth) value pending [] := by
  refine explains.standing.prepared explains.proper explains.covers explains.bounded ?_ ?_
  · exact fun edit listed live =>
      (explains.sound edit listed live).regular.mono (Nat.le_add_right _ _)
  · have small := fair.small
    have light := explains.light
    omega

theorem advance {operation : Operation}
    (explains : ledger.Explains base limit document (operation.edits ++ rest) value known growth)
    (fair : ledger.Fair base limit) (sessionId : String) :
    (ledger.enter [⟨sessionId, operation⟩]).Explains base limit document rest
      (Edit.effects value operation.edits) (fun id => known id ∨ id ∈ operation.createdIds)
      (growth + operation.weight) := by
  have prepared := explains.prepared fair
  obtain ⟨front, later⟩ := explains.standing.split
  have frontPrepared := prepared.fewer
  have soundFront (edit : Edit) (listed : edit ∈ operation.edits) :=
    explains.sound edit (List.mem_append_left _ listed)
  obtain ⟨reached, replayed, reachedMirrors⟩ := explains.replayed
  obtain ⟨next, incorporated, nextMirrors⟩ := reachedMirrors.incorporate sessionId
    (fun edit listed live => (soundFront edit listed live).regular.ordered) front.superseding
  have issued := explains.issued
  have light := explains.light
  simp only [Edit.allCreatedIds_append, List.mem_append] at issued
  rw [Edit.weights_append] at light
  refine ⟨⟨next, ?_, nextMirrors⟩, ?_, later, ?_, ?_, ?_, ?_, ?_, ?_⟩
  · exact (Document.replay_concat replayed _).trans incorporated
  · have mirrors := explains.mirrors
    rw [Edit.effects_append] at mirrors
    refine ⟨mirrors.arena.congr fun id => ?_, mirrors.root, mirrors.isOpen⟩
    rw [Edit.allCreatedIds_append, List.mem_append, or_assoc]
    rfl
  · rintro id (isKnown | isCreated)
    · exact explains.origin id isKnown
    · exact Or.inr (issued id (Or.inl isCreated))
  · exact fun id listed => issued id (Or.inr listed)
  · exact frontPrepared.hasKinds_effects explains.kinds
      fun edit listed live => (soundFront edit listed live).createdKinds
  · rw [← Nat.add_assoc]
    exact frontPrepared.finish.bounded
  · rw [Operation.weight, Nat.add_assoc]
    exact light
  · exact fun edit listed => explains.sound edit (List.mem_append_right _ listed)

theorem submit {operation : Operation} {result : Document × List Delivery}
    (explains : ledger.Explains base limit document pending value known growth)
    (fair : (ledger.submit operation).Fair base limit)
    (applied : document.apply .own operation = .ok result) :
    (ledger.submit operation).Explains base limit result.1 (pending ++ operation.edits) value known
      growth := by
  have extended := submit_extends ledger operation
  have counted := edits_submit ledger operation
  have plain := fair.plain operation (List.mem_append_right _ List.mem_cons_self)
  have listed {edit : Edit} (inside : edit ∈ operation.edits) :
      edit ∈ (ledger.submit operation).edits :=
    counted.mem_iff.mpr (List.mem_append_right _ inside)
  have weights : growth + Edit.weights (pending ++ operation.edits) ≤
      Edit.weights (ledger.submit operation).edits := by
    have light := explains.light
    rw [Edit.weights_perm counted, Edit.weights_append, Edit.weights_append]
    omega
  have old := explains.of_extends extended rfl
  have finished := (explains.prepared (fair.of_extends extended)).finish
  obtain ⟨made, after⟩ := explains.mirrors.apply_own plain applied
  have regular (edit : Edit) (inside : edit ∈ operation.edits) : edit.Regular limit :=
    ⟨plain.ordered edit inside, plain.notNumeric edit inside,
      fair.createdBounded edit (listed inside)⟩
  have prepared := made.prepared explains.mirrors.arena.proper
    (fun id => explains.mirrors.arena.known_of_mem) finished.bounded
    (fun edit inside _ => (regular edit inside).mono (by omega)) (by
      have small := fair.small
      rw [Edit.weights_append] at weights
      omega)
  have createdKinds (edit : Edit) (inside : edit ∈ operation.edits) (created : DataValue)
      (createdListed : created ∈ edit.change.createdValues) :
      created.HasKinds ((ledger.submit operation).Recorded base) :=
    created_hasKinds (listed inside) createdListed
  have reachedKinds := ((explains.prepared (fair.of_extends extended)).hasKinds_effects old.kinds
    fun edit inside live => (old.sound edit inside live).createdKinds)
  have newIds := made.new
  rw [Edit.allLiveIds_eq_created plain.active] at newIds
  refine ⟨old.replayed, ?_, ?_, old.origin, ?_, old.kinds, old.bounded, weights, ?_⟩
  · rw [Edit.effects_append]
    refine ⟨after.arena.congr fun id => ?_, after.root, after.isOpen⟩
    rw [Edit.allCreatedIds_append, List.mem_append, or_assoc]
    rfl
  · exact explains.standing.append made.toStanding
      fun id isOld isNew => newIds id isNew (Or.inr isOld)
  · intro id isCreated
    rw [Edit.allCreatedIds_append] at isCreated
    rcases List.mem_append.mp isCreated with isOld | isNew
    · exact old.issued id isOld
    · obtain ⟨edit, inside, created⟩ := List.mem_flatMap.mp isNew
      exact List.mem_flatMap.mpr ⟨edit, listed inside, created⟩
  · intro edit inside live
    rcases List.mem_append.mp inside with isOld | isNew
    · exact old.sound edit isOld live
    · exact ⟨regular edit isNew,
        prepared.recorded_kind made.attached reachedKinds
          (fun edit inside _ => createdKinds edit inside) isNew live,
        createdKinds edit isNew⟩

section

variable {entry : LogEntry}
  (explains : ledger.Explains base limit document pending value known growth)
  (fair : (ledger.arrive entry).Fair base limit)

include explains fair

theorem arrival_new {id : NodeId} (listed : id ∈ entry.operation.createdIds) :
    ¬ known id ∧ id ∉ Edit.allCreatedIds pending := by
  have created := fair.created
  have new := fair.new
  rw [edits_arrive, Edit.allCreatedIds_append] at created new
  have apart := (List.nodup_append'.mp created).2.2
  constructor
  · intro isKnown
    rcases explains.origin id isKnown with old | isCreated
    · rw [new id (List.mem_append_right _ listed)] at old
      exact Bool.false_ne_true old
    · exact apart isCreated listed
  · exact fun isPending => apart (explains.issued id isPending) listed

theorem arrival_stands :
    Edit.Standing value (fun id => known id ∨ id ∈ entry.operation.supersededIds) (fun _ => False)
        entry.operation.edits ∧
      ∃ next, base.replay (ledger.log ++ [entry]) = .ok next ∧
        next.Mirrors (Edit.effects value entry.operation.edits)
          (fun id => known id ∨ id ∈ entry.operation.createdIds) fun _ => False := by
  have isArrival := mem_arrive ledger entry
  have ordered := fair.ordered _ isArrival
  obtain ⟨reached, replayed, mirrors⟩ := explains.replayed
  obtain ⟨next, succeeds⟩ := fair.replays _ isArrival
  have incorporated := (Document.replay_concat replayed entry).symm.trans succeeds
  obtain ⟨_, applied, -⟩ := Fallible.bind_eq_ok_iff.mp incorporated
  obtain ⟨-, edited, appliedEdits, -⟩ := Document.apply_eq_ok_iff.mp applied
  have created := fair.created
  rw [edits_arrive, Edit.allCreatedIds_append] at created
  have ownCreated := (List.nodup_append'.mp created).2.1
  have stands := (mirrors.arena.markSuperseded entry.operation.supersededIds).standing_of_applyEdits
    (fun _ => id) (fun edit listed _ => ordered edit listed) ownCreated
    (fun id listed either => either.elim
      (explains.arrival_new fair ((Edit.allLiveIds_sublist_created _).subset listed)).1
      (Edit.notMem_allSupersededIds ownCreated listed))
    (fun id listed => Or.inr listed) appliedEdits
  obtain ⟨again, incorporatedAgain, nextMirrors⟩ := mirrors.incorporate entry.sessionId
    (fun edit listed _ => ordered edit listed) stands
  rw [incorporated] at incorporatedAgain
  cases incorporatedAgain
  exact ⟨stands, next, succeeds, nextMirrors⟩

/-- The ancestry is asked of the document, where the pending edits are applied already. -/
theorem arrival_concurrent :
    Edit.Concurrent document.arena.isAncestor (fun _ => False) (limit + growth) value
      entry.operation.edits pending := by
  have describes := explains.mirrors.arena.represents.describes
  obtain ⟨stands, -⟩ := explains.arrival_stands fair
  have new {id : NodeId} (listed : id ∈ Edit.allCreatedIds entry.operation.edits) :=
    explains.arrival_new fair listed
  have small : limit + growth + entry.operation.weight + Edit.weights pending <
      0xFFFFFFFFFFFFFFFF := by
    have small := fair.small
    have light := explains.light
    rw [edits_arrive, Edit.weights_append] at small
    rw [Operation.weight]
    omega
  have pendingAlone := explains.prepared (fair.of_extends (arrive_extends ledger entry))
  have agrees := pendingAlone.agrees_of_describes describes
  have alone : Edit.Prepared .unrelated (fun _ => False) (limit + growth) value
      entry.operation.edits [] := by
    refine stands.prepared explains.proper (fun id listed => Or.inl (explains.covers id listed))
      explains.bounded ?_ ?_
    · exact fun edit listed _ =>
        (fair.arrival_regular listed).1.mono (Nat.le_add_right _ _)
    · rw [Operation.weight] at small
      omega
  have pendingStands : Edit.Standing value
      (fun id => known id ∨ id ∈ entry.operation.supersededIds) (fun _ => False) pending := by
    refine explains.standing.mono (fun id => Or.inl) ?_
    rintro id listed (isKnown | superseded)
    · exact explains.standing.new id listed isKnown
    · exact (new (Edit.allSupersededIds_subset superseded)).2
        ((Edit.allLiveIds_sublist_created _).subset listed)
  refine stands.concurrent pendingStands (alone.consult agrees ?_)
    (pendingAlone.consult agrees fun edit listed live =>
      pendingAlone.agreesOn_of_describes describes listed live)
    (fun id listed => (new listed).2) small
  intro edit listed live
  refine describes.agreesOn_of_absent (fun id isLive inside => ?_) live
  have isNew := new ((Edit.allLiveIds_sublist_created _).subset
    (List.mem_flatMap.mpr ⟨edit, listed, isLive⟩))
  exact (explains.mirrors.arena.known_of_mem inside).elim isNew.1 isNew.2

theorem arrival_kindred {edit : Edit} (listed : edit ∈ entry.operation.edits) {other : Edit}
    (otherListed : other ∈ pending) : Edit.Kindred edit other := by
  intro _ otherLive together
  have isArrival := mem_arrive ledger entry
  have recorded := (arrive_extends ledger entry).recorded
    (explains.sound other otherListed otherLive).kind
  exact fair.kinds _ isArrival edit listed _ (together ▸ recorded)

end

/-- What is left of an operation that arrives can be incorporated after the queue, and the queue as it
has become accounts for the document after that. -/
theorem arrive {entry : LogEntry} {queue : List QueuedOperation}
    {result : Operation × List QueuedOperation}
    (explains : ledger.Explains base limit document (queuedEdits queue) value known growth)
    (fair : (ledger.arrive entry).Fair base limit)
    (rebased : Replica.rebase document.arena.isAncestor entry.operation queue = .ok result) :
    ∃ reached, document.incorporate entry.sessionId result.1 = .ok reached ∧
      ((ledger.arrive entry).enter [entry]).Explains base limit reached (queuedEdits result.2)
        (Edit.effects value entry.operation.edits)
        (fun id => known id ∨ id ∈ entry.operation.createdIds)
        (growth + entry.operation.weight) := by
  have concurrent := explains.arrival_concurrent fair
  obtain ⟨stands, next, replayed, nextMirrors⟩ := explains.arrival_stands fair
  obtain ⟨remoteRuns, queueRuns, same⟩ := Replica.rebase_settles concurrent rebased
  obtain ⟨remoteDescend, queueDescend⟩ := Replica.rebase_descends rebased
  have new {id : NodeId} (listed : id ∈ Edit.allCreatedIds entry.operation.edits) :=
    explains.arrival_new fair listed
  have sameRemote := Edit.allCreatedIds_descend remoteDescend
  have sameQueue := Edit.allCreatedIds_descend queueDescend
  have extended := arrive_extends ledger entry
  have old := explains.of_extends extended rfl
  have remoteStands : Edit.Standing (Edit.effects value (queuedEdits queue))
      (fun id => (known id ∨ id ∈ Edit.allCreatedIds (queuedEdits queue)) ∨
        id ∈ result.1.supersededIds) (fun _ => False) result.1.edits := by
    refine stands.transformed remoteDescend remoteRuns ?_ ?_
    · exact fun id => Or.imp Or.inl (Edit.allSupersededIds_descend remoteDescend)
    · rintro id listed (isKnown | superseded)
      · have isNew := new ((Edit.allLiveIds_sublist_created _).subset
          ((Edit.allLiveIds_sublist remoteDescend).subset listed))
        exact isKnown.elim isNew.1 isNew.2
      · exact Edit.notMem_allSupersededIds (sameRemote ▸ stands.created) listed superseded
  have ordered (edit : Edit) (listed : edit ∈ result.1.edits) (_ : edit.isNoOp = false) :
      edit.change.Ordered := by
    obtain ⟨older, olderListed, descends⟩ := Edit.exists_ancestor remoteDescend listed
    exact descends.change.ordered (fair.arrival_regular olderListed).1.ordered
  obtain ⟨reached, incorporated, mirrors⟩ :=
    explains.mirrors.incorporate entry.sessionId ordered remoteStands
  refine ⟨reached, incorporated, ⟨next, replayed, nextMirrors⟩, ?_, ?_, ?_, ?_, ?_, ?_, ?_, ?_⟩
  · rw [← same] at mirrors
    refine ⟨mirrors.arena.congr fun id => ?_, mirrors.root, mirrors.isOpen⟩
    change (_ ∨ id ∈ Edit.allCreatedIds result.1.edits) ↔ _
    rw [sameQueue, sameRemote]
    exact or_right_comm
  · refine explains.standing.transformed queueDescend queueRuns (fun id => Or.inl) ?_
    rintro id listed (isKnown | isCreated)
    · exact explains.standing.new id ((Edit.allLiveIds_sublist queueDescend).subset listed) isKnown
    · exact (new isCreated).2 ((Edit.allLiveIds_sublist_created _).subset
        ((Edit.allLiveIds_sublist queueDescend).subset listed))
  · rintro id (isKnown | isCreated)
    · exact old.origin id isKnown
    · refine Or.inr ?_
      change id ∈ Edit.allCreatedIds (ledger.arrive entry).edits
      rw [edits_arrive, Edit.allCreatedIds_append]
      exact List.mem_append_right _ isCreated
  · rw [sameQueue]
    exact old.issued
  · exact concurrent.toPrepared.hasKinds_effects old.kinds
      fun edit listed _ => (fair.arrival_regular listed).2
  · rw [← Nat.add_assoc]
    exact concurrent.toPrepared.finish.bounded
  · have light := explains.light
    change _ ≤ Edit.weights (ledger.arrive entry).edits
    rw [edits_arrive, Edit.weights_append, Edit.weights_descend queueDescend, Operation.weight]
    omega
  · intro edit listed live
    obtain ⟨older, olderListed, descends⟩ := Edit.exists_ancestor queueDescend listed
    exact descends.sound (old.sound older olderListed (descends.live live))

/-- The queue replays after the log, and leads to a mirror of the value that the document mirrors. -/
theorem replays_queue {queue : List QueuedOperation} {known : NodeId → Prop} {growth : Nat}
    (explains : ledger.Explains base limit document (queuedEdits queue) value known growth)
    (fair : ledger.Fair base limit) (sessionId : String) :
    ∃ reached last knownLast,
      base.replay (ledger.log ++ queue.map fun entry => ⟨sessionId, entry.operation⟩) =
        .ok reached ∧
      reached.Mirrors last knownLast (fun _ => False) ∧
      document.Mirrors last knownLast fun _ => False := by
  induction queue generalizing ledger value known growth with
  | nil =>
      obtain ⟨reached, replayed, mirrors⟩ := explains.replayed
      refine ⟨reached, value, known, ?_, mirrors, ?_⟩
      · rw [List.map_nil, List.append_nil]
        exact replayed
      · have same := explains.mirrors
        refine ⟨same.arena.congr fun id => ?_, same.root, same.isOpen⟩
        exact ⟨fun either => either.resolve_right List.not_mem_nil, Or.inl⟩
  | cons entry rest ih =>
      obtain ⟨reached, last, knownLast, replayed, both⟩ :=
        ih (explains.advance fair sessionId) (fair.enter [⟨sessionId, entry.operation⟩])
      refine ⟨reached, last, knownLast, ?_, both⟩
      rw [← replayed, enter, List.map_cons, List.append_assoc]
      rfl

end Explains

end Ledger

end SharedDocument
