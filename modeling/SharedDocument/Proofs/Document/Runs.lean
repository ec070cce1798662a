import SharedDocument.Document
import SharedDocument.Proofs.Document.Represents

/-! Runs of a document. In every state that a run reaches the arena represents a value, whatever was
asked and whether or not it was granted. An attached id can be detached as well in one way only: an
element that was skipped, because its target was detached, named it among the ids that it creates. -/

namespace SharedDocument

def Operation.Ordered (operation : Operation) : Prop :=
  ∀ edit ∈ operation.edits, edit.change.Ordered

inductive Request where
  | apply (origin : Origin) (operation : Operation)
  | markSuperseded (ids : List NodeId)
  | setReference (id : NodeId) (reference : Reference)
  | removeReference (id : NodeId) (name : ReferenceName)
  | removeSessionReferences (sessionId : String)
  | close

def Request.Ordered : Request → Prop
  | .apply _ operation => operation.Ordered
  | _ => True

namespace Arena

def skippedIds (origin : Origin) (arena : Arena) : List Edit → List NodeId
  | [] => []
  | edit :: rest =>
      if edit.isNoOp then skippedIds origin arena rest
      else
        match arena.applyEdit origin edit with
        | .error _ => []
        | .ok (edited, _) =>
            (if arena.isDetached edit.target then edit.change.createdIds else []) ++
              skippedIds origin edited rest

structure Clashes (arena : Arena) (value : DataValue) (clashing : List NodeId) : Prop where
  represents : arena.Represents value
  marked : ∀ id ∈ clashing, arena.isDetached id = true
  clash : ∀ id ∈ value.nodeIds, arena.isDetached id = true → id ∈ clashing

end Arena

namespace Document

def perform (document : Document) : Request → Document
  | .apply origin operation =>
      match document.apply origin operation with
      | .ok (changed, _) => changed
      | .error _ => document
  | .markSuperseded ids => document.markSuperseded ids
  | .setReference id reference =>
      match document.setReference id reference with
      | .ok changed => changed
      | .error _ => document
  | .removeReference id name => (document.removeReference id name).2
  | .removeSessionReferences sessionId => document.removeSessionReferences sessionId
  | .close => document.close

def performAll (document : Document) : List Request → Document
  | [] => document
  | request :: rest => (document.perform request).performAll rest

def skippedIds (document : Document) : Request → List NodeId
  | .apply origin operation =>
      match document.apply origin operation with
      | .ok _ => document.arena.skippedIds origin operation.edits
      | .error _ => []
  | _ => []

def skippedAlong (document : Document) : List Request → List NodeId
  | [] => []
  | request :: rest =>
      document.skippedIds request ++ (document.perform request).skippedAlong rest

def Reachable (document : Document) : Prop :=
  ∃ (value : DataValue) (start : Document) (requests : List Request),
    value.Ordered ∧ ofValue value = .ok start ∧ (∀ request ∈ requests, request.Ordered) ∧
      document = start.performAll requests

end Document

namespace Arena.Clashes

variable {arena : Arena} {value : DataValue} {clashing : List NodeId}

theorem applyEdit (clashes : arena.Clashes value clashing) {origin : Origin} {edit : Edit}
    {result : Arena × List ChangeEvent} (ordered : edit.change.Ordered)
    (succeeds : arena.applyEdit origin edit = .ok result) :
    ∃ next, result.1.Clashes next
        (clashing ++ if arena.isDetached edit.target then edit.change.createdIds else []) ∧
      next.id = value.id := by
  by_cases detached : arena.isDetached edit.target = true
  · rw [if_pos detached]
    cases origin with
    | own => simp [Arena.applyEdit, detached] at succeeds
    | peer sessionId =>
        rw [applyEdit_skip detached] at succeeds
        cases succeeds
        refine ⟨value, ⟨clashes.represents.skip _, ?_, ?_⟩, rfl⟩
        · intro id listed
          rw [isDetached_foldl_addDetached]
          rcases List.mem_append.mp listed with before | created
          · exact Or.inr (clashes.marked id before)
          · exact Or.inl created
        · intro id listed both
          rcases (isDetached_foldl_addDetached _ _).mp both with created | before
          · exact List.mem_append_right _ created
          · exact List.mem_append_left _ (clashes.clash id listed before)
  · rw [if_neg detached, List.append_nil]
    obtain ⟨⟨parent, inner, admits⟩, represents, detachedIds⟩ :=
      clashes.represents.applyEdit ordered (Bool.not_eq_true _ ▸ detached) succeeds
    refine ⟨_, ⟨represents, ?_, ?_⟩, DataValue.id_editAt (Change.id_applyTo _) value⟩
    · exact fun id listed => (detachedIds id).mpr (Or.inl (clashes.marked id listed))
    · intro id listed both
      have before := ((detachedIds id).mp both).resolve_right fun lost => lost.2 listed
      rcases ((admits.mem_nodeIds_iff clashes.represents id).mp listed).1 with created | old
      · have unknown := (isKnown_eq_false_iff.mp (admits.fresh.2 id created)).2
        exact absurd before (by simp [unknown])
      · exact clashes.clash id old before

theorem applyEdits (clashes : arena.Clashes value clashing) {origin : Origin} {edits : List Edit}
    {result : Arena × List ChangeEvent} (ordered : ∀ edit ∈ edits, edit.change.Ordered)
    (succeeds : arena.applyEdits origin edits = .ok result) :
    ∃ next, result.1.Clashes next (clashing ++ arena.skippedIds origin edits) ∧
      next.id = value.id := by
  induction edits generalizing arena value clashing result with
  | nil =>
      cases succeeds
      exact ⟨value, by simpa [skippedIds] using clashes, rfl⟩
  | cons edit rest ih =>
      obtain ⟨editOrdered, restOrdered⟩ := List.forall_mem_cons.mp ordered
      unfold Arena.applyEdits at succeeds
      unfold skippedIds
      split
      · rename_i isNoOp
        rw [if_pos isNoOp] at succeeds
        exact ih clashes restOrdered succeeds
      · rename_i effective
        rw [if_neg effective] at succeeds
        cases applied : arena.applyEdit origin edit with
        | error fault => simp [applied] at succeeds
        | ok edited =>
            obtain ⟨next, nextClashes, sameRoot⟩ := clashes.applyEdit editOrdered applied
            simp only [applied] at succeeds
            cases further : edited.1.applyEdits origin rest with
            | error fault => simp [further] at succeeds
            | ok reached =>
                simp only [further, Except.ok.injEq] at succeeds
                obtain ⟨last, lastClashes, sameAgain⟩ := ih nextClashes restOrdered further
                refine ⟨last, ?_, sameAgain.trans sameRoot⟩
                rw [← succeeds, ← List.append_assoc]
                exact lastClashes

theorem markSuperseded (clashes : arena.Clashes value clashing) (ids : List NodeId) :
    (arena.markSuperseded ids).Clashes value clashing := by
  refine ⟨clashes.represents.markSuperseded ids, ?_, ?_⟩
  · exact fun id listed =>
      (isDetached_markSuperseded ids id).mpr (Or.inr (clashes.marked id listed))
  · intro id listed both
    rcases (isDetached_markSuperseded ids id).mp both with ⟨_, absent⟩ | before
    · exact absurd absent (clashes.represents.holds.node?_ne_none listed)
    · exact clashes.clash id listed before

theorem withReferences (clashes : arena.Clashes value clashing)
    {references : List (NodeId × ReferenceMap)}
    (known : ∀ id, Keyed.find? id references ≠ none → id ∈ value.nodeIds) :
    { arena with references := references }.Clashes value clashing :=
  ⟨clashes.represents.congr rfl known, clashes.marked, clashes.clash⟩

end Arena.Clashes

namespace Document

def Holds (document : Document) (value : DataValue) (clashing : List NodeId) : Prop :=
  document.arena.Clashes value clashing ∧ document.root = value.id

variable {document : Document} {value : DataValue} {clashing : List NodeId}

theorem holds_ofValue {start : Document} (ordered : value.Ordered)
    (built : ofValue value = .ok start) : start.Holds value [] := by
  obtain ⟨_, checked, same⟩ := Fallible.bind_eq_ok_iff.mp built
  have fresh := Arena.checkNew_eq_ok_iff.mp checked
  rw [List.flatMap_singleton] at fresh
  cases same
  have detached := (Arena.adds_attach fresh.1 none .empty).detached
  refine ⟨⟨.attach fresh.1 ordered, by simp, ?_⟩, rfl⟩
  intro id _ both
  rw [Arena.isDetached, detached] at both
  simp [Arena.empty] at both

theorem apply_eq_ok_iff {origin : Origin} {operation : Operation}
    {result : Document × List Delivery} :
    document.apply origin operation = .ok result ↔
      document.isClosed = false ∧ ∃ edited,
        document.arena.applyEdits origin operation.edits = .ok edited ∧
        result = ({ document with arena := edited.1 },
          if document.receives origin then document.subscribers.receiveAll edited.2 else []) := by
  unfold apply ensureOpen
  cases document.isClosed with
  | true => simp [bind, Except.bind]
  | false =>
      simp only [Bool.false_eq_true, if_false, Fallible.bind_eq_ok_iff, Fallible.pure_eq_ok_iff,
        true_and]
      constructor
      · rintro ⟨_, edited, changed, same⟩
        exact ⟨edited, changed, same.symm⟩
      · rintro ⟨edited, changed, same⟩
        exact ⟨(), edited, changed, same.symm⟩

theorem holds_setReferences (holds : document.Holds value clashing) {id : NodeId}
    {references : ReferenceMap} (known : id ∈ value.nodeIds) :
    (document.setReferences id references).Holds value clashing := by
  refine ⟨holds.1.withReferences fun other present => ?_, holds.2⟩
  rw [Keyed.find?_insert] at present
  split at present
  · rename_i here
    rw [here]
    exact known
  · exact holds.1.represents.references other present

/-- A request leads from a represented value to a represented value with the same root. -/
theorem holds_perform (holds : document.Holds value clashing) {request : Request}
    (ordered : request.Ordered) :
    ∃ next, (document.perform request).Holds next (clashing ++ document.skippedIds request) := by
  cases request with
  | apply origin operation =>
      simp only [perform, skippedIds]
      cases applied : document.apply origin operation with
      | error fault => exact ⟨value, by simpa using holds⟩
      | ok result =>
          obtain ⟨-, edited, changed, rfl⟩ := apply_eq_ok_iff.mp applied
          obtain ⟨next, clashes, sameRoot⟩ := holds.1.applyEdits ordered changed
          exact ⟨next, clashes, holds.2.trans sameRoot.symm⟩
  | markSuperseded ids =>
      simp only [perform, skippedIds, List.append_nil]
      exact ⟨value, holds.1.markSuperseded ids, holds.2⟩
  | setReference id reference =>
      simp only [perform, skippedIds, List.append_nil]
      cases set : document.setReference id reference with
      | error fault => exact ⟨value, holds⟩
      | ok changed =>
          simp only [setReference, Fallible.bind_eq_ok_iff, Fallible.pure_eq_ok_iff] at set
          obtain ⟨_, _, _, found, references, _, rfl⟩ := set
          refine ⟨value, holds_setReferences holds ?_⟩
          obtain ⟨node, attached⟩ := Fallible.exists_of_discard found
          apply holds.1.represents.only
          simp [(Arena.attached_eq_ok_iff.mp attached).2]
  | removeReference id name =>
      simp only [perform, skippedIds, List.append_nil, removeReference]
      cases found : (document.referencesOf id).get? name with
      | none => exact ⟨value, holds⟩
      | some reference =>
          refine ⟨value, holds_setReferences holds (holds.1.represents.references id ?_)⟩
          intro absent
          simp [referencesOf, absent, ReferenceMap.get?, ReferenceMap.empty] at found
  | removeSessionReferences sessionId =>
      simp only [perform, skippedIds, List.append_nil]
      refine ⟨value, holds.1.withReferences fun id present => ?_, holds.2⟩
      rw [Keyed.find?_mapValues] at present
      apply holds.1.represents.references id
      intro absent
      simp [absent] at present
  | close =>
      simp only [perform, skippedIds, List.append_nil]
      exact ⟨value, holds.1.withReferences fun id present => absurd rfl present, holds.2⟩

theorem holds_performAll (holds : document.Holds value clashing) {requests : List Request}
    (ordered : ∀ request ∈ requests, request.Ordered) :
    ∃ next, (document.performAll requests).Holds next
      (clashing ++ document.skippedAlong requests) := by
  induction requests generalizing document value clashing with
  | nil => exact ⟨value, by simpa [performAll, skippedAlong] using holds⟩
  | cons request rest ih =>
      obtain ⟨first, later⟩ := List.forall_mem_cons.mp ordered
      obtain ⟨next, nextHolds⟩ := holds_perform holds first
      obtain ⟨last, lastHolds⟩ := ih nextHolds later
      refine ⟨last, ?_⟩
      rw [performAll, skippedAlong, ← List.append_assoc]
      exact lastHolds

theorem Reachable.holds (reachable : document.Reachable) :
    ∃ value clashing, document.Holds value clashing := by
  obtain ⟨value, start, requests, ordered, built, requestsOrdered, rfl⟩ := reachable
  obtain ⟨next, nextHolds⟩ := holds_performAll (holds_ofValue ordered built) requestsOrdered
  exact ⟨next, _, nextHolds⟩

end Document

end SharedDocument
