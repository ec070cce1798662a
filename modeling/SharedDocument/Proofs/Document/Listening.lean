import SharedDocument.Proofs.Document.Departures

/-! Listening to a document. A subscriber to all changes who starts from the JSON of the document, and
writes every new value where its event says, has the JSON of the document at every moment. -/

namespace SharedDocument

/-- What the events make of some JSON: a departure changes nothing, and any other change finds its old
value at its path and leaves its new value there. -/
inductive Follows : Json → List ChangeEvent → Json → Prop
  | done {json} : Follows json [] json
  | departure {json last event rest} : event.kind = .detached → Follows json rest last →
      Follows json (event :: rest) last
  | change {json next last event rest kind old new} : event.kind = .applied kind →
      event.oldValue = some old → event.newValue = some new →
      json.at? event.path = some old → json.replaceAt? event.path new = some next →
      Follows next rest last → Follows json (event :: rest) last

theorem Follows.append {json next last : Json} {earlier later : List ChangeEvent}
    (first : Follows json earlier next) (second : Follows next later last) :
    Follows json (earlier ++ later) last := by
  induction first with
  | done => exact second
  | departure kind _ ih => exact .departure kind (ih second)
  | change kind old new found written _ ih => exact .change kind old new found written (ih second)

theorem Follows.departures (json : Json) {events : List ChangeEvent}
    (leave : ∀ event ∈ events, event.kind = .detached) : Follows json events json := by
  induction events with
  | nil => exact .done
  | cons event rest ih =>
      obtain ⟨first, later⟩ := List.forall_mem_cons.mp leave
      exact .departure first (ih later)

namespace Arena

variable {arena : Arena} {value inner : DataValue} {origin : Origin} {path : Path}

theorem Reports.kind {gone : List DataValue} {events : List ChangeEvent}
    (reports : Reports inner gone origin path events) :
    ∀ event ∈ events, event.kind = .detached := by
  obtain ⟨lost, -, -, rfl⟩ := reports
  intro event listed
  obtain ⟨entry, -, rfl⟩ := List.mem_map.mp listed
  cases origin <;> rfl

namespace Represents

variable {result : Arena × List ChangeEvent} (represents : arena.Represents value)

include represents

theorem follows_applyEdit {edit : Edit} (ordered : edit.change.Ordered)
    (succeeds : arena.applyEdit origin edit = .ok result) :
    ∃ next, result.1.Represents next ∧ next.id = value.id ∧
      Follows value.json result.2 next.json := by
  by_cases detached : arena.isDetached edit.target = true
  · cases origin with
    | own => simp [Arena.applyEdit, detached] at succeeds
    | peer sessionId =>
        rw [applyEdit_skip detached] at succeeds
        cases succeeds
        exact ⟨value, represents.skip _, rfl, .done⟩
  · have attached := Bool.not_eq_true _ ▸ detached
    obtain ⟨-, edited, -⟩ := represents.applyEdit ordered attached succeeds
    obtain ⟨parent, inner, path, departures, admits, -, located, reports, -, -, same⟩ :=
      represents.report_applyEdit ordered attached succeeds
    refine ⟨_, edited, DataValue.id_editAt edit.change.id_applyTo value, ?_⟩
    have found : value.json.at? path = some inner.json := by
      rw [DataValue.at?_json, located, Option.map_some]
    have written := DataValue.replaceAt?_json represents.ordered represents.distinct located
      edit.change.applyTo
    rw [admits.target] at written
    rw [same]
    refine (Follows.departures value.json reports.kind).append ?_
    cases origin <;> exact .change rfl rfl rfl found written .done

theorem follows_applyEdits {edits : List Edit} (ordered : ∀ edit ∈ edits, edit.change.Ordered)
    (succeeds : arena.applyEdits origin edits = .ok result) :
    ∃ next, result.1.Represents next ∧ next.id = value.id ∧
      Follows value.json result.2 next.json := by
  induction edits generalizing arena value result with
  | nil =>
      cases succeeds
      exact ⟨value, represents, rfl, .done⟩
  | cons edit rest ih =>
      obtain ⟨first, later⟩ := List.forall_mem_cons.mp ordered
      unfold Arena.applyEdits at succeeds
      split at succeeds
      · exact ih represents later succeeds
      · split at succeeds
        · cases succeeds
        · rename_i edited events applied
          split at succeeds
          · cases succeeds
          · rename_i reached more further
            cases succeeds
            obtain ⟨next, nextRepresents, sameRoot, follows⟩ :=
              represents.follows_applyEdit first applied
            obtain ⟨last, lastRepresents, sameAgain, followsOn⟩ := ih nextRepresents later further
            exact ⟨last, lastRepresents, sameAgain.trans sameRoot, follows.append followsOn⟩

end Represents

end Arena

/-! Subscriptions. -/

def receivedBy (subscription : Nat) (deliveries : List Delivery) : List ChangeEvent :=
  (deliveries.filter fun delivery => delivery.subscription == subscription).map Delivery.event

theorem receivedBy_append (subscription : Nat) (earlier later : List Delivery) :
    receivedBy subscription (earlier ++ later) =
      receivedBy subscription earlier ++ receivedBy subscription later := by
  simp [receivedBy]

namespace Subscribers

def Hears (subscribers : Subscribers) (subscription : Nat) : Prop :=
  (subscribers.entries.filter fun entry => entry.1 == subscription) = [(subscription, .all)]

theorem receivedBy_receiveAll {subscribers : Subscribers} {subscription : Nat}
    (hears : subscribers.Hears subscription) (events : List ChangeEvent) :
    receivedBy subscription (subscribers.receiveAll events) = events := by
  induction events with
  | nil => rfl
  | cons event rest ih =>
      have once : receivedBy subscription (subscribers.receive event) = [event] := by
        calc receivedBy subscription (subscribers.receive event)
            = ((subscribers.entries.filter fun entry => entry.2.accepts event).filter
                fun entry => entry.1 == subscription).map fun _ => event := by
              simp only [receivedBy, receive, List.filter_map, List.map_map]
              rfl
          _ = [event] := by
              rw [List.filter_comm, hears]
              rfl
      rw [receiveAll, List.flatMap_cons, receivedBy_append, once]
      exact congrArg (event :: ·) ih

def Numbered (subscribers : Subscribers) : Prop :=
  ∀ entry ∈ subscribers.entries, entry.1 < subscribers.next

theorem Numbered.hears_add {subscribers : Subscribers} (numbered : subscribers.Numbered) :
    (subscribers.add .all).2.Hears (subscribers.add .all).1 := by
  have apart : (subscribers.entries.filter fun entry => entry.1 == subscribers.next) = [] := by
    rw [List.filter_eq_nil_iff]
    intro entry listed same
    exact absurd (beq_iff_eq.mp same) (Nat.ne_of_lt (numbered entry listed))
  simp [Hears, add, List.filter_append, apart]

end Subscribers

namespace Document

variable {document next : Document} {value : DataValue} {clashing : List NodeId}
  {subscription : Nat}

def deliveries (document : Document) : Request → List Delivery
  | .apply origin operation =>
      match document.apply origin operation with
      | .ok (_, deliveries) => deliveries
      | .error _ => []
  | _ => []

def deliveriesAlong (document : Document) : List Request → List Delivery
  | [] => []
  | request :: rest => document.deliveries request ++ (document.perform request).deliveriesAlong rest

structure Succeeds (document next : Document) : Prop where
  root : next.root = document.root
  emits : next.emitsLocalEvents = document.emitsLocalEvents
  audience : (next.isClosed = document.isClosed ∧ next.subscribers = document.subscribers) ∨
    (next.isClosed = true ∧ next.subscribers = document.subscribers.clear)

theorem Succeeds.of_arena (document : Document) (arena : Arena) :
    document.Succeeds { document with arena := arena } :=
  ⟨rfl, rfl, Or.inl ⟨rfl, rfl⟩⟩

/-- A request is an operation that is granted, or its subscribers hear nothing of it and it keeps all
nodes as they are. -/
theorem perform_cases (document : Document) (request : Request) :
    document.Succeeds (document.perform request) ∧
      ((∃ origin operation events, request = .apply origin operation ∧
          document.isClosed = false ∧
          document.arena.applyEdits origin operation.edits =
            .ok ((document.perform request).arena, events) ∧
          document.deliveries request = document.heard origin events) ∨
        (document.deliveries request = [] ∧
          (document.perform request).arena.nodes = document.arena.nodes)) := by
  cases request with
  | apply origin operation =>
      simp only [perform, deliveries]
      cases applied : document.apply origin operation with
      | error fault => exact ⟨.of_arena document document.arena, Or.inr ⟨rfl, rfl⟩⟩
      | ok result =>
          obtain ⟨isOpen, edited, changed, rfl⟩ := apply_eq_ok_iff.mp applied
          exact ⟨.of_arena document edited.1,
            Or.inl ⟨origin, operation, edited.2, rfl, isOpen, changed, rfl⟩⟩
  | markSuperseded ids =>
      exact ⟨.of_arena document _, Or.inr ⟨rfl, Arena.nodes_markSuperseded ids⟩⟩
  | setReference id reference =>
      simp only [perform]
      cases set : document.setReference id reference with
      | error fault => exact ⟨.of_arena document document.arena, Or.inr ⟨rfl, rfl⟩⟩
      | ok changed =>
          simp only [setReference, Fallible.bind_eq_ok_iff, Fallible.pure_eq_ok_iff] at set
          obtain ⟨_, _, _, _, _, _, rfl⟩ := set
          exact ⟨.of_arena document _, Or.inr ⟨rfl, rfl⟩⟩
  | removeReference id name =>
      simp only [perform, removeReference]
      cases (document.referencesOf id).get? name with
      | none => exact ⟨.of_arena document document.arena, Or.inr ⟨rfl, rfl⟩⟩
      | some reference => exact ⟨.of_arena document _, Or.inr ⟨rfl, rfl⟩⟩
  | removeSessionReferences sessionId =>
      exact ⟨.of_arena document _, Or.inr ⟨rfl, rfl⟩⟩
  | close => exact ⟨⟨rfl, rfl, Or.inr ⟨rfl, rfl⟩⟩, Or.inr ⟨rfl, rfl⟩⟩

theorem Succeeds.numbered (succeeds : document.Succeeds next)
    (numbered : document.subscribers.Numbered) : next.subscribers.Numbered := by
  rcases succeeds.audience with ⟨-, same⟩ | ⟨-, cleared⟩
  · rw [same]
    exact numbered
  · rw [cleared]
    exact fun _ listed => absurd listed List.not_mem_nil

theorem Arises.numbered (arises : document.Arises) : document.subscribers.Numbered := by
  induction arises with
  | new ordered built =>
      obtain ⟨_, _, same⟩ := Fallible.bind_eq_ok_iff.mp built
      cases same
      exact fun _ listed => absurd listed List.not_mem_nil
  | @perform document arises request ordered ih => exact (perform_cases document request).1.numbered ih
  | subscribe _ _ ih =>
      intro entry listed
      rcases List.mem_append.mp listed with old | new
      · exact Nat.lt_succ_of_lt (ih entry old)
      · rw [List.mem_singleton.mp new]
        exact Nat.lt_succ_self _
  | unsubscribe _ _ ih => exact fun entry listed => ih entry (List.mem_filter.mp listed).1
  | setEmitsLocalEvents _ _ ih => exact ih

/-- The subscription is made once, to all changes, and hears of the changes that are made here. -/
def Listens (document : Document) (subscription : Nat) : Prop :=
  document.emitsLocalEvents = true ∧
    (document.isClosed = false → document.subscribers.Hears subscription)

theorem Succeeds.listens (succeeds : document.Succeeds next)
    (listens : document.Listens subscription) : next.Listens subscription := by
  refine ⟨succeeds.emits.trans listens.1, fun isOpen => ?_⟩
  rcases succeeds.audience with ⟨sameState, same⟩ | ⟨isClosed, -⟩
  · rw [same]
    exact listens.2 (sameState.symm.trans isOpen)
  · rw [isOpen] at isClosed
    cases isClosed

theorem Listens.receivedBy_heard (listens : document.Listens subscription)
    (isOpen : document.isClosed = false) (origin : Origin) (events : List ChangeEvent) :
    receivedBy subscription (document.heard origin events) = events := by
  have receives : document.receives origin = true := by
    cases origin with
    | own => exact listens.1
    | peer sessionId => rfl
  rw [heard, if_pos receives]
  exact Subscribers.receivedBy_receiveAll (listens.2 isOpen) events

theorem json_eq (holds : document.arena.Holds none value) (distinct : value.nodeIds.Nodup)
    (root : document.root = value.id) : document.json = value.json := by
  rw [json, root, Arena.json_eq holds distinct]
  rfl

theorem follows_perform (holds : document.Holds value clashing)
    (listens : document.Listens subscription) {request : Request} (ordered : request.Ordered) :
    Follows document.json (receivedBy subscription (document.deliveries request))
      (document.perform request).json := by
  obtain ⟨⟨represents, -, -⟩, root⟩ := holds
  obtain ⟨succeeds, ⟨origin, operation, events, rfl, isOpen, changed, heard⟩ | ⟨silent, nodes⟩⟩ :=
    perform_cases document request
  · obtain ⟨next, nextRepresents, sameRoot, follows⟩ :=
      represents.follows_applyEdits ordered changed
    rw [heard, listens.receivedBy_heard isOpen, json_eq represents.holds represents.distinct root,
      json_eq nextRepresents.holds nextRepresents.distinct
        ((succeeds.root.trans root).trans sameRoot.symm)]
    exact follows
  · have stillHeld : (document.perform request).arena.Holds none value := by
      refine represents.holds.congr fun id _ => ?_
      rw [Arena.node?, nodes, Arena.node?]
    rw [silent, json_eq represents.holds represents.distinct root,
      json_eq stillHeld represents.distinct (succeeds.root.trans root)]
    exact .done

theorem follows_requests (holds : document.Holds value clashing)
    (listens : document.Listens subscription) {requests : List Request}
    (ordered : ∀ request ∈ requests, request.Ordered) :
    Follows document.json (receivedBy subscription (document.deliveriesAlong requests))
      (document.performAll requests).json := by
  induction requests generalizing document value clashing with
  | nil => exact .done
  | cons request rest ih =>
      obtain ⟨first, later⟩ := List.forall_mem_cons.mp ordered
      obtain ⟨_, nextHolds⟩ := holds_perform holds first
      have nextListens := (perform_cases document request).1.listens listens
      rw [deliveriesAlong, receivedBy_append]
      exact (follows_perform holds listens first).append (ih nextHolds nextListens later)

/-- Whoever subscribes to all changes can follow the document: whatever is asked of it from then on,
writing the new values that are received where their events say leads from the JSON at the time of the
subscription to the JSON of the document, and every old value is the one that was there. -/
theorem follows_performAll (arises : document.Arises) (emits : document.emitsLocalEvents = true)
    {requests : List Request} (ordered : ∀ request ∈ requests, request.Ordered) :
    Follows document.json
      (receivedBy (document.subscribe .all).1 ((document.subscribe .all).2.deliveriesAlong requests))
      ((document.subscribe .all).2.performAll requests).json := by
  obtain ⟨value, clashing, holds⟩ := arises.holds
  have subscribed : (document.subscribe .all).2.Holds value clashing := holds
  exact follows_requests subscribed ⟨emits, fun _ => arises.numbered.hears_add⟩ ordered

/-- A property that is removed, and that cannot be removed again. -/
theorem follows_performAll_removed_twice :
    ∃ document : Document, document.Arises ∧ document.emitsLocalEvents = true ∧
      let removal := Request.apply .own (.single (.on ⟨"root"⟩ (.property (.remove "left"))))
      let heard := receivedBy (document.subscribe .all).1
        ((document.subscribe .all).2.deliveriesAlong [removal, removal])
      document.json = .object [("left", .array [])] ∧
        ((document.subscribe .all).2.performAll [removal, removal]).json = .object [] ∧
        heard.map ChangeEvent.nodeId = [⟨"list"⟩, ⟨"root"⟩] ∧
        Follows document.json heard
          ((document.subscribe .all).2.performAll [removal, removal]).json := by
  have ordered : (DataValue.object ⟨"root"⟩ [("left", .array ⟨"list"⟩ [])]).Ordered := by
    refine .intro ?_ ?_
    · unfold DataValue.KeysIncrease Keyed.Increasing
      decide
    · simpa [DataValue.childValues] using .leaf rfl
  have removalOrdered :
      (Request.apply .own (.single (.on ⟨"root"⟩ (.property (.remove "left"))))).Ordered := by
    simp [Request.Ordered, Operation.Ordered, Operation.edits, Edit.on, Change.Ordered,
      Change.createdValues, PropertyEdit.values]
  have arises := Arises.new ordered rfl
  exact ⟨_, arises, rfl, rfl, rfl, rfl, follows_performAll arises rfl
    (List.forall_mem_cons.mpr ⟨removalOrdered, List.forall_mem_singleton.mpr removalOrdered⟩)⟩

end Document

end SharedDocument
