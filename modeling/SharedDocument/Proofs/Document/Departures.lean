import Mathlib.Data.List.Flatten
import SharedDocument.Proofs.Document.Atomicity
import SharedDocument.Proofs.Document.Paths
import SharedDocument.Proofs.Document.Refinement

/-! What leaves a document. An edit reports every node that it takes from the document, children before
their parent, with the path and the JSON that the node had; and then it reports its target. -/

namespace SharedDocument

def Origin.departure (origin : Origin) (path : Path) (entry : Path × DataValue) : ChangeEvent :=
  origin.event entry.2.id (path ++ entry.1) .detached (some entry.2.json) none

@[simp] theorem Origin.nodeId_departure (origin : Origin) (path : Path) (entry : Path × DataValue) :
    (origin.departure path entry).nodeId = entry.2.id := by
  cases origin <;> rfl

@[simp] theorem Origin.path_departure (origin : Origin) (path : Path) (entry : Path × DataValue) :
    (origin.departure path entry).path = path ++ entry.1 := by
  cases origin <;> rfl

theorem Origin.map_departure_positionedAt (origin : Origin) (path : Path)
    (place : PathElement × DataValue) :
    (DataValue.positionedAt place).map (origin.departure path) =
      place.2.positioned.map (origin.departure (path.child place.1)) := by
  rw [DataValue.positionedAt, List.map_map]
  apply List.map_congr_left
  intro entry _
  simp [departure, Path.child]

namespace Arena

variable {arena before after : Arena} {parent : Option NodeId} {value inner edited : DataValue}
  {come : List DataValue}

/-! Detaching. -/

theorem events_foldl (parent : Option NodeId)
    (leave : PathElement × NodeId → Arena → Arena × List ChangeEvent)
    (report : PathElement × DataValue → List ChangeEvent)
    {places : List (PathElement × DataValue)}
    (distinct : ((places.map Prod.snd).flatMap DataValue.nodeIds).Nodup)
    (drops : ∀ place ∈ places, ∀ reached : Arena, reached.Holds parent place.2 →
      Drops reached [place.2] (leave (place.1, place.2.id) reached).1)
    (each : ∀ place ∈ places, ∀ reached : Arena, reached.Holds parent place.2 →
      (leave (place.1, place.2.id) reached).2 = report place)
    (reached : Arena × List ChangeEvent) (holds : ∀ place ∈ places, reached.1.Holds parent place.2) :
    ((places.map fun place => (place.1, place.2.id)).foldl
      (fun reached child =>
        let next := leave child reached.1
        (next.1, reached.2 ++ next.2))
      reached).2 = reached.2 ++ places.flatMap report := by
  induction places generalizing reached with
  | nil => simp
  | cons place rest ih =>
      rw [List.map_cons, List.flatMap_cons, List.nodup_append'] at distinct
      obtain ⟨_, restDistinct, apart⟩ := distinct
      have first := drops place List.mem_cons_self reached.1 (holds place List.mem_cons_self)
      have reported := each place List.mem_cons_self reached.1 (holds place List.mem_cons_self)
      have stillHeld : ∀ other ∈ rest,
          (leave (place.1, place.2.id) reached.1).1.Holds parent other.2 := by
        intro other listed
        refine (holds other (List.mem_cons_of_mem _ listed)).congr fun id inOther => ?_
        apply first.others id
        rw [List.flatMap_singleton]
        intro inPlace
        exact apart inPlace ((DataValue.sublist_flatMap_of_mem
          (List.mem_map_of_mem listed)).subset inOther)
      have later := ih restDistinct
        (fun other listed => drops other (List.mem_cons_of_mem _ listed))
        (fun other listed => each other (List.mem_cons_of_mem _ listed))
        ((leave (place.1, place.2.id) reached.1).1, reached.2 ++ report place) stillHeld
      rw [List.append_assoc, ← List.flatMap_cons, ← reported] at later
      exact later

theorem events_detachBelow (origin : Origin) {depth : Nat} (path : Path)
    (holds : arena.Holds parent value) (distinct : value.nodeIds.Nodup)
    (enough : value.nodeIds.length ≤ depth) :
    (detachBelow origin depth path value.id arena).2 =
      value.positioned.map (origin.departure path) := by
  induction value using DataValue.induction generalizing arena parent depth path with
  | step value ih =>
      rw [DataValue.nodeIds_eq, List.length_cons] at enough
      obtain _ | depth := depth
      · omega
      · have shorter (place : PathElement × DataValue) (placed : place ∈ value.places) :
            place.2 ∈ value.childValues ∧ place.2.nodeIds.length ≤ depth := by
          have listed := DataValue.mem_childValues_of_place placed
          have bound := (DataValue.sublist_flatMap_of_mem listed).length_le
          exact ⟨listed, by omega⟩
        have afterRoot (place : PathElement × DataValue) (placed : place ∈ value.places) :
            (arena.forget value.id).Holds (some value.id) place.2 := by
          have listed := (shorter place placed).1
          refine (holds.child listed).congr fun own ownListed => ?_
          refine (node?_forget _ _).trans (if_neg ?_)
          rintro rfl
          exact DataValue.id_notMem_child distinct listed ownListed
        have below := events_foldl (some value.id)
          (fun child => detachBelow origin depth (path.child child.1) child.2)
          (fun place => place.2.positioned.map (origin.departure (path.child place.1)))
          (by
            rw [DataValue.places_values]
            exact DataValue.childValues_nodup distinct)
          (fun place placed reached held => drops_detachBelow origin _ held
            (DataValue.nodup_child distinct (shorter place placed).1) (shorter place placed).2)
          (fun place placed reached held => ih place.2 (shorter place placed).1 _ held
            (DataValue.nodup_child distinct (shorter place placed).1) (shorter place placed).2)
          (arena.forget value.id, []) afterRoot
        rw [← DataValue.data_children, List.nil_append] at below
        simp only [detachBelow, holds.root, DataValue.node, below, json_eq holds distinct]
        rw [DataValue.positioned_eq, List.map_append, List.map_flatMap]
        simp only [Origin.map_departure_positionedAt]
        simp [Origin.departure]

theorem events_detach (origin : Origin) (path : Path) (holds : arena.Holds parent value)
    (distinct : value.nodeIds.Nodup) :
    (arena.detach origin path value.id).2 = value.positioned.map (origin.departure path) :=
  events_detachBelow origin path holds distinct (holds.length_le_size distinct)

theorem events_detachChildren (origin : Origin) (path : Path)
    (holds : ∀ child ∈ value.childValues, arena.Holds parent child)
    (distinct : value.nodeIds.Nodup) :
    (arena.detachChildren origin path value.data).2 =
      (value.places.flatMap DataValue.positionedAt).map (origin.departure path) := by
  have child (place : PathElement × DataValue) (placed : place ∈ value.places) :
      place.2.nodeIds.Nodup :=
    DataValue.nodup_child distinct (DataValue.mem_childValues_of_place placed)
  have all := events_foldl parent
    (fun child reached => reached.detach origin (path.child child.1) child.2)
    (fun place => place.2.positioned.map (origin.departure (path.child place.1)))
    (by
      rw [DataValue.places_values]
      exact DataValue.childValues_nodup distinct)
    (fun place placed reached held => drops_detach origin _ held (child place placed))
    (fun place placed reached held => events_detach origin _ held (child place placed))
    (arena, []) fun place placed => holds place.2 (DataValue.mem_childValues_of_place placed)
  rw [← DataValue.data_children, List.nil_append] at all
  rw [detachChildren, all, List.map_flatMap]
  simp only [Origin.map_departure_positionedAt]

/-! One change. -/

def Reports (inner : DataValue) (gone : List DataValue) (origin : Origin) (path : Path)
    (events : List ChangeEvent) : Prop :=
  ∃ lost : List (PathElement × DataValue), lost.Sublist inner.places ∧ lost.map Prod.snd = gone ∧
    events = (lost.flatMap DataValue.positionedAt).map (origin.departure path)

theorem reports_nil (inner : DataValue) (origin : Origin) (path : Path) :
    Reports inner [] origin path [] :=
  ⟨[], List.nil_sublist _, rfl, rfl⟩

namespace Rewires

variable (rewires : Rewires before parent inner edited [] come after)
  (holds : before.Holds parent inner) (distinct : inner.nodeIds.Nodup)
  (apart : ∀ id ∈ inner.nodeIds, id ∉ come.flatMap DataValue.nodeIds)

include rewires holds distinct apart

theorem reports_detach {element : PathElement} {child : DataValue}
    (placed : (element, child) ∈ inner.places) (origin : Origin) (path : Path) :
    Reports inner [child] origin path (after.detach origin (path.child element) child.id).2 := by
  have listed := DataValue.mem_childValues_of_place placed
  have held := rewires.holds_child holds distinct apart listed
  refine ⟨[(element, child)], List.singleton_sublist.mpr placed, rfl, ?_⟩
  rw [events_detach origin _ held (DataValue.nodup_child distinct listed), List.flatMap_singleton,
    Origin.map_departure_positionedAt]

theorem reports_detachChildren (origin : Origin) (path : Path) :
    Reports inner inner.childValues origin path
      (after.detachChildren origin path inner.data).2 :=
  ⟨inner.places, List.Sublist.refl _, inner.places_values,
    events_detachChildren origin path
      (fun _ listed => rewires.holds_child holds distinct apart listed) distinct⟩

end Rewires

section

variable {origin : Origin} {path : Path} {id : NodeId} {result : Arena × List ChangeEvent}

theorem events_of_editText {stored : String} {edit : TextEdit}
    (succeeds : arena.editText ⟨origin, id, path⟩ stored edit = .ok result) : result.2 = [] := by
  cases edit with
  | insert index value =>
      simp only [editText] at succeeds
      split at succeeds
      · cases succeeds
      · cases succeeds
        rfl
  | remove index length =>
      simp only [editText] at succeeds
      split at succeeds
      · cases succeeds
      · split at succeeds
        · cases succeeds
        · cases succeeds
          rfl

theorem reports_of_editArray {children : List DataValue}
    (holds : arena.Holds parent (.array id children))
    (distinct : (DataValue.array id children).nodeIds.Nodup) {edit : ArrayEdit}
    (succeeds : arena.editArray ⟨origin, id, path⟩ (children.map DataValue.id) edit = .ok result) :
    Reports (.array id children) (edit.discarded children) origin path result.2 := by
  have start := Rewires.start holds.root
  have keys : (DataValue.array id children).KeysIncrease := trivial
  have placed {index : Nat} {child : DataValue} (found : children[index]? = some child) :
      (.index index, child) ∈ (DataValue.array id children).places :=
    (DataValue.mem_places_iff keys).mpr found
  cases edit with
  | insert index value =>
      simp only [editArray] at succeeds
      split at succeeds
      · cases succeeds
      · obtain ⟨_, _, same⟩ := Fallible.bind_eq_ok_iff.mp succeeds
        cases same
        exact reports_nil _ origin path
  | remove index =>
      simp only [editArray] at succeeds
      split at succeeds
      · cases succeeds
      · rename_i child found
        rw [List.getElem?_map, Option.map_eq_some_iff] at found
        obtain ⟨child, found, rfl⟩ := found
        have unlinked := start.setData (by simp) (by simp) (.array id (children.eraseIdx index.val))
        have reported := unlinked.reports_detach holds distinct (by simp) (placed found) origin path
        rw [DataValue.data, ← List.eraseIdx_map] at reported
        cases succeeds
        simp only [ArrayEdit.discarded, found, Option.toList_some]
        exact reported
  | replace index value =>
      simp only [editArray] at succeeds
      split at succeeds
      · cases succeeds
      · rename_i child found
        rw [List.getElem?_map, Option.map_eq_some_iff] at found
        obtain ⟨child, found, rfl⟩ := found
        obtain ⟨_, checked, same⟩ := Fallible.bind_eq_ok_iff.mp succeeds
        have fresh := checkNew_eq_ok_iff.mp checked
        have linked := start.link holds distinct (by simp) fresh
          (.array id (children.set index.val value))
        have reported := linked.reports_detach holds distinct
          (fun _ listed => fresh.notMem holds listed) (placed found) origin path
        rw [DataValue.data, List.map_set] at reported
        cases same
        simp only [ArrayEdit.discarded, found, Option.toList_some]
        exact reported
  | move source target =>
      simp only [editArray] at succeeds
      split at succeeds
      · cases succeeds
      · split at succeeds
        · cases succeeds
        · cases succeeds
          exact reports_nil _ origin path

theorem reports_of_editProperty {children : List (String × DataValue)}
    (holds : arena.Holds parent (.object id children))
    (keys : (DataValue.object id children).KeysIncrease)
    (distinct : (DataValue.object id children).nodeIds.Nodup) {edit : PropertyEdit}
    (succeeds : arena.editProperty ⟨origin, id, path⟩ (Keyed.mapValues DataValue.id children) edit =
      .ok result) :
    Reports (.object id children) (edit.discarded children) origin path result.2 := by
  have start := Rewires.start holds.root
  have placed {key : String} {child : DataValue} (found : Keyed.find? key children = some child) :
      (.key key, child) ∈ (DataValue.object id children).places :=
    (DataValue.mem_places_iff keys).mpr found
  cases edit with
  | add key value =>
      simp only [editProperty] at succeeds
      split at succeeds
      · cases succeeds
      · obtain ⟨_, _, same⟩ := Fallible.bind_eq_ok_iff.mp succeeds
        cases same
        exact reports_nil _ origin path
  | set key value =>
      simp only [editProperty, Keyed.find?_mapValues] at succeeds
      split at succeeds
      · cases succeeds
      · rename_i old found
        rw [Option.map_eq_some_iff] at found
        obtain ⟨old, found, rfl⟩ := found
        obtain ⟨_, _, same⟩ := Fallible.bind_eq_ok_iff.mp succeeds
        have reported := start.reports_detach holds distinct (by simp) (placed found) origin path
        cases same
        simp only [PropertyEdit.discarded, found, Option.toList_some]
        exact reported
  | remove key =>
      simp only [editProperty, Keyed.find?_mapValues] at succeeds
      split at succeeds
      · cases succeeds
      · rename_i old found
        rw [Option.map_eq_some_iff] at found
        obtain ⟨old, found, rfl⟩ := found
        have unlinked := start.setData (by simp) (by simp) (.object id (Keyed.erase key children))
        have reported := unlinked.reports_detach holds distinct (by simp) (placed found) origin path
        rw [DataValue.data, Keyed.mapValues_erase] at reported
        cases succeeds
        simp only [PropertyEdit.discarded, found, Option.toList_some]
        exact reported

theorem reports_of_setContents (holds : arena.Holds parent inner) (distinct : inner.nodeIds.Nodup)
    {contents : Contents} (kind : inner.kind = contents.setKind.nodeKind)
    (succeeds : arena.setContents ⟨origin, inner.id, path⟩ inner.data contents = .ok result) :
    Reports inner inner.childValues origin path result.2 := by
  have emptied (written : DataValue) :=
    ((Rewires.start holds.root).setData (by simp) (by simp) written).reports_detachChildren holds
      distinct (by simp) origin path
  cases contents with
  | array values =>
      obtain ⟨_, _, same⟩ := Fallible.bind_eq_ok_iff.mp succeeds
      cases same
      exact emptied (.array inner.id [])
  | object values =>
      obtain ⟨_, _, same⟩ := Fallible.bind_eq_ok_iff.mp succeeds
      cases same
      exact emptied (.object inner.id [])
  | _ =>
      cases succeeds
      cases inner <;> first | exact reports_nil _ origin path | cases kind

theorem reports_of_change (holds : arena.Holds parent inner) (keys : inner.KeysIncrease)
    (distinct : inner.nodeIds.Nodup) {change : Change} (kind : inner.kind = change.kind.nodeKind)
    (succeeds : arena.change ⟨origin, inner.id, path⟩ inner.data change = .ok result) :
    Reports inner (change.discarded inner) origin path result.2 := by
  cases change with
  | set contents => exact reports_of_setContents holds distinct kind succeeds
  | text edit =>
      cases inner with
      | string id text =>
          rw [events_of_editText succeeds]
          exact reports_nil _ origin path
      | _ => cases succeeds
  | array edit =>
      cases inner with
      | array id children => exact reports_of_editArray holds distinct succeeds
      | _ => cases succeeds
  | property edit =>
      cases inner with
      | object id children => exact reports_of_editProperty holds keys distinct succeeds
      | _ => cases succeeds
  | addNumber amount =>
      cases inner with
      | number id stored =>
          cases succeeds
          exact reports_nil _ origin path
      | _ => cases succeeds

end

/-! One edit. -/

namespace Represents

variable {edit : Edit} {origin : Origin} {path : Path} {result : Arena × List ChangeEvent}
  (represents : arena.Represents value)

include represents

/-- An edit reports what it takes away, and then its target. -/
theorem report_applyEdit (changeOrdered : edit.change.Ordered)
    (notDetached : arena.isDetached edit.target = false)
    (succeeds : arena.applyEdit origin edit = .ok result) :
    ∃ parent inner path departures, arena.Admits value edit parent inner ∧
      arena.pathOf edit.target = .ok path ∧ value.at? path = some inner ∧
      Reports inner (edit.change.discarded inner) origin path departures ∧
      arena.json edit.target = some inner.json ∧
      result.1.json edit.target = some (edit.change.applyTo inner).json ∧
      result.2 = departures ++ [origin.event edit.target path (.applied edit.kind)
        (some inner.json) (some (edit.change.applyTo inner).json)] := by
  obtain ⟨⟨parent, inner, admits⟩, edited, -⟩ :=
    represents.applyEdit changeOrdered notDetached succeeds
  obtain ⟨node, path, ⟨after, departures⟩, found, kind, pathFound, changed, rfl⟩ :=
    (applyEdit_eq_ok_iff notDetached).mp succeeds
  have innerHolds := represents.occurs_holds admits.occurs
  have innerDistinct := represents.distinct.sublist admits.occurs.sublist_nodeIds
  have editedOccurs := admits.occurs.editAt_self edit.change.applyTo represents.distinct
  rw [admits.target] at editedOccurs
  have oldJson := json_eq innerHolds innerDistinct
  have newJson := json_eq (edited.occurs_holds editedOccurs)
    (edited.distinct.sublist editedOccurs.sublist_nodeIds)
  rw [admits.target] at oldJson
  rw [Change.id_applyTo, admits.target] at newJson
  obtain ⟨-, stored⟩ := attached_eq_ok_iff.mp found
  rw [← admits.target, innerHolds.root, Option.some.injEq] at stored
  subst stored
  refine ⟨parent, inner, path, departures, admits, pathFound, ?_, ?_, oldJson, newJson, ?_⟩
  · exact at?_of_pathOf represents.holds represents.ordered represents.distinct admits.occurs
      (admits.target.symm ▸ pathFound)
  · rw [← admits.target] at changed
    exact reports_of_change innerHolds (represents.ordered.occurs admits.occurs).keysIncrease
      innerDistinct admits.fits.kind changed
  · rw [oldJson, newJson]

end Represents

/-- The events report the nodes that one arena has and the other has not: each node once, with no
new value but with the JSON that it had and the path that led to it from the root, and in the order
of these paths. -/
structure Departures (before : Arena) (root : NodeId) (after : Arena) (origin : Origin)
    (events : List ChangeEvent) : Prop where
  form : ∀ event ∈ events, ∃ old, before.json event.nodeId = some old ∧
    event = origin.event event.nodeId event.path .detached (some old) none
  place : ∀ event ∈ events, before.locate root event.path = some event.nodeId ∧
    ∀ path, before.pathOf event.nodeId = .ok path → event.path = path
  once : (events.map ChangeEvent.nodeId).Nodup
  complete : ∀ id, id ∈ events.map ChangeEvent.nodeId ↔
    before.contains id = true ∧ after.contains id = false
  inOrder : events.Pairwise fun first second => Path.Precedes first.path second.path

section

variable {edit : Edit} {origin : Origin} {path : Path} {events : List ChangeEvent}

theorem Represents.contains_iff_mem (represents : arena.Represents value) (id : NodeId) :
    arena.contains id = true ↔ id ∈ value.nodeIds :=
  Arena.contains_iff.trans (represents.mem_iff id).symm

theorem Reports.ids_perm {gone : List DataValue} (reports : Reports inner gone origin path events) :
    (events.map ChangeEvent.nodeId).Perm (gone.flatMap DataValue.nodeIds) := by
  obtain ⟨lost, -, rfl, rfl⟩ := reports
  rw [List.map_map]
  simp only [Function.comp_def, Origin.nodeId_departure]
  exact DataValue.ids_flatMap_positionedAt_perm lost

theorem Reports.departures (represents : arena.Represents value)
    (edited : after.Represents (value.editAt edit.target edit.change.applyTo))
    (admits : arena.Admits value edit parent inner) (found : value.at? path = some inner)
    (reports : Reports inner (edit.change.discarded inner) origin path events) :
    Departures arena value.id after origin events := by
  have ids := reports.ids_perm
  have innerOrdered := represents.ordered.occurs admits.occurs
  have innerDistinct := represents.distinct.sublist admits.occurs.sublist_nodeIds
  obtain ⟨lost, fromPlaces, values, rfl⟩ := reports
  have fromNodes : (lost.flatMap DataValue.positionedAt).Sublist inner.positioned := by
    rw [DataValue.positioned_eq]
    exact (fromPlaces.flatMap DataValue.positionedAt).trans (List.sublist_append_left _ _)
  have located {entry : Path × DataValue} (listed : entry ∈ lost.flatMap DataValue.positionedAt) :
      value.at? (path ++ entry.1) = some entry.2 := by
    rw [DataValue.at?_append, found, Option.bind_some]
    exact DataValue.at?_positioned innerOrdered (fromNodes.subset listed)
  refine ⟨?_, ?_, ?_, ?_, ?_⟩
  · intro event listed
    obtain ⟨entry, entryListed, rfl⟩ := List.mem_map.mp listed
    obtain ⟨_, occurs⟩ := represents.ordered.occurs_at (located entryListed) none
    refine ⟨entry.2.json, ?_, ?_⟩
    · rw [Origin.nodeId_departure]
      exact json_eq (represents.occurs_holds occurs)
        (represents.distinct.sublist occurs.sublist_nodeIds)
    · rw [Origin.nodeId_departure, Origin.path_departure, Origin.departure]
  · intro event listed
    obtain ⟨entry, entryListed, rfl⟩ := List.mem_map.mp listed
    obtain ⟨_, occurs⟩ := represents.ordered.occurs_at (located entryListed) none
    rw [Origin.nodeId_departure, Origin.path_departure]
    refine ⟨?_, fun other otherFound => ?_⟩
    · rw [locate_eq represents.holds represents.ordered, located entryListed]
      rfl
    · exact DataValue.at?_injective represents.ordered represents.distinct (located entryListed)
        (at?_of_pathOf represents.holds represents.ordered represents.distinct occurs otherFound)
  · apply ids.nodup_iff.mpr
    have gone : (edit.change.discarded inner).Sublist inner.childValues := by
      rw [← values, ← inner.places_values]
      exact fromPlaces.map Prod.snd
    exact (DataValue.childValues_nodup innerDistinct).sublist (gone.flatMap DataValue.nodeIds)
  · intro id
    rw [ids.mem_iff, represents.contains_iff_mem, Bool.eq_false_iff, Ne, edited.contains_iff_mem,
      admits.mem_nodeIds_iff represents]
    constructor
    · intro gone
      have inInner := (Change.discardedIds_subset represents.distinct admits.occurs gone).1
      exact ⟨admits.occurs.sublist_nodeIds.subset inInner, fun kept => kept.2 gone⟩
    · rintro ⟨listed, lostId⟩
      by_contra notGone
      exact lostId ⟨Or.inr listed, notGone⟩
  · exact List.pairwise_map.mpr
      (((DataValue.positioned_pairwise innerOrdered).sublist fromNodes).imp fun precedes => by
        simpa using precedes.append path)

end

end Arena

namespace Document

variable {document : Document}

/-- An edit that takes effect reports the nodes that leave, and then its target with its JSON before
and after. The ids in the document are then those of before without those reported, and those that
the edit creates. An edit that is skipped because its target has left reports nothing. -/
theorem apply_reports (arises : document.Arises) (origin : Origin) {edit : Edit}
    (effective : edit.isNoOp = false) (ordered : edit.change.Ordered)
    {result : Document × List Delivery}
    (applied : document.apply origin (.single edit) = .ok result) :
    ∃ events, document.arena.applyEdit origin edit = .ok (result.1.arena, events) ∧
      result.2 = document.heard origin events ∧
      if document.arena.isDetached edit.target then events = []
      else ∃ path old new departures,
        events = departures ++
          [origin.event edit.target path (.applied edit.kind) (some old) (some new)] ∧
        document.pathOf edit.target = .ok path ∧
        document.arena.json edit.target = some old ∧
        result.1.arena.json edit.target = some new ∧
        Arena.Departures document.arena document.root result.1.arena origin departures ∧
        ∀ id, result.1.arena.contains id = true ↔
          (document.arena.contains id = true ∧ id ∉ departures.map ChangeEvent.nodeId) ∨
            id ∈ edit.change.createdIds := by
  obtain ⟨value, clashing, ⟨represents, -, -⟩, root⟩ := arises.holds
  obtain ⟨-, ⟨after, events⟩, changedAll, rfl⟩ := apply_eq_ok_iff.mp applied
  have changed := (Arena.applyEdits_single effective).mp changedAll
  refine ⟨events, changed, rfl, ?_⟩
  split
  · rename_i detached
    cases origin with
    | own => simp [Arena.applyEdit, detached] at changed
    | peer sessionId =>
        rw [Arena.applyEdit_skip detached] at changed
        cases changed
        rfl
  · rename_i notDetached
    have attached := Bool.not_eq_true _ ▸ notDetached
    obtain ⟨-, edited, -⟩ := represents.applyEdit ordered attached changed
    obtain ⟨parent, inner, path, departures, admits, pathFound, located, reports, oldJson, newJson,
      same⟩ := represents.report_applyEdit ordered attached changed
    refine ⟨path, _, _, departures, same, pathFound, oldJson, newJson, ?_, ?_⟩
    · rw [root]
      exact reports.departures represents edited admits located
    · intro id
      rw [edited.contains_iff_mem, represents.contains_iff_mem, reports.ids_perm.mem_iff,
        admits.mem_nodeIds_iff represents]
      constructor
      · rintro ⟨created | listed, kept⟩
        · exact Or.inr created
        · exact Or.inl ⟨listed, kept⟩
      · rintro (⟨listed, kept⟩ | created)
        · exact ⟨Or.inr listed, kept⟩
        · exact ⟨Or.inl created, admits.notMem_discarded represents created⟩

/-- Removing an array that holds a text: the text is reported before the array. -/
theorem apply_reports_text_before_array :
    ∃ (document : Document) (result : Document × List Delivery), document.Arises ∧
      let edit : Edit := .on ⟨"root"⟩ (.property (.remove "left"))
      document.apply .own (.single edit) = .ok result ∧
        document.arena.isDetached edit.target = false ∧
        result.2.map (fun delivery => (delivery.event.nodeId, delivery.event.kind)) =
          [(⟨"text"⟩, .detached), (⟨"list"⟩, .detached),
            (⟨"root"⟩, .applied .objectRemoveProperty)] ∧
        ∃ departures,
          Arena.Departures document.arena document.root result.1.arena .own departures ∧
          ∀ id, result.1.arena.contains id = true ↔
            document.arena.contains id = true ∧ id ∉ departures.map ChangeEvent.nodeId := by
  have ordered : (DataValue.object ⟨"root"⟩
      [("left", .array ⟨"list"⟩ [.string ⟨"text"⟩ "a"])]).Ordered := by
    refine .intro ?_ ?_
    · unfold DataValue.KeysIncrease Keyed.Increasing
      decide
    · have text : (DataValue.string ⟨"text"⟩ "a").Ordered := .leaf rfl
      have list : (DataValue.array ⟨"list"⟩ [.string ⟨"text"⟩ "a"]).Ordered :=
        .intro trivial (by simpa [DataValue.childValues] using text)
      simpa [DataValue.childValues] using list
  have arises := (Arises.new ordered rfl).subscribe .all
  have changeOrdered : (Change.property (.remove "left")).Ordered := by
    simp [Change.Ordered, Change.createdValues, PropertyEdit.values]
  obtain ⟨events, -, -, reported⟩ := @apply_reports _ arises .own
    (.on ⟨"root"⟩ (.property (.remove "left"))) rfl changeOrdered _ rfl
  obtain ⟨_, _, _, departures, _, _, _, _, departed, ids⟩ := reported
  refine ⟨_, _, arises, rfl, rfl, rfl, departures, departed, fun id => (ids id).trans ?_⟩
  exact or_iff_left List.not_mem_nil

end Document

end SharedDocument
