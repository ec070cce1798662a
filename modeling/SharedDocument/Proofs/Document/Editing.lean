import SharedDocument.Proofs.Change
import SharedDocument.Proofs.Document.Walks

/-! Changes in an arena. A change rewires one node: the node gets new contents, the nodes of some
values below it go, and those of others come. It succeeds exactly when it fits the node and the
ids that it creates are new. -/

namespace SharedDocument.Arena

variable {before after final : Arena} {parent : Option NodeId} {inner edited : DataValue}
  {gone come : List DataValue}

/-- The node of `inner` has become that of `edited`; the nodes of the values that have gone are
detached, those of the values that have come lie below it, and no other node is touched. -/
structure Rewires (before : Arena) (parent : Option NodeId) (inner edited : DataValue)
    (gone come : List DataValue) (after : Arena) : Prop where
  site : after.node? inner.id = some ⟨inner.id, parent, edited.data⟩
  goneIds : ∀ id ∈ gone.flatMap DataValue.nodeIds, after.node? id = none
  comeValues : ∀ value ∈ come, after.Holds (some inner.id) value
  others : ∀ id, id ≠ inner.id → id ∉ gone.flatMap DataValue.nodeIds →
    id ∉ come.flatMap DataValue.nodeIds → after.node? id = before.node? id
  detached : ∀ id, after.isDetached id = true ↔
    id ∈ gone.flatMap DataValue.nodeIds ∨ before.isDetached id = true
  references : ∀ id, Keyed.find? id after.references ≠ none →
    id ∉ gone.flatMap DataValue.nodeIds ∧ Keyed.find? id before.references ≠ none
  sorted : Keyed.Increasing before.nodes → Keyed.Increasing after.nodes

namespace Rewires

theorem start (stored : before.node? inner.id = some (inner.node parent)) :
    Rewires before parent inner inner [] [] before :=
  ⟨stored, by simp, by simp, fun _ _ _ _ => rfl, by simp, by simp, fun sorted => sorted⟩

theorem setData (rewires : Rewires before parent inner edited gone come after)
    (notGone : inner.id ∉ gone.flatMap DataValue.nodeIds)
    (notCome : inner.id ∉ come.flatMap DataValue.nodeIds) (written : DataValue) :
    Rewires before parent inner written gone come (after.setData inner.id written.data) := by
  have lookup := node?_setData rewires.site rfl written.data
  have elsewhere {id : NodeId} (different : id ≠ inner.id) :
      (after.setData inner.id written.data).node? id = after.node? id :=
    (lookup id).trans (if_neg different)
  refine ⟨(lookup inner.id).trans (if_pos rfl), ?_, ?_, ?_, ?_, ?_, ?_⟩
  · intro id listed
    rw [elsewhere fun here => notGone (here ▸ listed)]
    exact rewires.goneIds id listed
  · intro value listed
    refine (rewires.comeValues value listed).congr fun id inValue => elsewhere ?_
    rintro rfl
    exact notCome ((DataValue.sublist_flatMap_of_mem listed).subset inValue)
  · intro id different notInGone notInCome
    rw [elsewhere different]
    exact rewires.others id different notInGone notInCome
  · intro id
    rw [isDetached, setData_detached]
    exact rewires.detached id
  · rw [setData_references]
    exact rewires.references
  · exact fun sorted => increasing_setData _ _ (rewires.sorted sorted)

theorem adds (rewires : Rewires before parent inner edited gone [] after) {values : List DataValue}
    (adds : Adds after (some inner.id) values final)
    (siteApart : inner.id ∉ values.flatMap DataValue.nodeIds)
    (goneApart : ∀ id ∈ gone.flatMap DataValue.nodeIds, id ∉ values.flatMap DataValue.nodeIds) :
    Rewires before parent inner edited gone values final := by
  refine ⟨?_, ?_, adds.holds, ?_, ?_, ?_, fun sorted => adds.sorted (rewires.sorted sorted)⟩
  · rw [adds.others _ siteApart]
    exact rewires.site
  · intro id listed
    rw [adds.others id (goneApart id listed)]
    exact rewires.goneIds id listed
  · intro id different notInGone notInValues
    rw [adds.others id notInValues]
    exact rewires.others id different notInGone (by simp)
  · intro id
    rw [isDetached, adds.detached]
    exact rewires.detached id
  · rw [adds.references]
    exact rewires.references

theorem drops (rewires : Rewires before parent inner edited [] come after) {values : List DataValue}
    (drops : Drops after values final) (siteApart : inner.id ∉ values.flatMap DataValue.nodeIds)
    (comeApart : ∀ id ∈ come.flatMap DataValue.nodeIds, id ∉ values.flatMap DataValue.nodeIds) :
    Rewires before parent inner edited values come final := by
  refine ⟨?_, drops.gone, ?_, ?_, ?_, ?_, fun sorted => drops.sorted (rewires.sorted sorted)⟩
  · rw [drops.others _ siteApart]
    exact rewires.site
  · intro value listed
    refine (rewires.comeValues value listed).congr fun id inValue => drops.others id ?_
    exact comeApart id ((DataValue.sublist_flatMap_of_mem listed).subset inValue)
  · intro id different notInValues notInCome
    rw [drops.others id notInValues]
    exact rewires.others id different (by simp) notInCome
  · intro id
    rw [drops.detached, rewires.detached]
    simp
  · intro id present
    obtain ⟨notDropped, stillThere⟩ := drops.references id present
    exact ⟨notDropped, (rewires.references id stillThere).2⟩

theorem withReferences (rewires : Rewires before parent inner edited gone come after)
    (nodes : final.nodes = after.nodes) (detached : final.detached = after.detached)
    (fewer : ∀ id, Keyed.find? id final.references ≠ none → Keyed.find? id after.references ≠ none) :
    Rewires before parent inner edited gone come final := by
  have same (id : NodeId) : final.node? id = after.node? id := by rw [node?, nodes, node?]
  refine ⟨?_, ?_, ?_, ?_, ?_, ?_, ?_⟩
  · rw [same]
    exact rewires.site
  · intro id listed
    rw [same]
    exact rewires.goneIds id listed
  · exact fun value listed => (rewires.comeValues value listed).congr fun id _ => same id
  · intro id different notInGone notInCome
    rw [same]
    exact rewires.others id different notInGone notInCome
  · intro id
    rw [isDetached, detached]
    exact rewires.detached id
  · exact fun id present => rewires.references id (fewer id present)
  · rw [nodes]
    exact rewires.sorted

theorem follow (rewires : Rewires before parent inner edited gone come after) (id : NodeId)
    (follow : Word → Word) :
    Rewires before parent inner edited gone come (after.followReferences id follow) :=
  rewires.withReferences (nodes_followReferences id follow) (detached_followReferences id follow)
    fun _ => find?_followReferences_ne_none

theorem dropReferences (rewires : Rewires before parent inner edited gone come after)
    (id : NodeId) : Rewires before parent inner edited gone come (after.dropReferences id) :=
  rewires.withReferences rfl rfl fun _ => find?_dropReferences_ne_none

end Rewires

/-! New ids. -/

def Fresh (arena : Arena) (ids : List NodeId) : Prop :=
  ids.Nodup ∧ ∀ id ∈ ids, arena.isKnown id = false

theorem duplicate?_eq_none_iff (arena : Arena) (earlier ids : List NodeId) :
    arena.duplicate? earlier ids = none ↔ arena.Fresh ids ∧ ∀ id ∈ ids, id ∉ earlier := by
  induction ids generalizing earlier with
  | nil => simp [duplicate?, Fresh]
  | cons id rest ih =>
      unfold duplicate?
      split
      · rename_i repeated
        simp only [reduceCtorEq, Fresh, false_iff]
        rintro ⟨⟨_, unknown⟩, notEarlier⟩
        have first := unknown id List.mem_cons_self
        have apart := notEarlier id List.mem_cons_self
        simp [first, apart] at repeated
      · rename_i new
        simp only [Bool.or_eq_true, not_or, Bool.not_eq_true, List.contains_iff_mem] at new
        rw [ih, Fresh, Fresh, List.nodup_cons, List.forall_mem_cons, List.forall_mem_cons]
        constructor
        · rintro ⟨⟨distinct, unknown⟩, apart⟩
          have notRepeated : id ∉ rest := fun repeated => apart id repeated List.mem_cons_self
          exact ⟨⟨⟨notRepeated, distinct⟩, new.1, unknown⟩, new.2,
            fun other listed inEarlier => apart other listed (List.mem_cons_of_mem _ inEarlier)⟩
        · rintro ⟨⟨⟨notRepeated, distinct⟩, _, unknown⟩, _, apart⟩
          refine ⟨⟨distinct, unknown⟩, fun other listed inEarlier => ?_⟩
          rcases List.mem_cons.mp inEarlier with rfl | before
          · exact notRepeated listed
          · exact apart other listed before

theorem checkNew_eq_ok_iff {arena : Arena} {values : List DataValue} :
    arena.checkNew values = .ok () ↔ arena.Fresh (values.flatMap DataValue.nodeIds) := by
  have fresh := duplicate?_eq_none_iff arena [] (values.flatMap DataValue.nodeIds)
  simp only [List.not_mem_nil, not_false_eq_true, implies_true, and_true] at fresh
  rw [← fresh, checkNew]
  cases arena.duplicate? [] (values.flatMap DataValue.nodeIds) <;> simp

/-! One change. -/

theorem Fresh.notMem {arena : Arena} {ids : List NodeId} (fresh : arena.Fresh ids)
    (holds : arena.Holds parent inner) {id : NodeId} (listed : id ∈ inner.nodeIds) : id ∉ ids := by
  intro created
  exact holds.node?_ne_none listed (isKnown_eq_false_iff.mp (fresh.2 id created)).1

theorem fresh_nil (arena : Arena) : arena.Fresh [] :=
  ⟨List.nodup_nil, by simp⟩

namespace Rewires

section

variable (holds : before.Holds parent inner) (distinct : inner.nodeIds.Nodup)

include holds distinct

theorem holds_child (rewires : Rewires before parent inner edited [] come after)
    (apart : ∀ id ∈ inner.nodeIds, id ∉ come.flatMap DataValue.nodeIds) {child : DataValue}
    (listed : child ∈ inner.childValues) : after.Holds (some inner.id) child := by
  refine (holds.child listed).congr fun id inChild => rewires.others id ?_ (by simp) ?_
  · rintro rfl
    exact DataValue.id_notMem_child distinct listed inChild
  · exact apart id ((DataValue.sublist_nodeIds_of_child listed).subset inChild)

omit distinct in
theorem adopt (rewires : Rewires before parent inner edited gone [] after)
    (below : ∀ value ∈ gone, value ∈ inner.childValues) {values : List DataValue}
    (fresh : before.Fresh (values.flatMap DataValue.nodeIds)) :
    Rewires before parent inner edited gone values (attachItems inner.id values after) := by
  have root := fresh.notMem holds (DataValue.id_mem_nodeIds inner)
  refine rewires.adds (adds_attachItems fresh.1 inner.id after) root ?_
  intro id listed
  obtain ⟨value, isGone, inValue⟩ := List.mem_flatMap.mp listed
  exact fresh.notMem holds
    ((DataValue.sublist_nodeIds_of_child (below value isGone)).subset inValue)

theorem link (rewires : Rewires before parent inner edited gone [] after)
    (below : ∀ value ∈ gone, value ∈ inner.childValues) {values : List DataValue}
    (fresh : before.Fresh (values.flatMap DataValue.nodeIds)) (written : DataValue) :
    Rewires before parent inner written gone values
      ((attachItems inner.id values after).setData inner.id written.data) := by
  have root := fresh.notMem holds (DataValue.id_mem_nodeIds inner)
  refine (rewires.adopt holds below fresh).setData ?_ root written
  intro listed
  obtain ⟨value, isGone, inValue⟩ := List.mem_flatMap.mp listed
  exact DataValue.id_notMem_child distinct (below value isGone) inValue

theorem detach (rewires : Rewires before parent inner edited [] come after)
    (apart : ∀ id ∈ inner.nodeIds, id ∉ come.flatMap DataValue.nodeIds) {child : DataValue}
    (listed : child ∈ inner.childValues) (origin : Origin) (path : Path) :
    Rewires before parent inner edited [child] come (after.detach origin path child.id).1 := by
  have held := rewires.holds_child holds distinct apart listed
  refine rewires.drops (drops_detach origin path held (DataValue.nodup_child distinct listed)) ?_ ?_
  · simpa using DataValue.id_notMem_child distinct listed
  · intro id created inChild
    rw [List.flatMap_singleton] at inChild
    exact apart id ((DataValue.sublist_nodeIds_of_child listed).subset inChild) created

theorem detachChildren (rewires : Rewires before parent inner edited [] [] after) (origin : Origin)
    (path : Path) :
    Rewires before parent inner edited inner.childValues []
      (after.detachChildren origin path inner.data).1 := by
  have held (child : DataValue) (listed : child ∈ inner.childValues) :
      after.Holds (some inner.id) child :=
    rewires.holds_child holds distinct (by simp) listed
  refine rewires.drops (drops_detachChildren origin path held distinct) ?_ (by simp)
  intro repeated
  rw [DataValue.nodeIds_eq, List.nodup_cons] at distinct
  exact distinct.1 repeated

end

end Rewires

section

variable {arena : Arena} {origin : Origin} {path : Path} {id : NodeId}
  {result : Arena × List ChangeEvent}

theorem fits_of_editText {stored : String} (holds : arena.Holds parent (.string id stored))
    {edit : TextEdit} (succeeds : arena.editText ⟨origin, id, path⟩ stored edit = .ok result) :
    edit.Fits stored.length ∧
      Rewires arena parent (.string id stored) (.string id (edit.applyTo stored)) [] [] result.1 := by
  have rewires := (Rewires.start holds.root).setData (by simp) (by simp)
    (.string id (edit.applyTo stored))
  cases edit with
  | insert index value =>
      simp only [editText] at succeeds
      split at succeeds
      · exact absurd succeeds (by simp)
      · rename_i inside
        cases succeeds
        exact ⟨not_lt.mp inside, rewires.follow id _⟩
  | remove index length =>
      simp only [editText] at succeeds
      split at succeeds
      · exact absurd succeeds (by simp)
      · rename_i finish exactFinish
        rw [Word.plus?_eq_ok_iff] at exactFinish
        split at succeeds
        · exact absurd succeeds (by simp)
        · rename_i inside
          have bound := finish.isLt
          rw [exactFinish] at bound inside succeeds
          cases succeeds
          exact ⟨⟨not_lt.mp inside, bound⟩, rewires.follow id _⟩

section

variable {children : List DataValue} (holds : arena.Holds parent (.array id children))
  (distinct : (DataValue.array id children).nodeIds.Nodup)

include holds distinct

theorem fits_of_editArray {edit : ArrayEdit}
    (succeeds : arena.editArray ⟨origin, id, path⟩ (children.map DataValue.id) edit = .ok result) :
    edit.Fits children.length ∧ arena.Fresh (edit.values.flatMap DataValue.nodeIds) ∧
      Rewires arena parent (.array id children) (.array id (edit.applyTo children))
        (edit.discarded children) edit.values result.1 := by
  have start := Rewires.start holds.root
  cases edit with
  | insert index value =>
      simp only [editArray, List.length_map] at succeeds
      split at succeeds
      · exact absurd succeeds (by simp)
      · rename_i inside
        obtain ⟨_, checked, same⟩ := Fallible.bind_eq_ok_iff.mp succeeds
        have fresh := checkNew_eq_ok_iff.mp checked
        have linked := start.link holds distinct (by simp) fresh
          (.array id (children.insertIdx index.val value))
        rw [DataValue.data, List.map_insertIdx] at linked
        cases same
        exact ⟨not_lt.mp inside, fresh, linked.follow id _⟩
  | remove index =>
      simp only [editArray] at succeeds
      split at succeeds
      · exact absurd succeeds (by simp)
      · rename_i child found
        rw [List.getElem?_map, Option.map_eq_some_iff] at found
        obtain ⟨child, found, rfl⟩ := found
        have unlinked := start.setData (by simp) (by simp) (.array id (children.eraseIdx index.val))
        have dropped := unlinked.detach holds distinct (by simp) (List.mem_of_getElem? found) origin
          (path.child (.index index.val))
        rw [DataValue.data, ← List.eraseIdx_map] at dropped
        cases succeeds
        refine ⟨(List.getElem?_eq_some_iff.mp found).1, fresh_nil arena, ?_⟩
        simp only [ArrayEdit.discarded, found, Option.toList_some]
        exact dropped.follow id _
  | replace index value =>
      simp only [editArray] at succeeds
      split at succeeds
      · exact absurd succeeds (by simp)
      · rename_i child found
        rw [List.getElem?_map, Option.map_eq_some_iff] at found
        obtain ⟨child, found, rfl⟩ := found
        obtain ⟨_, checked, same⟩ := Fallible.bind_eq_ok_iff.mp succeeds
        have fresh := checkNew_eq_ok_iff.mp checked
        have linked := start.link holds distinct (by simp) fresh
          (.array id (children.set index.val value))
        have dropped := linked.detach holds distinct (fun _ listed => fresh.notMem holds listed)
          (List.mem_of_getElem? found) origin (path.child (.index index.val))
        rw [DataValue.data, List.map_set] at dropped
        cases same
        refine ⟨(List.getElem?_eq_some_iff.mp found).1, fresh, ?_⟩
        simp only [ArrayEdit.discarded, found, Option.toList_some]
        exact dropped
  | move source target =>
      simp only [editArray, List.length_map] at succeeds
      split at succeeds
      · exact absurd succeeds (by simp)
      · rename_i child found
        rw [List.getElem?_map, Option.map_eq_some_iff] at found
        obtain ⟨child, found, rfl⟩ := found
        split at succeeds
        · exact absurd succeeds (by simp)
        · rename_i inside
          have moved := start.setData (by simp) (by simp)
            (.array id ((children.eraseIdx source.val).insertIdx target.val child))
          rw [DataValue.data, List.map_insertIdx, ← List.eraseIdx_map] at moved
          cases succeeds
          refine ⟨⟨(List.getElem?_eq_some_iff.mp found).1, not_le.mp inside⟩, fresh_nil arena, ?_⟩
          simp only [ArrayEdit.applyTo, found]
          exact moved.follow id _

end

section

variable {children : List (String × DataValue)} (holds : arena.Holds parent (.object id children))
  (distinct : (DataValue.object id children).nodeIds.Nodup)

include holds distinct

theorem fits_of_editProperty {edit : PropertyEdit}
    (succeeds : arena.editProperty ⟨origin, id, path⟩ (Keyed.mapValues DataValue.id children) edit =
      .ok result) :
    edit.Fits children ∧ arena.Fresh (edit.values.flatMap DataValue.nodeIds) ∧
      Rewires arena parent (.object id children) (.object id (edit.applyTo children))
        (edit.discarded children) edit.values result.1 := by
  have start := Rewires.start holds.root
  have child {key : String} {value : DataValue} (found : Keyed.find? key children = some value) :
      value ∈ (DataValue.object id children).childValues :=
    List.mem_map_of_mem (Keyed.mem_of_find? found)
  cases edit with
  | add key value =>
      simp only [editProperty, Keyed.find?_mapValues] at succeeds
      split at succeeds
      · exact absurd succeeds (by simp)
      · rename_i absent
        obtain ⟨_, checked, same⟩ := Fallible.bind_eq_ok_iff.mp succeeds
        have fresh := checkNew_eq_ok_iff.mp checked
        have linked := start.link holds distinct (by simp) fresh
          (.object id (Keyed.insert key value children))
        rw [DataValue.data, Keyed.mapValues_insert] at linked
        cases same
        exact ⟨Option.map_eq_none_iff.mp absent, fresh, linked⟩
  | set key value =>
      simp only [editProperty, Keyed.find?_mapValues] at succeeds
      split at succeeds
      · exact absurd succeeds (by simp)
      · rename_i old found
        rw [Option.map_eq_some_iff] at found
        obtain ⟨old, found, rfl⟩ := found
        obtain ⟨_, checked, same⟩ := Fallible.bind_eq_ok_iff.mp succeeds
        have fresh := checkNew_eq_ok_iff.mp checked
        have dropped := start.detach holds distinct (by simp) (child found) origin
          (path.child (.key key))
        have linked := dropped.link holds distinct (by simpa using child found) fresh
          (.object id (Keyed.insert key value children))
        rw [DataValue.data, Keyed.mapValues_insert] at linked
        cases same
        refine ⟨by simp [PropertyEdit.Fits, found], fresh, ?_⟩
        simp only [PropertyEdit.discarded, found, Option.toList_some]
        exact linked
  | remove key =>
      simp only [editProperty, Keyed.find?_mapValues] at succeeds
      split at succeeds
      · exact absurd succeeds (by simp)
      · rename_i old found
        rw [Option.map_eq_some_iff] at found
        obtain ⟨old, found, rfl⟩ := found
        have unlinked := start.setData (by simp) (by simp) (.object id (Keyed.erase key children))
        have dropped := unlinked.detach holds distinct (by simp) (child found) origin
          (path.child (.key key))
        rw [DataValue.data, Keyed.mapValues_erase] at dropped
        cases succeeds
        refine ⟨by simp [PropertyEdit.Fits, found], fresh_nil arena, ?_⟩
        simp only [PropertyEdit.discarded, found, Option.toList_some]
        exact dropped

end

theorem fits_of_setContents (holds : arena.Holds parent inner) (distinct : inner.nodeIds.Nodup)
    {contents : Contents} (kind : inner.kind = contents.setKind.nodeKind)
    (succeeds : arena.setContents ⟨origin, inner.id, path⟩ inner.data contents = .ok result) :
    arena.Fresh (contents.values.flatMap DataValue.nodeIds) ∧
      Rewires arena parent inner (contents.applyTo inner) inner.childValues contents.values
        result.1 := by
  have start := Rewires.start holds.root
  cases contents with
  | array values =>
      obtain ⟨_, checked, same⟩ := Fallible.bind_eq_ok_iff.mp succeeds
      have fresh := checkNew_eq_ok_iff.mp checked
      have emptied := (start.setData (by simp) (by simp) (.array inner.id [])).detachChildren holds
        distinct origin path
      have linked := emptied.link holds distinct (by simp) fresh (.array inner.id values)
      cases same
      cases inner <;> first | exact ⟨fresh, linked.dropReferences _⟩ | cases kind
  | object values =>
      obtain ⟨_, checked, same⟩ := Fallible.bind_eq_ok_iff.mp succeeds
      have fresh := checkNew_eq_ok_iff.mp checked
      have emptied := (start.setData (by simp) (by simp) (.object inner.id [])).detachChildren holds
        distinct origin path
      have linked := emptied.link holds distinct (by simp) fresh (.object inner.id values)
      cases same
      rw [attachMembers_eq]
      cases inner <;> first | exact ⟨fresh, linked.dropReferences _⟩ | cases kind
  | string text =>
      have written := start.setData (by simp) (by simp) (.string inner.id text)
      cases succeeds
      cases inner <;> first | exact ⟨fresh_nil arena, written.dropReferences _⟩ | cases kind
  | number value =>
      have written := start.setData (by simp) (by simp) (.number inner.id value)
      cases succeeds
      cases inner <;> first | exact ⟨fresh_nil arena, written⟩ | cases kind
  | boolean value =>
      have written := start.setData (by simp) (by simp) (.boolean inner.id value)
      cases succeeds
      cases inner <;> first | exact ⟨fresh_nil arena, written⟩ | cases kind
  | date value =>
      have written := start.setData (by simp) (by simp) (.date inner.id value)
      cases succeeds
      cases inner <;> first | exact ⟨fresh_nil arena, written⟩ | cases kind

theorem fits_of_change (holds : arena.Holds parent inner) (distinct : inner.nodeIds.Nodup)
    {change : Change} (kind : inner.kind = change.kind.nodeKind)
    (succeeds : arena.change ⟨origin, inner.id, path⟩ inner.data change = .ok result) :
    change.Fits inner ∧ arena.Fresh change.createdIds ∧
      Rewires arena parent inner (change.applyTo inner) (change.discarded inner)
        change.createdValues result.1 := by
  cases change with
  | set contents => exact ⟨kind.symm, fits_of_setContents holds distinct kind succeeds⟩
  | text edit =>
      cases inner with
      | string id text =>
          obtain ⟨fits, rewires⟩ := fits_of_editText holds succeeds
          exact ⟨fits, fresh_nil arena, rewires⟩
      | _ => exact absurd succeeds (by simp [Arena.change, DataValue.data])
  | array edit =>
      cases inner with
      | array id children => exact fits_of_editArray holds distinct succeeds
      | _ => exact absurd succeeds (by simp [Arena.change, DataValue.data])
  | property edit =>
      cases inner with
      | object id children => exact fits_of_editProperty holds distinct succeeds
      | _ => exact absurd succeeds (by simp [Arena.change, DataValue.data])
  | addNumber amount =>
      cases inner with
      | number id stored =>
          cases succeeds
          exact ⟨trivial, fresh_nil arena,
            (Rewires.start holds.root).setData (by simp) (by simp) (.number id (stored + amount))⟩
      | _ => exact absurd succeeds (by simp [Arena.change, DataValue.data])

theorem change_isOk (site : Site) {change : Change} (fits : change.Fits inner)
    (fresh : arena.Fresh change.createdIds) :
    ∃ result, arena.change site inner.data change = .ok result := by
  have checked {values : List DataValue} (new : arena.Fresh (values.flatMap DataValue.nodeIds)) :=
    checkNew_eq_ok_iff.mpr new
  cases change with
  | set contents =>
      cases contents with
      | array values => exact ⟨_, Fallible.bind_eq_ok_iff.mpr ⟨(), checked fresh, rfl⟩⟩
      | object values => exact ⟨_, Fallible.bind_eq_ok_iff.mpr ⟨(), checked fresh, rfl⟩⟩
      | _ => exact ⟨_, rfl⟩
  | text edit =>
      cases inner with
      | string id text =>
          cases edit with
          | insert index value => simp [Arena.change, DataValue.data, editText, not_lt.mpr fits]
          | remove index length =>
              have exactFinish : index.plus? length.val = .ok ⟨index.val + length.val, fits.2⟩ :=
                (Word.plus?_eq_ok_iff _ _ _).mpr rfl
              simp [Arena.change, DataValue.data, editText, exactFinish, not_lt.mpr fits.1]
      | _ => exact fits.elim
  | array edit =>
      cases inner with
      | array id children =>
          cases edit with
          | insert index value =>
              simp only [Arena.change, DataValue.data, editArray, List.length_map,
                if_neg (not_lt.mpr fits)]
              exact ⟨_, Fallible.bind_eq_ok_iff.mpr ⟨(), checked fresh, rfl⟩⟩
          | remove index =>
              have found := List.getElem?_eq_getElem fits
              simp [Arena.change, DataValue.data, editArray, List.getElem?_map, found]
          | replace index value =>
              have found := List.getElem?_eq_getElem fits
              simp only [Arena.change, DataValue.data, editArray, List.getElem?_map, found,
                Option.map_some]
              exact ⟨_, Fallible.bind_eq_ok_iff.mpr ⟨(), checked fresh, rfl⟩⟩
          | move source target =>
              have found := List.getElem?_eq_getElem fits.1
              simp [Arena.change, DataValue.data, editArray, List.getElem?_map, found,
                not_le.mpr fits.2]
      | _ => exact fits.elim
  | property edit =>
      cases inner with
      | object id children =>
          cases edit with
          | add key value =>
              have absent : Keyed.find? key children = none := fits
              simp only [Arena.change, DataValue.data, editProperty, Keyed.find?_mapValues, absent,
                Option.map_none]
              exact ⟨_, Fallible.bind_eq_ok_iff.mpr ⟨(), checked fresh, rfl⟩⟩
          | set key value =>
              obtain ⟨old, found⟩ := Option.ne_none_iff_exists'.mp fits
              simp only [Arena.change, DataValue.data, editProperty, Keyed.find?_mapValues, found,
                Option.map_some]
              exact ⟨_, Fallible.bind_eq_ok_iff.mpr ⟨(), checked fresh, rfl⟩⟩
          | remove key =>
              obtain ⟨old, found⟩ := Option.ne_none_iff_exists'.mp fits
              simp [Arena.change, DataValue.data, editProperty, Keyed.find?_mapValues, found]
      | _ => exact fits.elim
  | addNumber amount =>
      cases inner <;> first | exact ⟨_, rfl⟩ | exact fits.elim

end

end SharedDocument.Arena
