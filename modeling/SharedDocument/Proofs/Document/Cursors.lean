import SharedDocument.Proofs.Document.Atomicity
import SharedDocument.Proofs.Document.References
import SharedDocument.Proofs.Document.Refinement

/-! Cursors follow the content. After an edit of a text or an array each index of a reference to the node
is where its character or child has gone, at the gap if that has left, and at the end if it was at the end.
Whole-value sets drop the references, and removed nodes take theirs along. No run of a document leaves
an index beyond the end, or a selection in a text the wrong way round. -/

namespace SharedDocument

open DataValue (Occurs Within)

/-! What fits a node. -/

namespace ReferenceValue

def positions : ReferenceValue → List Word
  | .index position => [position]
  | .indices positions => positions
  | .range selection => [selection.start, selection.finish]
  | .ranges selections => selections.flatMap fun selection => [selection.start, selection.finish]

def selections : ReferenceValue → List IndexRange
  | .range selection => [selection]
  | .ranges selections => selections
  | _ => []

/-- No index lies beyond the end of a text or an array, and selections in a text go forward. -/
def Fits (value : ReferenceValue) : NodeData → Prop
  | .string text => (∀ position ∈ value.positions, position.val ≤ text.length) ∧
      ∀ selection ∈ value.selections, selection.start.val ≤ selection.finish.val
  | .array children => ∀ position ∈ value.positions, position.val ≤ children.length
  | _ => True

theorem positions_map (follow : Word → Word) (value : ReferenceValue) :
    (value.map follow).positions = value.positions.map follow := by
  cases value with
  | ranges selections => simp [map, positions, List.map_flatMap, List.flatMap_map, IndexRange.map]
  | _ => rfl

theorem selections_map (follow : Word → Word) (value : ReferenceValue) :
    (value.map follow).selections = value.selections.map (IndexRange.map follow) := by
  cases value <;> rfl

end ReferenceValue

theorem TextEdit.toList_applyTo (edit : TextEdit) (text : String) :
    (edit.applyTo text).toList = edit.onLetters text.toList := by
  have same := edit.applyTo_ofList text.toList
  rw [String.ofList_toList] at same
  rw [same, String.toList_ofList]

/-- The positions in a text follow its characters, each of which is marked with its place. -/
theorem Change.Fits.tracks_text {textEdit : TextEdit} {inner : DataValue} {parent : Option NodeId}
    {stored : String} (fits : Change.Fits (.text textEdit) inner)
    (isString : (inner.node parent).data = .string stored) :
    ∃ edited, (((Change.text textEdit).applyTo inner).node parent).data = .string edited ∧
      edited.toList = (textEdit.onMarked (TextEdit.marked stored.toList)).map Prod.fst ∧
      Position.Tracks textEdit.follow textEdit.gap? (TextEdit.marked stored.toList)
        (textEdit.onMarked (TextEdit.marked stored.toList)) := by
  cases inner with
  | string own text =>
      cases isString
      have length := String.length_toList (s := stored)
      refine ⟨textEdit.applyTo stored, rfl, ?_, TextEdit.tracks_onMarked (length.symm ▸ fits)⟩
      rw [TextEdit.toList_applyTo, TextEdit.letters_onMarked, TextEdit.letters_marked]
  | _ => exact fits.elim

theorem Change.fits_bearing {change : Change} {inner : DataValue} (fits : change.Fits inner)
    {follow : Word → Word} (bearing : change.bearing = some follow) {value : ReferenceValue}
    (valueFits : value.Fits inner.data) : (value.map follow).Fits (change.applyTo inner).data := by
  cases change with
  | text edit =>
      cases inner with
      | string id text =>
          cases bearing
          have length := String.length_toList (s := text)
          refine ⟨?_, ?_⟩
          · rw [ReferenceValue.positions_map, ← String.length_toList, TextEdit.toList_applyTo]
            refine List.forall_mem_map.mpr fun position listed => ?_
            exact TextEdit.follow_le (length.symm ▸ fits) (length.symm ▸ valueFits.1 position listed)
          · rw [ReferenceValue.selections_map]
            refine List.forall_mem_map.mpr fun selection listed => ?_
            exact TextEdit.follow_mono fits (valueFits.2 selection listed)
      | _ => exact fits.elim
  | array edit =>
      cases inner with
      | array id children =>
          cases bearing
          rw [applyTo, DataValue.data, ReferenceValue.Fits, ReferenceValue.positions_map,
            List.length_map]
          refine List.forall_mem_map.mpr fun position listed => ?_
          refine edit.follow_le fits ?_
          have inside := valueFits position listed
          rwa [List.length_map] at inside
      | _ => exact fits.elim
  | property edit => cases inner <;> trivial
  | addNumber amount => cases inner <;> trivial
  | set contents =>
      cases contents with
      | string value => cases bearing
      | array children => cases bearing
      | object children => cases bearing
      | _ => cases inner <;> trivial

def Change.steer (change : Change) (references : ReferenceMap) : ReferenceMap :=
  (change.bearing.map references.map).getD .empty

/-! References stay within what their node holds. -/

namespace Arena

def Anchored (arena : Arena) (id : NodeId) : Prop :=
  ∀ node references, arena.node? id = some node →
    Keyed.find? id arena.references = some references →
    ∀ entry ∈ references.entries, entry.2.Fits node.data

variable {arena after : Arena} {value : DataValue} {clashing : List NodeId} {id : NodeId}

namespace Anchored

theorem congr (anchored : arena.Anchored id) (nodes : after.nodes = arena.nodes)
    (references : ∀ held, Keyed.find? id after.references = some held →
      ∃ before, Keyed.find? id arena.references = some before ∧
        ∀ entry ∈ held.entries, entry ∈ before.entries) : after.Anchored id := by
  intro node held stored found entry listed
  rw [node?, nodes, ← node?] at stored
  obtain ⟨before, foundBefore, sublist⟩ := references held found
  exact anchored node before stored foundBefore entry (sublist entry listed)

theorem of_references_eq (anchored : arena.Anchored id) (nodes : after.nodes = arena.nodes)
    (references : after.references = arena.references) : after.Anchored id :=
  anchored.congr nodes fun held found => ⟨held, references ▸ found, fun _ listed => listed⟩

theorem applyEdit (anchored : arena.Anchored id) (represents : arena.Represents value)
    {origin : Origin} {edit : Edit} {result : Arena × List ChangeEvent}
    (ordered : edit.change.Ordered) (succeeds : arena.applyEdit origin edit = .ok result) :
    result.1.Anchored id := by
  by_cases detached : arena.isDetached edit.target = true
  · cases origin with
    | own => simp [Arena.applyEdit, detached] at succeeds
    | peer sessionId =>
        rw [applyEdit_skip detached] at succeeds
        cases succeeds
        exact anchored.of_references_eq (nodes_foldl_addDetached _) (references_foldl_addDetached _)
  · have notDetached := Bool.not_eq_true _ ▸ detached
    obtain ⟨⟨parent, inner, admits⟩, -, -⟩ := represents.applyEdit ordered notDetached succeeds
    have rewires := represents.rewires_applyEdit notDetached succeeds admits
    intro node held stored found entry listed
    rw [represents.references_applyEdit notDetached succeeds admits ordered] at found
    split_ifs at found with gone here
    · obtain ⟨follow, bearing, moved⟩ := Option.bind_eq_some_iff.mp found
      obtain ⟨before, foundBefore, rfl⟩ := Option.map_eq_some_iff.mp moved
      obtain ⟨entry, old, rfl⟩ := List.mem_map.mp listed
      rw [here, ← admits.target] at stored foundBefore
      rw [rewires.site, Option.some.injEq] at stored
      subst stored
      rw [here, ← admits.target] at anchored
      refine Change.fits_bearing admits.fits bearing ?_
      exact anchored _ before (represents.occurs_holds admits.occurs).root foundBefore entry old
    · have old : id ∈ value.nodeIds := represents.references id (by simp [found])
      have same := rewires.others id (admits.target ▸ here) gone
        fun created => admits.fresh.notMem represents.holds old created
      exact anchored node held (same ▸ stored) found entry listed

theorem applyEdits (anchored : arena.Anchored id) (clashes : arena.Clashes value clashing)
    {origin : Origin} {edits : List Edit} {result : Arena × List ChangeEvent}
    (ordered : ∀ edit ∈ edits, edit.change.Ordered)
    (succeeds : arena.applyEdits origin edits = .ok result) : result.1.Anchored id := by
  induction edits generalizing arena value clashing result with
  | nil =>
      cases succeeds
      exact anchored
  | cons edit rest ih =>
      obtain ⟨editOrdered, restOrdered⟩ := List.forall_mem_cons.mp ordered
      unfold Arena.applyEdits at succeeds
      split at succeeds
      · exact ih anchored clashes restOrdered succeeds
      · cases applied : arena.applyEdit origin edit with
        | error fault => simp [applied] at succeeds
        | ok edited =>
            obtain ⟨next, nextClashes, -⟩ := clashes.applyEdit editOrdered applied
            simp only [applied] at succeeds
            cases further : edited.1.applyEdits origin rest with
            | error fault => simp [further] at succeeds
            | ok reached =>
                simp only [further, Except.ok.injEq] at succeeds
                have stillAnchored :=
                  anchored.applyEdit clashes.represents editOrdered applied
                have last := ih stillAnchored nextClashes restOrdered further
                subst succeeds
                exact last

end Anchored

end Arena

namespace Document

variable {document : Document} {value : DataValue} {clashing : List NodeId} {id : NodeId}

theorem referencesOf_setReferences (target : NodeId) (references : ReferenceMap) :
    (document.setReferences target references).referencesOf id =
      if id = target then references else document.referencesOf id := by
  unfold referencesOf setReferences
  rw [Keyed.find?_insert]
  split <;> rfl

def Anchored (document : Document) (id : NodeId) : Prop :=
  ∀ node, document.arena.node? id = some node →
    ∀ entry ∈ (document.referencesOf id).entries, entry.2.Fits node.data

theorem anchored_iff : document.Anchored id ↔ document.arena.Anchored id := by
  unfold Anchored Arena.Anchored referencesOf
  cases Keyed.find? id document.arena.references with
  | none => simp [ReferenceMap.empty]
  | some references => simp

theorem Anchored.setReferences (anchored : document.Anchored id) {target : NodeId}
    {references : ReferenceMap}
    (fits : target = id → ∀ node, document.arena.node? id = some node →
      ∀ entry ∈ references.entries, entry.2.Fits node.data) :
    (document.setReferences target references).Anchored id := by
  intro node stored entry listed
  rw [referencesOf_setReferences] at listed
  split at listed
  · rename_i here
    exact fits here.symm node stored entry listed
  · exact anchored node stored entry listed

theorem anchored_perform (holds : document.Holds value clashing) (anchored : document.Anchored id)
    {request : Request} (ordered : request.Ordered)
    (fits : ∀ reference, request = .setReference id reference →
      ∀ node, document.arena.node? id = some node → reference.value.Fits node.data) :
    (document.perform request).Anchored id := by
  rw [anchored_iff] at anchored ⊢
  cases request with
  | apply origin operation =>
      simp only [perform]
      cases applied : document.apply origin operation with
      | error fault => exact anchored
      | ok result =>
          obtain ⟨-, edited, changed, rfl⟩ := apply_eq_ok_iff.mp applied
          exact anchored.applyEdits holds.1 ordered changed
  | markSuperseded ids =>
      exact anchored.of_references_eq (Arena.nodes_markSuperseded ids)
        (Arena.references_markSuperseded ids)
  | setReference target reference =>
      rw [← anchored_iff] at anchored ⊢
      simp only [perform]
      cases set : document.setReference target reference with
      | error fault => exact anchored
      | ok changed =>
          simp only [setReference, Fallible.bind_eq_ok_iff, Fallible.pure_eq_ok_iff] at set
          obtain ⟨_, _, _, _, references, stored, rfl⟩ := set
          refine anchored.setReferences fun here node found => ?_
          subst here
          unfold ReferenceMap.put at stored
          split at stored
          · cases stored
          · cases stored
            intro entry listed
            rcases Keyed.mem_insert listed with rfl | old
            · exact fits reference rfl node found
            · exact anchored node found entry old
  | removeReference target name =>
      rw [← anchored_iff] at anchored ⊢
      simp only [perform, removeReference]
      split
      · exact anchored
      · refine anchored.setReferences fun here node found entry listed => ?_
        subst here
        exact anchored node found entry ((Keyed.erase_sublist _ _).subset listed)
  | removeSessionReferences sessionId =>
      refine anchored.congr rfl fun held found => ?_
      simp only [perform, removeSessionReferences, Keyed.find?_mapValues] at found
      obtain ⟨before, foundBefore, rfl⟩ := Option.map_eq_some_iff.mp found
      exact ⟨before, foundBefore, fun entry listed => List.mem_of_mem_filter listed⟩
  | close => exact anchored.congr rfl fun held found => by cases found

/-- No run puts an index beyond the end, or turns a selection in a text round. -/
theorem anchored_performAll (holds : document.Holds value clashing)
    (anchored : document.Anchored id) {requests : List Request}
    (ordered : ∀ request ∈ requests, request.Ordered)
    (others : ∀ reference, .setReference id reference ∉ requests) :
    (document.performAll requests).Anchored id := by
  induction requests generalizing document value clashing with
  | nil => exact anchored
  | cons request rest ih =>
      obtain ⟨first, later⟩ := List.forall_mem_cons.mp ordered
      obtain ⟨next, nextHolds⟩ := holds_perform holds first
      refine ih nextHolds ?_ later fun reference listed =>
        others reference (List.mem_cons_of_mem _ listed)
      refine anchored_perform holds anchored first fun reference here => ?_
      exact absurd (here ▸ List.mem_cons_self) (others reference)

end Document

/-! One edit. -/

theorem DataValue.childIds_node (value : DataValue) (parent : Option NodeId) :
    (value.node parent).childIds = value.childValues.map DataValue.id :=
  DataValue.children_data value

namespace Arena

variable {arena : Arena} {value inner : DataValue} {parent : Option NodeId} {edit : Edit}

/-- A node leaves with the topmost child that it lies at or below. -/
theorem Admits.mem_discardedIds_iff (admits : arena.Admits value edit parent inner)
    (represents : arena.Represents value) (id : NodeId) :
    id ∈ (edit.change.discarded inner).flatMap DataValue.nodeIds ↔
      ∃ child ∈ inner.childValues.map DataValue.id,
        child ∉ (edit.change.applyTo inner).childValues.map DataValue.id ∧
        value.Within child id := by
  obtain ⟨occurs, -, -, fits, fresh⟩ := admits
  have keys := (represents.ordered.occurs occurs).keysIncrease
  constructor
  · intro gone
    obtain ⟨child, lost, inChild⟩ := List.mem_flatMap.mp gone
    have below := Change.mem_discarded lost
    refine ⟨child.id, List.mem_map_of_mem below, fun kept => ?_,
      some inner.id, child, occurs.child below, rfl, inChild⟩
    obtain ⟨other, otherKept, same⟩ := List.mem_map.mp kept
    have apart := Change.kept_apart represents.distinct occurs keys fits fresh.1
      (fun _ created listed => fresh.notMem represents.holds listed created) otherKept
      (DataValue.id_mem_nodeIds other)
    exact apart (List.mem_flatMap.mpr ⟨child, lost, same ▸ DataValue.id_mem_nodeIds child⟩)
  · rintro ⟨_, childListed, notKept, _, middle, middleOccurs, same, inMiddle⟩
    obtain ⟨child, below, rfl⟩ := List.mem_map.mp childListed
    obtain ⟨-, rfl⟩ := middleOccurs.unique represents.distinct (occurs.child below) same
    have either := (Change.childValues_perm fits keys).mem_iff.mpr (List.mem_append_right _ below)
    refine List.mem_flatMap.mpr ⟨middle, ?_, inMiddle⟩
    exact (List.mem_append.mp either).resolve_left fun kept => notKept (List.mem_map_of_mem kept)

/-- As `mem_discardedIds_iff`, for a node of the tree and with the ancestry of the arena. -/
theorem Admits.mem_discardedIds_iff_isAncestor (admits : arena.Admits value edit parent inner)
    (represents : arena.Represents value) {id : NodeId} (listed : id ∈ value.nodeIds) :
    id ∈ (edit.change.discarded inner).flatMap DataValue.nodeIds ↔
      ∃ child ∈ (inner.node parent).childIds,
        child ∉ ((edit.change.applyTo inner).node parent).childIds ∧
        (id = child ∨ arena.isAncestor child id = true) := by
  rw [admits.mem_discardedIds_iff represents, DataValue.childIds_node, DataValue.childIds_node]
  refine exists_congr fun child => and_congr_right fun _ => and_congr_right fun _ => ?_
  rw [Arena.isAncestor_eq_true_iff represents.holds represents.distinct listed]
  constructor
  · intro within
    by_cases same : id = child
    · exact Or.inl same
    · exact Or.inr ⟨within, Ne.symm same⟩
  · rintro (rfl | ⟨within, -⟩)
    · exact Within.self listed
    · exact within

/-- The positions of the children follow them, in an edit of an array that the arena admits. -/
theorem Admits.tracks_array (admits : arena.Admits value edit parent inner)
    (represents : arena.Represents value) {arrayEdit : ArrayEdit}
    (isArray : edit.change = .array arrayEdit) :
    Position.Tracks arrayEdit.follow arrayEdit.gap? (inner.node parent).childIds
      ((edit.change.applyTo inner).node parent).childIds := by
  obtain ⟨occurs, -, -, fits, fresh⟩ := admits
  have stored := represents.distinct.sublist occurs.sublist_nodeIds
  have apart : ∀ id ∈ inner.nodeIds, id ∉ edit.change.createdIds :=
    fun id listed => fresh.notMem (represents.occurs_holds occurs) listed
  rw [isArray] at fits fresh apart ⊢
  rw [DataValue.childIds_node, DataValue.childIds_node]
  cases inner with
  | array own children =>
      refine ArrayEdit.tracks_applyTo fits ?_
      refine (DataValue.childIds_sublist _).nodup ?_
      rw [List.flatMap_append]
      refine List.nodup_append'.mpr ⟨fresh.1, DataValue.childValues_nodup stored, ?_⟩
      intro id created listed
      exact apart id (by rw [DataValue.nodeIds_eq]; exact List.mem_cons_of_mem _ listed) created
  | _ => exact fits.elim

theorem applyEdits_ineffective {origin : Origin}
    (ineffective : edit.isNoOp = true ∨ arena.isDetached edit.target = true)
    {result : Arena × List ChangeEvent} (succeeds : arena.applyEdits origin [edit] = .ok result) :
    result.1.nodes = arena.nodes ∧ result.1.references = arena.references := by
  by_cases idle : edit.isNoOp = true
  · rw [applyEdits_idle idle] at succeeds
    cases succeeds
    exact ⟨rfl, rfl⟩
  · have applied := (applyEdits_single (Bool.eq_false_iff.mpr idle)).mp succeeds
    have detached := ineffective.resolve_left idle
    cases origin with
    | own => simp [applyEdit, detached] at applied
    | peer sessionId =>
        rw [applyEdit_skip detached] at applied
        cases applied
        exact ⟨nodes_foldl_addDetached _, references_foldl_addDetached _⟩

/-- After an edit its target holds the changed contents. -/
theorem Represents.attached_applyEdit (represents : arena.Represents value) {origin : Origin}
    {result : Arena × List ChangeEvent} (notDetached : arena.isDetached edit.target = false)
    (succeeds : arena.applyEdit origin edit = .ok result)
    (admits : arena.Admits value edit parent inner) (ordered : edit.change.Ordered) :
    result.1.attached edit.target = .ok ((edit.change.applyTo inner).node parent) := by
  obtain ⟨-, edited, detached⟩ := represents.applyEdit ordered notDetached succeeds
  have standsAfter := admits.occurs.editAt_self edit.change.applyTo represents.distinct
  rw [admits.target] at standsAfter
  have found := attached_isOk_iff (edited.occurs_holds standsAfter)
  have listed := standsAfter.id_mem
  rw [Change.id_applyTo, admits.target] at found listed
  refine found.mpr (Bool.eq_false_iff.mpr fun isDetached => ?_)
  rcases (detached edit.target).mp isDetached with before | ⟨-, lost⟩
  · rw [notDetached] at before
    cases before
  · exact lost listed

end Arena

namespace Document

structure Steers (before after : Document) (edit : Edit) (node written : Node) : Prop where
  /-- Each index goes where its character has gone. -/
  text : ∀ textEdit stored, edit.change = .text textEdit → node.data = .string stored →
    ∃ edited, written.data = .string edited ∧
      edited.toList = (textEdit.onMarked (TextEdit.marked stored.toList)).map Prod.fst ∧
      after.referencesOf edit.target = (before.referencesOf edit.target).map textEdit.follow ∧
      Position.Tracks textEdit.follow textEdit.gap? (TextEdit.marked stored.toList)
        (textEdit.onMarked (TextEdit.marked stored.toList))
  /-- Each index goes where its child has gone. -/
  array : ∀ arrayEdit, edit.change = .array arrayEdit →
    after.referencesOf edit.target = (before.referencesOf edit.target).map arrayEdit.follow ∧
      Position.Tracks arrayEdit.follow arrayEdit.gap? node.childIds written.childIds
  /-- A whole-value set of a text, an array or an object drops the references. -/
  dropped : ∀ contents, edit.change = .set contents →
    contents.setKind.nodeKind ∈ [.string, .array, .object] →
    after.referencesOf edit.target = .empty
  replaced : ∀ index replacement, edit.change = .array (.replace index replacement) →
    after.referencesOf edit.target = before.referencesOf edit.target
  /-- What leaves takes its references along. -/
  removed : ∀ child ∈ node.childIds, child ∉ written.childIds →
    ∀ id, id = child ∨ before.arena.isAncestor child id = true → after.referencesOf id = .empty
  others : ∀ id, id ≠ edit.target →
    (∀ child ∈ node.childIds, child ∉ written.childIds →
      id ≠ child ∧ before.arena.isAncestor child id = false) →
    after.referencesOf id = before.referencesOf id

section

variable {document : Document} {value inner : DataValue} {parent : Option NodeId} {origin : Origin}
  {edit : Edit} {result : Arena × List ChangeEvent} (represents : document.arena.Represents value)
  (notDetached : document.arena.isDetached edit.target = false)
  (succeeds : document.arena.applyEdit origin edit = .ok result)
  (admits : document.arena.Admits value edit parent inner)

include represents notDetached succeeds admits

theorem referencesOf_applyEdit (ordered : edit.change.Ordered) (id : NodeId) :
    ({ document with arena := result.1 } : Document).referencesOf id =
      if id ∈ (edit.change.discarded inner).flatMap DataValue.nodeIds then .empty
      else if id = edit.target then edit.change.steer (document.referencesOf id)
      else document.referencesOf id := by
  unfold referencesOf
  rw [represents.references_applyEdit notDetached succeeds admits ordered]
  split_ifs
  · rfl
  · unfold Change.steer
    cases edit.change.bearing with
    | none => rfl
    | some follow =>
        cases Keyed.find? id document.arena.references <;> rfl
  · rfl

theorem referencesOf_target (ordered : edit.change.Ordered) :
    ({ document with arena := result.1 } : Document).referencesOf edit.target =
      edit.change.steer (document.referencesOf edit.target) := by
  rw [referencesOf_applyEdit represents notDetached succeeds admits ordered, if_neg, if_pos rfl]
  exact fun gone => (Change.discardedIds_subset represents.distinct admits.occurs gone).2
    admits.target.symm

theorem steers_applyEdit (ordered : edit.change.Ordered) :
    document.Steers { document with arena := result.1 } edit (inner.node parent)
      ((edit.change.applyTo inner).node parent) := by
  have references := referencesOf_applyEdit represents notDetached succeeds admits ordered
  have atTarget := referencesOf_target represents notDetached succeeds admits ordered
  have leaves {id : NodeId} (idListed : id ∈ value.nodeIds) :=
    admits.mem_discardedIds_iff_isAncestor represents idListed
  refine ⟨?text, ?array, ?dropped, ?replaced, ?removed, ?others⟩
  case text =>
    intro textEdit stored isText isString
    have fits := admits.fits
    rw [isText] at fits atTarget ⊢
    obtain ⟨edited, isEdited, letters, tracks⟩ := fits.tracks_text isString
    exact ⟨edited, isEdited, letters, atTarget, tracks⟩
  case array =>
    intro arrayEdit isArray
    have tracks := admits.tracks_array represents isArray
    rw [isArray] at atTarget
    exact ⟨atTarget, tracks⟩
  case dropped =>
    intro contents isSet isContainer
    rw [atTarget, isSet]
    cases contents <;> first | rfl | simp [Contents.setKind, OperationKind.nodeKind] at isContainer
  case replaced =>
    intro index replacement isReplacement
    have bearing : Change.bearing (.array (.replace index replacement)) = some id := rfl
    rw [atTarget, isReplacement, Change.steer, bearing]
    simp
  case removed =>
    intro child listed notKept id within
    rw [references]
    by_cases idListed : id ∈ value.nodeIds
    · exact if_pos ((leaves idListed).mpr ⟨child, listed, notKept, within⟩)
    -- an id that is not in the tree has no references to begin with
    · have absent : Keyed.find? id document.arena.references = none :=
        not_not.mp fun present => idListed (represents.references id present)
      have notTarget : id ≠ edit.target :=
        fun here => idListed (here ▸ admits.target ▸ admits.occurs.id_mem)
      rw [if_neg notTarget, referencesOf, absent]
      exact ite_self _
  case others =>
    intro id elsewhere untouched
    rw [references, if_neg, if_neg elsewhere]
    intro gone
    have idListed : id ∈ value.nodeIds := admits.occurs.sublist_nodeIds.subset
      (Change.discardedIds_subset represents.distinct admits.occurs gone).1
    obtain ⟨child, listed, notKept, same | above⟩ := (leaves idListed).mp gone
    · exact (untouched child listed notKept).1 same
    · rw [(untouched child listed notKept).2] at above
      cases above

end

end Document

end SharedDocument
