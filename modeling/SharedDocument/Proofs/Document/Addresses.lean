import SharedDocument.Proofs.Document.Mirrors
import SharedDocument.Proofs.Document.Paths
import SharedDocument.Proofs.Document.Runs

/-! Paths as addresses. The walk up from a node and the walk down along a path agree on which path is
whose, and the ancestors of a node are the nodes at the prefixes of its path. In a document that a run
reaches, a node without a path lies below an id, or has one, that a skipped element has marked. -/

namespace SharedDocument

namespace DataValue

variable {value outer inner : DataValue}

theorem Occurs.exists_at? {parent innerParent : Option NodeId}
    (occurs : Occurs parent value innerParent inner) (ordered : value.Ordered) :
    ∃ path, value.at? path = some inner := by
  induction occurs with
  | here => exact ⟨[], rfl⟩
  | deeper listed _ ih =>
      rw [← places_values] at listed
      obtain ⟨⟨element, child⟩, placed, rfl⟩ := List.mem_map.mp listed
      obtain ⟨path, found⟩ := ih (ordered.child (mem_childValues_of_place placed))
      exact ⟨element :: path, at?_cons_eq_some_iff.mpr
        ⟨child, (mem_places_iff ordered.keysIncrease).mp placed, found⟩⟩

theorem Within.of_child {child : DataValue} (listed : child ∈ value.childValues)
    {ancestor id : NodeId} (within : child.Within ancestor id) : value.Within ancestor id := by
  obtain ⟨_, found, occurs, here, inside⟩ := within
  obtain ⟨foundParent, below⟩ := occurs.exists_below (some value.id)
  exact ⟨foundParent, found, .deeper listed below, here, inside⟩

/-- The nodes that a node lies within are those that its path leads past. -/
theorem isPrefix_iff_within (ordered : value.Ordered) (distinct : value.nodeIds.Nodup)
    {upper lower : Path} (foundOuter : value.at? upper = some outer)
    (foundInner : value.at? lower = some inner) :
    upper <+: lower ↔ value.Within outer.id inner.id := by
  obtain ⟨outerParent, outerOccurs⟩ := ordered.occurs_at foundOuter none
  have outerOrdered := ordered.occurs outerOccurs
  constructor
  · rintro ⟨rest, rfl⟩
    rw [at?_append, foundOuter, Option.bind_some] at foundInner
    obtain ⟨_, occurs⟩ := outerOrdered.occurs_at foundInner none
    exact ⟨outerParent, outer, outerOccurs, rfl, occurs.id_mem⟩
  · rintro ⟨_, other, otherOccurs, same, inside⟩
    obtain ⟨-, rfl⟩ := otherOccurs.unique distinct outerOccurs same
    obtain ⟨_, found, occurs, foundId⟩ := (mem_nodeIds_iff outerParent other inner.id).mp inside
    obtain ⟨rest, foundBelow⟩ := occurs.exists_at? outerOrdered
    obtain ⟨_, innerOccurs⟩ := ordered.occurs_at foundInner none
    obtain ⟨-, rfl⟩ := (outerOccurs.trans occurs).unique distinct innerOccurs foundId
    have foundThrough : value.at? (upper ++ rest) = some found := by
      rw [at?_append, foundOuter, Option.bind_some, foundBelow]
    exact ⟨rest, at?_injective ordered distinct foundThrough foundInner⟩

end DataValue

namespace Document

variable {document : Document} {value inner : DataValue} {parent : Option NodeId}
  {full path : Path} {id : NodeId}

/-! The walk down. -/

theorem at?_of_descend (holds : document.arena.Holds parent value) (ordered : value.Ordered)
    (reached : document.descend full value.id path = .ok id) :
    ∃ inner, value.at? path = some inner ∧ inner.id = id := by
  induction path generalizing value parent with
  | nil =>
      cases reached
      exact ⟨value, rfl, rfl⟩
  | cons element rest ih =>
      unfold descend at reached
      split at reached
      · cases reached
      · rename_i node attached
        obtain ⟨-, stored⟩ := Arena.attached_eq_ok_iff.mp attached
        rw [holds.root, Option.some.injEq] at stored
        subst stored
        rw [DataValue.node, DataValue.childAt?_data] at reached
        cases found : value.childAt? element with
        | none => simp [found] at reached
        | some child =>
            rw [found] at reached
            have listed := DataValue.mem_childValues_of_place
              ((DataValue.mem_places_iff ordered.keysIncrease).mpr found)
            obtain ⟨inner, foundBelow, here⟩ :=
              ih (holds.child listed) (ordered.child listed) reached
            exact ⟨inner, DataValue.at?_cons_eq_some_iff.mpr ⟨child, found, foundBelow⟩, here⟩

theorem descend_of_at? (holds : document.arena.Holds parent value) (ordered : value.Ordered)
    (found : value.at? path = some inner)
    (clear : ∀ above, value.Within above inner.id → document.arena.isDetached above = false) :
    document.descend full value.id path = .ok inner.id := by
  induction path generalizing value parent with
  | nil =>
      cases found
      rfl
  | cons element rest ih =>
      obtain ⟨child, foundChild, foundBelow⟩ := DataValue.at?_cons_eq_some_iff.mp found
      have listed := DataValue.mem_childValues_of_place
        ((DataValue.mem_places_iff ordered.keysIncrease).mpr foundChild)
      obtain ⟨_, occurs⟩ := ordered.occurs_at found none
      have attached := (Arena.attached_isOk_iff holds).mpr
        (clear value.id ⟨none, value, .here, rfl, occurs.id_mem⟩)
      unfold descend
      rw [attached]
      simp only [DataValue.node, DataValue.childAt?_data, foundChild, Option.map_some]
      exact ih (holds.child listed) (ordered.child listed) foundBelow
        fun above within => clear above (within.of_child listed)

/-! The walks together. -/

/-- Paths and ids name the same nodes. Of two nodes with paths the one lies above the other exactly if
its path is a prefix, and so a subscription to the nodes below it receives what happens there. -/
structure Addressed (document : Document) : Prop where
  leads : ∀ id path, document.pathOf id = .ok path →
    ∃ view, document.nodeAt path = .ok view ∧ document.node id = .ok view ∧
      view.id = id ∧ view.path = path
  returns : ∀ path view, document.nodeAt path = .ok view → document.pathOf view.id = .ok path
  distinct : ∀ first second path, document.pathOf first = .ok path →
    document.pathOf second = .ok path → first = second
  above : ∀ upper lower upperPath lowerPath, document.pathOf upper = .ok upperPath →
    document.pathOf lower = .ok lowerPath →
    (Path.startsWith lowerPath upperPath = true ↔
      upper = lower ∨ document.arena.isAncestor upper lower = true)
  accepted : ∀ upper lower upperPath lowerPath event, document.pathOf upper = .ok upperPath →
    document.pathOf lower = .ok lowerPath → event.path = lowerPath →
    ((EventFilter.subtree upperPath).accepts event = true ↔
      upper = lower ∨ document.arena.isAncestor upper lower = true)

theorem node_of_pathOf (found : document.pathOf id = .ok path) :
    ∃ view, document.node id = .ok view ∧ view.id = id ∧ view.path = path := by
  have reached := found
  unfold pathOf Arena.pathOf at reached
  split at reached
  · cases reached
  · rename_i node attached
    refine ⟨_, Fallible.bind_eq_ok_iff.mpr ⟨node, attached,
      Fallible.bind_eq_ok_iff.mpr ⟨path, found, rfl⟩⟩, rfl, rfl⟩

theorem pathOf_of_node {view : NodeView} (found : document.node id = .ok view) :
    view.id = id ∧ document.pathOf id = .ok view.path := by
  obtain ⟨_, _, rest⟩ := Fallible.bind_eq_ok_iff.mp found
  obtain ⟨path, pathFound, same⟩ := Fallible.bind_eq_ok_iff.mp rest
  cases same
  exact ⟨rfl, pathFound⟩

section

variable (represents : document.arena.Represents value)

include represents

theorem within_iff_isAncestor (listed : id ∈ value.nodeIds) (above : NodeId) :
    value.Within above id ↔ above = id ∨ document.arena.isAncestor above id = true := by
  rw [represents.describes above id]
  constructor
  · intro within
    by_cases here : above = id
    · exact Or.inl here
    · exact Or.inr ⟨within, here⟩
  · rintro (rfl | ⟨within, -⟩)
    · exact .self listed
    · exact within

/-- A path is that of a node exactly if it leads down to the node, and no id on the way is detached. -/
theorem pathOf_eq_ok_iff :
    document.pathOf id = .ok path ↔ ∃ inner, value.at? path = some inner ∧ inner.id = id ∧
      ∀ above, value.Within above id → document.arena.isDetached above = false := by
  obtain ⟨holds, distinct, ordered, only, -, -⟩ := represents
  constructor
  · intro found
    obtain ⟨node, attached⟩ : ∃ node, document.arena.attached id = .ok node := by
      unfold pathOf Arena.pathOf at found
      split at found
      · cases found
      · exact ⟨_, ‹_›⟩
    have listed := only id (by simp [(Arena.attached_eq_ok_iff.mp attached).2])
    obtain ⟨parent, inner, occurs, rfl⟩ := (DataValue.mem_nodeIds_iff none value id).mp listed
    exact ⟨inner, Arena.at?_of_pathOf holds ordered distinct occurs found, rfl,
      (Arena.pathOf_isOk_iff holds distinct occurs).mp ⟨path, found⟩⟩
  · rintro ⟨inner, foundInner, rfl, clear⟩
    obtain ⟨parent, occurs⟩ := ordered.occurs_at foundInner none
    obtain ⟨other, found⟩ := (Arena.pathOf_isOk_iff holds distinct occurs).mpr clear
    have foundOther := Arena.at?_of_pathOf holds ordered distinct occurs found
    rw [DataValue.at?_injective ordered distinct foundInner foundOther]
    exact found

theorem addressed (root : document.root = value.id) : document.Addressed := by
  have pathOf_iff {id : NodeId} {path : Path} := @pathOf_eq_ok_iff _ _ path id represents
  have holds := represents.holds
  have distinct := represents.distinct
  have ordered := represents.ordered
  have leads (id : NodeId) (path : Path) (found : document.pathOf id = .ok path) :
      ∃ view, document.nodeAt path = .ok view ∧ document.node id = .ok view ∧
        view.id = id ∧ view.path = path := by
    obtain ⟨inner, foundInner, rfl, clear⟩ := pathOf_iff.mp found
    obtain ⟨view, viewed, here, samePath⟩ := node_of_pathOf found
    refine ⟨view, ?_, viewed, here, samePath⟩
    unfold nodeAt
    rw [root, descend_of_at? holds ordered foundInner clear]
    exact viewed
  have above (upper lower : NodeId) (upperPath lowerPath : Path)
      (foundUpper : document.pathOf upper = .ok upperPath)
      (foundLower : document.pathOf lower = .ok lowerPath) :
      Path.startsWith lowerPath upperPath = true ↔
        upper = lower ∨ document.arena.isAncestor upper lower = true := by
    obtain ⟨outer, foundOuter, rfl, -⟩ := pathOf_iff.mp foundUpper
    obtain ⟨inner, foundInner, rfl, -⟩ := pathOf_iff.mp foundLower
    obtain ⟨_, occurs⟩ := ordered.occurs_at foundInner none
    rw [← within_iff_isAncestor represents occurs.id_mem,
      ← DataValue.isPrefix_iff_within ordered distinct foundOuter foundInner]
    exact List.isPrefixOf_iff_prefix
  refine ⟨leads, ?_, ?_, above, ?_⟩
  · intro path view found
    unfold nodeAt at found
    split at found
    · cases found
    · rename_i id reached
      obtain ⟨rfl, foundPath⟩ := pathOf_of_node found
      rw [root] at reached
      obtain ⟨inner, foundInner, here⟩ := at?_of_descend holds ordered reached
      obtain ⟨_, _, _, clear⟩ := pathOf_iff.mp foundPath
      exact pathOf_iff.mpr ⟨inner, foundInner, here, clear⟩
  · intro first second path foundFirst foundSecond
    obtain ⟨firstView, firstThere, -, rfl, -⟩ := leads first path foundFirst
    obtain ⟨secondView, secondThere, -, rfl, -⟩ := leads second path foundSecond
    rw [firstThere, Except.ok.injEq] at secondThere
    rw [secondThere]
  · rintro upper lower upperPath lowerPath event foundUpper foundLower rfl
    exact above upper lower upperPath event.path foundUpper foundLower

end

/-- After every run paths and ids name the same nodes. A node in the arena has a path exactly if neither
its own id nor that of a node above it was named by a skipped element among the ids that it creates. -/
theorem addressed_performAll {value : DataValue} {start : Document} {requests : List Request}
    (ordered : value.Ordered) (built : ofValue value = .ok start)
    (requestsOrdered : ∀ request ∈ requests, request.Ordered) :
    (start.performAll requests).Addressed ∧
      ∀ id, (start.performAll requests).arena.contains id = true →
        ((∃ path, (start.performAll requests).pathOf id = .ok path) ↔
          ∀ above, above = id ∨ (start.performAll requests).arena.isAncestor above id = true →
            above ∉ start.skippedAlong requests) := by
  obtain ⟨next, ⟨represents, marked, clash⟩, root⟩ :=
    holds_performAll (holds_ofValue ordered built) requestsOrdered
  rw [List.nil_append] at marked clash
  refine ⟨addressed represents root, fun id attached => ?_⟩
  have listed := represents.only id (Arena.contains_iff.mp attached)
  have clear (above : NodeId) (within : next.Within above id) :
      (start.performAll requests).arena.isDetached above = false ↔
        above ∉ start.skippedAlong requests := by
    rw [← Bool.not_eq_true, not_iff_not]
    exact ⟨clash above within.mem.1, marked above⟩
  obtain ⟨parent, inner, occurs, rfl⟩ := (DataValue.mem_nodeIds_iff none next id).mp listed
  refine (Arena.pathOf_isOk_iff represents.holds represents.distinct occurs).trans ?_
  refine forall_congr' fun above => ?_
  rw [← within_iff_isAncestor represents listed]
  exact forall_congr' (clear above)

/-- A skipped insertion names a list that is attached elsewhere. The null in that list is attached and
not detached, and yet has no path. -/
theorem no_path_after_skip :
    ∃ start, ofValue (.object ⟨"root"⟩ [("left", .array ⟨"list"⟩ []),
        ("right", .array ⟨"other"⟩ [.null ⟨"leaf"⟩])]) = .ok start ∧
      let final := start.performAll
        [.apply .own (.single (.on ⟨"root"⟩ (.property (.remove "left")))),
          .apply (.peer "other") (.single (.on ⟨"list"⟩ (.array (.insert .zero (.null ⟨"other"⟩)))))]
      final.Addressed ∧ (∃ path, final.pathOf ⟨"root"⟩ = .ok path) ∧
        final.arena.contains ⟨"leaf"⟩ = true ∧ final.arena.isDetached ⟨"leaf"⟩ = false ∧
        ¬ ∃ path, final.pathOf ⟨"leaf"⟩ = .ok path := by
  have ordered : (DataValue.object ⟨"root"⟩ [("left", .array ⟨"list"⟩ []),
      ("right", .array ⟨"other"⟩ [.null ⟨"leaf"⟩])]).Ordered := by
    refine .intro ?_ ?_
    · unfold DataValue.KeysIncrease Keyed.Increasing
      decide
    · simpa [DataValue.childValues] using
        And.intro (.leaf rfl) (.intro trivial (by simpa [DataValue.childValues] using .leaf rfl))
  refine ⟨_, rfl, ?_⟩
  have requestsOrdered : ∀ request ∈
      [Request.apply .own (.single (.on ⟨"root"⟩ (.property (.remove "left")))),
        .apply (.peer "other") (.single (.on ⟨"list"⟩ (.array (.insert .zero (.null ⟨"other"⟩)))))],
      request.Ordered := by
    simpa [Request.Ordered, Operation.Ordered, Operation.edits, Edit.on, Change.Ordered,
      Change.createdValues, PropertyEdit.values, ArrayEdit.values] using .leaf rfl
  obtain ⟨addressed, reachable⟩ := addressed_performAll ordered rfl requestsOrdered
  refine ⟨addressed, (reachable ⟨"root"⟩ (by decide)).mpr ?_, by decide, by decide, ?_⟩
  · -- the only id that was skipped is that of the other list
    intro above either skipped
    rw [List.mem_singleton.mp (show above ∈ [⟨"other"⟩] from skipped)] at either
    exact absurd either (by decide)
  · rw [reachable ⟨"leaf"⟩ (by decide)]
    intro clear
    exact clear ⟨"other"⟩ (Or.inr (by decide)) (by decide)

end Document

end SharedDocument
