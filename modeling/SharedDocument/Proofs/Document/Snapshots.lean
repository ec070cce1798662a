import SharedDocument.Proofs.Document.Listening

/-! Loading a document and looking at it. A value is loaded exactly if its ids are distinct, and the
snapshot of the new document is that value. Wherever a run leads, the document shows one value in all
of its views; only a view that would pass an id that a skipped element has marked is refused. -/

namespace SharedDocument

open DataValue (Occurs)

namespace Arena

variable {arena : Arena} {value : DataValue}

/-- An id is refused because it is known, or because it stands among the new ones a second time. -/
theorem duplicate?_eq_some {earlier ids : List NodeId} {id : NodeId}
    (found : arena.duplicate? earlier ids = some id) :
    id ∈ ids ∧ (arena.isKnown id = true ∨ id ∈ earlier ∨ 2 ≤ ids.count id) := by
  induction ids generalizing earlier with
  | nil => cases found
  | cons first rest ih =>
      unfold duplicate? at found
      split at found
      · rename_i repeated
        cases found
        rw [Bool.or_eq_true, List.contains_iff_mem] at repeated
        exact ⟨List.mem_cons_self, repeated.imp_right Or.inl⟩
      · obtain ⟨later, reason⟩ := ih found
        have once : 1 ≤ rest.count id := List.count_pos_iff.mpr later
        refine ⟨List.mem_cons_of_mem _ later, ?_⟩
        rcases reason with isKnown | inEarlier | twice
        · exact Or.inl isKnown
        · rcases List.mem_cons.mp inEarlier with rfl | before
          · rw [List.count_cons_self]
            exact Or.inr (Or.inr (by omega))
          · exact Or.inr (Or.inl before)
        · exact Or.inr (Or.inr (twice.trans List.count_le_count_cons))

theorem checkNew_eq_error_iff {values : List DataValue} {fault : DocumentError} :
    arena.checkNew values = .error fault ↔ ∃ id, fault = .duplicateNodeId id ∧
      arena.duplicate? [] (values.flatMap DataValue.nodeIds) = some id := by
  unfold checkNew
  cases arena.duplicate? [] (values.flatMap DataValue.nodeIds) <;> simp [eq_comm]

theorem fresh_empty_iff {ids : List NodeId} : empty.Fresh ids ↔ ids.Nodup :=
  and_iff_left fun _ _ => rfl

theorem holds_attach (distinct : value.nodeIds.Nodup) :
    (empty.attach none value).Holds none value :=
  (adds_attach distinct none empty).holds value List.mem_cons_self

theorem isDetached_attach (distinct : value.nodeIds.Nodup) (id : NodeId) :
    (empty.attach none value).isDetached id = false := by
  rw [isDetached, (adds_attach distinct none empty).detached]
  rfl

/-- What is read of a node of the value is the part of the value that lies there. -/
theorem Represents.dataValue_part_iff (represents : arena.Represents value) {id : NodeId}
    {found : DataValue} :
    arena.dataValue id = .ok found ↔ (∃ parent, Occurs none value parent found) ∧ found.id = id ∧
      ∀ inner ∈ found.nodeIds, arena.isDetached inner = false := by
  have read {parent : Option NodeId} {inner : DataValue} (occurs : Occurs none value parent inner) :
      arena.dataValue inner.id = .ok found ↔
        found = inner ∧ ∀ below ∈ inner.nodeIds, arena.isDetached below = false := by
    have held := represents.occurs_holds occurs
    have bound := held.length_le_size (represents.distinct.sublist occurs.sublist_nodeIds)
    exact valueBelow_eq_ok_iff held (by omega) found
  constructor
  · intro succeeds
    obtain ⟨node, attached, -⟩ := Fallible.bind_eq_ok_iff.mp succeeds
    have listed := represents.only id (by simp [(attached_eq_ok_iff.mp attached).2])
    obtain ⟨parent, inner, occurs, rfl⟩ := (DataValue.mem_nodeIds_iff none value id).mp listed
    obtain ⟨rfl, clear⟩ := (read occurs).mp succeeds
    exact ⟨⟨parent, occurs⟩, rfl, clear⟩
  · rintro ⟨⟨parent, occurs⟩, rfl, clear⟩
    exact (read occurs).mpr ⟨rfl, clear⟩

end Arena

namespace Document

variable {document start : Document} {value : DataValue}

/-! Loading. -/

theorem ofValue_eq_ok_iff :
    ofValue value = .ok start ↔
      value.nodeIds.Nodup ∧ start = ⟨value.id, Arena.empty.attach none value, .none, true, false⟩ := by
  rw [ofValue, Fallible.bind_eq_ok_iff, ← Arena.fresh_empty_iff,
    ← List.flatMap_singleton DataValue.nodeIds value, ← Arena.checkNew_eq_ok_iff]
  simp only [Fallible.pure_eq_ok_iff, eq_comm (b := start)]
  exact ⟨fun ⟨_, checked, same⟩ => ⟨checked, same⟩, fun ⟨checked, same⟩ => ⟨(), checked, same⟩⟩

theorem ofValue_isOk_iff : (∃ start, ofValue value = .ok start) ↔ value.nodeIds.Nodup := by
  simp only [ofValue_eq_ok_iff, exists_and_left, exists_eq, and_true]

theorem ofValue_eq_error {fault : DocumentError} (refused : ofValue value = .error fault) :
    ∃ id, fault = .duplicateNodeId id ∧ 2 ≤ value.nodeIds.count id := by
  rcases Fallible.bind_eq_error_iff.mp refused with unchecked | ⟨_, _, loaded⟩
  · obtain ⟨id, rfl, found⟩ := Arena.checkNew_eq_error_iff.mp unchecked
    rw [List.flatMap_singleton] at found
    obtain ⟨-, isKnown | inEarlier | twice⟩ := Arena.duplicate?_eq_some found
    · cases isKnown
    · cases inEarlier
    · exact ⟨id, rfl, twice⟩
  · exact absurd loaded Fallible.pure_ne_error

theorem snapshot_ofValue (built : ofValue value = .ok start) : start.snapshot = .ok value := by
  obtain ⟨distinct, rfl⟩ := ofValue_eq_ok_iff.mp built
  have held := Arena.holds_attach distinct
  have bound := Nat.le_succ_of_le (held.length_le_size distinct)
  exact (Arena.valueBelow_eq_ok_iff held bound value).mpr
    ⟨rfl, fun id _ => Arena.isDetached_attach distinct id⟩

/-! Looking. -/

/-- All views of the document are views of one value: its ids are those that are attached, its JSON is
that of the document, and its parts are what is read of the nodes, except where a marked id stands in
the way. The value can be loaded into a new document, which has it as its snapshot. -/
structure Shows (document : Document) (value : DataValue) (marked : List NodeId) : Prop where
  distinct : value.nodeIds.Nodup
  attached : ∀ id, id ∈ value.nodeIds ↔ document.arena.contains id = true
  json : document.json = value.json
  parts : ∀ id found, document.dataValue id = .ok found ↔
    (∃ parent, Occurs none value parent found) ∧ found.id = id ∧
      ∀ inner ∈ found.nodeIds, inner ∉ marked
  whole : ∀ found, document.snapshot = .ok found ↔
    found = value ∧ ∀ id, document.arena.contains id = true → id ∉ marked
  reloads : ∃ copy, ofValue value = .ok copy ∧ copy.snapshot = .ok value

theorem Holds.shows {clashing : List NodeId} (holds : document.Holds value clashing) :
    document.Shows value clashing := by
  obtain ⟨⟨represents, marked, clash⟩, root⟩ := holds
  have clear {id : NodeId} (listed : id ∈ value.nodeIds) :
      document.arena.isDetached id = false ↔ id ∉ clashing := by
    rw [← Bool.not_eq_true, not_iff_not]
    exact ⟨clash id listed, marked id⟩
  have attached (id : NodeId) : id ∈ value.nodeIds ↔ document.arena.contains id = true :=
    (represents.contains_iff_mem id).symm
  refine ⟨represents.distinct, attached, json_eq represents.holds represents.distinct root, ?_, ?_, ?_⟩
  · intro id found
    refine represents.dataValue_part_iff.trans (and_congr_right fun ⟨parent, occurs⟩ => ?_)
    exact and_congr_right fun _ => forall₂_congr fun inner listed =>
      clear (occurs.sublist_nodeIds.subset listed)
  · intro found
    rw [snapshot, root]
    refine (represents.dataValue_eq_ok_iff found).trans (and_congr_right fun _ => ?_)
    exact forall_congr' fun id => by
      rw [← attached]
      exact forall_congr' clear
  · obtain ⟨copy, built⟩ := ofValue_isOk_iff.mpr represents.distinct
    exact ⟨copy, built, snapshot_ofValue built⟩

/-- A value is loaded exactly if its ids are distinct, and is refused for an id that it repeats. The
snapshot of the new document is the value; and after every run the document shows one value in all its
views, which has a snapshot unless an element that was skipped has marked an attached id. -/
theorem shows_performAll (value : DataValue) :
    ((∃ start, ofValue value = .ok start) ↔ value.nodeIds.Nodup) ∧
    (∀ fault, ofValue value = .error fault →
      ∃ id, fault = .duplicateNodeId id ∧ 2 ≤ value.nodeIds.count id) ∧
    ∀ start, ofValue value = .ok start →
      start.snapshot = .ok value ∧
      (value.Ordered → ∀ requests : List Request, (∀ request ∈ requests, request.Ordered) →
        ∃ shown, (start.performAll requests).Shows shown (start.skippedAlong requests)) := by
  refine ⟨ofValue_isOk_iff, fun _ => ofValue_eq_error, fun start built =>
    ⟨snapshot_ofValue built, fun ordered requests requestsOrdered => ?_⟩⟩
  obtain ⟨shown, holds⟩ := holds_performAll (holds_ofValue ordered built) requestsOrdered
  exact ⟨shown, holds.shows⟩

/-- A skipped insertion names a list that is attached. The document has lost its snapshot then, but not
its JSON, and the null in the list is read as before. -/
theorem no_snapshot_after_skip :
    ∃ start, ofValue (.object ⟨"root"⟩ [("left", .array ⟨"list"⟩ []),
        ("right", .array ⟨"other"⟩ [.null ⟨"leaf"⟩])]) = .ok start ∧
      let final := start.performAll
        [.apply .own (.single (.on ⟨"root"⟩ (.property (.remove "left")))),
          .apply (.peer "other") (.single (.on ⟨"list"⟩ (.array (.insert .zero (.null ⟨"other"⟩)))))]
      ∃ shown, final.Shows shown [⟨"other"⟩] ∧ shown.json = .object [("right", .array [.null])] ∧
        (∀ found, final.snapshot ≠ .ok found) ∧ (∀ found, final.dataValue ⟨"other"⟩ ≠ .ok found) ∧
        final.dataValue ⟨"leaf"⟩ = .ok (.null ⟨"leaf"⟩) := by
  have ordered : (DataValue.object ⟨"root"⟩ [("left", .array ⟨"list"⟩ []),
      ("right", .array ⟨"other"⟩ [.null ⟨"leaf"⟩])]).Ordered := by
    refine .intro ?_ ?_
    · unfold DataValue.KeysIncrease Keyed.Increasing
      decide
    · simpa [DataValue.childValues] using
        And.intro (.leaf rfl) (.intro trivial (by simpa [DataValue.childValues] using .leaf rfl))
  have requestsOrdered : ∀ request ∈
      [Request.apply .own (.single (.on ⟨"root"⟩ (.property (.remove "left")))),
        .apply (.peer "other") (.single (.on ⟨"list"⟩ (.array (.insert .zero (.null ⟨"other"⟩)))))],
      request.Ordered := by
    simpa [Request.Ordered, Operation.Ordered, Operation.edits, Edit.on, Change.Ordered,
      Change.createdValues, PropertyEdit.values, ArrayEdit.values] using .leaf rfl
  obtain ⟨shown, shows⟩ :=
    ((shows_performAll _).2.2 _ rfl).2 ordered _ requestsOrdered
  refine ⟨_, rfl, shown, shows, ?_, ?_, ?_, rfl⟩
  · rw [← shows.json]
    rfl
  · intro found read
    exact ((shows.whole found).mp read).2 ⟨"other"⟩ rfl List.mem_cons_self
  · intro found read
    obtain ⟨-, here, clear⟩ := (shows.parts ⟨"other"⟩ found).mp read
    exact clear ⟨"other"⟩ (here ▸ DataValue.id_mem_nodeIds found) List.mem_cons_self

end Document

end SharedDocument
