import SharedDocument.Proofs.Document.Runs

/-! The life of an id. An id is unknown, then attached, then detached, and never goes back: it enters
the arena at most once in a run. Only an id that a skipped element names can count as detached while it
is attached. -/

namespace SharedDocument

namespace Arena

structure Advances (before after : Arena) : Prop where
  staysDetached : ∀ id, before.isDetached id = true → after.isDetached id = true
  leaves : ∀ id, before.contains id = true →
    after.contains id = true ∨ after.isDetached id = true
  enters : ∀ id, after.contains id = true →
    before.contains id = true ∨ before.isKnown id = false

variable {before between after : Arena}

theorem contains_congr (nodes : after.nodes = before.nodes) (id : NodeId) :
    after.contains id = before.contains id := by
  rw [contains, node?, nodes, contains, node?]

namespace Advances

theorem of_nodes (nodes : after.nodes = before.nodes)
    (marks : ∀ id, before.isDetached id = true → after.isDetached id = true) :
    before.Advances after :=
  ⟨marks, fun id present => Or.inl ((contains_congr nodes id).trans present),
    fun id present => Or.inl ((contains_congr nodes id).symm.trans present)⟩

theorem refl (arena : Arena) : arena.Advances arena :=
  .of_nodes rfl fun _ gone => gone

theorem known (advances : before.Advances after) {id : NodeId}
    (isKnown : before.isKnown id = true) : after.isKnown id = true := by
  rw [Arena.isKnown, Bool.or_eq_true] at isKnown ⊢
  rcases isKnown with present | gone
  · exact advances.leaves id present
  · exact Or.inr (advances.staysDetached id gone)

theorem trans (first : before.Advances between) (second : between.Advances after) :
    before.Advances after := by
  refine ⟨?_, ?_, ?_⟩
  · exact fun id gone => second.staysDetached id (first.staysDetached id gone)
  · intro id present
    rcases first.leaves id present with kept | gone
    · exact second.leaves id kept
    · exact Or.inr (second.staysDetached id gone)
  · intro id present
    rcases second.enters id present with earlier | unknown
    · exact first.enters id earlier
    · right
      by_contra isKnown
      have still := first.known (Bool.not_eq_false _ ▸ isKnown)
      simp [unknown] at still

end Advances

namespace Clashes

variable {arena : Arena} {value : DataValue} {clashing : List NodeId}

theorem advances_applyEdit (clashes : arena.Clashes value clashing) {origin : Origin} {edit : Edit}
    {result : Arena × List ChangeEvent} (ordered : edit.change.Ordered)
    (succeeds : arena.applyEdit origin edit = .ok result) :
    arena.Advances result.1 ∧
      ∀ id ∈ edit.change.createdIds, result.1.isKnown id = true := by
  by_cases detached : arena.isDetached edit.target = true
  -- a skipped edit only marks ids; any other creates unknown ids and detaches what it discards
  · cases origin with
    | own => simp [Arena.applyEdit, detached] at succeeds
    | peer sessionId =>
        rw [applyEdit_skip detached] at succeeds
        cases succeeds
        have marks (id : NodeId) := @isDetached_foldl_addDetached arena edit.change.createdIds id
        refine ⟨.of_nodes (nodes_foldl_addDetached _) fun id gone => (marks id).mpr (Or.inr gone), ?_⟩
        intro id created
        rw [isKnown, (marks id).mpr (Or.inl created), Bool.or_true]
  · obtain ⟨⟨parent, inner, admits⟩, represents, marks⟩ :=
      clashes.represents.applyEdit ordered (Bool.not_eq_true _ ▸ detached) succeeds
    have holdsNow (id : NodeId)
        (listed : id ∈ (value.editAt edit.target edit.change.applyTo).nodeIds) :
        result.1.contains id = true :=
      contains_iff.mpr (represents.holds.node?_ne_none listed)
    refine ⟨⟨fun id gone => (marks id).mpr (Or.inl gone), ?_, ?_⟩, ?_⟩
    · intro id present
      have listed := clashes.represents.only id (contains_iff.mp present)
      by_cases kept : id ∈ (value.editAt edit.target edit.change.applyTo).nodeIds
      · exact Or.inl (holdsNow id kept)
      · exact Or.inr ((marks id).mpr (Or.inr ⟨listed, kept⟩))
    · intro id present
      have listed := represents.only id (contains_iff.mp present)
      rcases ((admits.mem_nodeIds_iff clashes.represents id).mp listed).1 with created | old
      · exact Or.inr (admits.fresh.2 id created)
      · exact Or.inl (contains_iff.mpr (clashes.represents.holds.node?_ne_none old))
    · intro id created
      have listed := (admits.mem_nodeIds_iff clashes.represents id).mpr
        ⟨Or.inl created, admits.notMem_discarded clashes.represents created⟩
      rw [isKnown, holdsNow id listed, Bool.true_or]

theorem advances_applyEdits (clashes : arena.Clashes value clashing) {origin : Origin}
    {edits : List Edit} {result : Arena × List ChangeEvent}
    (ordered : ∀ edit ∈ edits, edit.change.Ordered)
    (succeeds : arena.applyEdits origin edits = .ok result) :
    arena.Advances result.1 ∧ ∀ edit ∈ edits, edit.isNoOp = false →
      ∀ id ∈ edit.change.createdIds, result.1.isKnown id = true := by
  induction edits generalizing arena value clashing result with
  | nil =>
      cases succeeds
      exact ⟨.refl _, by simp⟩
  | cons edit rest ih =>
      obtain ⟨editOrdered, restOrdered⟩ := List.forall_mem_cons.mp ordered
      unfold Arena.applyEdits at succeeds
      by_cases isNoOp : edit.isNoOp = true
      · rw [if_pos isNoOp] at succeeds
        obtain ⟨advances, created⟩ := ih clashes restOrdered succeeds
        refine ⟨advances, List.forall_mem_cons.mpr ⟨fun effective => ?_, created⟩⟩
        simp [isNoOp] at effective
      · rw [if_neg isNoOp] at succeeds
        cases applied : arena.applyEdit origin edit with
        | error fault => simp [applied] at succeeds
        | ok edited =>
            simp only [applied] at succeeds
            cases further : edited.1.applyEdits origin rest with
            | error fault => simp [further] at succeeds
            | ok reached =>
                simp only [further, Except.ok.injEq] at succeeds
                obtain ⟨next, nextClashes, -⟩ := clashes.applyEdit editOrdered applied
                obtain ⟨first, firstCreated⟩ := clashes.advances_applyEdit editOrdered applied
                obtain ⟨later, laterCreated⟩ := ih nextClashes restOrdered further
                rw [← succeeds]
                refine ⟨first.trans later, List.forall_mem_cons.mpr ⟨fun _ => ?_, laterCreated⟩⟩
                exact fun id listed => later.known (firstCreated id listed)

end Clashes

end Arena

namespace Document

def entries (id : NodeId) (document : Document) : List Request → Nat
  | [] => 0
  | request :: rest =>
      let next := document.perform request
      (if document.arena.contains id = false ∧ next.arena.contains id = true then 1 else 0) +
        next.entries id rest

theorem performAll_append (document : Document) (earlier later : List Request) :
    document.performAll (earlier ++ later) = (document.performAll earlier).performAll later := by
  induction earlier generalizing document with
  | nil => rfl
  | cons request rest ih => exact ih (document.perform request)

variable {document : Document} {value : DataValue} {clashing : List NodeId}

theorem advances_perform (holds : document.Holds value clashing) {request : Request}
    (ordered : request.Ordered) : document.arena.Advances (document.perform request).arena := by
  cases request with
  | apply origin operation =>
      simp only [perform]
      cases applied : document.apply origin operation with
      | error fault => exact .refl _
      | ok result =>
          obtain ⟨-, edited, changed, rfl⟩ := apply_eq_ok_iff.mp applied
          exact (holds.1.advances_applyEdits ordered changed).1
  | markSuperseded ids =>
      exact .of_nodes (Arena.nodes_markSuperseded ids) fun id gone =>
        (Arena.isDetached_markSuperseded ids id).mpr (Or.inr gone)
  | setReference id reference =>
      simp only [perform]
      cases set : document.setReference id reference with
      | error fault => exact .refl _
      | ok changed =>
          simp only [setReference, Fallible.bind_eq_ok_iff, Fallible.pure_eq_ok_iff] at set
          obtain ⟨_, _, _, _, _, _, rfl⟩ := set
          exact .of_nodes rfl fun _ gone => gone
  | removeReference id name =>
      simp only [perform, removeReference]
      cases (document.referencesOf id).get? name with
      | none => exact .refl _
      | some reference => exact .of_nodes rfl fun _ gone => gone
  | removeSessionReferences sessionId => exact .of_nodes rfl fun _ gone => gone
  | close => exact .of_nodes rfl fun _ gone => gone

theorem advances_performAll (holds : document.Holds value clashing) {requests : List Request}
    (ordered : ∀ request ∈ requests, request.Ordered) :
    document.arena.Advances (document.performAll requests).arena := by
  induction requests generalizing document value clashing with
  | nil => exact .refl _
  | cons request rest ih =>
      obtain ⟨first, later⟩ := List.forall_mem_cons.mp ordered
      obtain ⟨next, nextHolds⟩ := holds_perform holds first
      exact (advances_perform holds first).trans (ih nextHolds later)

theorem entries_le (holds : document.Holds value clashing) {requests : List Request}
    (ordered : ∀ request ∈ requests, request.Ordered) (id : NodeId) :
    document.entries id requests ≤ if document.arena.isKnown id then 0 else 1 := by
  induction requests generalizing document value clashing with
  | nil => exact Nat.zero_le _
  | cons request rest ih =>
      obtain ⟨first, later⟩ := List.forall_mem_cons.mp ordered
      obtain ⟨next, nextHolds⟩ := holds_perform holds first
      have advances := advances_perform holds first
      have further := ih nextHolds later
      rw [entries]
      by_cases isKnown : document.arena.isKnown id = true
      · rw [if_pos (advances.known isKnown)] at further
        have stays : ¬ (document.arena.contains id = false ∧
            (document.perform request).arena.contains id = true) := by
          rintro ⟨absent, present⟩
          rcases advances.enters id present with earlier | unknown
          · simp [absent] at earlier
          · simp [isKnown] at unknown
        rw [if_pos isKnown, if_neg stays]
        omega
      · rw [if_neg isKnown]
        by_cases entered : document.arena.contains id = false ∧
            (document.perform request).arena.contains id = true
        · have nowKnown : (document.perform request).arena.isKnown id = true := by
            rw [Arena.isKnown, entered.2, Bool.true_or]
          rw [if_pos nowKnown] at further
          rw [if_pos entered]
          omega
        · rw [if_neg entered]
          split at further <;> omega

/-- From any point of a run to any later one ids only advance, and known ones stay known. A detached id
is in the arena later on only if it was there all along, named by an element that was skipped. Each id
enters the arena at most once, and the ids that a granted operation creates are known after it. -/
theorem lifecycle_performAll {start : Document} {earlier later : List Request}
    (ordered : value.Ordered) (built : ofValue value = .ok start)
    (earlierOrdered : ∀ request ∈ earlier, request.Ordered)
    (laterOrdered : ∀ request ∈ later, request.Ordered) :
    (start.performAll earlier).arena.Advances (start.performAll (earlier ++ later)).arena ∧
    (∀ id, (start.performAll earlier).arena.isKnown id = true →
      (start.performAll (earlier ++ later)).arena.isKnown id = true) ∧
    (∀ id, (start.performAll earlier).arena.isDetached id = true →
      (start.performAll (earlier ++ later)).arena.contains id = true →
        (start.performAll earlier).arena.contains id = true ∧ id ∈ start.skippedAlong earlier) ∧
    (∀ id, (if start.arena.contains id then 1 else 0) + start.entries id (earlier ++ later) ≤ 1) ∧
    ∀ origin operation result, operation.Ordered →
      (start.performAll earlier).apply origin operation = .ok result →
        ∀ edit ∈ operation.edits, edit.isNoOp = false →
          ∀ id ∈ edit.change.createdIds, result.1.arena.isKnown id = true := by
  have startHolds := holds_ofValue ordered built
  obtain ⟨reached, holds⟩ := holds_performAll startHolds earlierOrdered
  have advances := advances_performAll holds laterOrdered
  rw [← performAll_append] at advances
  refine ⟨advances, fun id => advances.known, ?_, ?_, ?_⟩
  · intro id gone present
    rcases advances.enters id present with there | unknown
    · have listed := holds.1.represents.only id (Arena.contains_iff.mp there)
      exact ⟨there, by simpa using holds.1.clash id listed gone⟩
    · simp [(Arena.isKnown_eq_false_iff.mp unknown).2] at gone
  · intro id
    have allOrdered : ∀ request ∈ earlier ++ later, request.Ordered := by
      intro request listed
      rcases List.mem_append.mp listed with early | late
      · exact earlierOrdered request early
      · exact laterOrdered request late
    have bound := entries_le startHolds allOrdered id
    by_cases present : start.arena.contains id = true
    · have isKnown : start.arena.isKnown id = true := by rw [Arena.isKnown, present, Bool.true_or]
      rw [if_pos isKnown] at bound
      rw [if_pos present]
      omega
    · rw [if_neg present]
      split at bound <;> omega
  · intro origin operation result operationOrdered applied
    obtain ⟨-, edited, changed, rfl⟩ := apply_eq_ok_iff.mp applied
    exact (holds.1.advances_applyEdits operationOrdered changed).2

/-- A property that was removed cannot be added again under the ids that it had. -/
theorem lifecycle_readded_property :
    ∃ start, ofValue (.object ⟨"root"⟩ [("left", .array ⟨"list"⟩ [])]) = .ok start ∧
      let removal := Request.apply .own (.single (.on ⟨"root"⟩ (.property (.remove "left"))))
      let addition := Request.apply (.peer "other")
        (.single (.on ⟨"root"⟩ (.property (.add "left" (.array ⟨"list"⟩ [])))))
      (start.performAll [removal]).arena.isDetached ⟨"list"⟩ = true ∧
        (start.performAll [removal, addition]).arena.contains ⟨"list"⟩ = false ∧
        start.entries ⟨"list"⟩ [removal, addition] = 0 := by
  have ordered : (DataValue.object ⟨"root"⟩ [("left", .array ⟨"list"⟩ [])]).Ordered := by
    refine .intro ?_ ?_
    · unfold DataValue.KeysIncrease Keyed.Increasing
      decide
    · simpa [DataValue.childValues] using .leaf rfl
  have removalOrdered : ∀ request ∈
      [Request.apply .own (.single (.on ⟨"root"⟩ (.property (.remove "left"))))],
      request.Ordered := by
    simp [Request.Ordered, Operation.Ordered, Operation.edits, Edit.on, Change.Ordered,
      Change.createdValues, PropertyEdit.values]
  have additionOrdered : ∀ request ∈
      [Request.apply (.peer "other")
        (.single (.on ⟨"root"⟩ (.property (.add "left" (.array ⟨"list"⟩ [])))))],
      request.Ordered := by
    simpa [Request.Ordered, Operation.Ordered, Operation.edits, Edit.on, Change.Ordered,
      Change.createdValues, PropertyEdit.values] using .leaf rfl
  obtain ⟨-, -, staysOut, once, -⟩ := lifecycle_performAll ordered rfl removalOrdered additionOrdered
  refine ⟨_, rfl, by decide, ?_, ?_⟩
  · by_contra present
    have named := (staysOut ⟨"list"⟩ (by decide) (Bool.not_eq_false _ ▸ present)).2
    revert named
    decide
  · have bound := once ⟨"list"⟩
    rw [if_pos (by decide)] at bound
    exact Nat.le_zero.mp (Nat.le_of_add_le_add_left bound)

end Document

end SharedDocument
