import SharedDocument.Proofs.Document.Represents
import SharedDocument.Proofs.Transform.Standing

/-! Arenas as mirrors of values. Besides the value an arena keeps which ids are known, and which nodes
are blocked because they count as detached. An operation acts on all three alike wherever it is
applied: its edits take effect on the value, what it creates becomes known, and nothing more is
blocked. -/

namespace SharedDocument

open DataValue (Within)

namespace Arena

/-- The arena represents the value, knows exactly the known ids, and of the value's nodes exactly the
blocked ones count as detached. -/
structure Mirrors (arena : Arena) (value : DataValue) (known blocked : NodeId → Prop) : Prop where
  represents : arena.Represents value
  knows : ∀ id, arena.isKnown id = true ↔ known id
  blocks : ∀ id ∈ value.nodeIds, (arena.isDetached id = true ↔ blocked id)
  blockedKnown : ∀ id, blocked id → known id

variable {arena : Arena} {value : DataValue} {known blocked : NodeId → Prop} {id : NodeId}

theorem isAncestor_of_absent (absent : arena.node? id = none) (ancestor : NodeId) :
    arena.isAncestor ancestor id = false := by
  unfold isAncestor
  cases arena.size with
  | zero => rfl
  | succ steps => simp [Ancestry.climb, parentOf, absent]

theorem Represents.describes (represents : arena.Represents value) :
    Ancestry.Describes arena.isAncestor value := by
  intro ancestor id
  by_cases listed : id ∈ value.nodeIds
  · exact isAncestor_eq_true_iff represents.holds represents.distinct listed ancestor
  · have absent : arena.node? id = none := by
      by_contra present
      exact listed (represents.only id present)
    rw [isAncestor_of_absent absent]
    simp only [Bool.false_eq_true, false_iff]
    exact fun within => listed within.1.mem.2

theorem Represents.isKnown_iff (represents : arena.Represents value) (id : NodeId) :
    arena.isKnown id = true ↔ id ∈ value.nodeIds ∨ arena.isDetached id = true := by
  rw [isKnown, Bool.or_eq_true_iff, contains_iff, represents.mem_iff]

namespace Mirrors

theorem proper (mirrors : arena.Mirrors value known blocked) : value.Proper :=
  ⟨mirrors.represents.distinct, mirrors.represents.ordered⟩

theorem known_of_mem (mirrors : arena.Mirrors value known blocked) {id : NodeId}
    (listed : id ∈ value.nodeIds) : known id :=
  (mirrors.knows id).mp ((mirrors.represents.isKnown_iff id).mpr (Or.inl listed))

theorem isDetached_iff (mirrors : arena.Mirrors value known blocked) (id : NodeId) :
    arena.isDetached id = true ↔ known id ∧ (id ∈ value.nodeIds → blocked id) := by
  by_cases listed : id ∈ value.nodeIds
  · rw [mirrors.blocks id listed]
    exact ⟨fun isBlocked => ⟨mirrors.blockedKnown id isBlocked, fun _ => isBlocked⟩,
      fun both => both.2 listed⟩
  · rw [← mirrors.knows, mirrors.represents.isKnown_iff]
    simp [listed]

theorem congr (mirrors : arena.Mirrors value known blocked) {same : NodeId → Prop}
    (agree : ∀ id, known id ↔ same id) : arena.Mirrors value same blocked where
  represents := mirrors.represents
  knows := fun id => (mirrors.knows id).trans (agree id)
  blocks := mirrors.blocks
  blockedKnown := fun id isBlocked => (agree id).mp (mirrors.blockedKnown id isBlocked)

theorem markSuperseded (mirrors : arena.Mirrors value known blocked) (ids : List NodeId) :
    (arena.markSuperseded ids).Mirrors value (fun id => known id ∨ id ∈ ids) blocked := by
  have represents := mirrors.represents.markSuperseded ids
  have absent (id : NodeId) : arena.node? id = none ↔ id ∉ value.nodeIds := by
    rw [mirrors.represents.mem_iff, not_not]
  refine ⟨represents, ?_, ?_, fun id isBlocked => Or.inl (mirrors.blockedKnown id isBlocked)⟩
  · intro id
    rw [represents.isKnown_iff, isDetached_markSuperseded, absent, ← mirrors.knows,
      mirrors.represents.isKnown_iff]
    by_cases listed : id ∈ value.nodeIds
    · simp [listed]
    · simp [listed, or_comm]
  · intro id listed
    rw [isDetached_markSuperseded, absent, mirrors.blocks id listed]
    simp [listed]

theorem skip (mirrors : arena.Mirrors value known blocked) {ids : List NodeId}
    (new : ∀ id ∈ ids, ¬ known id) :
    (ids.foldl addDetached arena).Mirrors value (fun id => known id ∨ id ∈ ids) blocked := by
  have represents := mirrors.represents.skip ids
  refine ⟨represents, ?_, ?_, fun id isBlocked => Or.inl (mirrors.blockedKnown id isBlocked)⟩
  · intro id
    rw [represents.isKnown_iff, isDetached_foldl_addDetached, ← mirrors.knows,
      mirrors.represents.isKnown_iff]
    tauto
  · intro id listed
    have old : id ∉ ids := fun created => new id created (mirrors.known_of_mem listed)
    rw [isDetached_foldl_addDetached, mirrors.blocks id listed]
    simp [old]

theorem applyEdit (mirrors : arena.Mirrors value known blocked) {origin : Origin} {edit : Edit}
    (live : edit.isNoOp = false) (ordered : edit.change.Ordered)
    (notDetached : arena.isDetached edit.target = false) {result : Arena × List ChangeEvent}
    (succeeds : arena.applyEdit origin edit = .ok result) :
    edit.Suits blocked value ∧ edit.target ∈ value.nodeIds ∧ edit.change.createdIds.Nodup ∧
      (∀ id ∈ edit.change.createdIds, ¬ known id) ∧
      result.1.Mirrors (edit.effect value) (fun id => known id ∨ id ∈ edit.change.createdIds)
        blocked := by
  obtain ⟨⟨parent, inner, admits⟩, represents, detached⟩ :=
    mirrors.represents.applyEdit ordered notDetached succeeds
  have present : edit.target ∈ value.nodeIds := admits.target ▸ admits.occurs.id_mem
  have new (id : NodeId) (created : id ∈ edit.change.createdIds) : ¬ known id := by
    rw [← mirrors.knows, admits.fresh.2 id created]
    exact Bool.false_ne_true
  have editedIds := admits.mem_nodeIds_iff mirrors.represents
  have kept {id : NodeId} (created : id ∈ edit.change.createdIds) :
      id ∉ (edit.change.discarded inner).flatMap DataValue.nodeIds := by
    intro gone
    have old := (Change.discardedIds_subset mirrors.represents.distinct admits.occurs gone).1
    exact new id created (mirrors.known_of_mem (admits.occurs.sublist_nodeIds.subset old))
  refine ⟨⟨?_, ?_⟩, present, admits.fresh.1, new, ?_⟩
  · intro _ otherParent other otherOccurs here
    obtain ⟨-, rfl⟩ := otherOccurs.unique mirrors.represents.distinct admits.occurs
      (here.trans admits.target.symm)
    exact admits.fits
  · intro _ ancestor within isBlocked
    rw [← mirrors.blocks ancestor within.mem.1, admits.reachable ancestor within] at isBlocked
    exact Bool.false_ne_true isBlocked
  · rw [Edit.effect_of_live live]
    refine ⟨represents, ?_, ?_, fun id isBlocked => Or.inl (mirrors.blockedKnown id isBlocked)⟩
    · intro id
      rw [represents.isKnown_iff, detached, ← mirrors.knows, mirrors.represents.isKnown_iff]
      by_cases stays : id ∈ (value.editAt edit.target edit.change.applyTo).nodeIds
      · have origin := ((editedIds id).mp stays).1
        simp only [stays, true_or, true_iff]
        exact origin.elim Or.inr fun old => Or.inl (Or.inl old)
      · have notCreated : id ∉ edit.change.createdIds :=
          fun created => stays ((editedIds id).mpr ⟨Or.inl created, kept created⟩)
        simp only [stays, notCreated, false_or, or_false, not_false_iff, and_true]
        exact or_comm
    · intro id listed
      have unchanged : result.1.isDetached id = true ↔ arena.isDetached id = true := by
        rw [detached]
        simp [listed]
      rw [unchanged]
      rcases ((editedIds id).mp listed).1 with created | old
      · have unknown := (isKnown_eq_false_iff.mp (admits.fresh.2 id created)).2
        simp only [unknown, Bool.false_eq_true, false_iff]
        exact fun isBlocked => new id created (mirrors.blockedKnown id isBlocked)
      · exact mirrors.blocks id old

/-- The effect of an edit of another session, which is skipped if its target is gone. -/
theorem applyEdit_peer (mirrors : arena.Mirrors value known blocked) (sessionId : String)
    {edit : Edit} (live : edit.isNoOp = false) (ordered : edit.change.Ordered)
    (suits : edit.Suits blocked value) (targetKnown : known edit.target)
    (created : edit.change.createdIds.Nodup) (new : ∀ id ∈ edit.change.createdIds, ¬ known id) :
    ∃ result, arena.applyEdit (.peer sessionId) edit = .ok result ∧
      result.1.Mirrors (edit.effect value) (fun id => known id ∨ id ∈ edit.change.createdIds)
        blocked := by
  by_cases present : edit.target ∈ value.nodeIds
  · obtain ⟨parent, inner, occurs, here⟩ :=
      (DataValue.mem_nodeIds_iff none value edit.target).mp present
    have reachable (ancestor : NodeId) (within : value.Within ancestor edit.target) :
        arena.isDetached ancestor = false := by
      by_contra isDetached
      exact suits.reachable live ancestor within
        ((mirrors.blocks ancestor within.mem.1).mp (Bool.not_eq_false _ ▸ isDetached))
    have fresh : arena.Fresh edit.change.createdIds := by
      refine ⟨created, fun id listed => ?_⟩
      by_contra isKnown
      exact new id listed ((mirrors.knows id).mp (Bool.not_eq_false _ ▸ isKnown))
    have admits : arena.Admits value edit parent inner :=
      ⟨occurs, here, reachable, suits.fits live _ _ occurs here, fresh⟩
    obtain ⟨result, succeeds⟩ := mirrors.represents.applyEdit_isOk (.peer sessionId) admits
    have notDetached := reachable edit.target (Within.self present)
    exact ⟨result, succeeds, (mirrors.applyEdit live ordered notDetached succeeds).2.2.2.2⟩
  · have detached : arena.isDetached edit.target = true :=
      (mirrors.isDetached_iff _).mpr ⟨targetKnown, fun listed => absurd listed present⟩
    refine ⟨_, applyEdit_skip detached, ?_⟩
    rw [Edit.effect_of_notMem present]
    exact mirrors.skip new

end Mirrors

/-! Edits in order. -/

theorem applyEdits_cons {origin : Origin} {edit : Edit} {rest : List Edit}
    (live : edit.isNoOp = false) {result : Arena × List ChangeEvent} :
    arena.applyEdits origin (edit :: rest) = .ok result ↔ ∃ edited reached,
      arena.applyEdit origin edit = .ok edited ∧ edited.1.applyEdits origin rest = .ok reached ∧
        result = (reached.1, edited.2 ++ reached.2) := by
  rw [applyEdits, if_neg (by simp [live])]
  constructor
  · intro succeeds
    split at succeeds
    · cases succeeds
    · rename_i edited events applied
      split at succeeds
      · cases succeeds
      · rename_i reached later further
        cases succeeds
        exact ⟨_, _, applied, further, rfl⟩
  · rintro ⟨edited, reached, applied, further, rfl⟩
    simp only [applied, further]

theorem superseded_of_cons {edit : Edit} {rest : List Edit}
    (superseded : ∀ id ∈ Edit.allSupersededIds (edit :: rest), known id) :
    (edit.isNoOp = true → ∀ id ∈ edit.change.createdIds, known id) ∧
      ∀ id ∈ Edit.allSupersededIds rest, known id ∨ id ∈ edit.change.createdIds := by
  constructor
  · exact fun idle id listed =>
      superseded id (Edit.mem_allSupersededIds.mpr ⟨edit, List.mem_cons_self, idle, listed⟩)
  · intro id listed
    obtain ⟨older, olderListed, idle, isCreated⟩ := Edit.mem_allSupersededIds.mp listed
    exact Or.inl (superseded id
      (Edit.mem_allSupersededIds.mpr ⟨older, List.mem_cons_of_mem _ olderListed, idle, isCreated⟩))

namespace Mirrors

theorem idle (mirrors : arena.Mirrors value known blocked) {edit : Edit} (isNoOp : edit.isNoOp = true)
    (already : ∀ id ∈ edit.change.createdIds, known id) :
    arena.Mirrors (edit.effect value) (fun id => known id ∨ id ∈ edit.change.createdIds)
      blocked := by
  rw [Edit.effect_of_isNoOp isNoOp]
  exact mirrors.congr fun id => ⟨Or.inl, fun either => either.elim (fun old => old) (already id)⟩

theorem known_append {first later : List NodeId}
    (mirrors : arena.Mirrors value (fun id => (known id ∨ id ∈ first) ∨ id ∈ later) blocked) :
    arena.Mirrors value (fun id => known id ∨ id ∈ first ++ later) blocked :=
  mirrors.congr fun id => by rw [List.mem_append, or_assoc]

theorem applyEdits_own {edits : List Edit} (mirrors : arena.Mirrors value known blocked)
    (active : ∀ edit ∈ edits, edit.isNoOp = false) (ordered : ∀ edit ∈ edits, edit.change.Ordered)
    {result : Arena × List ChangeEvent} (succeeds : arena.applyEdits .own edits = .ok result) :
    Edit.Made value known blocked edits ∧ result.1.Mirrors (Edit.effects value edits)
      (fun id => known id ∨ id ∈ Edit.allCreatedIds edits) blocked := by
  induction edits generalizing arena value known result with
  | nil =>
      cases succeeds
      exact ⟨⟨⟨trivial, trivial, List.nodup_nil, by simp⟩, trivial⟩,
        mirrors.congr (by simp [Edit.allCreatedIds])⟩
  | cons edit rest ih =>
      obtain ⟨live, restActive⟩ := List.forall_mem_cons.mp active
      obtain ⟨editOrdered, restOrdered⟩ := List.forall_mem_cons.mp ordered
      obtain ⟨edited, reached, applied, further, rfl⟩ := (applyEdits_cons live).mp succeeds
      have notDetached : arena.isDetached edit.target = false := by
        by_contra detached
        simp [Arena.applyEdit, Bool.not_eq_false _ ▸ detached] at applied
      obtain ⟨suits, present, created, new, next⟩ :=
        mirrors.applyEdit live editOrdered notDetached applied
      obtain ⟨made, last⟩ := ih next restActive restOrdered further
      have restNew := made.new
      rw [Edit.allLiveIds_eq_created restActive] at restNew
      have standing := Edit.Standing.cons suits (fun _ => mirrors.known_of_mem present)
        (List.nodup_append'.mpr ⟨created, made.created,
          fun id isFirst isLater => restNew id isLater (Or.inr isFirst)⟩)
        (fun id listed => new id (Edit.liveIds_of_live live ▸ listed)) made.toStanding
      exact ⟨⟨standing, fun _ => present, made.attached⟩, last.known_append⟩

theorem applyEdits_peer {edits : List Edit} (mirrors : arena.Mirrors value known blocked)
    (sessionId : String) (ordered : ∀ edit ∈ edits, edit.isNoOp = false → edit.change.Ordered)
    (standing : Edit.Standing value known blocked edits)
    (superseded : ∀ id ∈ Edit.allSupersededIds edits, known id) :
    ∃ result, arena.applyEdits (.peer sessionId) edits = .ok result ∧
      result.1.Mirrors (Edit.effects value edits)
        (fun id => known id ∨ id ∈ Edit.allCreatedIds edits) blocked := by
  induction edits generalizing arena value known with
  | nil => exact ⟨_, rfl, mirrors.congr (by simp [Edit.allCreatedIds])⟩
  | cons edit rest ih =>
      obtain ⟨editOrdered, restOrdered⟩ := List.forall_mem_cons.mp ordered
      have already := superseded_of_cons superseded
      cases live : edit.isNoOp with
      | true =>
          obtain ⟨result, succeeds, last⟩ := ih (mirrors.idle live (already.1 live)) restOrdered
            standing.tail already.2
          refine ⟨result, ?_, last.known_append⟩
          rw [applyEdits, if_pos live]
          exact succeeds
      | false =>
          have new (id : NodeId) (listed : id ∈ edit.change.createdIds) : ¬ known id := by
            rw [← Edit.liveIds_of_live live] at listed
            exact standing.new id (List.mem_append_left _ listed)
          obtain ⟨edited, applied, next⟩ := mirrors.applyEdit_peer sessionId live (editOrdered live)
            standing.runs.1 (standing.targets.1 live) (List.nodup_append'.mp standing.created).1 new
          obtain ⟨reached, further, last⟩ := ih next restOrdered standing.tail already.2
          exact ⟨_, (applyEdits_cons live).mpr ⟨edited, reached, applied, further, rfl⟩,
            last.known_append⟩

/-- Where nothing is blocked, edits of another session that were accepted suit the value. -/
theorem standing_of_applyEdits {edits : List Edit} (mirrors : arena.Mirrors value known blocked)
    (clear : ∀ id, ¬ blocked id) {sessionId : String}
    (ordered : ∀ edit ∈ edits, edit.isNoOp = false → edit.change.Ordered)
    (created : (Edit.allCreatedIds edits).Nodup) (new : ∀ id ∈ Edit.allLiveIds edits, ¬ known id)
    (superseded : ∀ id ∈ Edit.allSupersededIds edits, known id)
    {result : Arena × List ChangeEvent}
    (succeeds : arena.applyEdits (.peer sessionId) edits = .ok result) :
    Edit.Standing value known blocked edits := by
  induction edits generalizing arena value known result with
  | nil => exact ⟨trivial, trivial, List.nodup_nil, by simp⟩
  | cons edit rest ih =>
      obtain ⟨editOrdered, restOrdered⟩ := List.forall_mem_cons.mp ordered
      obtain ⟨editCreated, restCreated, apart⟩ := List.nodup_append'.mp created
      have already := superseded_of_cons superseded
      have restNew : ∀ id ∈ Edit.allLiveIds rest, ¬ (known id ∨ id ∈ edit.change.createdIds) := by
        rintro id listed (isKnown | isFirst)
        · exact new id (List.mem_append_right _ listed) isKnown
        · exact apart isFirst ((Edit.allLiveIds_sublist_created rest).subset listed)
      have editNew (id : NodeId) (listed : id ∈ edit.liveIds) : ¬ known id :=
        new id (List.mem_append_left _ listed)
      cases live : edit.isNoOp with
      | true =>
          rw [applyEdits, if_pos live] at succeeds
          exact .cons (Edit.suits_of_isNoOp live) (fun active => by simp [live] at active) created
            editNew (ih (mirrors.idle live (already.1 live)) restOrdered restCreated restNew
              already.2 succeeds)
      | false =>
          obtain ⟨edited, reached, applied, further, rfl⟩ := (applyEdits_cons live).mp succeeds
          obtain ⟨suits, targetKnown⟩ :
              edit.Suits blocked value ∧ known edit.target := by
            cases detached : arena.isDetached edit.target with
            | true =>
                obtain ⟨isKnown, onlyBlocked⟩ := (mirrors.isDetached_iff _).mp detached
                exact ⟨Edit.suits_of_notMem fun listed => clear _ (onlyBlocked listed), isKnown⟩
            | false =>
                obtain ⟨suits, present, -⟩ :=
                  mirrors.applyEdit live (editOrdered live) detached applied
                exact ⟨suits, mirrors.known_of_mem present⟩
          obtain ⟨again, appliedAgain, next⟩ := mirrors.applyEdit_peer sessionId live
            (editOrdered live) suits targetKnown editCreated
            (fun id listed => editNew id ((Edit.liveIds_of_live live).symm ▸ listed))
          rw [applied] at appliedAgain
          cases appliedAgain
          exact .cons suits (fun _ => targetKnown) created editNew
            (ih next restOrdered restCreated restNew already.2 further)

theorem incorporate {edits : List Edit} (mirrors : arena.Mirrors value known blocked)
    (sessionId : String) (ordered : ∀ edit ∈ edits, edit.isNoOp = false → edit.change.Ordered)
    (standing : Edit.Standing value (fun id => known id ∨ id ∈ Edit.allSupersededIds edits) blocked
      edits) :
    ∃ result,
      (arena.markSuperseded (Edit.allSupersededIds edits)).applyEdits (.peer sessionId) edits =
        .ok result ∧
      result.1.Mirrors (Edit.effects value edits)
        (fun id => known id ∨ id ∈ Edit.allCreatedIds edits) blocked := by
  obtain ⟨result, succeeds, last⟩ := (mirrors.markSuperseded (Edit.allSupersededIds edits)).applyEdits_peer
    sessionId ordered standing fun id listed => Or.inr listed
  refine ⟨result, succeeds, last.congr fun id => ?_⟩
  constructor
  · rintro ((old | superseded) | isCreated)
    · exact Or.inl old
    · exact Or.inr (Edit.allSupersededIds_subset superseded)
    · exact Or.inr isCreated
  · rintro (old | isCreated)
    · exact Or.inl (Or.inl old)
    · exact Or.inr isCreated

end Mirrors

/-! Arenas that mirror one value give one answer. -/

theorem Represents.node?_eq {other : Arena} (represents : arena.Represents value)
    (otherRepresents : other.Represents value) (id : NodeId) : arena.node? id = other.node? id := by
  by_cases listed : id ∈ value.nodeIds
  · obtain ⟨parent, inner, occurs, rfl⟩ := (DataValue.mem_nodeIds_iff none value id).mp listed
    rw [represents.holds _ _ occurs, otherRepresents.holds _ _ occurs]
  · rw [represents.mem_iff, not_not] at listed
    rw [listed]
    symm
    rwa [← not_not (a := other.node? id = none), ← ne_eq, ← otherRepresents.mem_iff,
      represents.mem_iff, not_not]

theorem valueBelow_congr {other : Arena} (same : ∀ id, arena.attached id = other.attached id)
    (depth : Nat) : arena.valueBelow depth = other.valueBelow depth := by
  induction depth with
  | zero => rfl
  | succ depth ih =>
      funext id
      simp only [valueBelow, same, ih]

namespace Mirrors

variable {other : Arena} (mirrors : arena.Mirrors value known blocked)
  (otherMirrors : other.Mirrors value known blocked)

include mirrors otherMirrors

theorem nodes_eq : arena.nodes = other.nodes :=
  Keyed.eq_of_find? mirrors.represents.sorted otherMirrors.represents.sorted
    (mirrors.represents.node?_eq otherMirrors.represents)

theorem isDetached_eq (id : NodeId) : arena.isDetached id = other.isDetached id := by
  rw [Bool.eq_iff_iff, mirrors.isDetached_iff, otherMirrors.isDetached_iff]

theorem dataValue_eq (id : NodeId) : arena.dataValue id = other.dataValue id := by
  have same (id : NodeId) : arena.attached id = other.attached id := by
    rw [attached, attached, mirrors.isDetached_eq otherMirrors,
      mirrors.represents.node?_eq otherMirrors.represents]
  rw [dataValue, dataValue, size, size, mirrors.nodes_eq otherMirrors, valueBelow_congr same]

end Mirrors

end Arena

end SharedDocument
