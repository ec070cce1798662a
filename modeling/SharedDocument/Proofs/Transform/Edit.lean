import SharedDocument.Proofs.Edit
import SharedDocument.Proofs.Transform.Change

/-! Concurrent edits of one value. Edits of different nodes commute, except that setting a container
discards what the other side edits below it, and that is what the ancestry finds out. -/

namespace SharedDocument

open DataValue (Occurs Within)

def Ancestry.Agrees (ancestry : Ancestry) (value : DataValue) : Prop :=
  ∀ ancestor, ∀ id ∈ value.nodeIds, ancestry ancestor id = true → value.Within ancestor id

/-- Above a node that the edit creates, the ancestry names nodes of the created value, the target
and what is above the target. -/
def Ancestry.AgreesOn (ancestry : Ancestry) (edit : Edit) : Prop :=
  ∀ created ∈ edit.change.createdValues, ∀ ancestor, ∀ id ∈ created.nodeIds,
    ancestry ancestor id = true →
      created.Within ancestor id ∨ ancestor = edit.target ∨ ancestry ancestor edit.target = true

namespace Edit

variable {ancestry : Ancestry} {blocked : NodeId → Prop} {value : DataValue}
  {server client edit : Edit}

structure Descends (old new : Edit) : Prop where
  target : new.target = old.target
  change : Change.Adapts old.change new.change
  live : new.isNoOp = false → old.isNoOp = false

theorem Descends.refl (edit : Edit) : Descends edit edit :=
  ⟨rfl, .refl _, id⟩

theorem Descends.asNoOp (edit : Edit) : Descends edit edit.asNoOp :=
  ⟨rfl, .refl _, fun live => by cases live⟩

theorem Descends.adapt {adapted : Adapted Change} (adapts : Change.Adapts edit.change adapted.change) :
    Descends edit (edit.adapt adapted) :=
  ⟨rfl, adapts, fun live => (Bool.or_eq_false_iff.mp live).1⟩

structure Settles (blocked : NodeId → Prop) (value : DataValue) (server client : Edit)
    (pair : Transformed Edit) : Prop where
  serverSuits : pair.server.Suits blocked (client.effect value)
  clientSuits : pair.client.Suits blocked (server.effect value)
  same : pair.client.effect (server.effect value) = pair.server.effect (client.effect value)

theorem Settles.swap {pair : Transformed Edit} (settles : Settles blocked value server client pair) :
    Settles blocked value client server pair.swap :=
  ⟨settles.clientSuits, settles.serverSuits, settles.same.symm⟩

theorem effect_adapt (live : edit.isNoOp = false) (adapted : Adapted Change) (value : DataValue) :
    (edit.adapt adapted).effect value =
      value.editAt edit.target (adapted.run fun change value => change.applyTo value) := by
  unfold effect adapt Adapted.run
  simp only [live, Bool.false_or]
  cases adapted.isNoOp with
  | true => simp
  | false => simp

structure Meeting (ancestry : Ancestry) (blocked : NodeId → Prop) (value : DataValue)
    (server client : Edit) : Prop where
  proper : value.Proper
  agrees : ancestry.Agrees value
  serverSuits : server.Suits blocked value
  clientSuits : client.Suits blocked value
  serverFresh : server.Fresh value
  clientFresh : client.Fresh value
  apart : ∀ id ∈ server.liveIds, id ∉ client.liveIds
  serverForeign : server.isNoOp = false → server.target ∉ client.liveIds
  clientForeign : client.isNoOp = false → client.target ∉ server.liveIds
  small : ∀ parent inner, Occurs none value parent inner →
    inner.extent + server.change.weight + client.change.weight < 0xFFFFFFFFFFFFFFFF
  notNumeric : server.isNoOp = false → ¬ server.change.IsNumeric

theorem Meeting.swap (meeting : Meeting ancestry blocked value server client)
    (notNumeric : client.isNoOp = false → ¬ client.change.IsNumeric) :
    Meeting ancestry blocked value client server where
  proper := meeting.proper
  agrees := meeting.agrees
  serverSuits := meeting.clientSuits
  clientSuits := meeting.serverSuits
  serverFresh := meeting.clientFresh
  clientFresh := meeting.serverFresh
  apart := fun id inClient inServer => meeting.apart id inServer inClient
  serverForeign := meeting.clientForeign
  clientForeign := meeting.serverForeign
  small := fun parent inner occurs => by
    have bound := meeting.small parent inner occurs
    omega
  notNumeric := notNumeric

theorem settles_apart (meeting : Meeting ancestry blocked value server client)
    (serverLive : server.isNoOp = false) (clientLive : client.isNoOp = false)
    (different : server.target ≠ client.target) :
    Settles blocked value server client ⟨server, client⟩ where
  serverSuits := suits_after meeting.proper meeting.clientSuits meeting.clientFresh
    meeting.serverSuits different (meeting.serverForeign serverLive)
  clientSuits := suits_after meeting.proper meeting.serverSuits meeting.serverFresh
    meeting.clientSuits (Ne.symm different) (meeting.clientForeign clientLive)
  same := effect_comm different (meeting.serverForeign serverLive)
    (meeting.clientForeign clientLive) value

theorem settles_discarded (meeting : Meeting ancestry blocked value server client)
    (serverLive : server.isNoOp = false) (clientLive : client.isNoOp = false)
    (different : server.target ≠ client.target)
    (discards : server.change.discardsSubtree = true)
    (above : ancestry server.target client.target = true) :
    Settles blocked value server client ⟨server, client.asNoOp⟩ where
  serverSuits := (settles_apart meeting serverLive clientLive different).serverSuits
  clientSuits := suits_of_isNoOp rfl
  same := by
    rw [effect_of_isNoOp rfl]
    by_cases present : client.target ∈ value.nodeIds
    · exact (effect_covered meeting.proper meeting.serverSuits meeting.serverFresh serverLive discards
        different (meeting.serverForeign serverLive) (meeting.clientForeign clientLive)
        (meeting.agrees _ _ present above)).symm
    · rw [effect_of_notMem present]

theorem suits_adapt (proper : value.Proper) (clientSuits : client.Suits blocked value)
    (clientFresh : client.Fresh value) (clientLive : client.isNoOp = false)
    (reachable : ∀ ancestor, value.Within ancestor client.target → ¬ blocked ancestor)
    (same : server.target = client.target) {parent : Option NodeId} {inner : DataValue}
    (occurs : Occurs none value parent inner) (here : inner.id = client.target)
    {adapted : Adapted Change}
    (fits : adapted.isNoOp = false → adapted.change.Fits (client.change.applyTo inner)) :
    (server.adapt adapted).Suits blocked (client.effect value) := by
  have effectProper := proper_effect proper clientSuits clientFresh
  constructor
  · intro live otherParent other otherOccurs otherHere
    have stands := occurs.editAt_self client.change.applyTo proper.distinct
    rw [here, ← effect_of_live clientLive] at stands
    have sameId : other.id = (client.change.applyTo inner).id := by
      rw [Change.id_applyTo, here, otherHere, ← same]
      rfl
    obtain ⟨-, rfl⟩ := otherOccurs.unique effectProper.distinct stands sameId
    exact fits (Bool.or_eq_false_iff.mp live).2
  · intro _ ancestor within
    change (client.effect value).Within ancestor server.target at within
    rw [same] at within
    exact reachable ancestor ((within_effect_iff proper clientSuits clientFresh
      (here ▸ occurs.id_mem) within.mem.2 ancestor).mp within)

/-- Edits of one node of the value settle as their changes meet on that node. -/
theorem settles_of_meets (proper : value.Proper) (serverSuits : server.Suits blocked value)
    (clientSuits : client.Suits blocked value) (serverFresh : server.Fresh value)
    (clientFresh : client.Fresh value) (serverLive : server.isNoOp = false)
    (clientLive : client.isNoOp = false) (together : server.target = client.target)
    {parent : Option NodeId} {inner : DataValue} (occurs : Occurs none value parent inner)
    (here : inner.id = client.target) {outcome : Outcome Change}
    (meets : Change.Meets inner server.change client.change outcome) :
    Settles blocked value server client
      ⟨server.adapt outcome.server, client.adapt outcome.client⟩ := by
  have reachable := clientSuits.reachable clientLive
  refine ⟨?_, ?_, ?_⟩
  · exact suits_adapt proper clientSuits clientFresh clientLive reachable together occurs here
      meets.serverFits
  · exact suits_adapt proper serverSuits serverFresh serverLive (together ▸ reachable) together.symm
      occurs (here.trans together.symm) meets.clientFits
  · rw [effect_adapt clientLive, effect_adapt serverLive, effect_of_live serverLive,
      effect_of_live clientLive, together, DataValue.editAt_editAt (Change.id_applyTo _),
      DataValue.editAt_editAt (Change.id_applyTo _)]
    apply DataValue.editAt_congr
    intro otherParent other otherOccurs otherHere
    obtain ⟨-, rfl⟩ := otherOccurs.unique proper.distinct occurs (otherHere.trans here.symm)
    exact meets.same

theorem settles_together (meeting : Meeting ancestry blocked value server client)
    (serverLive : server.isNoOp = false) (clientLive : client.isNoOp = false)
    (together : server.target = client.target) {outcome : Outcome Change}
    (transformed : server.change.transform client.change = .ok (some outcome)) :
    Settles blocked value server client
      ⟨server.adapt outcome.server, client.adapt outcome.client⟩ := by
  by_cases present : client.target ∈ value.nodeIds
  · obtain ⟨parent, inner, occurs, here⟩ :=
      (DataValue.mem_nodeIds_iff none value client.target).mp present
    have apart : server.change.Apart client.change := by
      have apart := meeting.apart
      rw [liveIds_of_live serverLive, liveIds_of_live clientLive] at apart
      exact apart
    obtain ⟨found, sameFound, meets⟩ := Change.transform_meets
      (meeting.proper.ordered.occurs occurs).keysIncrease
      (meeting.serverSuits.fits serverLive _ _ occurs (here.trans together.symm))
      (meeting.clientSuits.fits clientLive _ _ occurs here) apart (meeting.notNumeric serverLive)
      (meeting.small _ _ occurs)
    rw [transformed] at sameFound
    cases sameFound
    exact settles_of_meets meeting.proper meeting.serverSuits meeting.clientSuits
      meeting.serverFresh meeting.clientFresh serverLive clientLive together occurs here meets
  · have absent : server.target ∉ value.nodeIds := together ▸ present
    refine ⟨?_, ?_, ?_⟩
    · rw [effect_of_notMem present]
      exact suits_of_notMem absent
    · rw [effect_of_notMem absent]
      exact suits_of_notMem present
    · rw [effect_of_notMem absent, effect_of_notMem present]
      have clientAbsent : (client.adapt outcome.client).effect value = value :=
        effect_of_notMem present
      have serverAbsent : (server.adapt outcome.server).effect value = value :=
        effect_of_notMem absent
      rw [clientAbsent, serverAbsent]

/-- Concurrent edits settle, and what becomes of them keeps their targets and created values. -/
theorem transform_settles (meeting : Meeting ancestry blocked value server client)
    (clientNotNumeric : client.isNoOp = false → ¬ client.change.IsNumeric)
    {pair : Transformed Edit} (transformed : server.transform ancestry client = .ok pair) :
    Settles blocked value server client pair := by
  unfold transform at transformed
  split at transformed
  · rename_i idle
    cases transformed
    rcases Bool.or_eq_true_iff.mp idle with serverIdle | clientIdle
    · refine ⟨suits_of_isNoOp serverIdle, ?_, ?_⟩
      · rw [effect_of_isNoOp serverIdle]
        exact meeting.clientSuits
      · rw [effect_of_isNoOp serverIdle, effect_of_isNoOp serverIdle]
    · refine ⟨?_, suits_of_isNoOp clientIdle, ?_⟩
      · rw [effect_of_isNoOp clientIdle]
        exact meeting.serverSuits
      · rw [effect_of_isNoOp clientIdle, effect_of_isNoOp clientIdle]
  · rename_i busy
    obtain ⟨serverLive, clientLive⟩ := Bool.or_eq_false_iff.mp (Bool.not_eq_true _ ▸ busy)
    split at transformed
    · rename_i together
      split at transformed
      · cases transformed
      · cases transformed
      · rename_i outcome found
        cases transformed
        exact settles_together meeting serverLive clientLive together found
    · rename_i different
      split at transformed
      · rename_i covers
        cases transformed
        obtain ⟨discards, above⟩ := Bool.and_eq_true_iff.mp covers
        exact settles_discarded meeting serverLive clientLive different discards above
      · split at transformed
        · rename_i covers
          cases transformed
          obtain ⟨discards, above⟩ := Bool.and_eq_true_iff.mp covers
          exact (settles_discarded (meeting.swap clientNotNumeric) clientLive serverLive
            (Ne.symm different) discards above).swap
        · cases transformed
          exact settles_apart meeting serverLive clientLive different

theorem transform_descends {pair : Transformed Edit}
    (transformed : server.transform ancestry client = .ok pair) :
    Descends server pair.server ∧ Descends client pair.client := by
  unfold transform at transformed
  split at transformed
  · cases transformed
    exact ⟨.refl _, .refl _⟩
  · split at transformed
    · split at transformed
      · cases transformed
      · cases transformed
      · rename_i outcome found
        cases transformed
        obtain ⟨serverAdapts, clientAdapts⟩ := Change.transform_adapts found
        exact ⟨.adapt serverAdapts, .adapt clientAdapts⟩
    · split at transformed
      · cases transformed
        exact ⟨.refl _, .asNoOp _⟩
      · split at transformed
        · cases transformed
          exact ⟨.asNoOp _, .refl _⟩
        · cases transformed
          exact ⟨.refl _, .refl _⟩

/-! What the situation was stays so in the value after an edit. -/

theorem agrees_effect (proper : value.Proper) (suits : edit.Suits blocked value)
    (fresh : edit.Fresh value) (agrees : ancestry.Agrees value)
    (agreesOn : edit.isNoOp = false → ancestry.AgreesOn edit) :
    ancestry.Agrees (edit.effect value) := by
  have kept {id : NodeId} (old : id ∈ value.nodeIds) (listed : id ∈ (edit.effect value).nodeIds)
      {ancestor : NodeId} (above : ancestry ancestor id = true) :
      (edit.effect value).Within ancestor id :=
    (within_effect_iff proper suits fresh old listed ancestor).mpr (agrees ancestor id old above)
  intro ancestor id listed above
  by_cases old : id ∈ value.nodeIds
  · exact kept old listed above
  · have isCreated := (mem_or_created proper.distinct listed).resolve_left old
    have live : edit.isNoOp = false := by
      by_contra idle
      simp [liveIds, idle] at isCreated
    have present : edit.target ∈ value.nodeIds := by
      by_contra absent
      rw [effect_of_notMem absent] at listed
      exact old listed
    rw [liveIds_of_live live] at isCreated
    obtain ⟨created, createdListed, inside⟩ := List.mem_flatMap.mp isCreated
    obtain ⟨parent, inner, -, here, stands, below⟩ :=
      occurs_created proper suits fresh live present createdListed
    have createdStands := stands.child below
    have atTarget : (edit.effect value).Within edit.target id :=
      ⟨parent, _, stands, (Change.id_applyTo _ _).trans here,
        (DataValue.sublist_nodeIds_of_child below).subset inside⟩
    rcases agreesOn live created createdListed ancestor id inside above with
      within | rfl | higher
    · obtain ⟨_, middle, middleOccurs, same, inMiddle⟩ := within
      obtain ⟨_, middleStands⟩ := middleOccurs.exists_below (some (edit.change.applyTo inner).id)
      exact ⟨_, middle, createdStands.trans middleStands, same, inMiddle⟩
    · exact atTarget
    · exact (kept present atTarget.mem.1 higher).trans
        (proper_effect proper suits fresh).distinct atTarget

end Edit

def DataValue.Bounded (limit : Nat) (value : DataValue) : Prop :=
  ∀ outerParent parent inner, Occurs outerParent value parent inner → inner.extent ≤ limit

theorem DataValue.Bounded.mono {value : DataValue} {limit larger : Nat}
    (bounded : value.Bounded limit) (grows : limit ≤ larger) : value.Bounded larger :=
  fun _ _ _ occurs => Nat.le_trans (bounded _ _ _ occurs) grows

theorem DataValue.extent_mapChildren (transform : DataValue → DataValue) (value : DataValue) :
    (value.mapChildren transform).extent = value.extent := by
  cases value <;> simp [mapChildren, extent]

theorem Edit.bounded_effect {edit : Edit} {value : DataValue} {limit : Nat}
    (distinct : value.nodeIds.Nodup) (bounded : value.Bounded limit)
    (created : edit.isNoOp = false → ∀ created ∈ edit.change.createdValues, created.Bounded limit) :
    (edit.effect value).Bounded (limit + edit.change.weight) := by
  intro outerParent parent inner outerOccurs
  obtain ⟨otherParent, occurs⟩ := outerOccurs.exists_below none
  rcases occurs_effect distinct occurs with
    ⟨before, beforeOccurs, -, ⟨-, rfl⟩ | ⟨transform, rfl⟩⟩ | ⟨live, value, listed, deeper⟩
  · have stored := bounded _ _ _ beforeOccurs
    have grown := edit.change.extent_applyTo_le before
    omega
  · rw [DataValue.extent_mapChildren]
    exact Nat.le_trans (bounded _ _ _ beforeOccurs) (Nat.le_add_right _ _)
  · exact Nat.le_trans (created live value listed _ _ _ deeper) (Nat.le_add_right _ _)

end SharedDocument
