import SharedDocument.Proofs.Transform.Operation

/-! What the ancestry of a document says about earlier values. A client asks its own document, in which
its pending edits are applied already, and means the value before them. Nodes keep their places as
long as they stay, so the answers agree wherever they matter. -/

namespace SharedDocument

open DataValue (Within)

/-- The ancestry is that of the value; above an id that is not in the value there is nothing. -/
def Ancestry.Describes (ancestry : Ancestry) (value : DataValue) : Prop :=
  ∀ ancestor id, ancestry ancestor id = true ↔ value.Within ancestor id ∧ ancestor ≠ id

theorem Ancestry.Describes.agrees {ancestry : Ancestry} {value : DataValue}
    (describes : ancestry.Describes value) : ancestry.Agrees value :=
  fun ancestor id _ above => ((describes ancestor id).mp above).1

theorem Ancestry.Describes.agreesOn_of_absent {ancestry : Ancestry} {value : DataValue} {edit : Edit}
    (describes : ancestry.Describes value) (absent : ∀ id ∈ edit.liveIds, id ∉ value.nodeIds)
    (live : edit.isNoOp = false) : ancestry.AgreesOn edit := by
  intro created listed ancestor id inside above
  have within := ((describes ancestor id).mp above).1
  exact absurd within.mem.2 (absent id (Edit.mem_liveIds_of_created live listed inside))

namespace Edit.Prepared

variable {ancestry other : Ancestry} {blocked : NodeId → Prop} {value : DataValue} {limit : Nat}
  {server client : List Edit}

theorem mem_effects (prepared : Prepared ancestry blocked limit value server client) {id : NodeId}
    (listed : id ∈ (effects value server).nodeIds) :
    id ∈ value.nodeIds ∨ id ∈ allLiveIds server := by
  induction server generalizing value limit with
  | nil => exact Or.inl listed
  | cons first rest ih =>
      rw [allLiveIds_cons, List.mem_append]
      rcases ih prepared.advance listed with reached | created
      · exact (mem_or_created prepared.proper.distinct reached).imp_right Or.inl
      · exact Or.inr (Or.inr created)

theorem within_effects_iff (prepared : Prepared ancestry blocked limit value server client)
    {id : NodeId} (listed : id ∈ value.nodeIds) (stays : id ∈ (effects value server).nodeIds)
    (ancestor : NodeId) :
    (effects value server).Within ancestor id ↔ value.Within ancestor id := by
  induction server generalizing value limit with
  | nil => rfl
  | cons first rest ih =>
      have notCreated : id ∉ allLiveIds rest := fun created =>
        prepared.apart id (List.mem_append_left _ (List.mem_append_right _ created)) listed
      have between := (prepared.advance.mem_effects stays).resolve_right notCreated
      rw [effects, ih prepared.advance between stays]
      exact within_effect_iff prepared.proper prepared.serverRuns.1 prepared.headFresh listed between
        ancestor

theorem agrees_of_describes (prepared : Prepared ancestry blocked limit value server client)
    (describes : other.Describes (effects value server)) : other.Agrees value := by
  intro ancestor id listed above
  have within := ((describes ancestor id).mp above).1
  exact (prepared.within_effects_iff listed within.mem.2 ancestor).mp within

theorem agreesOn_of_describes (prepared : Prepared ancestry blocked limit value server client)
    (describes : other.Describes (effects value server)) {edit : Edit} (listed : edit ∈ server)
    (live : edit.isNoOp = false) : other.AgreesOn edit := by
  induction server generalizing value limit with
  | nil => simp at listed
  | cons first rest ih =>
      rcases List.mem_cons.mp listed with rfl | later
      · have fresh := prepared.headFresh
        have suits := prepared.serverRuns.1
        have next := prepared.advance
        intro created createdListed ancestor id inside above
        obtain ⟨within, -⟩ := (describes ancestor id).mp above
        have isLive := mem_liveIds_of_created live createdListed inside
        have notLater : id ∉ allLiveIds rest :=
          (List.nodup_append'.mp (List.nodup_append'.mp prepared.created).1).2.2 isLive
        have stays := within.mem.2
        have between := (next.mem_effects stays).resolve_right notLater
        have present : edit.target ∈ value.nodeIds := by
          by_contra absent
          rw [effect_of_notMem absent] at between
          exact fresh.apart id isLive between
        obtain ⟨parent, inner, -, here, stands, below⟩ :=
          occurs_created prepared.proper suits fresh live present createdListed
        have atTarget : (edit.change.applyTo inner).id = edit.target :=
          (Change.id_applyTo _ _).trans here
        have kept (above : NodeId) := next.within_effects_iff between stays above
        rcases DataValue.within_below next.proper.distinct stands below inside
          ((kept ancestor).mp within) with inCreated | higher
        · exact Or.inl inCreated
        · rw [atTarget] at higher
          by_cases same : ancestor = edit.target
          · exact Or.inr (Or.inl same)
          · have targetAbove : (edit.effect value).Within edit.target id :=
              ⟨parent, _, stands, atTarget, (DataValue.sublist_nodeIds_of_child below).subset inside⟩
            have targetStays := ((kept edit.target).mpr targetAbove).mem.1
            exact Or.inr (Or.inr ((describes _ _).mpr
              ⟨(next.within_effects_iff higher.mem.2 targetStays ancestor).mpr higher, same⟩))
      · exact ih prepared.advance describes later

theorem consult (prepared : Prepared ancestry blocked limit value server [])
    (agrees : other.Agrees value)
    (agreesOn : ∀ edit ∈ server, edit.isNoOp = false → other.AgreesOn edit) :
    Prepared other blocked limit value server [] where
  __ := prepared
  agrees := agrees
  agreesOn := by
    rw [List.append_nil]
    exact agreesOn

end Edit.Prepared

end SharedDocument
