import SharedDocument.Proofs.Transform.Ancestry
import SharedDocument.Proofs.Transform.Totality

/-! Edits that stand on a value: they can be run on it, their targets are known, and what they create
is not. That is what an operation keeps while it waits in a queue and is transformed. Two sides that
stand on one value are concurrent. -/

namespace SharedDocument

namespace Edit

def allCreatedIds (edits : List Edit) : List NodeId :=
  edits.flatMap fun edit => edit.change.createdIds

@[simp] theorem allCreatedIds_cons (edit : Edit) (rest : List Edit) :
    allCreatedIds (edit :: rest) = edit.change.createdIds ++ allCreatedIds rest := rfl

def allSupersededIds (edits : List Edit) : List NodeId :=
  allCreatedIds (edits.filter Edit.isNoOp)

theorem mem_allSupersededIds {edits : List Edit} {id : NodeId} :
    id ∈ allSupersededIds edits ↔
      ∃ edit ∈ edits, edit.isNoOp = true ∧ id ∈ edit.change.createdIds := by
  simp [allSupersededIds, allCreatedIds, and_assoc]

def TargetsKnown (known : NodeId → Prop) : List Edit → Prop
  | [] => True
  | edit :: rest =>
      (edit.isNoOp = false → known edit.target) ∧
        TargetsKnown (fun id => known id ∨ id ∈ edit.change.createdIds) rest

theorem TargetsKnown.descend {known more : NodeId → Prop} {old new : List Edit}
    (targets : TargetsKnown known old) (descend : List.Forall₂ Descends old new)
    (grows : ∀ id, known id → more id) : TargetsKnown more new := by
  induction descend generalizing known more with
  | nil => trivial
  | cons first _ ih =>
      obtain ⟨targetKnown, restTargets⟩ := targets
      refine ⟨fun live => ?_, ih restTargets fun id either => ?_⟩
      · rw [first.target]
        exact grows _ (targetKnown (first.live live))
      · rw [first.change.createdIds]
        exact either.imp (grows id) fun created => created

theorem allCreatedIds_descend {old new : List Edit} (descend : List.Forall₂ Descends old new) :
    allCreatedIds new = allCreatedIds old := by
  induction descend with
  | nil => rfl
  | cons first _ ih => rw [allCreatedIds_cons, allCreatedIds_cons, first.change.createdIds, ih]

theorem allSupersededIds_descend {old new : List Edit} (descend : List.Forall₂ Descends old new)
    {id : NodeId} (listed : id ∈ allSupersededIds old) : id ∈ allSupersededIds new := by
  obtain ⟨older, olderListed, idle, created⟩ := mem_allSupersededIds.mp listed
  refine mem_allSupersededIds.mpr ?_
  induction descend with
  | nil => simp at olderListed
  | @cons first next _ _ descends _ ih =>
      rcases List.mem_cons.mp olderListed with rfl | later
      · refine ⟨next, List.mem_cons_self, ?_, descends.change.createdIds ▸ created⟩
        by_contra live
        simp [descends.live (Bool.eq_false_iff.mpr live)] at idle
      · obtain ⟨edit, editListed, kept⟩ := ih (mem_allSupersededIds.mpr ⟨older, later, idle, created⟩)
          later
        exact ⟨edit, List.mem_cons_of_mem _ editListed, kept⟩

theorem allLiveIds_sublist_created (edits : List Edit) :
    (allLiveIds edits).Sublist (allCreatedIds edits) := by
  induction edits with
  | nil => exact List.Sublist.refl _
  | cons edit rest ih =>
      cases live : edit.isNoOp with
      | true =>
          simp only [allLiveIds_cons, liveIds, live, if_true, List.nil_append]
          exact ih.trans (List.sublist_append_right _ _)
      | false =>
          rw [allLiveIds_cons, liveIds_of_live live]
          exact (List.Sublist.refl _).append ih

theorem allLiveIds_eq_created {edits : List Edit} (active : ∀ edit ∈ edits, edit.isNoOp = false) :
    allLiveIds edits = allCreatedIds edits :=
  List.flatMap_congr fun edit listed => liveIds_of_live (active edit listed)

theorem allSupersededIds_subset {edits : List Edit} {id : NodeId}
    (listed : id ∈ allSupersededIds edits) : id ∈ allCreatedIds edits := by
  obtain ⟨edit, editListed, -, created⟩ := mem_allSupersededIds.mp listed
  exact List.mem_flatMap.mpr ⟨edit, editListed, created⟩

@[simp] theorem allCreatedIds_append (before after : List Edit) :
    allCreatedIds (before ++ after) = allCreatedIds before ++ allCreatedIds after :=
  List.flatMap_append

theorem targetsKnown_append {known : NodeId → Prop} {before after : List Edit} :
    TargetsKnown known (before ++ after) ↔ TargetsKnown known before ∧
      TargetsKnown (fun id => known id ∨ id ∈ allCreatedIds before) after := by
  induction before generalizing known with
  | nil => simp [TargetsKnown, allCreatedIds]
  | cons edit rest ih =>
      simp only [List.cons_append, TargetsKnown, ih, allCreatedIds_cons, List.mem_append, and_assoc,
        or_assoc]

theorem TargetsKnown.known_or_created {known : NodeId → Prop} {edits : List Edit}
    (targets : TargetsKnown known edits) {edit : Edit} (listed : edit ∈ edits)
    (live : edit.isNoOp = false) : known edit.target ∨ edit.target ∈ allCreatedIds edits := by
  induction edits generalizing known with
  | nil => simp at listed
  | cons first rest ih =>
      rcases List.mem_cons.mp listed with rfl | later
      · exact Or.inl (targets.1 live)
      · rw [allCreatedIds_cons, List.mem_append, ← or_assoc]
        exact ih targets.2 later

theorem notMem_allSupersededIds {edits : List Edit} (created : (allCreatedIds edits).Nodup)
    {id : NodeId} (listed : id ∈ allLiveIds edits) : id ∉ allSupersededIds edits := by
  induction edits with
  | nil => simp at listed
  | cons edit rest ih =>
      obtain ⟨-, restCreated, apart⟩ := List.nodup_append'.mp created
      intro superseded
      obtain ⟨idle, idleListed, isNoOp, idleCreated⟩ := mem_allSupersededIds.mp superseded
      rw [allLiveIds_cons] at listed
      rcases List.mem_append.mp listed with isFirst | isLater
      · have live : edit.isNoOp = false := by
          by_contra editIdle
          simp [liveIds, editIdle] at isFirst
        rw [liveIds_of_live live] at isFirst
        rcases List.mem_cons.mp idleListed with rfl | later
        · simp [live] at isNoOp
        · exact apart isFirst (List.mem_flatMap.mpr ⟨idle, later, idleCreated⟩)
      · rcases List.mem_cons.mp idleListed with rfl | later
        · exact apart idleCreated ((allLiveIds_sublist_created rest).subset isLater)
        · exact ih restCreated isLater (mem_allSupersededIds.mpr ⟨idle, later, isNoOp, idleCreated⟩)

/-- The edits can be run on the value. Their targets are known, and what they still create is not. -/
structure Standing (value : DataValue) (known blocked : NodeId → Prop) (edits : List Edit) :
    Prop where
  runs : Runs blocked value edits
  targets : TargetsKnown known edits
  created : (allCreatedIds edits).Nodup
  new : ∀ id ∈ allLiveIds edits, ¬ known id

structure Made (value : DataValue) (known blocked : NodeId → Prop) (edits : List Edit) : Prop
    extends Standing value known blocked edits where
  attached : Attached value edits

namespace Standing

variable {ancestry : Ancestry} {value : DataValue} {known more blocked : NodeId → Prop}
  {limit : Nat} {edit : Edit} {edits before after : List Edit}

/-- What has become of the edits stands on another value, on which they can be run. -/
theorem transformed (standing : Standing value known blocked before)
    (descend : List.Forall₂ Descends before after) {reached : DataValue}
    (runs : Runs blocked reached after) (grows : ∀ id, known id → more id)
    (new : ∀ id ∈ allLiveIds after, ¬ more id) : Standing reached more blocked after where
  runs := runs
  targets := standing.targets.descend descend grows
  created := by
    rw [allCreatedIds_descend descend]
    exact standing.created
  new := new

theorem mono (standing : Standing value known blocked edits) (grows : ∀ id, known id → more id)
    (new : ∀ id ∈ allLiveIds edits, ¬ more id) : Standing value more blocked edits :=
  standing.transformed (List.forall₂_same.mpr fun edit _ => .refl edit) standing.runs grows new

theorem superseding (standing : Standing value known blocked edits) :
    Standing value (fun id => known id ∨ id ∈ allSupersededIds edits) blocked edits := by
  refine standing.mono (fun id => Or.inl) ?_
  rintro id listed (isKnown | superseded)
  · exact standing.new id listed isKnown
  · exact notMem_allSupersededIds standing.created listed superseded

theorem split (standing : Standing value known blocked (before ++ after)) :
    Standing value known blocked before ∧
      Standing (effects value before) (fun id => known id ∨ id ∈ allCreatedIds before) blocked
        after := by
  obtain ⟨beforeRuns, afterRuns⟩ := runs_append.mp standing.runs
  obtain ⟨beforeTargets, afterTargets⟩ := targetsKnown_append.mp standing.targets
  have created := standing.created
  have new := standing.new
  rw [allCreatedIds_append] at created
  rw [allLiveIds_append] at new
  obtain ⟨beforeCreated, afterCreated, apart⟩ := List.nodup_append'.mp created
  refine ⟨⟨beforeRuns, beforeTargets, beforeCreated, ?_⟩,
    ⟨afterRuns, afterTargets, afterCreated, ?_⟩⟩
  · exact fun id listed => new id (List.mem_append_left _ listed)
  · rintro id listed (isKnown | isCreated)
    · exact new id (List.mem_append_right _ listed) isKnown
    · exact apart isCreated ((allLiveIds_sublist_created after).subset listed)

theorem cons (suits : edit.Suits blocked value)
    (target : edit.isNoOp = false → known edit.target)
    (created : (allCreatedIds (edit :: edits)).Nodup) (new : ∀ id ∈ edit.liveIds, ¬ known id)
    (tail : Standing (edit.effect value) (fun id => known id ∨ id ∈ edit.change.createdIds) blocked
      edits) : Standing value known blocked (edit :: edits) where
  runs := ⟨suits, tail.runs⟩
  targets := ⟨target, tail.targets⟩
  created := created
  new := by
    intro id listed isKnown
    rcases List.mem_append.mp listed with isFirst | isLater
    · exact new id isFirst isKnown
    · exact tail.new id isLater (Or.inl isKnown)

theorem tail (standing : Standing value known blocked (edit :: edits)) :
    Standing (edit.effect value) (fun id => known id ∨ id ∈ edit.change.createdIds) blocked
      edits := by
  obtain ⟨-, restCreated, apart⟩ := List.nodup_append'.mp standing.created
  refine ⟨standing.runs.2, standing.targets.2, restCreated, ?_⟩
  rintro id listed (isKnown | isFirst)
  · exact standing.new id (List.mem_append_right _ listed) isKnown
  · exact apart isFirst ((allLiveIds_sublist_created edits).subset listed)

theorem append (first : Standing value known blocked before)
    (later : Standing (effects value before) (fun id => known id ∨ id ∈ allCreatedIds before)
      blocked after)
    (apart : ∀ id ∈ allCreatedIds before, id ∉ allCreatedIds after) :
    Standing value known blocked (before ++ after) where
  runs := runs_append.mpr ⟨first.runs, later.runs⟩
  targets := targetsKnown_append.mpr ⟨first.targets, later.targets⟩
  created := by
    rw [allCreatedIds_append]
    exact List.nodup_append'.mpr ⟨first.created, later.created, fun id isFirst => apart id isFirst⟩
  new := by
    intro id listed isKnown
    rw [allLiveIds_append] at listed
    rcases List.mem_append.mp listed with isFirst | isLater
    · exact first.new id isFirst isKnown
    · exact later.new id isLater (Or.inl isKnown)

theorem prepared (standing : Standing value known blocked edits) (proper : value.Proper)
    (covers : ∀ id ∈ value.nodeIds, known id) (bounded : value.Bounded limit)
    (regular : ∀ edit ∈ edits, edit.isNoOp = false → edit.Regular limit)
    (small : limit + weights edits < 0xFFFFFFFFFFFFFFFF) :
    Prepared .unrelated blocked limit value edits [] where
  proper := proper
  agrees := fun _ _ _ above => absurd above Bool.false_ne_true
  bounded := bounded
  serverRuns := standing.runs
  created := by
    rw [allLiveIds_nil, List.append_nil]
    exact standing.created.sublist (allLiveIds_sublist_created edits)
  apart := by
    rw [allLiveIds_nil, List.append_nil]
    exact fun id listed old => standing.new id listed (covers id old)
  serverForeign := by simp
  clientForeign := by simp
  regular := by
    rw [List.append_nil]
    exact regular
  agreesOn := fun _ _ _ _ _ _ _ _ above => absurd above Bool.false_ne_true
  small := small

theorem concurrent {server client : List Edit} (serverStands : Standing value known blocked server)
    (clientStands : Standing value known blocked client)
    (serverAlone : Prepared ancestry blocked limit value server [])
    (clientAlone : Prepared ancestry blocked limit value client [])
    (apart : ∀ id ∈ allCreatedIds server, id ∉ allCreatedIds client)
    (small : limit + weights server + weights client < 0xFFFFFFFFFFFFFFFF) :
    Concurrent ancestry blocked limit value server client := by
  have serverLive := (allLiveIds_sublist_created server).subset
  have clientLive := (allLiveIds_sublist_created client).subset
  refine ⟨⟨serverAlone.proper, serverAlone.agrees, serverAlone.bounded, serverAlone.serverRuns,
    ?_, ?_, ?_, ?_, ?_, ?_, small⟩, clientAlone.serverRuns⟩
  · exact List.nodup_append'.mpr ⟨(List.nodup_append'.mp serverAlone.created).1,
      (List.nodup_append'.mp clientAlone.created).1,
      fun id inServer inClient => apart id (serverLive inServer) (clientLive inClient)⟩
  · intro id listed
    rcases List.mem_append.mp listed with inServer | inClient
    · exact serverAlone.apart id (List.mem_append_left _ inServer)
    · exact clientAlone.apart id (List.mem_append_left _ inClient)
  · intro edit listed live isCreated
    rcases serverStands.targets.known_or_created listed live with isKnown | own
    · exact clientStands.new _ isCreated isKnown
    · exact apart _ own (clientLive isCreated)
  · intro edit listed live isCreated
    rcases clientStands.targets.known_or_created listed live with isKnown | own
    · exact serverStands.new _ isCreated isKnown
    · exact apart _ (serverLive isCreated) own
  · intro edit listed
    rcases List.mem_append.mp listed with inServer | inClient
    · exact serverAlone.regular edit (List.mem_append_left _ inServer)
    · exact clientAlone.regular edit (List.mem_append_left _ inClient)
  · intro edit listed
    rcases List.mem_append.mp listed with inServer | inClient
    · exact serverAlone.agreesOn edit (List.mem_append_left _ inServer)
    · exact clientAlone.agreesOn edit (List.mem_append_left _ inClient)

end Standing

end Edit


end SharedDocument
