import Mathlib.Data.List.Forall2
import SharedDocument.Proofs.Fallible
import SharedDocument.Proofs.Transform.Edit

/-! Concurrent operations. The edits of one side meet those of the other pair by pair, as the cells of
a grid: a cell turns two edits of one value into two edits of the values after the other one. The
situation is carried from cell to cell along the values that the edits pass through. -/

namespace SharedDocument

open DataValue (Occurs Within)

namespace Edit

variable {ancestry : Ancestry} {blocked : NodeId → Prop} {value : DataValue} {limit : Nat}

def effects : DataValue → List Edit → DataValue
  | value, [] => value
  | value, edit :: rest => effects (edit.effect value) rest

def Runs (blocked : NodeId → Prop) : DataValue → List Edit → Prop
  | _, [] => True
  | value, edit :: rest => edit.Suits blocked value ∧ Runs blocked (edit.effect value) rest

theorem id_effects (value : DataValue) (edits : List Edit) : (effects value edits).id = value.id := by
  induction edits generalizing value with
  | nil => rfl
  | cons edit rest ih => exact (ih (edit.effect value)).trans (id_effect edit value)

theorem effects_append (value : DataValue) (before after : List Edit) :
    effects value (before ++ after) = effects (effects value before) after := by
  induction before generalizing value with
  | nil => rfl
  | cons edit rest ih => exact ih (edit.effect value)

theorem runs_append {before after : List Edit} :
    Runs blocked value (before ++ after) ↔
      Runs blocked value before ∧ Runs blocked (effects value before) after := by
  induction before generalizing value with
  | nil => simp [Runs, effects]
  | cons edit rest ih => simp only [List.cons_append, Runs, effects, ih, and_assoc]

def weights : List Edit → Nat
  | [] => 0
  | edit :: rest => edit.change.weight + weights rest

theorem weights_append (before after : List Edit) :
    weights (before ++ after) = weights before + weights after := by
  induction before with
  | nil => simp [weights]
  | cons edit rest ih => rw [List.cons_append, weights, weights, ih, Nat.add_assoc]

theorem weights_sublist {fewer more : List Edit} (sublist : fewer.Sublist more) :
    weights fewer ≤ weights more := by
  induction sublist with
  | slnil => exact Nat.le_refl _
  | cons edit _ ih => exact Nat.le_trans ih (Nat.le_add_left _ _)
  | cons_cons edit _ ih => exact Nat.add_le_add_left ih _

theorem weights_perm {first second : List Edit} (perm : first.Perm second) :
    weights first = weights second := by
  induction perm with
  | nil => rfl
  | cons edit _ ih => simp only [weights, ih]
  | swap first second rest => simp only [weights, Nat.add_left_comm]
  | trans _ _ ih later => exact ih.trans later

def allLiveIds (edits : List Edit) : List NodeId :=
  edits.flatMap liveIds

@[simp] theorem allLiveIds_nil : allLiveIds [] = [] := rfl

@[simp] theorem allLiveIds_cons (edit : Edit) (rest : List Edit) :
    allLiveIds (edit :: rest) = edit.liveIds ++ allLiveIds rest := rfl

@[simp] theorem allLiveIds_append (before after : List Edit) :
    allLiveIds (before ++ after) = allLiveIds before ++ allLiveIds after :=
  List.flatMap_append

/-- One server edit meets the client edits one after another. -/
def against (ancestry : Ancestry) (server : Edit) :
    List Edit → Except TransformError (Edit × List Edit)
  | [] => .ok (server, [])
  | first :: rest => do
      let pair ← server.transform ancestry first
      let result ← against ancestry pair.server rest
      return (result.1, pair.client :: result.2)

/-- Each server edit meets what the client edits have become so far. -/
def transformAll (ancestry : Ancestry) :
    List Edit → List Edit → Except TransformError (List Edit × List Edit)
  | [], client => .ok ([], client)
  | first :: rest, client => do
      let row ← first.against ancestry client
      let result ← transformAll ancestry rest row.2
      return (row.1 :: result.1, result.2)

/-! Nothing changes about targets and created values. -/

theorem Descends.trans {first second third : Edit} (older : Descends first second)
    (newer : Descends second third) : Descends first third where
  target := newer.target.trans older.target
  change := older.change.trans newer.change
  live := fun live => older.live (newer.live live)

theorem forall₂_trans {related : Edit → Edit → Prop} {first second third : List Edit}
    (older : List.Forall₂ related first second) (newer : List.Forall₂ related second third)
    (transitive : ∀ {first second third}, related first second → related second third →
      related first third) : List.Forall₂ related first third := by
  induction older generalizing third with
  | nil => exact newer
  | cons head _ ih =>
      cases newer with
      | cons nextHead nextRest => exact .cons (transitive head nextHead) (ih nextRest)

theorem Descends.liveIds_sublist {old new : Edit} (descends : Descends old new) :
    new.liveIds.Sublist old.liveIds := by
  cases live : new.isNoOp with
  | true => simp [liveIds, live]
  | false =>
      rw [liveIds_of_live live, liveIds_of_live (descends.live live), descends.change.createdIds]

theorem against_descends {server : Edit} {client : List Edit} {row : Edit × List Edit}
    (succeeds : server.against ancestry client = .ok row) :
    Descends server row.1 ∧ List.Forall₂ Descends client row.2 := by
  induction client generalizing server row with
  | nil =>
      cases succeeds
      exact ⟨.refl server, .nil⟩
  | cons first rest ih =>
      simp only [against, Fallible.bind_eq_ok_iff, Fallible.pure_eq_ok_iff] at succeeds
      obtain ⟨pair, transformed, result, further, rfl⟩ := succeeds
      obtain ⟨serverDescends, clientDescends⟩ := transform_descends transformed
      obtain ⟨lastDescends, restDescend⟩ := ih further
      exact ⟨serverDescends.trans lastDescends, .cons clientDescends restDescend⟩

section

variable {old new : List Edit} (descend : List.Forall₂ Descends old new)

include descend

theorem allLiveIds_sublist : (allLiveIds new).Sublist (allLiveIds old) := by
  induction descend with
  | nil => exact List.Sublist.refl _
  | cons first _ ih => exact first.liveIds_sublist.append ih

theorem weights_descend : weights new = weights old := by
  induction descend with
  | nil => rfl
  | cons first _ ih => rw [weights, weights, first.change.weight, ih]

theorem exists_ancestor {edit : Edit} (listed : edit ∈ new) : ∃ older ∈ old, Descends older edit := by
  induction descend with
  | nil => simp at listed
  | cons first _ ih =>
      rcases List.mem_cons.mp listed with rfl | later
      · exact ⟨_, List.mem_cons_self, first⟩
      · obtain ⟨older, olderListed, descends⟩ := ih later
        exact ⟨older, List.mem_cons_of_mem _ olderListed, descends⟩

end

structure Regular (limit : Nat) (edit : Edit) : Prop where
  ordered : edit.change.Ordered
  notNumeric : ¬ edit.change.IsNumeric
  bounded : ∀ created ∈ edit.change.createdValues, created.Bounded limit

theorem Regular.mono {edit : Edit} {larger : Nat} (regular : edit.Regular limit)
    (grows : limit ≤ larger) : edit.Regular larger where
  ordered := regular.ordered
  notNumeric := regular.notNumeric
  bounded := fun created listed => (regular.bounded created listed).mono grows

theorem Descends.regular {old new : Edit} (descends : Descends old new)
    (regular : old.Regular limit) : new.Regular limit where
  ordered := descends.change.ordered regular.ordered
  notNumeric := by
    rw [Change.IsNumeric, descends.change.kind]
    exact regular.notNumeric
  bounded := by
    rw [descends.change.createdValues]
    exact regular.bounded

theorem Descends.agreesOn {old new : Edit} (descends : Descends old new)
    (agreesOn : ancestry.AgreesOn old) : ancestry.AgreesOn new := by
  rw [Ancestry.AgreesOn, descends.change.createdValues, descends.target]
  exact agreesOn

structure Prepared (ancestry : Ancestry) (blocked : NodeId → Prop) (limit : Nat)
    (value : DataValue) (server client : List Edit) : Prop where
  proper : value.Proper
  agrees : ancestry.Agrees value
  bounded : value.Bounded limit
  serverRuns : Runs blocked value server
  created : (allLiveIds server ++ allLiveIds client).Nodup
  apart : ∀ id ∈ allLiveIds server ++ allLiveIds client, id ∉ value.nodeIds
  serverForeign : ∀ edit ∈ server, edit.isNoOp = false → edit.target ∉ allLiveIds client
  clientForeign : ∀ edit ∈ client, edit.isNoOp = false → edit.target ∉ allLiveIds server
  regular : ∀ edit ∈ server ++ client, edit.isNoOp = false → edit.Regular limit
  agreesOn : ∀ edit ∈ server ++ client, edit.isNoOp = false → ancestry.AgreesOn edit
  small : limit + weights server + weights client < 0xFFFFFFFFFFFFFFFF

structure Concurrent (ancestry : Ancestry) (blocked : NodeId → Prop) (limit : Nat)
    (value : DataValue) (server client : List Edit) : Prop
    extends Prepared ancestry blocked limit value server client where
  clientRuns : Runs blocked value client

namespace Prepared

variable {first : Edit} {front server client : List Edit}

theorem headFresh (prepared : Prepared ancestry blocked limit value (first :: server) client) :
    first.Fresh value where
  created := by
    have created := (List.nodup_append'.mp prepared.created).1
    rw [allLiveIds_cons] at created
    exact (List.nodup_append'.mp created).1
  apart := by
    intro id listed
    apply prepared.apart id
    rw [allLiveIds_cons]
    exact List.mem_append_left _ (List.mem_append_left _ listed)
  ordered := fun live => (prepared.regular first List.mem_cons_self live).ordered

theorem descend (prepared : Prepared ancestry blocked limit value server client)
    {adapted : List Edit} (descend : List.Forall₂ Descends client adapted) :
    Prepared ancestry blocked limit value server adapted := by
  have fewer : (allLiveIds server ++ allLiveIds adapted).Sublist
      (allLiveIds server ++ allLiveIds client) :=
    (List.Sublist.refl _).append (allLiveIds_sublist descend)
  refine ⟨prepared.proper, prepared.agrees, prepared.bounded, prepared.serverRuns,
    ?_, ?_, ?_, ?_, ?_, ?_, ?_⟩
  · exact prepared.created.sublist fewer
  · exact fun id listed => prepared.apart id (fewer.subset listed)
  · exact fun edit listed live inside =>
      prepared.serverForeign edit listed live ((allLiveIds_sublist descend).subset inside)
  · intro edit listed live
    obtain ⟨older, olderListed, descends⟩ := exists_ancestor descend listed
    rw [descends.target]
    exact prepared.clientForeign older olderListed (descends.live live)
  · intro edit listed live
    rcases List.mem_append.mp listed with isServer | isClient
    · exact prepared.regular edit (List.mem_append_left _ isServer) live
    · obtain ⟨older, olderListed, descends⟩ := exists_ancestor descend isClient
      exact descends.regular
        (prepared.regular older (List.mem_append_right _ olderListed) (descends.live live))
  · intro edit listed live
    rcases List.mem_append.mp listed with isServer | isClient
    · exact prepared.agreesOn edit (List.mem_append_left _ isServer) live
    · obtain ⟨older, olderListed, descends⟩ := exists_ancestor descend isClient
      exact descends.agreesOn
        (prepared.agreesOn older (List.mem_append_right _ olderListed) (descends.live live))
  · rw [weights_descend descend]
    exact prepared.small

theorem advance (prepared : Prepared ancestry blocked limit value (first :: server) client) :
    Prepared ancestry blocked (limit + first.change.weight) (first.effect value) server client := by
  have suits := prepared.serverRuns.1
  have fresh := prepared.headFresh
  have firstRegular := prepared.regular first List.mem_cons_self
  have createdIds : (first.liveIds ++ (allLiveIds server ++ allLiveIds client)).Nodup := by
    rw [← List.append_assoc]
    exact prepared.created
  obtain ⟨-, restCreated, apart⟩ := List.nodup_append'.mp createdIds
  refine ⟨proper_effect prepared.proper suits fresh,
    agrees_effect prepared.proper suits fresh prepared.agrees
      (prepared.agreesOn first List.mem_cons_self),
    bounded_effect prepared.proper.distinct prepared.bounded
      fun live => (firstRegular live).bounded,
    prepared.serverRuns.2, restCreated, ?_, ?_, ?_, ?_,
    fun edit listed => prepared.agreesOn edit (List.mem_cons_of_mem _ listed), ?_⟩
  · intro id listed inEffect
    rcases mem_or_created prepared.proper.distinct inEffect with old | created
    · refine prepared.apart id ?_ old
      rw [allLiveIds_cons, List.append_assoc]
      exact List.mem_append_right _ listed
    · exact apart created listed
  · exact fun edit listed => prepared.serverForeign edit (List.mem_cons_of_mem _ listed)
  · exact fun edit listed live inside =>
      prepared.clientForeign edit listed live (List.mem_append_right _ inside)
  · exact fun edit listed live =>
      (prepared.regular edit (List.mem_cons_of_mem _ listed) live).mono (Nat.le_add_right _ _)
  · have small := prepared.small
    simp only [weights] at small
    omega

theorem advanceAll (prepared : Prepared ancestry blocked limit value (front ++ server) client) :
    Prepared ancestry blocked (limit + weights front) (effects value front) server client := by
  induction front generalizing limit value with
  | nil => exact prepared
  | cons first rest ih =>
      rw [weights, ← Nat.add_assoc]
      exact ih prepared.advance

theorem finish (prepared : Prepared ancestry blocked limit value server client) :
    Prepared ancestry blocked (limit + weights server) (effects value server) [] client :=
  advanceAll (show Prepared ancestry blocked limit value (server ++ []) client from
    (List.append_nil server).symm ▸ prepared)

theorem fewer (prepared : Prepared ancestry blocked limit value (front ++ server) client) :
    Prepared ancestry blocked limit value front client := by
  have sublist : (allLiveIds front).Sublist (allLiveIds (front ++ server)) := by
    rw [allLiveIds_append]
    exact List.sublist_append_left _ _
  have listed {edit : Edit} (inside : edit ∈ front ++ client) :
      edit ∈ (front ++ server) ++ client := by
    rcases List.mem_append.mp inside with isServer | isClient
    · exact List.mem_append_left _ (List.mem_append_left _ isServer)
    · exact List.mem_append_right _ isClient
  refine ⟨prepared.proper, prepared.agrees, prepared.bounded,
    (runs_append.mp prepared.serverRuns).1, ?_, ?_, ?_, ?_,
    fun edit inside => prepared.regular edit (listed inside),
    fun edit inside => prepared.agreesOn edit (listed inside), ?_⟩
  · exact prepared.created.sublist (sublist.append (List.Sublist.refl _))
  · exact fun id listed =>
      prepared.apart id ((sublist.append (List.Sublist.refl _)).subset listed)
  · exact fun edit listed => prepared.serverForeign edit (List.mem_append_left _ listed)
  · exact fun edit listed live inside =>
      prepared.clientForeign edit listed live (sublist.subset inside)
  · have small := prepared.small
    rw [weights_append] at small
    omega

end Prepared

namespace Concurrent

variable {first : Edit} {front server client : List Edit}

theorem swap (concurrent : Concurrent ancestry blocked limit value server client) :
    Concurrent ancestry blocked limit value client server where
  proper := concurrent.proper
  agrees := concurrent.agrees
  bounded := concurrent.bounded
  serverRuns := concurrent.clientRuns
  clientRuns := concurrent.serverRuns
  created := List.perm_append_comm.nodup concurrent.created
  apart := fun id listed => concurrent.apart id (List.perm_append_comm.mem_iff.mp listed)
  serverForeign := concurrent.clientForeign
  clientForeign := concurrent.serverForeign
  regular := fun edit listed => concurrent.regular edit (List.perm_append_comm.mem_iff.mp listed)
  agreesOn := fun edit listed =>
    concurrent.agreesOn edit (List.perm_append_comm.mem_iff.mp listed)
  small := by
    have small := concurrent.small
    omega

theorem meeting {other : Edit}
    (concurrent : Concurrent ancestry blocked limit value (first :: server) (other :: client)) :
    Meeting ancestry blocked value first other where
  proper := concurrent.proper
  agrees := concurrent.agrees
  serverSuits := concurrent.serverRuns.1
  clientSuits := concurrent.clientRuns.1
  serverFresh := concurrent.toPrepared.headFresh
  clientFresh := concurrent.swap.toPrepared.headFresh
  apart := fun id inFirst inOther =>
    (List.nodup_append'.mp concurrent.created).2.2 (List.mem_append_left _ inFirst)
      (List.mem_append_left _ inOther)
  serverForeign := fun live inside =>
    concurrent.serverForeign first List.mem_cons_self live (List.mem_append_left _ inside)
  clientForeign := fun live inside =>
    concurrent.clientForeign other List.mem_cons_self live (List.mem_append_left _ inside)
  small := fun parent inner occurs => by
    have small := concurrent.small
    have bound := concurrent.bounded _ _ _ occurs
    simp only [weights] at small
    omega
  notNumeric := fun live => (concurrent.regular first List.mem_cons_self live).notNumeric

end Concurrent

/-- One server edit and the client edits: what is left of them can be run after the other side, and
leads to one value. -/
theorem against_settles {server : Edit} {client : List Edit} {row : Edit × List Edit}
    (concurrent : Concurrent ancestry blocked limit value [server] client)
    (succeeds : server.against ancestry client = .ok row) :
    row.1.Suits blocked (effects value client) ∧ Runs blocked (server.effect value) row.2 ∧
      effects (server.effect value) row.2 = row.1.effect (effects value client) := by
  induction client generalizing value limit server row with
  | nil =>
      cases succeeds
      exact ⟨concurrent.serverRuns.1, trivial, rfl⟩
  | cons first rest ih =>
      simp only [against, Fallible.bind_eq_ok_iff, Fallible.pure_eq_ok_iff] at succeeds
      obtain ⟨pair, transformed, result, further, rfl⟩ := succeeds
      have clientRegular := concurrent.swap.regular first List.mem_cons_self
      have settles := transform_settles concurrent.meeting
        (fun live => (clientRegular live).notNumeric) transformed
      have descends := (transform_descends transformed).1
      have next : Concurrent ancestry blocked _ (first.effect value) rest [pair.server] :=
        ⟨concurrent.swap.advance.descend (.cons descends .nil), settles.serverSuits, trivial⟩
      obtain ⟨lastSuits, restRuns, same⟩ := ih next.swap further
      refine ⟨lastSuits, ⟨settles.clientSuits, ?_⟩, ?_⟩
      · rw [settles.same]
        exact restRuns
      · rw [effects, settles.same]
        exact same

/-- Two sides that start from one value end in one value. -/
theorem transformAll_settles {server client : List Edit} {result : List Edit × List Edit}
    (concurrent : Concurrent ancestry blocked limit value server client)
    (succeeds : transformAll ancestry server client = .ok result) :
    Runs blocked (effects value client) result.1 ∧ Runs blocked (effects value server) result.2 ∧
      effects (effects value server) result.2 = effects (effects value client) result.1 := by
  induction server generalizing value limit client result with
  | nil =>
      cases succeeds
      exact ⟨trivial, concurrent.clientRuns, rfl⟩
  | cons first rest ih =>
      simp only [transformAll, Fallible.bind_eq_ok_iff, Fallible.pure_eq_ok_iff] at succeeds
      obtain ⟨row, rowFound, later, further, rfl⟩ := succeeds
      have alone : Concurrent ancestry blocked limit value [first] client :=
        ⟨Prepared.fewer (show Prepared ancestry blocked limit value ([first] ++ rest) client from
          concurrent.toPrepared), concurrent.clientRuns⟩
      obtain ⟨firstSuits, rowRuns, rowSame⟩ := against_settles alone rowFound
      have next : Concurrent ancestry blocked _ (first.effect value) rest row.2 :=
        ⟨concurrent.advance.descend (against_descends rowFound).2, rowRuns⟩
      obtain ⟨serverRuns, clientRuns, same⟩ := ih next further
      rw [rowSame] at serverRuns same
      exact ⟨⟨firstSuits, serverRuns⟩, clientRuns, same⟩

theorem transformAll_descends {server client : List Edit} {result : List Edit × List Edit}
    (succeeds : transformAll ancestry server client = .ok result) :
    List.Forall₂ Descends server result.1 ∧ List.Forall₂ Descends client result.2 := by
  induction server generalizing client result with
  | nil =>
      cases succeeds
      exact ⟨.nil, List.forall₂_same.mpr fun edit _ => .refl edit⟩
  | cons first rest ih =>
      simp only [transformAll, Fallible.bind_eq_ok_iff, Fallible.pure_eq_ok_iff] at succeeds
      obtain ⟨row, rowFound, later, further, rfl⟩ := succeeds
      obtain ⟨firstDescends, rowDescend⟩ := against_descends rowFound
      obtain ⟨serverDescend, clientDescend⟩ := ih further
      exact ⟨.cons firstDescends serverDescend,
        forall₂_trans rowDescend clientDescend Descends.trans⟩

end Edit

namespace Operation

variable {ancestry : Ancestry}

theorem against_append (server : Edit) (before after : List Edit) :
    server.against ancestry (before ++ after) = do
      let first ← server.against ancestry before
      let second ← first.1.against ancestry after
      return (second.1, first.2 ++ second.2) := by
  induction before generalizing server with
  | nil =>
      simp only [List.nil_append, Edit.against, bind, Except.bind, pure, Except.pure]
      cases server.against ancestry after <;> rfl
  | cons first rest ih =>
      simp only [List.cons_append, Edit.against]
      cases server.transform ancestry first with
      | error fault => rfl
      | ok pair =>
          simp only [bind, Except.bind, pure, Except.pure, ih]
          cases pair.server.against ancestry rest with
          | error fault => rfl
          | ok reached =>
              simp only
              cases reached.1.against ancestry after <;> rfl

theorem transformAll_append (before after client : List Edit) :
    Edit.transformAll ancestry (before ++ after) client = do
      let first ← Edit.transformAll ancestry before client
      let second ← Edit.transformAll ancestry after first.2
      return (first.1 ++ second.1, second.2) := by
  induction before generalizing client with
  | nil =>
      simp only [List.nil_append, Edit.transformAll, bind, Except.bind, pure, Except.pure]
      cases Edit.transformAll ancestry after client <;> rfl
  | cons first rest ih =>
      simp only [List.cons_append, Edit.transformAll]
      cases first.against ancestry client with
      | error fault => rfl
      | ok row =>
          simp only [bind, Except.bind, pure, Except.pure, ih]
          cases Edit.transformAll ancestry rest row.2 with
          | error fault => rfl
          | ok reached =>
              simp only
              cases Edit.transformAll ancestry after reached.2 <;> rfl

mutual

theorem edits_transformEdit (server : Edit) :
    (client : Operation) → (transformEdit ancestry server client).map
      (fun result => (result.1, result.2.edits)) = server.against ancestry client.edits
  | .single client => by
      simp only [transformEdit, edits, Edit.against]
      cases server.transform ancestry client <;> rfl
  | .group elements => by
      rw [edits, ← edits_transformEdits server elements, transformEdit]
      cases transformEdits ancestry server elements <;> rfl

theorem edits_transformEdits (server : Edit) :
    (elements : List Operation) → (transformEdits ancestry server elements).map
      (fun result => (result.1, groupEdits result.2)) = server.against ancestry (groupEdits elements)
  | [] => rfl
  | first :: rest => by
      rw [groupEdits, against_append, ← edits_transformEdit server first, transformEdits]
      cases transformEdit ancestry server first with
      | error fault => rfl
      | ok reached =>
          simp only [Except.map, bind, Except.bind, ← edits_transformEdits reached.1 rest]
          cases transformEdits ancestry reached.1 rest <;> rfl

end

mutual

/-- Transforming operations transforms their edits. -/
theorem edits_transform :
    (server client : Operation) → (transform ancestry server client).map
      (fun pair => (pair.server.edits, pair.client.edits)) =
        Edit.transformAll ancestry server.edits client.edits
  | .single server, client => by
      simp only [transform, edits, Edit.transformAll, ← edits_transformEdit server client]
      cases transformEdit ancestry server client <;> rfl
  | .group elements, client => by
      rw [edits, ← edits_transformElements elements client, transform]
      cases transformElements ancestry elements client <;> rfl

theorem edits_transformElements :
    (elements : List Operation) → (client : Operation) →
      (transformElements ancestry elements client).map
        (fun result => (groupEdits result.1, result.2.edits)) =
          Edit.transformAll ancestry (groupEdits elements) client.edits
  | [], _ => rfl
  | first :: rest, client => by
      rw [groupEdits, transformAll_append, ← edits_transform first client, transformElements]
      cases transform ancestry first client with
      | error fault => rfl
      | ok pair =>
          simp only [Except.map, bind, Except.bind, ← edits_transformElements rest pair.client]
          cases transformElements ancestry rest pair.client <;> rfl

end

end Operation

end SharedDocument
