import SharedDocument.Proofs.Document.InPlace

/-! Atomicity. Although an operation is carried out in place, step by step, a refused one leaves the
document as it was and no subscriber hears of it; and a group does what its effective edits do as
operations of their own, one after another. -/

namespace SharedDocument.Document

inductive Arises : Document → Prop
  | new {value : DataValue} {start : Document} (ordered : value.Ordered)
      (built : ofValue value = .ok start) : Arises start
  | perform {document : Document} (arises : Arises document) {request : Request}
      (ordered : request.Ordered) : Arises (document.perform request)
  | subscribe {document : Document} (arises : Arises document) (filter : EventFilter) :
      Arises (document.subscribe filter).2
  | unsubscribe {document : Document} (arises : Arises document) (subscription : Nat) :
      Arises (document.unsubscribe subscription).2
  | setEmitsLocalEvents {document : Document} (arises : Arises document) (emits : Bool) :
      Arises (document.setEmitsLocalEvents emits)

def applyInTurn (document : Document) (origin : Origin) : List Edit → Application
  | [] => ⟨document, [], .ok ()⟩
  | edit :: rest =>
      let first := document.applyInPlace origin (.single edit)
      match first.answer with
      | .error _ => first
      | .ok _ =>
          let later := first.document.applyInTurn origin rest
          { later with deliveries := first.deliveries ++ later.deliveries }

variable {document : Document} {value : DataValue} {clashing : List NodeId}

theorem Arises.holds (arises : document.Arises) :
    ∃ value clashing, document.Holds value clashing := by
  induction arises with
  | new ordered built => exact ⟨_, _, holds_ofValue ordered built⟩
  | perform _ ordered ih =>
      obtain ⟨value, clashing, holds⟩ := ih
      obtain ⟨next, nextHolds⟩ := holds_perform holds ordered
      exact ⟨next, _, nextHolds⟩
  | subscribe _ _ ih => exact ih
  | unsubscribe _ _ ih => exact ih
  | setEmitsLocalEvents _ _ ih => exact ih

theorem applyInTurn_cons (clashes : document.arena.Clashes value clashing)
    (isOpen : document.isClosed = false) (origin : Origin) {edit : Edit} (effective : edit.isNoOp = false)
    (ordered : edit.change.Ordered) (rest : List Edit) :
    document.applyInTurn origin (edit :: rest) =
      match document.arena.applyEdit origin edit with
      | .error fault => ⟨document, [], .error fault⟩
      | .ok (edited, events) =>
          let later := { document with arena := edited }.applyInTurn origin rest
          { later with deliveries := document.heard origin events ++ later.deliveries } := by
  have single : Operation.Ordered (.single edit) := by
    intro other listed
    rw [List.mem_singleton.mp listed]
    exact ordered
  rw [applyInTurn, applyInPlace_eq clashes origin single, apply_eq_map isOpen, Operation.edits,
    Arena.applyEdits, if_neg (by simp [effective])]
  cases document.arena.applyEdit origin edit with
  | error fault => rfl
  | ok edited => simp [Arena.applyEdits, Except.map, Application.of]

/-- Effective edits in turn lead where they lead together, or to the same fault. -/
theorem applyInTurn_eq (clashes : document.arena.Clashes value clashing)
    (isOpen : document.isClosed = false) (origin : Origin) {edits : List Edit}
    (effective : ∀ edit ∈ edits, edit.isNoOp = false)
    (ordered : ∀ edit ∈ edits, edit.change.Ordered) :
    match document.arena.applyEdits origin edits with
    | .ok result =>
        document.applyInTurn origin edits =
          ⟨{ document with arena := result.1 }, document.heard origin result.2, .ok ()⟩
    | .error fault => (document.applyInTurn origin edits).answer = .error fault := by
  induction edits generalizing document value clashing with
  | nil => simp [Arena.applyEdits, applyInTurn]
  | cons edit rest ih =>
      obtain ⟨firstEffective, restEffective⟩ := List.forall_mem_cons.mp effective
      obtain ⟨firstOrdered, restOrdered⟩ := List.forall_mem_cons.mp ordered
      rw [applyInTurn_cons clashes isOpen origin firstEffective firstOrdered, Arena.applyEdits,
        if_neg (by simp [firstEffective])]
      cases applied : document.arena.applyEdit origin edit with
      | error fault => rfl
      | ok edited =>
          obtain ⟨next, after, -⟩ := clashes.applyEdit firstOrdered applied
          have further := @ih { document with arena := edited.1 } next _ after isOpen restEffective
            restOrdered
          cases reached : edited.1.applyEdits origin rest with
          | error fault =>
              simp only [reached] at further ⊢
              exact further
          | ok result =>
              simp only [reached] at further ⊢
              rw [further, heard_append]
              rfl

/-- A refused operation leaves the document as it was, and nothing is heard of it. One that is granted
does what the document says of it as a whole; and as long as the document is open, that is what its
effective edits do in turn, up to the first fault. -/
theorem applyInPlace_atomic (arises : document.Arises) (origin : Origin) {operation : Operation}
    (ordered : operation.Ordered) :
    (∀ fault, (document.applyInPlace origin operation).answer = .error fault →
      (document.applyInPlace origin operation).document = document ∧
        (document.applyInPlace origin operation).deliveries = []) ∧
    document.applyInPlace origin operation = .of document (document.apply origin operation) ∧
    (document.isClosed = false →
      (document.applyInPlace origin operation).answer =
          (document.applyInTurn origin operation.effectiveEdits).answer ∧
        ((document.applyInTurn origin operation.effectiveEdits).answer = .ok () →
          document.applyInPlace origin operation =
            document.applyInTurn origin operation.effectiveEdits)) := by
  obtain ⟨value, clashing, holds⟩ := arises.holds
  have whole := applyInPlace_eq holds.1 origin ordered
  refine ⟨fun fault refused => ?_, whole, fun isOpen => ?_⟩
  · rw [whole] at refused ⊢
    cases applied : document.apply origin operation with
    | error other => exact ⟨rfl, rfl⟩
    | ok result =>
        rw [applied] at refused
        cases refused
  · have effective : ∀ edit ∈ operation.effectiveEdits, edit.isNoOp = false := by
      intro edit listed
      simpa using (List.mem_filter.mp listed).2
    have inTurn := applyInTurn_eq holds.1 isOpen origin effective
      fun edit listed => ordered edit (List.mem_filter.mp listed).1
    rw [Arena.applyEdits_effective] at inTurn
    rw [whole, apply_eq_map isOpen]
    cases applied : document.arena.applyEdits origin operation.edits with
    | error fault =>
        simp only [applied] at inTurn
        rw [inTurn]
        exact ⟨rfl, fun granted => by cases granted⟩
    | ok result =>
        simp only [applied] at inTurn
        rw [inTurn]
        exact ⟨rfl, fun _ => rfl⟩

/-- A group whose first element takes effect, and whose second finds the property gone. -/
theorem applyInPlace_atomic_second_refused :
    ∃ document : Document, document.Arises ∧
      let removal : Operation := .single (.on ⟨"root"⟩ (.property (.remove "left")))
      let refused := document.applyInPlace .own (.group [removal, removal])
      (document.applyInPlace .own removal).document.arena.isDetached ⟨"list"⟩ = true ∧
        (document.applyInPlace .own removal).deliveries.length = 2 ∧
        refused.document = document ∧ refused.deliveries = [] ∧
        refused.answer = (document.applyInTurn .own
          (Operation.group [removal, removal]).effectiveEdits).answer ∧
        refused.answer = .error (.propertyNotFound ⟨"root"⟩ "left") := by
  have ordered : (DataValue.object ⟨"root"⟩ [("left", .array ⟨"list"⟩ [])]).Ordered := by
    refine .intro ?_ ?_
    · unfold DataValue.KeysIncrease Keyed.Increasing
      decide
    · simpa [DataValue.childValues] using .leaf rfl
  have groupOrdered : Operation.Ordered
      (.group [.single (.on ⟨"root"⟩ (.property (.remove "left"))),
        .single (.on ⟨"root"⟩ (.property (.remove "left")))]) := by
    simp [Operation.Ordered, Operation.edits, Operation.groupEdits, Edit.on, Change.Ordered,
      Change.createdValues, PropertyEdit.values]
  have arises := (Arises.new ordered rfl).subscribe .all
  obtain ⟨undone, -, inTurn⟩ := applyInPlace_atomic arises .own groupOrdered
  exact ⟨_, arises, rfl, rfl, (undone _ rfl).1, (undone _ rfl).2, (inTurn rfl).1, rfl⟩

end SharedDocument.Document
