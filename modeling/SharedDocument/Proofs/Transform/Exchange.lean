import SharedDocument.Proofs.Document.Mirrors
import SharedDocument.Proofs.Document.Runs
import SharedDocument.Proofs.Transform.Overflow

/-! Exchanging the sides. The rule for a pair of kinds is stated in one order and read backwards in the
other, and edits of different nodes disturb each other in one direction at most. So it matters who is
the server only where two edits of one kind meet on one node. Kinds of one node have a rule always. -/

namespace SharedDocument

namespace Transformed

variable {α β ε : Type}

@[simp] theorem swap_swap (pair : Transformed α) : pair.swap.swap = pair := rfl

theorem map_swap_swap (result : Except ε (Transformed α)) :
    (result.map swap).map swap = result := by
  cases result <;> rfl

theorem map_lift_swap (result : Except ε (Outcome α)) (transform : α → β) :
    (result.map swap).map (fun pair => some (Outcome.lift transform pair)) =
      (result.map fun pair => some (Outcome.lift transform pair)).map (Option.map swap) := by
  cases result <;> rfl

end Transformed

def TransformError.exchange : TransformError → TransformError
  | .kindMismatch id server client => .kindMismatch id client server
  | .overflow fault => .overflow fault

theorem TextEdit.transform_exchange {server client : TextEdit} (different : server.kind ≠ client.kind) :
    client.transform server = (server.transform client).map Transformed.swap := by
  cases server with
  | insert serverIndex serverValue =>
      cases client with
      | insert clientIndex clientValue => exact absurd rfl different
      | remove clientIndex clientLength => rfl
  | remove serverIndex serverLength =>
      cases client with
      | insert clientIndex clientValue => exact (Transformed.map_swap_swap _).symm
      | remove clientIndex clientLength => exact absurd rfl different

theorem ArrayEdit.transform_exchange {server client : ArrayEdit}
    (different : server.kind ≠ client.kind) :
    client.transform server = (server.transform client).map Transformed.swap := by
  cases server with
  | insert serverIndex serverValue =>
      cases client with
      | insert clientIndex clientValue => exact absurd rfl different
      | _ => rfl
  | remove serverIndex =>
      cases client with
      | insert clientIndex clientValue => exact (Transformed.map_swap_swap _).symm
      | remove clientIndex => exact absurd rfl different
      | _ => rfl
  | replace serverIndex serverValue =>
      cases client with
      | replace clientIndex clientValue => exact absurd rfl different
      | move clientSource clientTarget => rfl
      | _ => exact (Transformed.map_swap_swap _).symm
  | move serverSource serverTarget =>
      cases client with
      | replace clientIndex clientValue => rfl
      | move clientSource clientTarget => exact absurd rfl different
      | _ => exact (Transformed.map_swap_swap _).symm

theorem PropertyEdit.transform_exchange {server client : PropertyEdit}
    (different : server.kind ≠ client.kind) :
    client.transform server = (server.transform client).swap := by
  unfold transform
  by_cases together : server.key = client.key
  · rw [if_pos together, if_pos together.symm]
    cases server with
    | add key added =>
        cases client with
        | add other written => exact absurd rfl different
        | _ => rfl
    | set key written =>
        cases client with
        | set other value => exact absurd rfl different
        | _ => rfl
    | remove key =>
        cases client with
        | remove other => exact absurd rfl different
        | _ => rfl
  · rw [if_neg together, if_neg (Ne.symm together)]
    rfl

/-- There is one kind of setting for each kind of node. -/
theorem Contents.setKind_eq {left right : Contents}
    (kinds : left.setKind.nodeKind = right.setKind.nodeKind) : left.setKind = right.setKind := by
  cases left <;> cases right <;> first | rfl | cases kinds

theorem Change.transform_exchange {server client : Change} (different : server.kind ≠ client.kind) :
    client.transform server = (server.transform client).map (Option.map Transformed.swap) := by
  unfold transform
  by_cases kinds : server.kind.nodeKind = client.kind.nodeKind
  · rw [if_pos kinds, if_pos kinds.symm]
    cases server with
    | set left =>
        cases client with
        | set right => exact absurd (Contents.setKind_eq kinds) different
        | _ => rfl
    | text left =>
        cases client with
        | text right =>
            change Except.map _ (right.transform left) = _
            rw [TextEdit.transform_exchange different]
            exact Transformed.map_lift_swap _ _
        | _ => rfl
    | array left =>
        cases client with
        | array right =>
            change Except.map _ (right.transform left) = _
            rw [ArrayEdit.transform_exchange different]
            exact Transformed.map_lift_swap _ _
        | _ => rfl
    | property left =>
        cases client with
        | property right =>
            change Except.ok (some ((right.transform left).lift property)) = _
            rw [PropertyEdit.transform_exchange different]
            rfl
        | _ => rfl
    | addNumber amount =>
        cases client with
        | addNumber other => exact absurd rfl different
        | _ => rfl
  · rw [if_neg kinds, if_neg (Ne.symm kinds)]
    rfl

theorem registration_eq_none_iff {server client : OperationKind} :
    registration server client = none ↔ server.nodeKind ≠ client.nodeKind := by
  unfold registration
  split
  · rename_i kinds
    split <;> simp [kinds]
  · rename_i kinds
    simp [kinds]

namespace Edit

def exchange : Except TransformError (Transformed Edit) → Except TransformError (Transformed Edit)
  | .ok pair => .ok pair.swap
  | .error fault => .error fault.exchange

variable {ancestry : Ancestry} {server client : Edit}

theorem transform_exchange
    (oneWay : ∀ ancestor id, ancestry ancestor id = true → ancestry id ancestor = false)
    (either : server.target ≠ client.target ∨ server.kind ≠ client.kind ∨
      server.isNoOp = true ∨ client.isNoOp = true) :
    client.transform ancestry server = exchange (server.transform ancestry client) := by
  unfold transform
  rw [Bool.or_comm]
  by_cases idle : (server.isNoOp || client.isNoOp) = true
  · rw [if_pos idle, if_pos idle]
    rfl
  · rw [if_neg idle, if_neg idle]
    by_cases together : server.target = client.target
    · have different : server.kind ≠ client.kind := by
        rcases either with apart | different | serverIdle | clientIdle
        · exact absurd together apart
        · exact different
        · simp [serverIdle] at idle
        · simp [clientIdle] at idle
      rw [if_pos together, if_pos together.symm, Change.transform_exchange different]
      cases server.change.transform client.change with
      | error fault => rfl
      | ok found =>
          cases found with
          | none => simp [Except.map, exchange, TransformError.exchange, together]
          | some pair => rfl
    · rw [if_neg together, if_neg (Ne.symm together)]
      by_cases serverAbove :
          (server.change.discardsSubtree && ancestry server.target client.target) = true
      · -- the other side is not above this one as well
        have above := (Bool.and_eq_true_iff.mp serverAbove).2
        have notBelow : ¬ (client.change.discardsSubtree &&
            ancestry client.target server.target) = true := by
          simp [oneWay _ _ above]
        rw [if_pos serverAbove, if_neg notBelow, if_pos serverAbove]
        rfl
      · by_cases clientAbove :
            (client.change.discardsSubtree && ancestry client.target server.target) = true
        · rw [if_pos clientAbove, if_neg serverAbove, if_pos clientAbove]
          rfl
        · rw [if_neg clientAbove, if_neg serverAbove, if_neg serverAbove, if_neg clientAbove]
          rfl

section

variable (ancestry) (serverLive : server.isNoOp = false) (clientLive : client.isNoOp = false)
  (together : server.target = client.target)

include serverLive clientLive together

theorem transform_mismatch_iff :
    (∃ id left right, server.transform ancestry client = .error (.kindMismatch id left right)) ↔
      registration server.kind client.kind = none := by
  rw [registration_eq_none_iff]
  unfold transform
  simp only [serverLive, clientLive, Bool.or_self, Bool.false_eq_true, if_false, if_pos together]
  by_cases kinds : server.kind.nodeKind = client.kind.nodeKind
  · have ruled := Change.transform_ne_none kinds
    cases result : server.change.transform client.change with
    | error fault => simp [kinds]
    | ok found =>
        cases found with
        | none => exact absurd result ruled
        | some pair => simp [kinds]
  · have unruled : server.change.transform client.change = .ok none := if_neg kinds
    simp [unruled, kinds]

/-- With a rule for their kinds two edits of one node have an outcome, unless their positions leave
the range of words. -/
theorem transform_isOk_iff :
    (∃ pair, server.transform ancestry client = .ok pair) ↔
      registration server.kind client.kind ≠ none ∧ ¬ server.Overflows client := by
  have mismatch := transform_mismatch_iff ancestry serverLive clientLive together
  have overflow := transform_eq_overflow_iff ancestry server client
  constructor
  · rintro ⟨pair, succeeds⟩
    constructor
    · intro unruled
      obtain ⟨id, left, right, fails⟩ := mismatch.mpr unruled
      rw [succeeds] at fails
      cases fails
    · intro overflows
      have fails := (overflow .addition).mpr ⟨rfl, overflows⟩
      rw [succeeds] at fails
      cases fails
  · rintro ⟨ruled, inRange⟩
    cases result : server.transform ancestry client with
    | ok pair => exact ⟨pair, rfl⟩
    | error fault =>
        cases fault with
        | kindMismatch id left right => exact absurd (mismatch.mp ⟨id, left, right, result⟩) ruled
        | overflow fault => exact absurd ((overflow fault).mp result).2 inRange

end

end Edit

theorem Ancestry.Describes.oneWay {ancestry : Ancestry} {value : DataValue}
    (describes : ancestry.Describes value) (distinct : value.nodeIds.Nodup) {ancestor id : NodeId}
    (above : ancestry ancestor id = true) : ancestry id ancestor = false := by
  by_contra both
  obtain ⟨within, different⟩ := (describes ancestor id).mp above
  obtain ⟨back, -⟩ := (describes id ancestor).mp (Bool.not_eq_false _ ▸ both)
  exact different (within.antisymm distinct back)

namespace Document

/-- In every document that a run reaches: two edits that do not meet in one kind on one node come out
alike in both orders, each side keeping what is its own. Of two edits of one node that both have
something to do, the transform refuses those whose kinds have no rule, and no others. -/
theorem transform_impartial {document : Document} (reachable : document.Reachable)
    (server client : Edit) :
    ((server.target ≠ client.target ∨ server.kind ≠ client.kind ∨
        server.isNoOp = true ∨ client.isNoOp = true) →
      client.transform document.arena.isAncestor server =
        Edit.exchange (server.transform document.arena.isAncestor client)) ∧
    (server.target = client.target → server.isNoOp = false → client.isNoOp = false →
      ((∃ id left right, server.transform document.arena.isAncestor client =
          .error (.kindMismatch id left right)) ↔
        registration server.kind client.kind = none) ∧
      ((∃ pair, server.transform document.arena.isAncestor client = .ok pair) ↔
        registration server.kind client.kind ≠ none ∧ ¬ server.Overflows client)) := by
  obtain ⟨value, clashing, clashes, -⟩ := reachable.holds
  have represents := clashes.represents
  refine ⟨Edit.transform_exchange fun _ _ => represents.describes.oneWay represents.distinct, ?_⟩
  intro together serverLive clientLive
  exact ⟨Edit.transform_mismatch_iff _ serverLive clientLive together,
    Edit.transform_isOk_iff _ serverLive clientLive together⟩

/-- Setting the root wins over an insertion below it, whoever is the server, and a list cannot be set
as an object. -/
theorem impartial_on_list :
    ∃ document : Document, document.Reachable ∧
      (Edit.on ⟨"list"⟩ (.array (.insert .zero (.null ⟨"leaf"⟩)))).transform
          document.arena.isAncestor (.on ⟨"root"⟩ (.set (.object []))) =
        .ok ⟨(Edit.on ⟨"list"⟩ (.array (.insert .zero (.null ⟨"leaf"⟩)))).asNoOp,
          .on ⟨"root"⟩ (.set (.object []))⟩ ∧
      ∃ id left right, (Edit.on ⟨"list"⟩ (.set (.object []))).transform document.arena.isAncestor
        (.on ⟨"list"⟩ (.array (.remove .zero))) = .error (.kindMismatch id left right) := by
  have ordered : (DataValue.object ⟨"root"⟩ [("list", .array ⟨"list"⟩ [])]).Ordered := by
    refine .intro ?_ ?_
    · unfold DataValue.KeysIncrease Keyed.Increasing
      decide
    · simpa [DataValue.childValues] using .leaf rfl
  obtain ⟨document, built⟩ : ∃ document,
      ofValue (.object ⟨"root"⟩ [("list", .array ⟨"list"⟩ [])]) = .ok document := ⟨_, rfl⟩
  have reachable : document.Reachable := ⟨_, _, [], ordered, built, by simp, rfl⟩
  cases built
  refine ⟨_, reachable, ?_, ?_⟩
  · exact ((transform_impartial reachable (.on ⟨"root"⟩ (.set (.object []))) _).1
      (Or.inl (by decide))).trans rfl
  · exact ((transform_impartial reachable (.on ⟨"list"⟩ (.set (.object [])))
      (.on ⟨"list"⟩ (.array (.remove .zero)))).2 rfl rfl rfl).1.mpr rfl

end Document

end SharedDocument
