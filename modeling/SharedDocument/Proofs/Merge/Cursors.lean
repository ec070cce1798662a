import SharedDocument.Proofs.Document.Cursors
import SharedDocument.Proofs.Merge.Following
import SharedDocument.Proofs.Merge.Winner

/-! Cursors converge with the document. Two clients change one text or array at the same time and incorporate
what has become of the other's change. Where neither takes its character or child away, an index is
then the same on both sides, and points to that character or child. -/

namespace SharedDocument

open DataValue (Occurs)

/-! References along changes. -/

theorem ReferenceValue.map_map (first second : Word → Word) (value : ReferenceValue) :
    (value.map first).map second = value.map fun position => second (first position) := by
  cases value <;> simp [map, IndexRange.map, Function.comp_def]

theorem ReferenceMap.map_map (first second : Word → Word) (references : ReferenceMap) :
    (references.map first).map second = references.map fun position => second (first position) := by
  unfold map Keyed.mapValues
  simp only [List.map_map, Function.comp_def, ReferenceValue.map_map]

theorem Change.run_steer {α : Type} {wrap : α → Change} {follow : α → Word → Word}
    (bears : ∀ edit, (wrap edit).bearing = some (follow edit)) (own : α) (adapted : Adapted α)
    (references : ReferenceMap) :
    (adapted.map wrap).run Change.steer ((wrap own).steer references) =
      references.map fun position => adapted.run follow (follow own position) := by
  have steers (edit : α) (references : ReferenceMap) :
      (wrap edit).steer references = references.map (follow edit) := by
    rw [steer, bears]
    rfl
  unfold Adapted.run Adapted.map
  dsimp only
  cases adapted.isNoOp with
  | true => exact steers own references
  | false => exact (steers _ _).trans ((congrArg _ (steers own references)).trans
      (ReferenceMap.map_map _ _ references))

@[simp] theorem Change.steer_empty (change : Change) : change.steer .empty = .empty := by
  unfold steer
  cases change.bearing <;> rfl

theorem Change.run_steer_empty (adapted : Adapted Change) : adapted.run Change.steer .empty = .empty := by
  unfold Adapted.run
  split
  · rfl
  · exact Change.steer_empty _

theorem Change.Fits.eq_text {change : Change} {id : NodeId} {text : String}
    (fits : change.Fits (.string id text)) (inPlace : ∀ contents, change ≠ .set contents) :
    ∃ edit, change = .text edit := by
  cases change with
  | set contents => exact absurd rfl (inPlace contents)
  | text edit => exact ⟨edit, rfl⟩
  | _ => exact fits.elim

theorem Change.Fits.eq_array {change : Change} {id : NodeId} {children : List DataValue}
    (fits : change.Fits (.array id children)) (inPlace : ∀ contents, change ≠ .set contents) :
    ∃ edit, change = .array edit := by
  cases change with
  | set contents => exact absurd rfl (inPlace contents)
  | array edit => exact ⟨edit, rfl⟩
  | _ => exact fits.elim

theorem Change.steer_set {contents : Contents} {inner : DataValue}
    (fits : Change.Fits (.set contents) inner) (positional : inner.kind = .string ∨ inner.kind = .array)
    (references : ReferenceMap) : (Change.set contents).steer references = .empty := by
  have kind : contents.setKind.nodeKind = .string ∨ contents.setKind.nodeKind = .array := by
    rcases positional with isString | isArray
    · exact Or.inl (Eq.trans fits isString)
    · exact Or.inr (Eq.trans fits isArray)
  cases contents <;> first | rfl | simp [Contents.setKind, OperationKind.nodeKind] at kind

/-- Where one side sets the whole node, no side keeps a reference to it. -/
theorem Change.transform_drops {server client : Change} {inner : DataValue}
    (serverFits : server.Fits inner) (clientFits : client.Fits inner) (apart : server.Apart client)
    (positional : inner.kind = .string ∨ inner.kind = .array)
    (sets : ∃ contents, server = .set contents ∨ client = .set contents) :
    ∃ outcome, server.transform client = .ok (some outcome) ∧ Meets inner server client outcome ∧
      ∀ references, outcome.client.run Change.steer (server.steer references) = .empty ∧
        outcome.server.run Change.steer (client.steer references) = .empty := by
  have kinds := serverFits.kind.symm.trans clientFits.kind
  have notNumeric : ¬ server.IsNumeric := by
    intro numeric
    have isNumber := serverFits.kind.trans numeric
    rcases positional with isString | isArray
    · rw [isString] at isNumber
      cases isNumber
    · rw [isArray] at isNumber
      cases isNumber
  cases isSet : server with
  | set left =>
      subst isSet
      have serverDrops := steer_set serverFits positional
      unfold transform
      rw [if_pos kinds]
      cases client with
      | set right =>
          have clientDrops := steer_set clientFits positional
          refine ⟨_, rfl, setSet_meets serverFits apart notNumeric, fun references => ?_⟩
          rw [serverDrops, clientDrops]
          exact ⟨run_steer_empty _, run_steer_empty _⟩
      | _ => exact ⟨_, rfl, set_meets serverFits, fun references => ⟨serverDrops _, serverDrops _⟩⟩
  | _ =>
      rw [isSet] at sets kinds serverFits
      obtain ⟨contents, impossible | rfl⟩ := sets
      · cases impossible
      · have clientDrops := steer_set clientFits positional
        exact ⟨_, transform_to_set kinds rfl, (set_meets clientFits).swap,
          fun references => ⟨clientDrops _, clientDrops _⟩⟩

namespace Document

variable {document : Document} {value inner : DataValue} {parent : Option NodeId}

/-- The node and its references after an edit of it, in a document that represents a value. -/
theorem apply_at (represents : document.arena.Represents value)
    (occurs : Occurs none value parent inner)
    (notDetached : document.arena.isDetached inner.id = false) {origin : Origin} {edit : Edit}
    (here : edit.target = inner.id) (effective : edit.isNoOp = false) (ordered : edit.change.Ordered)
    {result : Document × List Delivery}
    (applied : document.apply origin (.single edit) = .ok result) :
    result.1.arena.Represents (value.editAt inner.id edit.change.applyTo) ∧
      result.1.arena.attached inner.id = .ok ((edit.change.applyTo inner).node parent) ∧
      result.1.referencesOf inner.id = edit.change.steer (document.referencesOf inner.id) := by
  obtain ⟨-, changed, changedAll, rfl⟩ := apply_eq_ok_iff.mp applied
  have succeeds := (Arena.applyEdits_single effective).mp changedAll
  rw [← here] at notDetached ⊢
  obtain ⟨⟨otherParent, other, admits⟩, edited, -⟩ :=
    represents.applyEdit ordered notDetached succeeds
  obtain ⟨rfl, rfl⟩ := admits.occurs.unique represents.distinct occurs (admits.target.trans here)
  exact ⟨edited, represents.attached_applyEdit notDetached succeeds admits ordered,
    referencesOf_target represents notDetached succeeds admits ordered⟩

theorem apply_idle {origin : Origin} {edit : Edit} (idle : edit.isNoOp = true)
    {result : Document × List Delivery}
    (applied : document.apply origin (.single edit) = .ok result) : result.1 = document := by
  obtain ⟨-, changed, skipped, rfl⟩ := apply_eq_ok_iff.mp applied
  rw [Operation.edits, Arena.applyEdits_idle idle] at skipped
  cases skipped
  rfl

theorem attached_markSuperseded (ids : List NodeId) {id : NodeId} {node : Node}
    (attached : document.arena.attached id = .ok node) :
    (document.markSuperseded ids).arena.attached id = .ok node := by
  obtain ⟨clear, stored⟩ := Arena.attached_eq_ok_iff.mp attached
  refine Arena.attached_eq_ok_iff.mpr ⟨Bool.eq_false_iff.mpr fun isDetached => ?_, ?_⟩
  · rcases (Arena.isDetached_markSuperseded ids id).mp isDetached with ⟨_, absent⟩ | before
    · rw [stored] at absent
      cases absent
    · rw [clear] at before
      cases before
  · rw [markSuperseded, Arena.node?, Arena.nodes_markSuperseded]
    exact stored

theorem referencesOf_markSuperseded (ids : List NodeId) (id : NodeId) :
    (document.markSuperseded ids).referencesOf id = document.referencesOf id := by
  rw [referencesOf, markSuperseded, Arena.references_markSuperseded, referencesOf]

/-- The node and its references after one side of a merge. -/
theorem merge_at (represents : document.arena.Represents value)
    (occurs : Occurs none value parent inner)
    (notDetached : document.arena.isDetached inner.id = false) {own other : Change}
    {adapted : Adapted Change} (ownOrdered : own.Ordered) (adaptedOrdered : adapted.change.Ordered)
    {sessionId : String} {reached : Document}
    (merged : document.merge (.single (.on inner.id own)) sessionId
      (.single ((Edit.on inner.id other).adapt adapted)) = .ok reached) :
    reached.arena.attached inner.id = .ok
        ((adapted.run (fun change value => change.applyTo value) (own.applyTo inner)).node parent) ∧
      reached.referencesOf inner.id =
        adapted.run Change.steer (own.steer (document.referencesOf inner.id)) := by
  obtain ⟨edited, applied, incorporated⟩ := Fallible.bind_eq_ok_iff.mp merged
  obtain ⟨result, appliedAfter, same⟩ := Fallible.bind_eq_ok_iff.mp incorporated
  cases same
  obtain ⟨ownRepresents, ownAttached, ownReferences⟩ :=
    apply_at represents occurs notDetached rfl rfl ownOrdered applied
  generalize (Operation.single ((Edit.on inner.id other).adapt adapted)).supersededIds = superseded
    at appliedAfter
  have markedAttached := attached_markSuperseded superseded ownAttached
  have markedReferences := @referencesOf_markSuperseded edited.1 superseded inner.id
  unfold Adapted.run
  cases idle : adapted.isNoOp with
  | true =>
      rw [apply_idle idle appliedAfter]
      exact ⟨markedAttached, markedReferences.trans ownReferences⟩
  | false =>
      have stands := occurs.editAt_self own.applyTo represents.distinct
      have sameId := Change.id_applyTo own inner
      have clear := (Arena.attached_eq_ok_iff.mp markedAttached).1
      rw [← sameId] at clear
      obtain ⟨-, lastAttached, lastReferences⟩ := apply_at
        (ownRepresents.markSuperseded superseded) stands clear sameId.symm idle adaptedOrdered
        appliedAfter
      rw [sameId, markedReferences, ownReferences] at lastReferences
      rw [sameId] at lastAttached
      exact ⟨lastAttached, lastReferences⟩

/-- Both sides of a merge of rivals, and what they do to the references of the node. -/
theorem Rivals.exists_references {known blocked : NodeId → Prop} {server client : Change}
    (mirrors : document.Mirrors value known blocked) (occurs : Occurs none value parent inner)
    (notDetached : document.arena.isDetached inner.id = false)
    (serverMade : Edit.Made value known blocked [.on inner.id server])
    (clientMade : Edit.Made value known blocked [.on inner.id client])
    (rivals : document.Rivals inner.id server client) (notNumeric : inner.kind ≠ .number)
    {outcome : Outcome Change} (transformed : server.transform client = .ok (some outcome))
    (meets : Change.Meets inner server client outcome) (serverSession clientSession : String) :
    ∃ left right,
      document.merge (.single (.on inner.id server)) clientSession
        (.single ((Edit.on inner.id client).adapt outcome.client)) = .ok left ∧
      document.merge (.single (.on inner.id client)) serverSession
        (.single ((Edit.on inner.id server).adapt outcome.server)) = .ok right ∧
      left.arena.attached inner.id = .ok ((outcome.client.run
        (fun change value => change.applyTo value) (server.applyTo inner)).node parent) ∧
      right.arena.attached inner.id = .ok ((outcome.client.run
        (fun change value => change.applyTo value) (server.applyTo inner)).node parent) ∧
      left.referencesOf inner.id =
        outcome.client.run Change.steer (server.steer (document.referencesOf inner.id)) ∧
      right.referencesOf inner.id =
        outcome.server.run Change.steer (client.steer (document.referencesOf inner.id)) := by
  obtain ⟨⟨left, _, leftMerged, -⟩, right, _, rightMerged, -⟩ := Rivals.exists_merges mirrors occurs
    serverMade clientMade rivals notNumeric transformed meets serverSession clientSession
  obtain ⟨serverAdapts, clientAdapts⟩ := Change.transform_adapts transformed
  have represents := mirrors.arena.represents
  obtain ⟨leftAttached, leftReferences⟩ := merge_at represents occurs notDetached
    rivals.serverOrdered (clientAdapts.ordered rivals.clientOrdered) leftMerged
  obtain ⟨rightAttached, rightReferences⟩ := merge_at represents occurs notDetached
    rivals.clientOrdered (serverAdapts.ordered rivals.serverOrdered) rightMerged
  exact ⟨left, right, leftMerged, rightMerged, leftAttached, meets.same ▸ rightAttached,
    leftReferences, rightReferences⟩

/-- As `exists_references`, for edits of the contents of one kind of node that take its references along. -/
theorem Rivals.exists_references_lift {α σ : Type} (wrap : α → Change) (place : σ → DataValue)
    {apply : α → σ → σ} {follow : α → Word → Word} {state : σ} {server client : α}
    {known blocked : NodeId → Prop} (mirrors : document.Mirrors value known blocked)
    (occurs : Occurs none value parent (place state))
    (notDetached : document.arena.isDetached (place state).id = false)
    (serverMade : Edit.Made value known blocked [.on (place state).id (wrap server)])
    (clientMade : Edit.Made value known blocked [.on (place state).id (wrap client)])
    (rivals : document.Rivals (place state).id (wrap server) (wrap client))
    (notNumeric : (place state).kind ≠ .number) {outcome : Outcome α}
    (transformed : (wrap server).transform (wrap client) = .ok (some (outcome.lift wrap)))
    (meets : Change.Meets (place state) (wrap server) (wrap client) (outcome.lift wrap))
    (applied : ∀ edit state, (wrap edit).applyTo (place state) = place (apply edit state))
    (bears : ∀ edit, (wrap edit).bearing = some (follow edit)) (serverSession clientSession : String) :
    ∃ left right,
      document.merge (.single (.on (place state).id (wrap server))) clientSession
        (.single ((Edit.on (place state).id (wrap client)).adapt (outcome.client.map wrap))) =
          .ok left ∧
      document.merge (.single (.on (place state).id (wrap client))) serverSession
        (.single ((Edit.on (place state).id (wrap server)).adapt (outcome.server.map wrap))) =
          .ok right ∧
      left.arena.attached (place state).id =
        .ok ((place (outcome.client.run apply (apply server state))).node parent) ∧
      right.arena.attached (place state).id =
        .ok ((place (outcome.client.run apply (apply server state))).node parent) ∧
      left.referencesOf (place state).id = (document.referencesOf (place state).id).map
        (fun position => outcome.client.run follow (follow server position)) ∧
      right.referencesOf (place state).id = (document.referencesOf (place state).id).map
        (fun position => outcome.server.run follow (follow client position)) := by
  obtain ⟨left, right, leftMerged, rightMerged, leftAttached, rightAttached, leftReferences,
    rightReferences⟩ := Rivals.exists_references mirrors occurs notDetached serverMade clientMade
      rivals notNumeric transformed meets serverSession clientSession
  have reached : (outcome.lift wrap).client.run (fun change value => change.applyTo value)
      ((wrap server).applyTo (place state)) =
        place (outcome.client.run apply (apply server state)) := by
    rw [applied]
    exact Adapted.run_map applied outcome.client _
  rw [reached] at leftAttached rightAttached
  exact ⟨left, right, leftMerged, rightMerged, leftAttached, rightAttached,
    leftReferences.trans (Change.run_steer bears server outcome.client _),
    rightReferences.trans (Change.run_steer bears client outcome.server _)⟩

end Document

/-! Texts whose characters are marked with their places. -/

def Edit.onMarked (edit : Edit) (marks : List (Char × Option Nat)) : List (Char × Option Nat) :=
  match edit.isNoOp, edit.change with
  | false, .text change => change.onMarked marks
  | _, _ => marks

def Operation.onMarked (operation : Operation) (marks : List (Char × Option Nat)) :
    List (Char × Option Nat) :=
  operation.edits.foldl (fun marks edit => edit.onMarked marks) marks

theorem Operation.onMarked_adapt (id : NodeId) (change : Change) (adapted : Adapted TextEdit)
    (marks : List (Char × Option Nat)) :
    (Operation.single ((Edit.on id change).adapt (adapted.map .text))).onMarked marks =
      adapted.run (fun edit marks => edit.onMarked marks) marks := by
  obtain ⟨edit, isNoOp⟩ := adapted
  cases isNoOp <;> rfl

theorem TextEdit.letters_run (adapted : Adapted TextEdit) (marks : List (Char × Option Nat)) :
    (adapted.run (fun edit marks => edit.onMarked marks) marks).map Prod.fst =
      adapted.run (fun edit letters => edit.onLetters letters) (marks.map Prod.fst) := by
  unfold Adapted.run
  split
  · rfl
  · exact letters_onMarked _ _

def Change.inserted : Change → Nat
  | .text edit => edit.weight
  | .array (.insert _ _) => 1
  | _ => 0

namespace Document

/-- Two copies of a document that have merged two changes of one node hold the same references to the
characters or children that neither change takes away, or none if a change has set the whole node. -/
structure CursorsAgree (document : Document) (id : NodeId) (node : Node) (server client : Change)
    (pair : Transformed Operation) (left right : Document) : Prop where
  dropped : (∃ contents, server = .set contents ∨ client = .set contents) →
    left.referencesOf id = .empty ∧ right.referencesOf id = .empty
  text : ∀ stored serverEdit clientEdit, node.data = .string stored → server = .text serverEdit →
    client = .text clientEdit → ∃ (toLeft toRight : Word → Word) (merged : String),
      left.referencesOf id = (document.referencesOf id).map toLeft ∧
      right.referencesOf id = (document.referencesOf id).map toRight ∧
      left.arena.attached id = .ok { node with data := .string merged } ∧
      right.arena.attached id = .ok { node with data := .string merged } ∧
      let marks := TextEdit.marked stored.toList
      let leftMarks := pair.client.onMarked (serverEdit.onMarked marks)
      let rightMarks := pair.server.onMarked (clientEdit.onMarked marks)
      leftMarks.map Prod.fst = merged.toList ∧ rightMarks.map Prod.fst = merged.toList ∧
      ∀ position : Word, position.val < stored.length → serverEdit.covers position.val = false →
        clientEdit.covers position.val = false → toLeft position = toRight position ∧
          leftMarks[(toLeft position).val]? = marks[position.val]? ∧
          rightMarks[(toRight position).val]? = marks[position.val]?
  array : ∀ children serverEdit clientEdit, node.data = .array children →
    server = .array serverEdit → client = .array clientEdit →
    ∃ (toLeft toRight : Word → Word) (merged : List NodeId),
      left.referencesOf id = (document.referencesOf id).map toLeft ∧
      right.referencesOf id = (document.referencesOf id).map toRight ∧
      left.arena.attached id = .ok { node with data := .array merged } ∧
      right.arena.attached id = .ok { node with data := .array merged } ∧
      ∀ position : Word, position.val < children.length → serverEdit.takes position.val = false →
        clientEdit.takes position.val = false → toLeft position = toRight position ∧
          merged[(toLeft position).val]? = children[position.val]?

/-- What has become of two changes of one node can be incorporated in either order, and both orders
leave the references to the node in agreement. -/
def CursorsConverge (document : Document) (id : NodeId) (node : Node) (server client : Change) :
    Prop :=
  ∀ (ancestry : Ancestry) (serverSession clientSession : String),
    ∃ pair, Operation.transform ancestry (.single (.on id server)) (.single (.on id client)) =
        .ok pair ∧
      ∃ left right,
        document.merge (.single (.on id server)) clientSession pair.client = .ok left ∧
        document.merge (.single (.on id client)) serverSession pair.server = .ok right ∧
        document.CursorsAgree id node server client pair left right

section

variable {document : Document} {value inner : DataValue} {parent : Option NodeId}
  {known blocked : NodeId → Prop} (mirrors : document.Mirrors value known blocked)

include mirrors

theorem cursorsConverge_set {server client : Change} (occurs : Occurs none value parent inner)
    (notDetached : document.arena.isDetached inner.id = false)
    (serverMade : Edit.Made value known blocked [.on inner.id server])
    (clientMade : Edit.Made value known blocked [.on inner.id client])
    (rivals : document.Rivals inner.id server client)
    (positional : inner.kind = .string ∨ inner.kind = .array)
    (sets : ∃ contents, server = .set contents ∨ client = .set contents) :
    document.CursorsConverge inner.id (inner.node parent) server client := by
  obtain ⟨-, serverSuits, clientSuits⟩ := Rivals.suits_at mirrors occurs serverMade clientMade
  obtain ⟨outcome, transformed, meets, drops⟩ :=
    Change.transform_drops serverSuits.fits clientSuits.fits rivals.apart positional sets
  intro ancestry serverSession clientSession
  have notNumeric : inner.kind ≠ .number := by
    rcases positional with isString | isArray <;> simp [*]
  obtain ⟨left, right, leftMerged, rightMerged, -, -, leftReferences, rightReferences⟩ :=
    Rivals.exists_references mirrors occurs notDetached serverMade clientMade rivals notNumeric
      transformed meets serverSession clientSession
  refine ⟨_, Rivals.transform_single transformed ancestry, left, right, leftMerged, rightMerged,
    fun _ => ?_, ?_, ?_⟩
  · rw [leftReferences, rightReferences]
    exact drops _
  · rintro stored serverEdit clientEdit - rfl rfl
    obtain ⟨contents, impossible | impossible⟩ := sets <;> cases impossible
  · rintro children serverEdit clientEdit - rfl rfl
    obtain ⟨contents, impossible | impossible⟩ := sets <;> cases impossible

variable {own : NodeId} (notDetached : document.arena.isDetached own = false)

include notDetached

theorem cursorsConverge_text {text : String} {server client : TextEdit}
    (occurs : Occurs none value parent (.string own text))
    (serverMade : Edit.Made value known blocked [.on own (.text server)])
    (clientMade : Edit.Made value known blocked [.on own (.text client)])
    (rivals : document.Rivals own (.text server) (.text client))
    (small : text.length + server.weight + client.weight < 0x10000000000000000) :
    document.CursorsConverge own ((DataValue.string own text).node parent) (.text server)
      (.text client) := by
  obtain ⟨letters, rfl⟩ : ∃ letters, text = String.ofList letters :=
    ⟨text.toList, String.ofList_toList.symm⟩
  obtain ⟨-, serverSuits, clientSuits⟩ := Rivals.suits_at mirrors occurs serverMade clientMade
  have serverFits : server.Fits (String.ofList letters).length := serverSuits.fits
  have clientFits : client.Fits (String.ofList letters).length := clientSuits.fits
  obtain ⟨outcome, transformed, lifted⟩ :=
    Change.textText_meets own ⟨serverFits, clientFits, small⟩
  rw [String.length_ofList] at serverFits clientFits small
  have compatible : TextEdit.Compatible letters.length server client :=
    ⟨serverFits, clientFits, small⟩
  obtain ⟨_, again, meets⟩ := TextEdit.transform_meets compatible
  cases transformed.symm.trans again
  obtain ⟨serverWeight, clientWeight⟩ := TextEdit.transform_weight transformed
  have applied (edit : TextEdit) (letters : List Char) :
      (Change.text edit).applyTo (.string own (String.ofList letters)) =
        .string own (String.ofList (edit.onLetters letters)) := by
    simp only [Change.applyTo, edit.applyTo_ofList]
  intro ancestry serverSession clientSession
  obtain ⟨left, right, leftMerged, rightMerged, leftAttached, rightAttached, leftReferences,
    rightReferences⟩ := Rivals.exists_references_lift Change.text
      (fun letters => .string own (String.ofList letters)) mirrors occurs notDetached serverMade
      clientMade rivals (by simp [DataValue.kind]) (Change.transform_text transformed) lifted applied
      (fun _ => rfl) serverSession clientSession
  refine ⟨_, Rivals.transform_single (Change.transform_text transformed) ancestry, left, right,
    leftMerged, rightMerged, ?_, ?_, ?_⟩
  · rintro ⟨contents, impossible | impossible⟩ <;> cases impossible
  · rintro stored serverEdit clientEdit ⟨⟩ ⟨⟩ ⟨⟩
    refine ⟨_, _, _, leftReferences, rightReferences, leftAttached, rightAttached, ?_⟩
    dsimp only [Outcome.lift, Transformed.map]
    rw [Operation.onMarked_adapt, Operation.onMarked_adapt, TextEdit.letters_run,
      TextEdit.letters_run, TextEdit.letters_onMarked, TextEdit.letters_onMarked,
      TextEdit.letters_marked, String.toList_ofList, String.toList_ofList]
    refine ⟨rfl, meets.same.symm, fun position inside serverKept clientKept => ?_⟩
    rw [String.length_ofList] at inside
    have carries := TextEdit.transform_carries compatible inside serverKept clientKept transformed
    refine ⟨carries.same, ?_, ?_⟩
    · exact TextEdit.getElem?_run_onMarked serverFits meets.clientFits (by omega) inside
        serverKept carries.clientKept
    · exact TextEdit.getElem?_run_onMarked clientFits meets.serverFits (by omega) inside
        clientKept carries.serverKept
  · rintro children serverEdit clientEdit ⟨⟩

theorem cursorsConverge_array {children : List DataValue} {server client : ArrayEdit}
    (occurs : Occurs none value parent (.array own children))
    (serverMade : Edit.Made value known blocked [.on own (.array server)])
    (clientMade : Edit.Made value known blocked [.on own (.array client)])
    (rivals : document.Rivals own (.array server) (.array client))
    (small : children.length < 0xFFFFFFFFFFFFFFFF) :
    document.CursorsConverge own ((DataValue.array own children).node parent) (.array server)
      (.array client) := by
  obtain ⟨proper, serverSuits, clientSuits⟩ :=
    Rivals.suits_at mirrors occurs serverMade clientMade
  have distinct := serverSuits.distinct clientSuits rivals.apart proper
  obtain ⟨outcome, transformed, meets⟩ := ArrayEdit.transform_meets (Nat.succ_lt_succ small)
    serverSuits.fits clientSuits.fits rivals.apart.unequal
  have applied (edit : ArrayEdit) (children : List DataValue) :
      (Change.array edit).applyTo (.array own children) = .array own (edit.applyTo children) := rfl
  have lifted : Change.Meets (.array own children) (.array server) (.array client)
      (outcome.lift .array) :=
    meets.lift Change.array (DataValue.array own) (fun _ _ fits => fits) applied
  intro ancestry serverSession clientSession
  obtain ⟨left, right, leftMerged, rightMerged, leftAttached, rightAttached, leftReferences,
    rightReferences⟩ := Rivals.exists_references_lift Change.array (DataValue.array own) mirrors
      occurs notDetached serverMade clientMade rivals (by simp [DataValue.kind])
      (Change.transform_array transformed) lifted applied (fun _ => rfl) serverSession clientSession
  refine ⟨_, Rivals.transform_single (Change.transform_array transformed) ancestry, left, right,
    leftMerged, rightMerged, ?_, ?_, ?_⟩
  · rintro ⟨contents, impossible | impossible⟩ <;> cases impossible
  · rintro stored serverEdit clientEdit ⟨⟩
  · rintro stored serverEdit clientEdit ⟨⟩ ⟨⟩ ⟨⟩
    refine ⟨_, _, _, leftReferences, rightReferences, leftAttached, rightAttached, ?_⟩
    intro position inside serverKept clientKept
    rw [List.length_map] at inside
    have found := List.getElem?_eq_getElem inside
    obtain ⟨here, together⟩ := ArrayEdit.transform_follow serverSuits.fits distinct small found
      clientSuits.fits transformed meets serverKept clientKept
    refine ⟨together, ?_⟩
    rw [List.getElem?_map, List.getElem?_map, found]
    exact congrArg (Option.map DataValue.id) here

end

end Document

end SharedDocument
