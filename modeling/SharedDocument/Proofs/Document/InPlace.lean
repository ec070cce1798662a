import SharedDocument.Document.InPlace
import SharedDocument.Proofs.Document.WellFormed

/-! An edit carried out in place ends as the edit of the whole arena does: it makes all of its checks
before its first write, and where it reads a node again after a write, the node is there and of the
kind it was. So a failed edit has written nothing. A group that fails has, and returns to its
checkpoint; either way an operation takes full effect or none. -/

namespace SharedDocument

/-- What is left when a result takes full effect on a workspace, or none. -/
def Workspace.settle (workspace : Workspace) :
    Except DocumentError (Arena × List ChangeEvent) →
      EStateM.Result DocumentError Workspace Unit
  | .ok (arena, events) => .ok () ⟨arena, workspace.events ++ events⟩
  | .error fault => .error fault workspace

namespace Step

variable {α β : Type} {workspace reached : Workspace}

theorem bind_run (first : Step α) (next : α → Step β) (workspace : Workspace) :
    (first >>= next) workspace =
      match first workspace with
      | .ok value reached => next value reached
      | .error fault reached => .error fault reached := by
  simp only [bind, EStateM.bind]
  cases first workspace <;> rfl

theorem pure_run (value : α) (workspace : Workspace) :
    (pure value : Step α) workspace = .ok value workspace := rfl

theorem current_run (workspace : Workspace) : current workspace = .ok workspace.arena workspace := rfl

theorem write_run (change : Arena → Arena) (workspace : Workspace) :
    write change workspace = .ok () ⟨change workspace.arena, workspace.events⟩ := rfl

theorem report_run (event : ChangeEvent) (workspace : Workspace) :
    report event workspace = .ok () ⟨workspace.arena, workspace.events ++ [event]⟩ := rfl

theorem detach_run (site : Arena.Site) (element : PathElement) (id : NodeId)
    (workspace : Workspace) :
    detach site element id workspace =
      .ok () ⟨(workspace.arena.detach site.origin (site.path.child element) id).1,
        workspace.events ++ (workspace.arena.detach site.origin (site.path.child element) id).2⟩ := rfl

theorem demand_run (condition : Prop) [Decidable condition] (fault : DocumentError)
    (workspace : Workspace) :
    demand condition fault workspace =
      if condition then .ok () workspace else .error fault workspace := by
  unfold demand
  split <;> rfl

theorem ofExcept_run (result : Except DocumentError α) (workspace : Workspace) :
    (MonadExcept.ofExcept result : Step α) workspace =
      match result with
      | .ok value => .ok value workspace
      | .error fault => .error fault workspace := by
  cases result <;> rfl

theorem demandNew_run (values : List DataValue) (workspace : Workspace) :
    demandNew values workspace =
      match workspace.arena.checkNew values with
      | .ok _ => .ok () workspace
      | .error fault => .error fault workspace := by
  simp only [demandNew, bind_run, current_run, ofExcept_run]
  cases workspace.arena.checkNew values <;> rfl

/-- Detaching children one by one gathers what detaching them together does. -/
theorem detachAll_run (site : Arena.Site) (children : List (PathElement × NodeId))
    (reached : Arena × List ChangeEvent) (earlier : List ChangeEvent) :
    detachAll site children ⟨reached.1, earlier ++ reached.2⟩ =
      let final := children.foldl
        (fun (reached : Arena × List ChangeEvent) child =>
          let next := reached.1.detach site.origin (site.path.child child.1) child.2
          (next.1, reached.2 ++ next.2))
        reached
      .ok () ⟨final.1, earlier ++ final.2⟩ := by
  induction children generalizing reached with
  | nil => rfl
  | cons child rest ih =>
      simp only [detachAll, bind_run, detach_run, List.append_assoc]
      exact ih ((reached.1.detach site.origin (site.path.child child.1) child.2).1,
        reached.2 ++ (reached.1.detach site.origin (site.path.child child.1) child.2).2)

theorem detachChildren_run (site : Arena.Site) (data : NodeData) (workspace : Workspace) :
    detachAll site data.children workspace =
      workspace.settle (.ok (workspace.arena.detachChildren site.origin site.path data)) := by
  have gathered := detachAll_run site data.children (workspace.arena, []) workspace.events
  rw [List.append_nil] at gathered
  exact gathered

/-! Reading a node is answered by what the arena holds for it. After values have been adopted that is
still what it was before them. -/

theorem data_run {id : NodeId} {node : Node} (found : workspace.arena.node? id = some node) :
    data id workspace = .ok node.data workspace := by
  unfold data
  rw [bind_run, current_run]
  simp only [found]
  rfl

theorem contents_run {kind : NodeKind} {view : NodeData → Option α} {id : NodeId} {node : Node}
    {held : α} (found : workspace.arena.node? id = some node) (viewed : view node.data = some held) :
    contents kind view id workspace = .ok held workspace := by
  unfold contents
  rw [bind_run, data_run found]
  simp only [viewed]
  rfl

section

variable {parent : Option NodeId} {id : NodeId} {origin : Origin} {path : Path}

theorem editText_settles {stored : String} {edit : TextEdit}
    (holds : workspace.arena.Holds parent (.string id stored)) :
    editText ⟨origin, id, path⟩ edit workspace =
      workspace.settle (workspace.arena.editText ⟨origin, id, path⟩ stored edit) := by
  have read : text id workspace = .ok stored workspace := contents_run holds.root rfl
  cases edit with
  | insert index value =>
      simp only [editText, Arena.editText, bind_run, read, demand_run]
      by_cases inside : index.val ≤ stored.length
      · rw [if_pos inside, if_neg (not_lt.mpr inside)]
        simp [Workspace.settle, write_run]
      · rw [if_neg inside, if_pos (not_le.mp inside)]
        rfl
  | remove index length =>
      simp only [editText, Arena.editText, bind_run, read]
      cases index.plus? length.val with
      | error fault => rfl
      | ok finish =>
          simp only [bind_run, demand_run]
          by_cases inside : finish.val ≤ stored.length
          · rw [if_pos inside, if_neg (not_lt.mpr inside)]
            simp [Workspace.settle, write_run]
          · rw [if_neg inside, if_pos (not_le.mp inside)]
            rfl

theorem editArray_settles {children : List DataValue} {edit : ArrayEdit}
    (holds : workspace.arena.Holds parent (.array id children)) :
    editArray ⟨origin, id, path⟩ edit workspace =
      workspace.settle (workspace.arena.editArray ⟨origin, id, path⟩
        (children.map DataValue.id) edit) := by
  have read : items id workspace = .ok (children.map DataValue.id) workspace :=
    contents_run holds.root rfl
  have start := Arena.Rewires.start holds.root
  have readAgain (value : DataValue) (checked : workspace.arena.checkNew [value] = .ok ()) :
      items id ⟨workspace.arena.attach (some id) value, workspace.events⟩ =
        .ok (children.map DataValue.id)
          ⟨workspace.arena.attach (some id) value, workspace.events⟩ :=
    contents_run (start.adopt holds (by simp) (Arena.checkNew_eq_ok_iff.mp checked)).site rfl
  cases edit with
  | insert index value =>
      simp only [editArray, Arena.editArray, bind_run, read, demand_run, demandNew_run]
      by_cases inside : index.val ≤ (children.map DataValue.id).length
      · rw [if_pos inside, if_neg (not_lt.mpr inside)]
        simp only []
        cases checked : workspace.arena.checkNew [value] with
        | error fault => rfl
        | ok _ =>
            simp only [write_run, readAgain value checked]
            simp [Workspace.settle, bind, Except.bind, pure, Except.pure]
      · rw [if_neg inside, if_pos (not_le.mp inside)]
        rfl
  | remove index =>
      simp only [editArray, Arena.editArray, bind_run, read]
      cases (children.map DataValue.id)[index.val]? with
      | none => rfl
      | some child => rfl
  | replace index value =>
      simp only [editArray, Arena.editArray, bind_run, read, demand_run, demandNew_run]
      cases found : (children.map DataValue.id)[index.val]? with
      | none =>
          rw [if_neg (not_lt.mpr (List.getElem?_eq_none_iff.mp found))]
          rfl
      | some child =>
          rw [if_pos (List.getElem?_eq_some_iff.mp found).1]
          simp only []
          cases checked : workspace.arena.checkNew [value] with
          | error fault => rfl
          | ok _ =>
              simp only [write_run, readAgain value checked, found]
              rfl
  | move source target =>
      simp only [editArray, Arena.editArray, bind_run, read]
      cases (children.map DataValue.id)[source.val]? with
      | none => rfl
      | some child =>
          simp only [bind_run, demand_run]
          by_cases inside : target.val < (children.map DataValue.id).length
          · rw [if_pos inside, if_neg (not_le.mpr inside)]
            simp [Workspace.settle, write_run]
          · rw [if_neg inside, if_pos (not_lt.mp inside)]
            rfl

theorem setItems_settles {children values : List DataValue}
    (holds : workspace.arena.Holds parent (.array id children))
    (distinct : (DataValue.array id children).nodeIds.Nodup) :
    setContents ⟨origin, id, path⟩ (.array values) workspace =
      workspace.settle (workspace.arena.setContents ⟨origin, id, path⟩
        (.array (children.map DataValue.id)) (.array values)) := by
  have read : items id workspace = .ok (children.map DataValue.id) workspace :=
    contents_run holds.root rfl
  simp only [setContents, Arena.setContents, bind_run, read, demandNew_run]
  cases checked : workspace.arena.checkNew values with
  | error fault => rfl
  | ok _ =>
      have emptied := ((Arena.Rewires.start holds.root).setData (by simp) (by simp)
        (.array id [])).detachChildren holds distinct origin path
      have adopted := emptied.adopt holds (by simp) (Arena.checkNew_eq_ok_iff.mp checked)
      have readAgain (events : List ChangeEvent) :
          items id ⟨Arena.attachItems id values
            ((workspace.arena.setData id (.array [])).detachChildren origin path
              (.array (children.map DataValue.id))).1, events⟩ = .ok [] _ :=
        contents_run adopted.site rfl
      simp only [read, write_run, detachChildren_run, Workspace.settle, readAgain]
      rfl

section

variable {children : List (String × DataValue)}
  (holds : workspace.arena.Holds parent (.object id children))
  (distinct : (DataValue.object id children).nodeIds.Nodup)

include holds distinct

theorem editProperty_settles {edit : PropertyEdit} :
    editProperty ⟨origin, id, path⟩ edit workspace =
      workspace.settle (workspace.arena.editProperty ⟨origin, id, path⟩
        (Keyed.mapValues DataValue.id children) edit) := by
  have read : members id workspace = .ok (Keyed.mapValues DataValue.id children) workspace :=
    contents_run holds.root rfl
  have start := Arena.Rewires.start holds.root
  cases edit with
  | add key value =>
      have readAgain (checked : workspace.arena.checkNew [value] = .ok ()) :
          members id ⟨workspace.arena.attach (some id) value, workspace.events⟩ =
            .ok (Keyed.mapValues DataValue.id children) _ :=
        contents_run (start.adopt holds (by simp) (Arena.checkNew_eq_ok_iff.mp checked)).site rfl
      simp only [editProperty, Arena.editProperty, bind_run, read, demand_run, demandNew_run]
      cases Keyed.find? key (Keyed.mapValues DataValue.id children) with
      | some child => rfl
      | none =>
          simp only [if_true]
          cases checked : workspace.arena.checkNew [value] with
          | error fault => rfl
          | ok _ =>
              simp only [write_run, readAgain checked]
              simp [Workspace.settle, bind, Except.bind, pure, Except.pure]
  | set key value =>
      simp only [editProperty, Arena.editProperty, bind_run, read, Keyed.find?_mapValues]
      cases found : Keyed.find? key children with
      | none => rfl
      | some old =>
          simp only [Option.map_some, bind_run, demandNew_run]
          cases checked : workspace.arena.checkNew [value] with
          | error fault => rfl
          | ok _ =>
              have listed : old ∈ (DataValue.object id children).childValues :=
                List.mem_map_of_mem (Keyed.mem_of_find? found)
              have dropped := start.detach holds distinct (by simp) listed origin
                (path.child (.key key))
              have adopted := dropped.adopt holds (by simpa using listed)
                (Arena.checkNew_eq_ok_iff.mp checked)
              have readAgain (events : List ChangeEvent) :
                  members id ⟨(workspace.arena.detach origin (path.child (.key key)) old.id).1.attach
                    (some id) value, events⟩ = .ok (Keyed.mapValues DataValue.id children) _ :=
                contents_run adopted.site rfl
              simp only [detach_run, write_run, readAgain]
              rfl
  | remove key =>
      simp only [editProperty, Arena.editProperty, bind_run, read]
      cases Keyed.find? key (Keyed.mapValues DataValue.id children) with
      | none => rfl
      | some child => rfl

theorem setMembers_settles {values : List (String × DataValue)} :
    setContents ⟨origin, id, path⟩ (.object values) workspace =
      workspace.settle (workspace.arena.setContents ⟨origin, id, path⟩
        (.object (Keyed.mapValues DataValue.id children)) (.object values)) := by
  have read : members id workspace = .ok (Keyed.mapValues DataValue.id children) workspace :=
    contents_run holds.root rfl
  simp only [setContents, Arena.setContents, bind_run, read, demandNew_run]
  cases checked : workspace.arena.checkNew (values.map Prod.snd) with
  | error fault => rfl
  | ok _ =>
      have emptied := ((Arena.Rewires.start holds.root).setData (by simp) (by simp)
        (.object id [])).detachChildren holds distinct origin path
      have adopted := emptied.adopt holds (by simp) (Arena.checkNew_eq_ok_iff.mp checked)
      rw [← Arena.attachMembers_eq] at adopted
      have readAgain (events : List ChangeEvent) :
          members id ⟨Arena.attachMembers id values
            ((workspace.arena.setData id (.object [])).detachChildren origin path
              (.object (Keyed.mapValues DataValue.id children))).1, events⟩ = .ok [] _ :=
        contents_run adopted.site rfl
      simp only [read, write_run, detachChildren_run, Workspace.settle, readAgain]
      rfl

end

end

section

variable {parent : Option NodeId} {inner : DataValue} {origin : Origin} {path : Path}
  (holds : workspace.arena.Holds parent inner) (distinct : inner.nodeIds.Nodup)

include holds distinct

theorem setContents_settles {contents : Contents} (kind : inner.kind = contents.setKind.nodeKind) :
    setContents ⟨origin, inner.id, path⟩ contents workspace =
      workspace.settle
        (workspace.arena.setContents ⟨origin, inner.id, path⟩ inner.data contents) := by
  cases contents with
  | array values =>
      cases inner with
      | array id children => exact setItems_settles holds distinct
      | _ => cases kind
  | object values =>
      cases inner with
      | object id children => exact setMembers_settles holds distinct
      | _ => cases kind
  | string value =>
      cases inner with
      | string id stored =>
          have own : (DataValue.string id stored).id = id := rfl
          have read : text id workspace = .ok stored workspace := contents_run holds.root rfl
          simp only [setContents, Arena.setContents, bind_run, own, read, write_run]
          simp [Workspace.settle]
      | _ => cases kind
  | number value | boolean value | date value =>
      cases inner <;> cases kind
      simp only [setContents, Arena.setContents, bind_run, data_run holds.root, DataValue.node,
        DataValue.data, write_run]
      simp [Workspace.settle]

theorem change_settles (origin : Origin) (path : Path) {change : Change}
    (kind : inner.kind = change.kind.nodeKind) :
    Step.change ⟨origin, inner.id, path⟩ change workspace =
      workspace.settle (workspace.arena.change ⟨origin, inner.id, path⟩ inner.data change) := by
  cases change with
  | set contents => exact setContents_settles holds distinct kind
  | text edit =>
      cases inner with
      | string id stored => exact editText_settles holds
      | _ => cases edit <;> cases kind
  | array edit =>
      cases inner with
      | array id children => exact editArray_settles holds
      | _ => cases edit <;> cases kind
  | property edit =>
      cases inner with
      | object id children => exact editProperty_settles holds distinct
      | _ => cases edit <;> cases kind
  | addNumber amount =>
      cases inner with
      | number id stored =>
          have own : (DataValue.number id stored).id = id := rfl
          have read : data id workspace = .ok (.number stored) workspace := data_run holds.root
          simp only [Step.change, Arena.change, DataValue.data, own, bind_run, read,
            write_run]
          simp [Workspace.settle]
      | _ => cases kind

end

/-- An edit in place takes full effect, or none. -/
theorem edit_settles {value : DataValue} (represents : workspace.arena.Represents value)
    (origin : Origin) (edit : Edit) :
    Step.edit origin edit workspace = workspace.settle (workspace.arena.applyEdit origin edit) := by
  simp only [Step.edit, Arena.applyEdit, bind_run, current_run]
  by_cases detached : workspace.arena.isDetached edit.target = true
  · rw [if_pos detached, if_pos detached]
    cases origin with
    | own => rfl
    | peer sessionId => simp [Workspace.settle, write_run]
  · rw [if_neg detached, if_neg detached]
    simp only [bind_run, ofExcept_run, demand_run]
    cases found : workspace.arena.attached edit.target with
    | error fault => rfl
    | ok node =>
        simp only [bind, Except.bind]
        by_cases kind : node.data.kind = edit.kind.nodeKind
        · rw [if_pos kind, if_neg (not_not.mpr kind)]
          simp only []
          cases workspace.arena.pathOf edit.target with
          | error fault => rfl
          | ok path =>
              obtain ⟨parent, inner, occurs, target, rfl⟩ := represents.exists_occurs
                (Arena.attached_eq_ok_iff.mp found).2
              have settled := change_settles (represents.occurs_holds occurs)
                (represents.distinct.sublist occurs.sublist_nodeIds) origin path
                ((DataValue.kind_data inner).symm.trans kind)
              rw [target] at settled
              have same : (inner.node parent).data = inner.data := rfl
              simp only [settled, same]
              cases workspace.arena.change ⟨origin, edit.target, path⟩ inner.data edit.change with
              | error fault => rfl
              | ok edited => simp [Workspace.settle, current_run, report_run, pure, Except.pure]
        · rw [if_neg kind, if_pos kind]
          rfl

/-- Edits one after another end as they do together; where one fails, what came before it is there. -/
theorem edits_run {value : DataValue} {clashing : List NodeId}
    (clashes : workspace.arena.Clashes value clashing) (origin : Origin) {edits : List Edit}
    (ordered : ∀ edit ∈ edits, edit.change.Ordered) :
    match workspace.arena.applyEdits origin edits with
    | .ok result =>
        Step.edits origin edits workspace = .ok () ⟨result.1, workspace.events ++ result.2⟩
    | .error fault => ∃ reached, Step.edits origin edits workspace = .error fault reached := by
  induction edits generalizing workspace value clashing with
  | nil => simp [Arena.applyEdits, Step.edits, pure_run]
  | cons edit rest ih =>
      obtain ⟨first, later⟩ := List.forall_mem_cons.mp ordered
      rw [Arena.applyEdits, Step.edits]
      by_cases isNoOp : edit.isNoOp = true
      · rw [if_pos isNoOp, if_pos isNoOp]
        exact ih clashes later
      · rw [if_neg isNoOp, if_neg isNoOp]
        simp only [bind_run, edit_settles clashes.represents]
        cases applied : workspace.arena.applyEdit origin edit with
        | error fault => exact ⟨workspace, rfl⟩
        | ok edited =>
            obtain ⟨next, after, -⟩ := clashes.applyEdit first applied
            have further := @ih ⟨edited.1, workspace.events ++ edited.2⟩ next _ after later
            simp only [Workspace.settle] at further ⊢
            cases reached : edited.1.applyEdits origin rest with
            | error fault =>
                simp only [reached] at further ⊢
                exact further
            | ok result =>
                simp only [reached, List.append_assoc] at further ⊢
                exact further

theorem undoing_run (steps : Step Unit) (workspace : Workspace) :
    undoing steps workspace =
      match steps workspace with
      | .ok _ reached => .ok () reached
      | .error fault reached => .error fault ⟨workspace.arena, reached.events⟩ := by
  simp only [undoing, bind_run, current_run, tryCatch, tryCatchThe, MonadExceptOf.tryCatch,
    EStateM.tryCatch]
  cases steps workspace <;> rfl

end Step

namespace Operation

mutual

theorem isNoOp_of_isNoOp (operation : Operation) (isNoOp : operation.isNoOp = true) :
    ∀ edit ∈ operation.edits, edit.isNoOp = true := by
  cases operation with
  | single edit =>
      rw [Operation.isNoOp] at isNoOp
      simpa [edits] using isNoOp
  | group elements => exact areNoOps_of_areNoOps elements isNoOp

theorem areNoOps_of_areNoOps (elements : List Operation) (areNoOps : areNoOps elements = true) :
    ∀ edit ∈ groupEdits elements, edit.isNoOp = true := by
  cases elements with
  | nil => simp [groupEdits]
  | cons first rest =>
      simp only [Operation.areNoOps, Bool.and_eq_true] at areNoOps
      intro edit listed
      rcases List.mem_append.mp listed with inFirst | inRest
      · exact isNoOp_of_isNoOp first areNoOps.1 edit inFirst
      · exact areNoOps_of_areNoOps rest areNoOps.2 edit inRest

end

def effectiveEdits (operation : Operation) : List Edit :=
  operation.edits.filter fun edit => !edit.isNoOp

theorem effectiveEdits_of_isNoOp {operation : Operation} (isNoOp : operation.isNoOp = true) :
    operation.effectiveEdits = [] := by
  rw [effectiveEdits, List.filter_eq_nil_iff]
  intro edit listed
  simp [isNoOp_of_isNoOp operation isNoOp edit listed]

end Operation

theorem Arena.applyEdits_effective (arena : Arena) (origin : Origin) (operation : Operation) :
    arena.applyEdits origin operation.effectiveEdits =
      arena.applyEdits origin operation.edits := by
  unfold Operation.effectiveEdits
  induction operation.edits generalizing arena with
  | nil => rfl
  | cons edit rest ih =>
      by_cases isNoOp : edit.isNoOp = true
      · rw [List.filter_cons_of_neg (by simp [isNoOp]), ih, Arena.applyEdits, if_pos isNoOp]
      · rw [List.filter_cons_of_pos (by simp [isNoOp]), Arena.applyEdits, Arena.applyEdits]
        simp only [isNoOp, ih]

def Application.of (document : Document) :
    Except DocumentError (Document × List Delivery) → Application
  | .ok (changed, deliveries) => ⟨changed, deliveries, .ok ()⟩
  | .error fault => ⟨document, [], .error fault⟩

namespace Document

variable {document : Document} {value : DataValue} {clashing : List NodeId}

theorem steps_run (clashes : document.arena.Clashes value clashing) (origin : Origin)
    {operation : Operation} (ordered : operation.Ordered) (effective : operation.isNoOp = false) :
    match document.arena.applyEdits origin operation.edits with
    | .ok result => steps origin operation ⟨document.arena, []⟩ = .ok () ⟨result.1, result.2⟩
    | .error fault =>
        ∃ events, steps origin operation ⟨document.arena, []⟩ =
          .error fault ⟨document.arena, events⟩ := by
  cases operation with
  | single edit =>
      rw [Operation.isNoOp] at effective
      have represents : (Workspace.mk document.arena []).arena.Represents value := clashes.represents
      simp only [steps, Step.edit_settles represents, Operation.edits, Arena.applyEdits, effective]
      cases document.arena.applyEdit origin edit with
      | error fault => exact ⟨[], rfl⟩
      | ok result => simp [Workspace.settle]
  | group elements =>
      have start : (Workspace.mk document.arena []).arena.Clashes value clashing := clashes
      have ran := Step.edits_run start origin ordered
      simp only [steps, Step.undoing_run]
      cases applied : document.arena.applyEdits origin (Operation.group elements).edits with
      | error fault =>
          simp only [applied] at ran ⊢
          obtain ⟨reached, failed⟩ := ran
          exact ⟨reached.events, by rw [failed]⟩
      | ok result =>
          simp only [applied, List.nil_append] at ran ⊢
          rw [ran]

@[simp] theorem heard_nil (document : Document) (origin : Origin) : document.heard origin [] = [] := by
  simp [heard, Subscribers.receiveAll]

theorem heard_append (document : Document) (origin : Origin) (earlier later : List ChangeEvent) :
    document.heard origin (earlier ++ later) =
      document.heard origin earlier ++ document.heard origin later := by
  unfold heard
  split
  · exact List.flatMap_append
  · rfl

theorem apply_eq_error (isClosed : document.isClosed = true) (origin : Origin)
    (operation : Operation) : document.apply origin operation = .error .closed := by
  unfold apply ensureOpen
  rw [if_pos isClosed]
  rfl

theorem apply_eq_map (isOpen : document.isClosed = false) (origin : Origin)
    (operation : Operation) :
    document.apply origin operation =
      (document.arena.applyEdits origin operation.edits).map fun edited =>
        ({ document with arena := edited.1 }, document.heard origin edited.2) := by
  unfold apply ensureOpen
  rw [isOpen, if_neg Bool.false_ne_true]
  cases document.arena.applyEdits origin operation.edits <;> rfl

/-- In place an operation takes full effect or none. -/
theorem applyInPlace_eq (clashes : document.arena.Clashes value clashing) (origin : Origin)
    {operation : Operation} (ordered : operation.Ordered) :
    document.applyInPlace origin operation = .of document (document.apply origin operation) := by
  unfold applyInPlace
  by_cases isClosed : document.isClosed = true
  · rw [if_pos isClosed, apply_eq_error isClosed]
    rfl
  · rw [if_neg isClosed, apply_eq_map (Bool.not_eq_true _ ▸ isClosed)]
    by_cases effective : operation.isNoOp = true
    · rw [if_pos effective, ← Arena.applyEdits_effective,
        Operation.effectiveEdits_of_isNoOp effective]
      simp [Arena.applyEdits, Except.map, Application.of]
    · rw [if_neg effective]
      have ran := steps_run clashes origin ordered (Bool.not_eq_true _ ▸ effective)
      cases applied : document.arena.applyEdits origin operation.edits with
      | error fault =>
          simp only [applied] at ran
          obtain ⟨events, failed⟩ := ran
          rw [failed]
          rfl
      | ok result =>
          simp only [applied] at ran
          rw [ran]
          rfl

end Document

end SharedDocument
