import SharedDocument.Proofs.Session.Documents
import SharedDocument.Proofs.Session.Resync
import SharedDocument.Proofs.Session.States

/-! Faults of a session. The class of a fault decides in which state it leaves the session, and a call
that fails leaves everything else as it was; only an operation of another session that could not be
applied has touched the queue by then. A session that is lost stays as it is. -/

namespace SharedDocument

namespace SessionError

def stateAfter (fault : SessionError) (state : SyncState) : SyncState :=
  if fault.requiresReload then .unrecoverable
  else if fault.requiresResync then .diverged
  else state

theorem requiresResync_of_requiresReload {fault : SessionError}
    (lost : fault.requiresReload = true) : fault.requiresResync = false := by
  cases fault <;> first | rfl | cases lost

def IsOverflow : SessionError → Prop
  | .overflow _ => True
  | _ => False

def IsRemoteApply : SessionError → Prop
  | .remoteApply _ _ => True
  | _ => False

end SessionError

namespace Call

def action? : Call → Option Action
  | .submit _ _ => some .submit
  | .receive _ => some .applyRemote
  | .acknowledge _ => some .acknowledge
  | .transportFailed => none
  | .beginResync _ => some .resync
  | .completeResync _ => some .completeResync

end Call

namespace Document

variable {document other : Document} {value : DataValue} {clashing : List NodeId}

theorem snapshot_markSuperseded (holds : document.Holds value clashing) (ids : List NodeId) :
    (document.markSuperseded ids).snapshot = document.snapshot := by
  obtain ⟨⟨represents, -, -⟩, root⟩ := holds
  have nodes := @Arena.nodes_markSuperseded document.arena ids
  have same : ∀ id ∈ value.nodeIds,
      (document.arena.markSuperseded ids).attached id = document.arena.attached id := by
    intro id listed
    have flag : (document.arena.markSuperseded ids).isDetached id =
        document.arena.isDetached id := by
      rw [Bool.eq_iff_iff, Arena.isDetached_markSuperseded]
      exact or_iff_right fun named => represents.holds.node?_ne_none listed named.2
    rw [Arena.attached, Arena.attached, flag, Arena.node?, nodes, Arena.node?]
  change (document.arena.markSuperseded ids).dataValue document.root =
    document.arena.dataValue document.root
  rw [root, Arena.dataValue, Arena.dataValue, Arena.size, nodes]
  exact Arena.valueBelow_eq_of_holds represents.holds same _

structure SameTree (document other : Document) : Prop where
  root : other.root = document.root
  nodes : other.arena.nodes = document.arena.nodes
  detached : other.arena.detached = document.arena.detached

theorem SameTree.refl (document : Document) : document.SameTree document :=
  ⟨rfl, rfl, rfl⟩

theorem SameTree.snapshot (same : document.SameTree other) : other.snapshot = document.snapshot := by
  have attached (id : NodeId) : other.arena.attached id = document.arena.attached id := by
    rw [Arena.attached, Arena.attached, Arena.isDetached, same.detached, Arena.isDetached,
      Arena.node?, same.nodes, Arena.node?]
  rw [Document.snapshot, dataValue, same.root, Arena.dataValue, Arena.size, same.nodes,
    Arena.valueBelow_congr attached]
  rfl

end Document

namespace Replica

variable {α : Type} {replica other last : Replica} {fault : SessionError}

/-! The state after a fault. -/

def Classifies (replica : Replica) (outcome : Outcome α) : Prop :=
  ∀ fault, outcome.2 = .error fault → outcome.1.state = fault.stateAfter replica.state

theorem classifies_ok (answer : α) : Classifies replica ((other, .ok answer) : Outcome α) :=
  fun _ refused => by cases refused

theorem classifies_refused (state : other.state = replica.state) (harmless : fault.isFatal = false) :
    Classifies replica ((other, .error fault) : Outcome α) := by
  intro answer refused
  cases refused
  simp only [SessionError.isFatal, Bool.or_eq_false_iff] at harmless
  simp [SessionError.stateAfter, harmless, state]

theorem classifies_diverge (recoverable : replica.state ≠ .unrecoverable)
    (order : fault.requiresResync = true) (spares : fault.requiresReload = false) :
    Classifies replica (replica.diverge fault : Outcome α) := by
  intro answer refused
  unfold diverge at refused ⊢
  rw [if_neg recoverable] at refused ⊢
  cases refused
  simp [SessionError.stateAfter, order, spares, transition_eq]

theorem classifies_fail (replica : Replica) (lost : fault.requiresReload = true) (other : Replica) :
    Classifies replica (other.fail fault : Outcome α) := by
  intro answer refused
  cases refused
  simp [SessionError.stateAfter, lost, fail, transition_eq]

theorem classifies_failResync (replica : Replica) (lost : fault.requiresReload = true)
    (other : Replica) : Classifies replica (other.failResync fault : Outcome α) :=
  classifies_fail replica lost _

theorem classifies_submit (replica : Replica) (now : Instant) (operation : Operation) :
    Classifies replica (replica.submit now operation) := by
  unfold submit
  split
  · exact classifies_refused rfl rfl
  · split
    · exact classifies_refused rfl rfl
    · split
      · exact classifies_refused rfl rfl
      · simp only
        split
        · exact classifies_refused rfl rfl
        · split <;> exact classifies_ok _

section

variable (recoverable : replica.state ≠ .unrecoverable)

include recoverable

theorem classifies_takeHead (seqNo : Option Word) (version : Word) :
    Classifies replica (replica.takeHead seqNo version) := by
  unfold takeHead
  split
  · exact classifies_diverge recoverable rfl rfl
  · split
    · exact classifies_diverge recoverable rfl rfl
    · split
      · exact classifies_diverge recoverable rfl rfl
      · split
        · exact classifies_refused rfl rfl
        · simp only
          split <;> exact classifies_ok _

omit recoverable in
theorem classifies_applyRebased (replica : Replica) (committed : CommittedOperation)
    (remote : Operation) (pending : List QueuedOperation) :
    Classifies replica (replica.applyRebased committed remote pending) := by
  unfold applyRebased
  simp only
  split
  · exact classifies_fail replica rfl _
  · split
    · exact classifies_refused rfl rfl
    · exact classifies_ok _

theorem classifies_incorporate (committed : CommittedOperation) :
    Classifies replica (replica.incorporate committed) := by
  unfold incorporate
  split
  · exact classifies_diverge recoverable rfl rfl
  · split
    · exact classifies_takeHead recoverable none committed.version
    · split
      · exact classifies_refused rfl rfl
      · exact classifies_fail replica rfl _
      · exact classifies_applyRebased replica committed _ _

theorem classifies_receive (committed : CommittedOperation) :
    Classifies replica (replica.receive committed) := by
  unfold receive
  split
  · exact classifies_incorporate recoverable committed
  · exact classifies_refused rfl rfl

theorem classifies_acknowledge (acknowledgment : Acknowledgment) :
    Classifies replica (replica.acknowledge acknowledgment) := by
  unfold acknowledge
  split
  · exact classifies_takeHead recoverable _ _
  · exact classifies_refused rfl rfl

end

theorem classifies_beginResync (replica : Replica) (serverVersion : Word) :
    Classifies replica (replica.beginResync serverVersion) := by
  unfold beginResync
  split
  · exact classifies_refused rfl rfl
  · split
    · exact classifies_failResync replica rfl _
    · simp only
      split
      · exact classifies_failResync replica rfl _
      · exact classifies_ok _

theorem classifies_failReplay (replica : Replica) (committed : CommittedOperation)
    (resyncing : replica.state = .resyncing) {reached : Replica}
    (stopped : replica.incorporate committed = (reached, .error fault)) :
    Classifies replica (reached.failReplay fault) ∧
      ∀ other, (reached.failReplay fault).2 = .error other → other.requiresResync = false := by
  have recoverable : replica.state ≠ .unrecoverable := by simp [resyncing]
  have state := classifies_incorporate recoverable committed fault (by rw [stopped])
  rw [stopped] at state
  unfold failReplay
  split
  · exact ⟨classifies_refused state rfl, fun other refused => by cases refused; rfl⟩
  · rename_i exact
    have lost : (if fault.requiresReload then fault
        else SessionError.resyncUnrecoverable reached.version reached.resyncTarget
          fault.message).requiresReload = true := by
      split
      · assumption
      · rfl
    refine ⟨classifies_failResync replica lost reached, fun other refused => ?_⟩
    cases refused
    exact SessionError.requiresResync_of_requiresReload lost

theorem incorporate_resyncing {committed : CommittedOperation} (resyncing : replica.state = .resyncing)
    (granted : (replica.incorporate committed).2 = .ok ()) :
    (replica.incorporate committed).1.state = .resyncing := by
  rcases replica.incorporate_spec committed with
    declines | ⟨-, -, same⟩ | ⟨-, -, remote, pending, -, same⟩
  · exact absurd granted (declines.ne_ok ())
  · rw [same] at granted ⊢
    rcases replica.takeHead_spec none committed.version with
      declines | ⟨head, rest, next, queued, named, due, counted⟩
    · exact absurd granted (declines.ne_ok ())
    · rw [takeHead_eq queued named due counted, settle_eq, if_neg (by simp [emit, resyncing])]
      exact resyncing
  · rw [same] at granted ⊢
    obtain ⟨document, deliveries, declines | ⟨next, counted, reached⟩⟩ :=
      replica.applyRebased_spec committed remote pending
    · exact absurd granted (declines.ne_ok ())
    · rw [reached]
      exact resyncing

theorem classifies_replay (resyncing : replica.state = .resyncing)
    (history : List CommittedOperation) :
    Classifies replica (replica.replay history) ∧
      ∀ fault, (replica.replay history).2 = .error fault → fault.requiresResync = false := by
  induction history generalizing replica with
  | nil => exact ⟨classifies_ok (), fun fault refused => by cases refused⟩
  | cons committed rest ih =>
      rw [replay]
      split
      · rename_i reached went
        have still := @incorporate_resyncing replica committed resyncing (by rw [went])
        rw [went] at still
        obtain ⟨classifies, harmless⟩ := ih still
        refine ⟨fun fault refused => ?_, harmless⟩
        rw [resyncing, ← still]
        exact classifies fault refused
      · rename_i reached fault stopped
        exact classifies_failReplay replica committed resyncing stopped

theorem classifies_completeResync (replica : Replica)
    (history : Except HistoryError (List CommittedOperation)) :
    Classifies replica (replica.completeResync history) ∧
      ∀ fault, (replica.completeResync history).2 = .error fault →
        fault.requiresResync = false := by
  unfold completeResync
  split
  · exact ⟨classifies_refused rfl rfl, fun fault refused => by cases refused; rfl⟩
  · rename_i resyncing
    split
    · exact ⟨classifies_refused rfl rfl, fun fault refused => by cases refused; rfl⟩
    · exact ⟨classifies_failResync replica rfl replica, fun fault refused => by cases refused; rfl⟩
    · rename_i events
      obtain ⟨classifies, harmless⟩ := classifies_replay (not_not.mp resyncing) events
      split
      · rename_i reached fault stopped
        rw [stopped] at classifies harmless
        exact ⟨fun other refused => by cases refused; exact classifies fault rfl,
          fun other refused => by cases refused; exact harmless fault rfl⟩
      · rename_i reached went
        unfold finishResync
        split
        · exact ⟨classifies_failResync replica rfl reached,
            fun fault refused => by cases refused; rfl⟩
        · exact ⟨classifies_ok _, fun fault refused => by cases refused⟩

theorem completeResync_ne_diverged (elsewhere : replica.state ≠ .diverged)
    (history : Except HistoryError (List CommittedOperation)) :
    (replica.completeResync history).1.state ≠ .diverged := by
  obtain ⟨classifies, harmless⟩ := replica.classifies_completeResync history
  cases answer : (replica.completeResync history).2 with
  | error fault =>
      rw [classifies fault answer, SessionError.stateAfter, harmless fault answer]
      split
      · exact nofun
      · exact elsewhere
  | ok queue =>
      intro diverged
      have live := isLive_completeResync answer
      rw [diverged] at live
      cases live

/-! What a fault spares. -/

/-- If the call fails, the document and the numbers are as before, and so is the queue unless an
operation could not be applied. -/
def Spares (replica : Replica) (outcome : Outcome α) : Prop :=
  ∀ fault, outcome.2 = .error fault → ¬ fault.IsOverflow →
    outcome.1.document.snapshot = replica.document.snapshot ∧
      outcome.1.version = replica.version ∧ outcome.1.nextSeqNo = replica.nextSeqNo ∧
      (¬ fault.IsRemoteApply → outcome.1.pending = replica.pending)

theorem Idles.spares {outcome : Outcome α} (idles : Idles replica outcome.1) :
    Spares replica outcome :=
  fun _ _ _ => ⟨congrArg Document.snapshot idles.document, idles.version, idles.nextSeqNo,
    fun _ => idles.pending⟩

theorem spares_ok (answer : α) : Spares replica ((other, .ok answer) : Outcome α) :=
  fun _ refused => by cases refused

theorem Declines.spares {outcome : Outcome α} (declines : replica.Declines outcome) :
    Spares replica outcome := by
  obtain ⟨fault, rfl | rfl | rfl⟩ := declines
  · exact (Idles.refl replica).spares
  · exact (idles_diverge replica fault).spares
  · exact (idles_fail replica fault).spares

theorem spares_submit (replica : Replica) (now : Instant) (operation : Operation) :
    Spares replica (replica.submit now operation) := by
  intro fault refused exact
  rcases replica.submit_cases now operation with
    ⟨idles, -⟩ | ⟨overflow, refusedToo, -⟩ | ⟨_, queued, _, granted, _⟩
  · exact idles.spares fault refused exact
  · rw [refusedToo] at refused
    cases refused
    exact absurd trivial exact
  · rw [granted] at refused
    cases refused

theorem spares_takeHead (replica : Replica) (seqNo : Option Word) (version : Word) :
    Spares replica (replica.takeHead seqNo version) := by
  rcases replica.takeHead_spec seqNo version with
    declines | ⟨head, rest, next, queued, named, due, counted⟩
  · exact declines.spares
  · rw [takeHead_eq queued named due counted]
    exact spares_ok ()

section

variable {value : DataValue} {clashing : List NodeId}
  (holds : replica.document.Holds value clashing)

include holds

theorem spares_applyRebased (committed : CommittedOperation) (remote : Operation)
    (pending : List QueuedOperation) :
    Spares replica (replica.applyRebased committed remote pending) := by
  intro fault refused exact
  unfold applyRebased at refused ⊢
  simp only at refused ⊢
  split at refused
  · cases refused
    simp only [fail, transition_eq]
    exact ⟨Document.snapshot_markSuperseded holds _, trivial, trivial, fun other => absurd trivial other⟩
  · split at refused
    · cases refused
      exact absurd trivial exact
    · cases refused

theorem spares_incorporate (committed : CommittedOperation) :
    Spares replica (replica.incorporate committed) := by
  rcases replica.incorporate_spec committed with
    declines | ⟨-, -, same⟩ | ⟨-, -, remote, pending, -, same⟩
  · exact declines.spares
  · rw [same]
    exact spares_takeHead replica none committed.version
  · rw [same]
    exact spares_applyRebased holds committed remote pending

theorem spares_receive (committed : CommittedOperation) :
    Spares replica (replica.receive committed) := by
  unfold receive
  split
  · exact spares_incorporate holds committed
  · exact (Idles.refl replica).spares

end

theorem spares_acknowledge (replica : Replica) (acknowledgment : Acknowledgment) :
    Spares replica (replica.acknowledge acknowledgment) := by
  unfold acknowledge
  split
  · exact spares_takeHead replica _ _
  · exact (Idles.refl replica).spares

theorem spares_failResync (replica : Replica) (fault : SessionError) :
    Spares replica (replica.failResync fault : Outcome α) :=
  (idles_failResync replica fault).spares

theorem spares_beginResync (replica : Replica) (serverVersion : Word) :
    Spares replica (replica.beginResync serverVersion) := by
  unfold beginResync
  split
  · exact (Idles.refl replica).spares
  · split
    · exact spares_failResync replica _
    · simp only
      split
      · exact spares_failResync replica _
      · exact spares_ok _

/-! Lost sessions. -/

theorem perform_lost (lost : replica.state = .unrecoverable) (call : Call) :
    replica.perform call = (replica, call.action?.map (.invalidState .unrecoverable)) := by
  cases call <;>
    simp [perform, Call.action?, fault?, submit, receive, acknowledge, transportFailed, beginResync,
      completeResync, invalid, SyncState.isLive, lost]

structure Rigid (replica other : Replica) : Prop where
  tree : replica.document.SameTree other.document
  pending : other.pending = replica.pending
  version : other.version = replica.version
  state : other.state = replica.state

theorem Rigid.trans (first : Rigid replica other) (second : Rigid other last) :
    Rigid replica last :=
  ⟨⟨second.tree.root.trans first.tree.root, second.tree.nodes.trans first.tree.nodes,
      second.tree.detached.trans first.tree.detached⟩,
    second.pending.trans first.pending, second.version.trans first.version,
    second.state.trans first.state⟩

theorem rigid_act (lost : replica.state = .unrecoverable) (activity : Activity) :
    Rigid replica (replica.act activity) := by
  cases activity with
  | call call =>
      rw [act, perform_lost lost]
      exact ⟨.refl _, rfl, rfl, rfl⟩
  | setReference id reference =>
      rw [act, setReference]
      split
      · rename_i document set
        simp only [Document.setReference, Fallible.bind_eq_ok_iff, Fallible.pure_eq_ok_iff] at set
        obtain ⟨_, _, _, _, _, _, rfl⟩ := set
        exact ⟨⟨rfl, rfl, rfl⟩, rfl, rfl, rfl⟩
      · exact ⟨.refl _, rfl, rfl, rfl⟩
  | _ => exact ⟨⟨rfl, rfl, rfl⟩, rfl, rfl, rfl⟩

theorem rigid_actAll (lost : replica.state = .unrecoverable) (activities : List Activity) :
    Rigid replica (replica.actAll activities) := by
  induction activities generalizing replica with
  | nil => exact ⟨.refl _, rfl, rfl, rfl⟩
  | cons activity rest ih =>
      have first := rigid_act lost activity
      exact first.trans (ih (first.state.trans lost))

/-! All calls. -/

/-- What a failed call makes of a replica: the class of the fault tells the state, and a call other than
the completion of a resync spares the document, the numbers, and the queue unless an operation could
not be applied. -/
structure Contains (replica after : Replica) (call : Call) (fault : SessionError) : Prop where
  resync : fault.requiresResync = true → after.state = .diverged
  reload : fault.requiresReload = true → after.state = .unrecoverable
  neither : fault.isFatal = false → after.state = replica.state
  spares : (∀ history, call ≠ .completeResync history) →
    after.document.snapshot = replica.document.snapshot ∧ after.version = replica.version ∧
      after.nextSeqNo = replica.nextSeqNo ∧
      (¬ fault.IsRemoteApply → after.pending = replica.pending)

theorem Contains.of_outcome {outcome : Outcome α} {call : Call}
    (classifies : Classifies replica outcome)
    (spares : (∀ history, call ≠ .completeResync history) → Spares replica outcome)
    (refused : fault? outcome = some fault) (exact : ¬ fault.IsOverflow) :
    Contains replica outcome.1 call fault := by
  have answer := fault?_eq_some_iff.mp refused
  have state := classifies fault answer
  unfold SessionError.stateAfter at state
  refine ⟨fun order => ?_, fun lost => ?_, fun harmless => ?_, fun other => ?_⟩
  · have notLost : fault.requiresReload ≠ true := by
      intro lost
      rw [SessionError.requiresResync_of_requiresReload lost] at order
      cases order
    rwa [if_neg notLost, if_pos order] at state
  · rwa [if_pos lost] at state
  · simp only [SessionError.isFatal, Bool.or_eq_false_iff] at harmless
    simpa [harmless] using state
  · exact spares other fault answer exact

theorem contains_perform {value : DataValue} {clashing : List NodeId}
    (holds : replica.document.Holds value clashing) (recoverable : replica.state ≠ .unrecoverable)
    {call : Call} (refused : (replica.perform call).2 = some fault)
    (exact : ¬ fault.IsOverflow) : Contains replica (replica.perform call).1 call fault := by
  cases call with
  | submit now operation =>
      exact .of_outcome (classifies_submit replica now operation)
        (fun _ => spares_submit replica now operation) refused exact
  | receive committed =>
      exact .of_outcome (classifies_receive recoverable committed)
        (fun _ => spares_receive holds committed) refused exact
  | acknowledge acknowledgment =>
      exact .of_outcome (classifies_acknowledge recoverable acknowledgment)
        (fun _ => spares_acknowledge replica acknowledgment) refused exact
  | transportFailed => cases refused
  | beginResync serverVersion =>
      exact .of_outcome (classifies_beginResync replica serverVersion)
        (fun _ => spares_beginResync replica serverVersion) refused exact
  | completeResync history =>
      exact .of_outcome (classifies_completeResync replica history).1
        (fun other => absurd rfl (other history)) refused exact

/-- Faults at any point of the life of a replica are contained. Completing a resync ends in the diverged
state only where it is refused for being in it. A lost session answers every call in the same way and
never changes again. The changes of state that were told lead from the first state to the current one. -/
theorem contains_actAll {document : Document} (arises : document.Arises) (config : SessionConfig)
    (version : Word) {activities : List Activity}
    (ordered : ∀ activity ∈ activities, activity.Ordered) :
    let fresh := start config document version
    let reached := fresh.actAll activities
    (reached.state ≠ .unrecoverable → ∀ call fault, (reached.perform call).2 = some fault →
      ¬ fault.IsOverflow → Contains reached (reached.perform call).1 call fault) ∧
    (∀ history, (reached.perform (.completeResync history)).1.state = .diverged →
      reached.perform (.completeResync history) =
        (reached, some (.invalidState .diverged .completeResync))) ∧
    (reached.state = .unrecoverable →
      (∀ call, reached.perform call =
        (reached, call.action?.map (.invalidState .unrecoverable))) ∧
      ∀ later, (reached.actAll later).document.snapshot = reached.document.snapshot ∧
        (reached.actAll later).pending = reached.pending ∧
        (reached.actAll later).version = reached.version ∧
        (reached.actAll later).state = reached.state) ∧
    SyncState.synchronized.Leads
      ((fresh.eventsAlong activities).filterMap SessionEvent.stateChange?) reached.state := by
  intro fresh reached
  have startArises : fresh.document.Arises := arises.setEmitsLocalEvents _
  obtain ⟨value, clashing, holds⟩ := (arises_actAll startArises ordered).holds
  refine ⟨fun recoverable call fault => contains_perform holds recoverable, ?_, ?_, ?_⟩
  · intro history diverged
    by_cases already : reached.state = .diverged
    · have notResyncing : reached.state ≠ .resyncing := by
        rw [already]
        exact nofun
      have refused : reached.completeResync history = reached.invalid .completeResync := by
        unfold completeResync
        rw [if_pos notResyncing]
      rw [perform, refused, invalid, already]
      rfl
    · exact absurd diverged (completeResync_ne_diverged already history)
  · intro lost
    refine ⟨perform_lost lost, fun later => ?_⟩
    have rigid := rigid_actAll lost later
    exact ⟨rigid.tree.snapshot, rigid.pending, rigid.version, rigid.state⟩
  · have told : Told .synchronized [] fresh := .stay
    exact told.actAll activities

/-- An acknowledgment that nothing waits for makes a session diverge; completing a resync is refused
then, and the session is as diverged as before. -/
theorem completeResync_while_diverged :
    ¬ ∀ (document : Document) (config : SessionConfig) (version : Word)
      (activities : List Activity) (history : Except HistoryError (List CommittedOperation)),
      document.Arises → (∀ activity ∈ activities, activity.Ordered) →
      let reached := (start config document version).actAll activities
      reached.state ≠ .unrecoverable →
        (reached.perform (.completeResync history)).1.state ≠ .diverged := by
  intro never
  have ordered : (DataValue.array ⟨"list"⟩ []).Ordered := .leaf rfl
  refine never _ (.named "client") .zero [.call (.acknowledge ⟨.zero, .zero, default⟩)] (.ok [])
    (.new ordered rfl) (List.forall_mem_singleton.mpr trivial) ?_ rfl
  exact nofun

/-- One operation is queued when one of another session arrives too early. -/
theorem contains_actAll_early_arrival :
    ∃ document : Document, document.Arises ∧
      let insertion (id : String) : Operation :=
        .single (.on ⟨"list"⟩ (.array (.insert .zero (.null ⟨id⟩))))
      let reached := (start (.named "client") document .zero).actAll
        [.call (.submit default (insertion "own"))]
      let arrival := Call.receive ⟨"server", ⟨1, by decide⟩, default, insertion "other"⟩
      reached.state = .pendingAck ∧
        (reached.perform arrival).1.state = .diverged ∧
        (reached.perform arrival).1.document.snapshot = reached.document.snapshot ∧
        (reached.perform arrival).1.pending = reached.pending := by
  have listOrdered : (DataValue.array ⟨"list"⟩ []).Ordered := .leaf rfl
  have arises := Document.Arises.new listOrdered rfl
  have insertionOrdered : Operation.Ordered
      (.single (.on ⟨"list"⟩ (.array (.insert .zero (.null ⟨"own"⟩))))) := by
    simpa [Operation.Ordered, Operation.edits, Edit.on, Change.Ordered, Change.createdValues,
      ArrayEdit.values] using .leaf rfl
  have ordered : ∀ activity ∈ [Activity.call (.submit default
      (.single (.on ⟨"list"⟩ (.array (.insert .zero (.null ⟨"own"⟩))))))], activity.Ordered :=
    List.forall_mem_singleton.mpr insertionOrdered
  have queued : SyncState.pendingAck ≠ .unrecoverable := by decide
  have contained := (contains_actAll arises (.named "client") .zero ordered).1 queued
    (.receive ⟨"server", ⟨1, by decide⟩, default,
      .single (.on ⟨"list"⟩ (.array (.insert .zero (.null ⟨"other"⟩))))⟩)
    (.versionMismatch .zero ⟨1, by decide⟩) rfl id
  have spared := contained.spares fun _ same => by cases same
  exact ⟨_, arises, rfl, contained.resync rfl, spared.1, spared.2.2.2 id⟩

end Replica

end SharedDocument
