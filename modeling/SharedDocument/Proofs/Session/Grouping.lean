import SharedDocument.Proofs.Session.Rebase
import SharedDocument.Proofs.Transform.Nesting

/-! How operations are grouped does not matter to what becomes of them. A queue that a remote operation
meets entry by entry becomes what it would as one group. Only the first fault may be another one: entry
by entry the whole remote operation meets an entry before any of it meets the next, while against a
group the first edit of the remote operation meets all entries before the second does. -/

namespace SharedDocument

open Edit (transformAll)

namespace Edit

variable {ancestry : Ancestry} {server before : List Edit}

theorem transformAll_nil_client (server : List Edit) :
    transformAll ancestry server [] = .ok (server, []) := by
  induction server with
  | nil => rfl
  | cons first rest ih =>
      simp only [transformAll, against, bind, Except.bind, ih]
      rfl

/-- Client edits in two portions: the server edits meet the second as the first has left them. -/
theorem transformAll_client_append {reached : List Edit × List Edit}
    (succeeds : transformAll ancestry server before = .ok reached) (after : List Edit) :
    transformAll ancestry server (before ++ after) = do
      let last ← transformAll ancestry reached.1 after
      return (last.1, reached.2 ++ last.2) := by
  induction server generalizing before after reached with
  | nil =>
      cases succeeds
      rfl
  | cons first rest ih =>
      simp only [transformAll, Fallible.bind_eq_ok_iff, Fallible.pure_eq_ok_iff] at succeeds
      obtain ⟨row, rowFound, later, further, rfl⟩ := succeeds
      simp only [transformAll, Operation.against_append, rowFound, bind, Except.bind, pure,
        Except.pure]
      cases row.1.against ancestry after with
      | error fault => rfl
      | ok next =>
          simp only [ih further, bind, Except.bind, pure, Except.pure]
          cases transformAll ancestry later.1 next.2 <;> rfl

/-- A fault in the first portion of the client edits is one of the whole, though perhaps not the first
to be met. -/
theorem transformAll_client_append_error {fault : TransformError}
    (fails : transformAll ancestry server before = .error fault) (after : List Edit) :
    ∃ other, transformAll ancestry server (before ++ after) = .error other ∧
      (server.length ≤ 1 → other = fault) := by
  induction server generalizing before after with
  | nil => cases fails
  | cons first rest ih =>
      simp only [transformAll, Operation.against_append, bind, Except.bind, pure, Except.pure]
        at fails ⊢
      cases rowFound : first.against ancestry before with
      | error rowFault =>
          rw [rowFound] at fails
          cases fails
          exact ⟨fault, rfl, fun _ => rfl⟩
      | ok row =>
          simp only [rowFound] at fails ⊢
          cases laterFound : transformAll ancestry rest row.2 with
          | ok later =>
              rw [laterFound] at fails
              cases fails
          | error laterFault =>
              rw [laterFound] at fails
              cases fails
              -- a single server edit has met all of the first portion by now
              have more : ¬ (first :: rest).length ≤ 1 := by
                cases rest with
                | nil => cases laterFound
                | cons second others => simp
              cases row.1.against ancestry after with
              | error rowFault => exact ⟨rowFault, rfl, fun few => absurd few more⟩
              | ok next =>
                  obtain ⟨other, found, -⟩ := ih laterFound next.2
                  simp only [found]
                  exact ⟨other, rfl, fun few => absurd few more⟩

end Edit

namespace Operation

variable {ancestry : Ancestry}

inductive Alike : Except TransformError (Transformed Operation) →
    Except TransformError (Transformed Operation) → Prop
  | fail (fault : TransformError) : Alike (.error fault) (.error fault)
  | succeed {first second : Transformed Operation}
      (server : first.server.edits = second.server.edits)
      (client : first.client.edits = second.client.edits) : Alike (.ok first) (.ok second)

theorem alike_of_edits {server otherServer client otherClient : Operation}
    (servers : server.edits = otherServer.edits) (clients : client.edits = otherClient.edits) :
    Alike (server.transform ancestry client) (otherServer.transform ancestry otherClient) := by
  have first := @edits_transform ancestry server client
  have second := @edits_transform ancestry otherServer otherClient
  rw [servers, clients, ← second] at first
  cases found : server.transform ancestry client with
  | error fault =>
      rw [found] at first
      rw [Fallible.map_eq_error_iff.mp first.symm]
      exact .fail fault
  | ok pair =>
      rw [found] at first
      obtain ⟨other, otherFound, same⟩ := Fallible.map_eq_ok_iff.mp first.symm
      obtain ⟨serverEdits, clientEdits⟩ := Prod.mk.inj same
      rw [otherFound]
      exact .succeed serverEdits.symm clientEdits.symm

def ofQueue (queue : List QueuedOperation) : Operation :=
  .group (queue.map QueuedOperation.operation)

theorem groupEdits_eq_flatMap (elements : List Operation) :
    groupEdits elements = elements.flatMap edits := by
  induction elements with
  | nil => rfl
  | cons first rest ih => rw [groupEdits, ih, List.flatMap_cons]

theorem edits_ofQueue (queue : List QueuedOperation) : (ofQueue queue).edits = queuedEdits queue := by
  rw [ofQueue, edits, groupEdits_eq_flatMap, List.flatMap_map, queuedEdits]

end Operation

namespace Replica

variable {ancestry : Ancestry} {remote : Operation} {queue : List QueuedOperation}

/-- Nothing but the operations of the entries changes. -/
theorem entries_rebase {result : Operation × List QueuedOperation}
    (succeeds : rebase ancestry remote queue = .ok result) :
    List.Forall₂ (fun entry rebased => rebased = { entry with operation := rebased.operation })
      queue result.2 := by
  induction queue generalizing remote result with
  | nil =>
      cases succeeds
      exact .nil
  | cons entry rest ih =>
      obtain ⟨pair, further, -, rebased, rfl⟩ := rebase_cons_eq_ok succeeds
      exact .cons rfl (ih rebased)

theorem transformAll_of_rebase {result : Operation × List QueuedOperation}
    (succeeds : rebase ancestry remote queue = .ok result) :
    transformAll ancestry remote.edits (queuedEdits queue) =
      .ok (result.1.edits, queuedEdits result.2) := by
  induction queue generalizing remote result with
  | nil =>
      cases succeeds
      exact Edit.transformAll_nil_client _
  | cons entry rest ih =>
      obtain ⟨pair, further, transformed, rebased, rfl⟩ := rebase_cons_eq_ok succeeds
      have first := Operation.transform_eq_ok transformed
      rw [queuedEdits_cons, Edit.transformAll_client_append first, ih rebased]
      rfl

theorem nesting_rebase {result : Operation × List QueuedOperation}
    (succeeds : rebase ancestry remote queue = .ok result) :
    result.1.nesting = remote.nesting ∧
      (Operation.ofQueue result.2).nesting = (Operation.ofQueue queue).nesting := by
  induction queue generalizing remote result with
  | nil =>
      cases succeeds
      exact ⟨rfl, rfl⟩
  | cons entry rest ih =>
      obtain ⟨pair, further, transformed, rebased, rfl⟩ := rebase_cons_eq_ok succeeds
      obtain ⟨firstServer, firstClient⟩ := Operation.nesting_transform transformed
      obtain ⟨lastServer, others⟩ := ih rebased
      refine ⟨lastServer.trans firstServer, ?_⟩
      simp only [Operation.ofQueue, Operation.nesting, List.map_cons, Operation.nestings,
        Nesting.group.injEq] at others ⊢
      rw [firstClient, others]

theorem transform_ofQueue {result : Operation × List QueuedOperation}
    (succeeds : rebase ancestry remote queue = .ok result) :
    remote.transform ancestry (.ofQueue queue) = .ok ⟨result.1, .ofQueue result.2⟩ := by
  obtain ⟨server, client⟩ := nesting_rebase succeeds
  refine Operation.transform_eq_ok_iff.mpr ⟨?_, server, client⟩
  rw [Operation.edits_ofQueue, Operation.edits_ofQueue]
  exact transformAll_of_rebase succeeds

/-- The fault is met at the first entry at which there is one. -/
theorem exists_entry_of_rebase_error {fault : TransformError}
    (fails : rebase ancestry remote queue = .error fault) :
    ∃ before entry after, queue = before ++ entry :: after ∧
      (∃ result, rebase ancestry remote before = .ok result) ∧
      transformAll ancestry remote.edits (queuedEdits (before ++ [entry])) = .error fault := by
  induction queue generalizing remote with
  | nil => cases fails
  | cons entry rest ih =>
      rw [rebase] at fails
      split at fails
      · rename_i transformFails
        cases fails
        refine ⟨[], entry, rest, rfl, ⟨_, rfl⟩, ?_⟩
        rw [List.nil_append, queuedEdits_cons, queuedEdits_nil, List.append_nil]
        exact Operation.transform_eq_error transformFails
      · rename_i pair transformed
        obtain ⟨before, failing, after, rfl, ⟨result, reached⟩, found⟩ :=
          ih (Fallible.map_eq_error_iff.mp fails)
        refine ⟨entry :: before, failing, after, rfl, ?_, ?_⟩
        · rw [rebase, transformed]
          simp only [reached]
          exact ⟨_, rfl⟩
        · rw [List.cons_append, queuedEdits_cons,
            Edit.transformAll_client_append (Operation.transform_eq_ok transformed), found]
          rfl

theorem transform_ofQueue_error {fault : TransformError}
    (fails : rebase ancestry remote queue = .error fault) :
    ∃ before entry after other, queue = before ++ entry :: after ∧
      (∃ pair, remote.transform ancestry (.ofQueue before) = .ok pair) ∧
      remote.transform ancestry (.ofQueue (before ++ [entry])) = .error fault ∧
      remote.transform ancestry (.ofQueue queue) = .error other ∧
      (remote.edits.length ≤ 1 → other = fault) := by
  obtain ⟨before, entry, after, rfl, ⟨result, reached⟩, found⟩ := exists_entry_of_rebase_error fails
  obtain ⟨other, whole, same⟩ :=
    Edit.transformAll_client_append_error found (queuedEdits after)
  rw [← queuedEdits_append, List.append_assoc] at whole
  refine ⟨before, entry, after, other, rfl, ⟨_, transform_ofQueue reached⟩, ?_, ?_, same⟩
  · rw [Operation.transform_eq_error_iff, Operation.edits_ofQueue]
    exact found
  · rw [Operation.transform_eq_error_iff, Operation.edits_ofQueue]
    exact whole

/-- What becomes of two operations depends on their edits only, faults included, and each result is
grouped as its own operation. A remote operation that meets a queue entry by entry becomes what it
becomes against the queue as one group, and so do the entries. If it meets a fault, then so does the
group; the fault is that of the group up to the first entry at which there is one, which is that of the
whole group unless the remote operation has several edits. -/
theorem transform_regroups (ancestry : Ancestry) :
    (∀ server otherServer client otherClient : Operation, server.edits = otherServer.edits →
      client.edits = otherClient.edits →
        Operation.Alike (server.transform ancestry client)
          (otherServer.transform ancestry otherClient)) ∧
    (∀ server client pair, Operation.transform ancestry server client = .ok pair →
      pair.server.nesting = server.nesting ∧ pair.client.nesting = client.nesting) ∧
    (∀ remote queue left entries, rebase ancestry remote queue = .ok (left, entries) →
      remote.transform ancestry (.ofQueue queue) = .ok ⟨left, .ofQueue entries⟩ ∧
        List.Forall₂ (fun entry rebased => rebased = { entry with operation := rebased.operation })
          queue entries) ∧
    ∀ remote queue fault, rebase ancestry remote queue = .error fault →
      ∃ before entry after other, queue = before ++ entry :: after ∧
        (∃ pair, remote.transform ancestry (.ofQueue before) = .ok pair) ∧
        remote.transform ancestry (.ofQueue (before ++ [entry])) = .error fault ∧
        remote.transform ancestry (.ofQueue queue) = .error other ∧
        (remote.edits.length ≤ 1 → other = fault) :=
  ⟨fun _ _ _ _ => Operation.alike_of_edits, fun _ _ _ => Operation.nesting_transform,
    fun _ _ _ _ succeeds => ⟨transform_ofQueue succeeds, entries_rebase succeeds⟩,
    fun _ _ _ => transform_ofQueue_error⟩

/-- A boolean and a text are edited in a queue of two. An insertion into the text meets it well, and one
into the boolean does not. -/
theorem transform_regroups_two_entries :
    let raise : Operation := .single (.on ⟨"y"⟩ (.set (.boolean true)))
    let insertion (id : String) : Operation := .single (.on ⟨id⟩ (.text (.insert .zero "A")))
    let entry (seqNo : Word) (operation : Operation) : QueuedOperation :=
      ⟨"me", seqNo, .zero, default, operation⟩
    let queue := [entry .zero raise, entry ⟨1, by decide⟩ (insertion "x")]
    Operation.Alike ((Operation.group [.group [], raise]).transform .unrelated (.group [raise]))
        (raise.transform .unrelated raise) ∧
      (∃ pair, (insertion "x").transform .unrelated (.ofQueue queue) = .ok pair ∧
        pair.server.nesting = .single ∧ pair.client.nesting = .group [.single, .single]) ∧
      ∃ fault, (insertion "y").transform .unrelated (.ofQueue queue) = .error fault ∧
        rebase .unrelated (insertion "y") queue = .error fault := by
  intro raise insertion entry queue
  obtain ⟨regroups, nests, meets, fails⟩ := transform_regroups .unrelated
  refine ⟨regroups _ _ _ _ rfl rfl, ?_, ?_⟩
  · obtain ⟨met, -⟩ := meets (insertion "x") queue _ _ rfl
    exact ⟨_, met, nests _ _ _ met⟩
  · obtain ⟨_, _, _, other, -, -, -, whole, same⟩ := fails (insertion "y") queue _ rfl
    exact ⟨other, whole, congrArg Except.error (same (Nat.le_refl 1)).symm⟩

/-- A session has set a boolean and then edited a text when an operation arrives that takes each of the
two for the other. Entry by entry the boolean is the first to be met, as one group the text is. -/
theorem ofQueue_meets_other_fault :
    let value := DataValue.object ⟨"r"⟩ [("a", .string ⟨"x"⟩ "hi"), ("b", .boolean ⟨"y"⟩ false)]
    let document : Document := ⟨⟨"r"⟩, Arena.empty.attach none value, .none, true, false⟩
    let raise (id : String) : Operation := .single (.on ⟨id⟩ (.set (.boolean true)))
    let insertion (id : String) : Operation := .single (.on ⟨id⟩ (.text (.insert .zero "A")))
    let first := ((start (.named "me") document .zero).submit default (raise "y")).1
    let replica := (first.submit default (insertion "x")).1
    let remote : Operation := .group [raise "x", insertion "y"]
    replica.pending.map QueuedOperation.seqNo = [.zero, ⟨1, by decide⟩] ∧
      rebase replica.document.arena.isAncestor remote replica.pending =
        .error (.kindMismatch ⟨"y"⟩ .stringInsert .booleanSet) ∧
      remote.transform replica.document.arena.isAncestor (.ofQueue replica.pending) =
        .error (.kindMismatch ⟨"x"⟩ .booleanSet .stringInsert) := by
  exact ⟨rfl, rfl, rfl⟩

end Replica

end SharedDocument
