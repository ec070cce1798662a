import SharedDocument.Proofs.Merge.Node

/-! Who wins where two clients write one place. Setting a whole node wins over every other change of it,
and of two such sets the server's stays. Members of an object are decided key by key: the server's
value, else the client's value, and a removal only where neither writes. -/

namespace SharedDocument

namespace PropertyEdit

def writes? (key : String) (edit : PropertyEdit) : Option DataValue :=
  if key = edit.key then edit.written else none

def removes (key : String) (edit : PropertyEdit) : Bool :=
  key = edit.key && edit.written.isNone

def winner? (server client : PropertyEdit) (children : List (String × DataValue)) (key : String) :
    Option DataValue :=
  match server.writes? key, client.writes? key with
  | some value, _ => some value
  | none, some value => some value
  | none, none =>
      if server.removes key || client.removes key then none else Keyed.find? key children

variable {children : List (String × DataValue)} {server client : PropertyEdit} {key : String}

theorem winner?_elsewhere (notServer : key ≠ server.key) (notClient : key ≠ client.key) :
    server.winner? client children key = Keyed.find? key children := by
  simp [winner?, writes?, removes, notServer, notClient]

theorem winner?_at_server (here : key = server.key) (notClient : key ≠ client.key) :
    server.winner? client children key = server.written := by
  unfold winner? writes? removes
  rw [if_pos here, if_neg notClient]
  cases server.written <;> simp [here]

theorem winner?_at_client (notServer : key ≠ server.key) (here : key = client.key) :
    server.winner? client children key = client.written := by
  unfold winner? writes? removes
  rw [if_neg notServer, if_pos here]
  cases client.written <;> simp [here]

theorem winner?_at_both (atServer : key = server.key) (atClient : key = client.key) :
    server.winner? client children key = server.written.or client.written := by
  unfold winner? writes? removes
  rw [if_pos atServer, if_pos atClient]
  cases server.written <;> cases client.written <;> simp [atServer]

theorem find?_apart (different : server.key ≠ client.key) (key : String) :
    Keyed.find? key (client.applyTo (server.applyTo children)) =
      server.winner? client children key := by
  rw [find?_applyTo, find?_applyTo]
  split
  · rename_i atClient
    have notServer : key ≠ server.key := fun atServer => different (atServer.symm.trans atClient)
    exact (winner?_at_client notServer atClient).symm
  · rename_i notClient
    split
    · rename_i atServer
      exact (winner?_at_server atServer notClient).symm
    · rename_i notServer
      exact (winner?_elsewhere notServer notClient).symm

/-- One edit decides the key of both if it leaves there what the two write together. -/
theorem find?_together (together : server.key = client.key) {edit : PropertyEdit}
    (same : edit.key = server.key) (decides : edit.written = server.written.or client.written)
    (key : String) :
    Keyed.find? key (edit.applyTo children) = server.winner? client children key := by
  rw [find?_applyTo, same, decides]
  split
  · rename_i here
    exact (winner?_at_both here (here.trans together)).symm
  · rename_i elsewhere
    exact (winner?_elsewhere elsewhere (together ▸ elsewhere)).symm

/-- Of two edits of one key only one has something left to do after the other. -/
theorem transform_decides (serverFits : server.Fits children) (clientFits : client.Fits children)
    (together : server.key = client.key) :
    ((server.transform client).client.isNoOp = true ∧
        server.written = server.written.or client.written) ∨
      ((server.transform client).server.isNoOp = true ∧
        client.written = server.written.or client.written) := by
  unfold transform
  rw [if_pos together]
  cases server with
  | add serverKey added =>
      refine Or.inl ⟨?_, rfl⟩
      cases client with
      | remove key => rfl
      | _ =>
          dsimp only [addWrite]
          split <;> rfl
  | set serverKey value =>
      refine Or.inl ⟨?_, rfl⟩
      cases client with
      | add clientKey added =>
          obtain rfl : serverKey = clientKey := together
          exact absurd clientFits serverFits
      | set clientKey written =>
          dsimp only [Outcome.writeConflict]
          split <;> rfl
      | remove key => rfl
  | remove serverKey =>
      cases client with
      | remove key => exact Or.inl ⟨rfl, rfl⟩
      | _ => exact Or.inr ⟨rfl, rfl⟩

theorem find?_run (serverFits : server.Fits children) (clientFits : client.Fits children)
    (meets : Meets children server client (server.transform client)) (key : String) :
    Keyed.find? key ((server.transform client).client.run (fun edit children => edit.applyTo children)
      (server.applyTo children)) = server.winner? client children key := by
  by_cases together : server.key = client.key
  · rcases transform_decides serverFits clientFits together with ⟨idle, decides⟩ | ⟨idle, decides⟩
    · rw [Adapted.run, if_pos idle]
      exact find?_together together rfl decides key
    · rw [meets.same, Adapted.run, if_pos idle]
      exact find?_together together together.symm decides key
  · have both : server.transform client = .keepBoth server client := by
      unfold transform
      exact if_neg together
    rw [both]
    exact find?_apart together key

theorem increasing_run (increasing : Keyed.Increasing children) (edit : PropertyEdit)
    (left : Adapted PropertyEdit) :
    Keyed.Increasing (left.run (fun edit children => edit.applyTo children)
      (edit.applyTo children)) := by
  unfold Adapted.run
  split
  · exact edit.increasing_applyTo increasing
  · exact left.change.increasing_applyTo (edit.increasing_applyTo increasing)

end PropertyEdit

def Contents.node (id : NodeId) : Contents → DataValue
  | .string written => .string id written
  | .array children => .array id children
  | .object children => .object id children
  | .number written => .number id written
  | .boolean written => .boolean id written
  | .date written => .date id written

theorem Contents.applyTo_eq_node {contents : Contents} {value : DataValue}
    (fits : contents.setKind.nodeKind = value.kind) :
    contents.applyTo value = contents.node value.id := by
  cases contents <;> cases value <;>
    simp_all [applyTo, node, setKind, OperationKind.nodeKind, DataValue.kind, DataValue.id]

namespace Change

def contents? : Change → Option Contents
  | .set contents => some contents
  | _ => none

variable {server client : Change} {contents : Contents} {value : DataValue}

theorem eq_set_of_contents? (isSet : server.contents? = some contents) : server = .set contents := by
  cases server <;> simp_all [contents?]

theorem Fits.eq_property {id : NodeId} {children : List (String × DataValue)}
    (fits : client.Fits (.object id children)) (plain : client.contents? = none) :
    ∃ edit, client = .property edit := by
  cases client with
  | set contents => cases plain
  | property edit => exact ⟨edit, rfl⟩
  | _ => exact fits.elim

theorem transform_set (kinds : (Change.set contents).kind.nodeKind = client.kind.nodeKind)
    (apart : Apart (.set contents) client) (notNumeric : ¬ IsNumeric (.set contents))
    (fits : Change.Fits (.set contents) value) :
    ∃ outcome, (Change.set contents).transform client = .ok (some outcome) ∧
      outcome.client.isNoOp = true ∧ Meets value (.set contents) client outcome := by
  unfold transform
  rw [if_pos kinds]
  cases client with
  | set right =>
      refine ⟨_, rfl, ?_, setSet_meets fits apart notNumeric⟩
      unfold Outcome.writeConflict
      split <;> rfl
  | _ => exact ⟨_, rfl, rfl, set_meets fits⟩

theorem transform_to_set (kinds : server.kind.nodeKind = (Change.set contents).kind.nodeKind)
    (plain : server.contents? = none) :
    server.transform (.set contents) = .ok (some (.keepClient server (.set contents))) := by
  unfold transform
  rw [if_pos kinds]
  cases server with
  | set left => cases plain
  | _ => rfl

end Change

namespace Document

variable {document : Document} {id : NodeId} {inner : DataValue} {server client : Change}

theorem mergesTo_set (reachable : document.Reachable) (isOpen : document.isClosed = false)
    (stored : document.dataValue id = .ok inner) (rivals : document.Rivals id server client)
    (notNumber : inner.kind ≠ .number) {contents : Contents}
    (wins : server.contents?.or client.contents? = some contents) :
    document.MergesTo id server client (contents.node id) := by
  obtain ⟨-, serverSuits, clientSuits⟩ := rivals.suits reachable isOpen stored
  obtain ⟨sameId, -⟩ := rivals.exists_place reachable isOpen stored
  have kinds := serverSuits.fits.kind.symm.trans clientSuits.fits.kind
  cases isSet : server.contents? with
  | some written =>
      obtain rfl : written = contents := by
        rwa [isSet, Option.some_or, Option.some_inj] at wins
      obtain rfl := Change.eq_set_of_contents? isSet
      obtain ⟨outcome, transformed, idle, meets⟩ := Change.transform_set kinds rivals.apart
        (fun numeric => notNumber (serverSuits.fits.kind.trans numeric)) serverSuits.fits
      have merges := rivals.mergesTo reachable isOpen stored notNumber transformed meets
      rw [Adapted.run, if_pos idle, Change.applyTo, Contents.applyTo_eq_node serverSuits.fits,
        sameId] at merges
      exact merges
  | none =>
      obtain rfl := Change.eq_set_of_contents? (by rwa [isSet, Option.none_or] at wins)
      have fits : contents.setKind.nodeKind = (server.applyTo inner).kind :=
        clientSuits.fits.trans (Change.kind_applyTo server inner).symm
      have merges := rivals.mergesTo reachable isOpen stored notNumber
        (Change.transform_to_set kinds isSet) (Change.set_meets clientSuits.fits).swap
      rw [Outcome.keepClient, Adapted.run_keep, Change.applyTo, Contents.applyTo_eq_node fits,
        Change.id_applyTo, sameId] at merges
      exact merges

theorem mergesTo_properties (reachable : document.Reachable) (isOpen : document.isClosed = false)
    {children : List (String × DataValue)} {left right : PropertyEdit}
    (stored : document.dataValue id = .ok (.object id children))
    (rivals : document.Rivals id (.property left) (.property right)) :
    ∃ merged, document.MergesTo id (.property left) (.property right) (.object id merged) ∧
      Keyed.Increasing merged ∧
      ∀ key, Keyed.find? key merged = left.winner? right children key := by
  obtain ⟨proper, serverSuits, clientSuits⟩ := rivals.suits reachable isOpen stored
  have increasing := proper.ordered.keysIncrease
  have meets := PropertyEdit.transform_meets increasing serverSuits.fits clientSuits.fits
    rivals.apart.unequal
  refine ⟨_, rivals.mergesTo_lift Change.property (DataValue.object id) reachable isOpen stored
    (by simp [DataValue.kind]) (Change.transform_property left right) meets (fun _ _ fits => fits)
    fun _ _ => rfl, ?_, ?_⟩
  · exact PropertyEdit.increasing_run increasing left _
  · exact PropertyEdit.find?_run serverSuits.fits clientSuits.fits meets

/-- A set node keeps what it is set to, the server's before the client's. An object that neither side
sets is decided key by key. -/
theorem mergesTo_winner (reachable : document.Reachable) (isOpen : document.isClosed = false)
    (stored : document.dataValue id = .ok inner) (rivals : document.Rivals id server client)
    (notNumber : inner.kind ≠ .number) :
    (∀ contents, server.contents?.or client.contents? = some contents →
      document.MergesTo id server client (contents.node id)) ∧
    (∀ children, inner = .object id children → server.contents? = none → client.contents? = none →
      ∃ left right merged, server = .property left ∧ client = .property right ∧
        document.MergesTo id server client (.object id merged) ∧ Keyed.Increasing merged ∧
        ∀ key, Keyed.find? key merged = left.winner? right children key) := by
  refine ⟨fun contents wins => mergesTo_set reachable isOpen stored rivals notNumber wins, ?_⟩
  rintro children rfl serverPlain clientPlain
  obtain ⟨-, serverSuits, clientSuits⟩ := rivals.suits reachable isOpen stored
  obtain ⟨left, rfl⟩ := serverSuits.fits.eq_property serverPlain
  obtain ⟨right, rfl⟩ := clientSuits.fits.eq_property clientPlain
  obtain ⟨merged, merges, decided⟩ := mergesTo_properties reachable isOpen stored rivals
  exact ⟨left, right, merged, rfl, rfl, merges, decided⟩

/-- The server removes a member that the client sets, and the client's value stays. -/
theorem mergesTo_winner_of_removed :
    ∃ document : Document,
      document.dataValue ⟨"map"⟩ = .ok (.object ⟨"map"⟩ [("key", .null ⟨"old"⟩)]) ∧
      ∃ merged, document.MergesTo ⟨"map"⟩ (.property (.remove "key"))
          (.property (.set "key" (.null ⟨"new"⟩))) (.object ⟨"map"⟩ merged) ∧
        Keyed.find? "key" merged = some (.null ⟨"new"⟩) := by
  have ordered : (DataValue.object ⟨"map"⟩ [("key", .null ⟨"old"⟩)]).Ordered := by
    refine .intro (List.pairwise_singleton _ _) fun child listed => ?_
    rw [List.mem_singleton.mp listed]
    exact .leaf rfl
  have reachable : Reachable ⟨⟨"map"⟩, Arena.empty.attach none
      (.object ⟨"map"⟩ [("key", .null ⟨"old"⟩)]), .none, true, false⟩ :=
    ⟨_, _, [], ordered, rfl, by simp, rfl⟩
  have stored : dataValue ⟨⟨"map"⟩, Arena.empty.attach none
      (.object ⟨"map"⟩ [("key", .null ⟨"old"⟩)]), .none, true, false⟩ ⟨"map"⟩ =
        .ok (.object ⟨"map"⟩ [("key", .null ⟨"old"⟩)]) := rfl
  have serverOrdered : (Change.property (.remove "key")).Ordered :=
    ⟨fun _ listed => absurd listed List.not_mem_nil, trivial⟩
  have clientOrdered : (Change.property (.set "key" (.null ⟨"new"⟩))).Ordered := by
    simpa [Change.Ordered, Change.createdValues, PropertyEdit.values] using .leaf rfl
  obtain ⟨left, right, merged, isLeft, isRight, merges, -, decided⟩ :=
    (mergesTo_winner reachable rfl stored
      ⟨serverOrdered, clientOrdered, ⟨_, rfl⟩, ⟨_, rfl⟩,
        fun _ created => absurd created List.not_mem_nil⟩ (by decide)).2 _ rfl rfl rfl
  cases isLeft
  cases isRight
  exact ⟨_, stored, merged, merges, decided "key"⟩

end Document

end SharedDocument
