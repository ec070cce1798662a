import SharedDocument.Session.Error
import SharedDocument.Session.Message

/-! The network as a session sees it: something with a state of its own, to which operations are
handed and which is asked for history. -/

namespace SharedDocument

structure Transport (σ : Type) where
  send : σ → QueuedOperation → σ × Except String Unit
  history : σ → HistoryRequest → σ × Except HistoryError (List CommittedOperation)

/-- A network that follows a script. A limit on the sends that succeed, an error in place of the
history, and whether the history is given without regard to the request; it also records what it
was handed and asked. -/
structure ScriptedNetwork where
  sendsLeft : Option Nat
  history : List CommittedOperation
  historyError : Option String
  isRaw : Bool
  sent : List QueuedOperation
  requests : List HistoryRequest

namespace ScriptedNetwork

def initial : ScriptedNetwork :=
  ⟨none, [], none, false, [], []⟩

def send (network : ScriptedNetwork) (queued : QueuedOperation) :
    ScriptedNetwork × Except String Unit :=
  match network.sendsLeft with
  | some 0 => (network, .error "offline")
  | some (left + 1) =>
      ({ network with sendsLeft := some left, sent := network.sent ++ [queued] }, .ok ())
  | none => ({ network with sent := network.sent ++ [queued] }, .ok ())

def answer (network : ScriptedNetwork) (request : HistoryRequest) :
    Except HistoryError (List CommittedOperation) :=
  match network.historyError with
  | some reason => .error (.transport reason)
  | none =>
      if network.isRaw then .ok network.history
      else
        let events := network.history.filter fun event => request.covers event.version
        if events.length + request.first.val = request.last.val + 1 then .ok events
        else .error (.unavailable request.first request.last)

def recordRequest (network : ScriptedNetwork) (request : HistoryRequest) : ScriptedNetwork :=
  { network with requests := network.requests ++ [request] }

def transport : Transport ScriptedNetwork where
  send := send
  history network request := (network.recordRequest request, network.answer request)

def clearRecords (network : ScriptedNetwork) : ScriptedNetwork :=
  { network with sent := [], requests := [] }

end ScriptedNetwork

end SharedDocument
