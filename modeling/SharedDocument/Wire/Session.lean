import SharedDocument.Session.Config
import SharedDocument.Session.Event
import SharedDocument.Session.Message
import SharedDocument.Wire.Operation

/-! The wire format of messages and settings. -/

namespace SharedDocument

namespace CommittedOperation

def encode (committed : CommittedOperation) : Json :=
  .object [("operation", committed.operation.encode), ("sessionId", .string committed.sessionId),
    ("timestamp", .string committed.timestamp.text), ("version", Wire.word committed.version)]

def decode? (json : Json) : Option CommittedOperation :=
  match Wire.fields? ["sessionId", "version", "timestamp", "operation"] json with
  | some [some sessionId, some version, some timestamp, some operation] => do
      return ⟨← Wire.text? sessionId, ← Wire.word? version, ← Wire.instant? timestamp,
        ← Operation.decode? operation⟩
  | _ => none

end CommittedOperation

namespace QueuedOperation

def encode (queued : QueuedOperation) : Json :=
  .object [("clientId", .string queued.clientId),
    ("contextVersion", Wire.word queued.contextVersion), ("operation", queued.operation.encode),
    ("seqNo", Wire.word queued.seqNo), ("timestamp", .string queued.timestamp.text)]

def decode? (json : Json) : Option QueuedOperation :=
  match Wire.fields? ["clientId", "seqNo", "contextVersion", "timestamp", "operation"] json with
  | some [some clientId, some seqNo, some contextVersion, some timestamp, some operation] => do
      return ⟨← Wire.text? clientId, ← Wire.word? seqNo, ← Wire.word? contextVersion,
        ← Wire.instant? timestamp, ← Operation.decode? operation⟩
  | _ => none

end QueuedOperation

namespace Acknowledgment

def encode (acknowledgment : Acknowledgment) : Json :=
  .object [("seqNo", Wire.word acknowledgment.seqNo),
    ("timestamp", .string acknowledgment.timestamp.text),
    ("version", Wire.word acknowledgment.version)]

def decode? (json : Json) : Option Acknowledgment :=
  match Wire.fields? ["seqNo", "version", "timestamp"] json with
  | some [some seqNo, some version, some timestamp] => do
      return ⟨← Wire.word? seqNo, ← Wire.word? version, ← Wire.instant? timestamp⟩
  | _ => none

end Acknowledgment

namespace HistoryRequest

def encode (request : HistoryRequest) : Json :=
  .object [("first", Wire.word request.first), ("last", Wire.word request.last)]

def decode? (json : Json) : Option HistoryRequest :=
  match Wire.fields? ["first", "last"] json with
  | some [some first, some last] => do return ⟨← Wire.word? first, ← Wire.word? last⟩
  | _ => none

end HistoryRequest

namespace SessionConfig

def fieldNames : List String :=
  ["sessionId", "emitLocalEvents", "maxPending", "maxResyncGap", "commandBuffer"]

def encode (config : SessionConfig) : Json :=
  .object [("commandBuffer", Wire.word config.commandBuffer),
    ("emitLocalEvents", .bool config.emitsLocalEvents), ("maxPending", Wire.word config.maxPending),
    ("maxResyncGap", Wire.word config.maxResyncGap), ("sessionId", .string config.sessionId)]

def override (config : SessionConfig) (name : String) (value : Json) : Option SessionConfig :=
  match name with
  | "sessionId" => (Wire.text? value).map fun read => { config with sessionId := read }
  | "emitLocalEvents" => (Wire.bool? value).map fun read => { config with emitsLocalEvents := read }
  | "maxPending" => (Wire.word? value).map fun read => { config with maxPending := read }
  | "maxResyncGap" => (Wire.word? value).map fun read => { config with maxResyncGap := read }
  | "commandBuffer" => (Wire.word? value).map fun read => { config with commandBuffer := read }
  | _ => some config

def ofMembers? (members : List (String × Json)) : Option SessionConfig :=
  members.foldlM (fun config entry => config.override entry.1 entry.2) defaults

/-- Fields that are missing keep their defaults; an array gives the first few in their order. -/
def decode? : Json → Option SessionConfig
  | .object members => ofMembers? members
  | .array items =>
      if items.length ≤ fieldNames.length then ofMembers? (fieldNames.zip items) else none
  | _ => none

end SessionConfig

def SyncState.encode (state : SyncState) : Json :=
  .string state.name

def SessionEvent.encode : SessionEvent → Json
  | .stateChanged previous next =>
      .object [("from", previous.encode), ("to", next.encode), ("type", .string "stateChanged")]
  | .remoteApplied sessionId version =>
      .object [("session_id", .string sessionId), ("type", .string "remoteApplied"),
        ("version", Wire.word version)]
  | .acknowledged seqNo version =>
      .object [("seq_no", Wire.word seqNo), ("type", .string "acknowledged"),
        ("version", Wire.word version)]
  | .resynced version =>
      .object [("type", .string "resynced"), ("version", Wire.word version)]
  | .resyncError message =>
      .object [("message", .string message), ("type", .string "resyncError")]

end SharedDocument
