import SharedDocument.Path
import SharedDocument.Text.Quoted
import SharedDocument.Value

/-! Why a document refuses an operation or a question. -/

namespace SharedDocument

inductive DocumentError where
  | nodeNotFound (id : NodeId)
  | pathNotFound (path : Path)
  | detached (id : NodeId)
  | indexOutOfBounds (id : NodeId) (index length : Nat)
  | rangeOutOfBounds (id : NodeId) (index count length : Nat)
  | propertyNotFound (id : NodeId) (key : String)
  | propertyExists (id : NodeId) (key : String)
  | typeMismatch (id : NodeId) (expected found : NodeKind)
  | duplicateNodeId (id : NodeId)
  | referenceExists (sessionId key : String)
  | closed
deriving DecidableEq, Repr

def DocumentError.message : DocumentError → String
  | .nodeNotFound id => "Node not found: " ++ id.text
  | .pathNotFound path => "No node at path " ++ Path.text path
  | .detached id => "Node " ++ id.text ++ " is detached"
  | .indexOutOfBounds id index length =>
      "Index " ++ toString index ++ " out of bounds for node " ++ id.text ++ " of length " ++
        toString length
  | .rangeOutOfBounds id index count length =>
      "Range of " ++ toString count ++ " at " ++ toString index ++ " out of bounds for node " ++
        id.text ++ " of length " ++ toString length
  | .propertyNotFound id key => "Property " ++ Text.quoted key ++ " not found on node " ++ id.text
  | .propertyExists id key =>
      "Property " ++ Text.quoted key ++ " already exists on node " ++ id.text
  | .typeMismatch id expected found =>
      "Node " ++ id.text ++ " is a " ++ found.name ++ ", expected " ++ expected.name
  | .duplicateNodeId id => "Node id " ++ id.text ++ " is already in use"
  | .referenceExists sessionId key =>
      "Reference " ++ Text.quoted key ++ " of session " ++ sessionId ++ " already exists"
  | .closed => "Document tree is detached"

end SharedDocument
