import SharedDocument.Transform.Outcome

/-! Concurrent edits of the properties of one object. Edits of different keys are independent. -/

namespace SharedDocument.PropertyEdit

open Outcome

/-- The other side already has the key, so the addition overwrites it. -/
def addWrite (key : String) (added written : DataValue) (other : PropertyEdit) :
    Outcome PropertyEdit :=
  if added == written then dropBoth (.add key added) other
  else keepServer (.set key added) other

/-- The key no longer exists once it has been removed, so the write creates it anew. -/
def setRemove (key : String) (value : DataValue) : Outcome PropertyEdit :=
  keepServer (.add key value) (.remove key)

def transform (server client : PropertyEdit) : Outcome PropertyEdit :=
  if server.key = client.key then
    match server, client with
    | .add key added, .add _ written => addWrite key added written client
    | .add key added, .set _ written => addWrite key added written client
    | .add _ _, .remove _ => keepServer server client
    | .set _ written, .add key added => (addWrite key added written server).swap
    | .set _ serverValue, .set _ clientValue =>
        writeConflict (serverValue == clientValue) server client
    | .set key value, .remove _ => setRemove key value
    | .remove _, .add _ _ => keepClient server client
    | .remove _, .set key value => (setRemove key value).swap
    | .remove _, .remove _ => dropBoth server client
  else keepBoth server client

end SharedDocument.PropertyEdit
