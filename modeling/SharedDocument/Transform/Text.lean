import SharedDocument.Transform.Outcome

/-! Concurrent edits of one text. Insertions at one position put the server's text first, and an
insertion inside a removed stretch is removed with it. -/

namespace SharedDocument.TextEdit

open Outcome

def insertInsert (serverIndex : Word) (serverValue : String) (clientIndex : Word)
    (clientValue : String) : Outcome TextEdit :=
  if serverIndex.val ≤ clientIndex.val then
    keepBoth (.insert serverIndex serverValue)
      (.insert (clientIndex.plus serverValue.length) clientValue)
  else
    keepBoth (.insert (serverIndex.plus clientValue.length) serverValue)
      (.insert clientIndex clientValue)

def insertRemove (serverIndex : Word) (serverValue : String) (clientIndex clientLength : Word) :
    Except Overflow (Outcome TextEdit) :=
  let removeEnd := clientIndex.plus clientLength.val
  if serverIndex.val ≤ clientIndex.val then
    .ok (keepBoth (.insert serverIndex serverValue)
      (.remove (clientIndex.plus serverValue.length) clientLength))
  else if removeEnd.val ≤ serverIndex.val then do
    let shifted ← serverIndex.minus? clientLength.val
    return keepBoth (.insert shifted serverValue) (.remove clientIndex clientLength)
  else
    .ok (keepClient (.insert serverIndex serverValue)
      (.remove clientIndex (clientLength.plus serverValue.length)))

def shrunk (index length : Word) : Adapted TextEdit :=
  if length.val = 0 then .drop (.remove index length) else .keep (.remove index length)

def removeRemove (serverIndex serverLength clientIndex clientLength : Word) :
    Except Overflow (Outcome TextEdit) := do
  let serverEnd := serverIndex.plus serverLength.val
  let clientEnd := clientIndex.plus clientLength.val
  let overlap := min serverEnd.val clientEnd.val - max serverIndex.val clientIndex.val
  let clientBefore := min clientEnd.val serverIndex.val - clientIndex.val
  let serverBefore := min serverEnd.val clientIndex.val - serverIndex.val
  let newServerIndex ← serverIndex.minus? clientBefore
  let newServerLength ← serverLength.minus? overlap
  let newClientIndex ← clientIndex.minus? serverBefore
  let newClientLength ← clientLength.minus? overlap
  return ⟨shrunk newServerIndex newServerLength, shrunk newClientIndex newClientLength⟩

def transform (server client : TextEdit) : Except Overflow (Outcome TextEdit) :=
  match server, client with
  | .insert serverIndex serverValue, .insert clientIndex clientValue =>
      .ok (insertInsert serverIndex serverValue clientIndex clientValue)
  | .insert serverIndex serverValue, .remove clientIndex clientLength =>
      insertRemove serverIndex serverValue clientIndex clientLength
  | .remove serverIndex serverLength, .insert clientIndex clientValue =>
      (insertRemove clientIndex clientValue serverIndex serverLength).map Transformed.swap
  | .remove serverIndex serverLength, .remove clientIndex clientLength =>
      removeRemove serverIndex serverLength clientIndex clientLength

end SharedDocument.TextEdit
