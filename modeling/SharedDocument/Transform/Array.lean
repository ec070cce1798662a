import SharedDocument.Position
import SharedDocument.Transform.Outcome

/-! Concurrent edits of one array. Moves are computed in gaps: each inserted or moved element is
described by the gap that it fills in the array without the elements displaced concurrently. Both
sides agree on the final order of those elements, and the new positions are read from that order.
Ties do not depend on the direction of a move: an inserted element stays on its side of the moved
one, and of two moved elements the server's comes first. -/

namespace SharedDocument.ArrayEdit

open Outcome

def insertInsert (serverIndex : Word) (serverValue : DataValue) (clientIndex : Word)
    (clientValue : DataValue) : Except Overflow (Outcome ArrayEdit) :=
  if serverIndex.val ≤ clientIndex.val then do
    let shifted ← clientIndex.plus? 1
    return keepBoth (.insert serverIndex serverValue) (.insert shifted clientValue)
  else do
    let shifted ← serverIndex.plus? 1
    return keepBoth (.insert shifted serverValue) (.insert clientIndex clientValue)

def insertRemove (serverIndex : Word) (serverValue : DataValue) (clientIndex : Word) :
    Except Overflow (Outcome ArrayEdit) :=
  if serverIndex.val ≤ clientIndex.val then do
    let shifted ← clientIndex.plus? 1
    return keepBoth (.insert serverIndex serverValue) (.remove shifted)
  else do
    let shifted ← serverIndex.minus? 1
    return keepBoth (.insert shifted serverValue) (.remove clientIndex)

def insertReplace (serverIndex : Word) (serverValue : DataValue) (clientIndex : Word)
    (clientValue : DataValue) : Except Overflow (Outcome ArrayEdit) :=
  if serverIndex.val ≤ clientIndex.val then do
    let shifted ← clientIndex.plus? 1
    return keepBoth (.insert serverIndex serverValue) (.replace shifted clientValue)
  else
    .ok (keepBoth (.insert serverIndex serverValue) (.replace clientIndex clientValue))

def insertMove (serverIndex : Word) (serverValue : DataValue) (source target : Word) :
    Except Overflow (Outcome ArrayEdit) := do
  let beforeMoved : Bool := serverIndex.val ≤ source.val
  let gap ← serverIndex.minusIf? !beforeMoved
  let insertedFirst : Bool := if gap ≠ target then gap.val < target.val else beforeMoved
  let newSource ← source.plusIf? beforeMoved
  if insertedFirst then
    let newTarget ← target.plus? 1
    return keepBoth (.insert gap serverValue) (.move newSource newTarget)
  else
    let newIndex ← gap.plus? 1
    return keepBoth (.insert newIndex serverValue) (.move newSource target)

def removeRemove (serverIndex clientIndex : Word) : Except Overflow (Outcome ArrayEdit) :=
  if serverIndex = clientIndex then .ok (dropBoth (.remove serverIndex) (.remove clientIndex))
  else if serverIndex.val < clientIndex.val then do
    let shifted ← clientIndex.minus? 1
    return keepBoth (.remove serverIndex) (.remove shifted)
  else do
    let shifted ← serverIndex.minus? 1
    return keepBoth (.remove shifted) (.remove clientIndex)

/-- The new value of a removed element is kept as an element of its own. -/
def removeReplace (serverIndex clientIndex : Word) (clientValue : DataValue) :
    Except Overflow (Outcome ArrayEdit) :=
  if serverIndex = clientIndex then
    .ok (keepClient (.remove serverIndex) (.insert clientIndex clientValue))
  else if serverIndex.val < clientIndex.val then do
    let shifted ← clientIndex.minus? 1
    return keepBoth (.remove serverIndex) (.replace shifted clientValue)
  else
    .ok (keepBoth (.remove serverIndex) (.replace clientIndex clientValue))

/-- A removal follows the moved element; the move then has nothing to do. -/
def removeMove (serverIndex source target : Word) : Except Overflow (Outcome ArrayEdit) :=
  if serverIndex = source then .ok (keepServer (.remove target) (.move source target))
  else do
    let gap ← serverIndex.minusIf? (source.val ≤ serverIndex.val)
    let newSource ← source.minusIf? (serverIndex.val < source.val)
    let newTarget ← target.minusIf? (gap.val < target.val)
    let newIndex ← gap.plusIf? (target.val ≤ gap.val)
    return keepBoth (.remove newIndex) (.move newSource newTarget)

def replaceReplace (serverIndex : Word) (serverValue : DataValue) (clientIndex : Word)
    (clientValue : DataValue) : Outcome ArrayEdit :=
  if serverIndex = clientIndex then
    writeConflict (serverValue == clientValue) (.replace serverIndex serverValue)
      (.replace clientIndex clientValue)
  else keepBoth (.replace serverIndex serverValue) (.replace clientIndex clientValue)

def replaceMove (serverIndex : Word) (serverValue : DataValue) (source target : Word) :
    Outcome ArrayEdit :=
  keepBoth (.replace (Position.afterMove source target serverIndex) serverValue)
    (.move source target)

/-- Of two moves of one element the server's destination counts. -/
def moveMove (serverSource serverTarget clientSource clientTarget : Word) :
    Except Overflow (Outcome ArrayEdit) :=
  if serverSource = clientSource then
    if serverTarget = clientTarget then
      .ok (dropBoth (.move serverSource serverTarget) (.move clientSource clientTarget))
    else
      .ok (keepServer (.move clientTarget serverTarget) (.move clientSource clientTarget))
  else do
    let clientAlone ← clientSource.minusIf? (serverSource.val < clientSource.val)
    let serverAlone ← serverSource.minusIf? (clientSource.val < serverSource.val)
    let serverGap ← serverTarget.minusIf? (clientAlone.val < serverTarget.val)
    let clientGap ← clientTarget.minusIf? (serverAlone.val < clientTarget.val)
    let serverFirst : Bool := serverGap.val ≤ clientGap.val
    let newServerTarget ← serverGap.plusIf? !serverFirst
    let newClientTarget ← clientGap.plusIf? serverFirst
    let newClientSource ← clientAlone.plusIf? (serverTarget.val ≤ clientAlone.val)
    let newServerSource ← serverAlone.plusIf? (clientTarget.val ≤ serverAlone.val)
    return keepBoth (.move newServerSource newServerTarget) (.move newClientSource newClientTarget)

def transform (server client : ArrayEdit) : Except Overflow (Outcome ArrayEdit) :=
  match server, client with
  | .insert serverIndex serverValue, .insert clientIndex clientValue =>
      insertInsert serverIndex serverValue clientIndex clientValue
  | .insert serverIndex serverValue, .remove clientIndex =>
      insertRemove serverIndex serverValue clientIndex
  | .insert serverIndex serverValue, .replace clientIndex clientValue =>
      insertReplace serverIndex serverValue clientIndex clientValue
  | .insert serverIndex serverValue, .move clientSource clientTarget =>
      insertMove serverIndex serverValue clientSource clientTarget
  | .remove serverIndex, .insert clientIndex clientValue =>
      (insertRemove clientIndex clientValue serverIndex).map Transformed.swap
  | .remove serverIndex, .remove clientIndex => removeRemove serverIndex clientIndex
  | .remove serverIndex, .replace clientIndex clientValue =>
      removeReplace serverIndex clientIndex clientValue
  | .remove serverIndex, .move clientSource clientTarget =>
      removeMove serverIndex clientSource clientTarget
  | .replace serverIndex serverValue, .insert clientIndex clientValue =>
      (insertReplace clientIndex clientValue serverIndex serverValue).map Transformed.swap
  | .replace serverIndex serverValue, .remove clientIndex =>
      (removeReplace clientIndex serverIndex serverValue).map Transformed.swap
  | .replace serverIndex serverValue, .replace clientIndex clientValue =>
      .ok (replaceReplace serverIndex serverValue clientIndex clientValue)
  | .replace serverIndex serverValue, .move clientSource clientTarget =>
      .ok (replaceMove serverIndex serverValue clientSource clientTarget)
  | .move serverSource serverTarget, .insert clientIndex clientValue =>
      (insertMove clientIndex clientValue serverSource serverTarget).map Transformed.swap
  | .move serverSource serverTarget, .remove clientIndex =>
      (removeMove clientIndex serverSource serverTarget).map Transformed.swap
  | .move serverSource serverTarget, .replace clientIndex clientValue =>
      .ok (replaceMove clientIndex clientValue serverSource serverTarget).swap
  | .move serverSource serverTarget, .move clientSource clientTarget =>
      moveMove serverSource serverTarget clientSource clientTarget

end SharedDocument.ArrayEdit
