import SharedDocument.Word

/-! Positions under edits. A position in a text or an array follows an insertion, a removal or a
move of one element; a position inside a removed stretch falls to its start. -/

namespace SharedDocument

inductive MoveDirection where
  | forward
  | backward
  | identity
deriving DecidableEq, Repr

def MoveDirection.between (source target : Nat) : MoveDirection :=
  if source < target then .forward
  else if target < source then .backward
  else .identity

inductive RangeRelation where
  | before
  | start
  | within
  | finish
  | after
deriving DecidableEq, Repr

/-- In a range of one point that point is the start. -/
def RangeRelation.of (least greatest position : Nat) : RangeRelation :=
  if position < least then .before
  else if position = least then .start
  else if position < greatest then .within
  else if position = greatest then .finish
  else .after

namespace Position

def afterInsert (start : Word) (length : Nat) (position : Word) : Word :=
  if start.val ≤ position.val then position.plus length else position

def afterRemove (start : Word) (length : Nat) (position : Word) : Word :=
  if (start.plus length).val ≤ position.val then position.minus length
  else if start.val ≤ position.val then start
  else position

def afterMove (source target position : Word) : Word :=
  if position = source then target
  else
    let relation :=
      RangeRelation.of (min source.val target.val) (max source.val target.val) position.val
    match MoveDirection.between source.val target.val, relation with
    | .identity, _ => position
    | _, .before => position
    | _, .after => position
    | .forward, _ => position.minus 1
    | .backward, _ => position.plus 1

end Position

structure IndexRange where
  start : Word
  finish : Word
deriving DecidableEq, Repr

def IndexRange.map (follow : Word → Word) (range : IndexRange) : IndexRange :=
  ⟨follow range.start, follow range.finish⟩

end SharedDocument
