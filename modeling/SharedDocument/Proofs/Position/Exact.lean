import SharedDocument.Position

/-! Following a move or a removal in exact arithmetic. An element that a move passes is shifted by one, and
there is always room for that, since the place that the moved element leaves or takes lies beyond it. A
position behind a removed stretch has the whole stretch before it, even where the end of that is
saturated. -/

namespace SharedDocument

theorem MoveDirection.between_eq_forward_iff {source target : Nat} :
    MoveDirection.between source target = .forward ↔ source < target := by
  unfold MoveDirection.between
  grind

theorem MoveDirection.between_eq_backward_iff {source target : Nat} :
    MoveDirection.between source target = .backward ↔ target < source := by
  unfold MoveDirection.between
  grind

theorem RangeRelation.inside {least greatest position : Nat} (ordered : least ≤ greatest)
    (notBefore : RangeRelation.of least greatest position ≠ .before)
    (notAfter : RangeRelation.of least greatest position ≠ .after) :
    least ≤ position ∧ position ≤ greatest := by
  unfold RangeRelation.of at notBefore notAfter
  grind

namespace Position

def afterMove? (source target position : Word) : Except Overflow Word :=
  if position = source then .ok target
  else
    let relation :=
      RangeRelation.of (min source.val target.val) (max source.val target.val) position.val
    match MoveDirection.between source.val target.val, relation with
    | .identity, _ => .ok position
    | _, .before => .ok position
    | _, .after => .ok position
    | .forward, _ => position.minus? 1
    | .backward, _ => position.plus? 1

theorem afterMove?_eq_ok (source target position : Word) :
    afterMove? source target position = .ok (afterMove source target position) := by
  have sourceBound := source.isLt
  unfold afterMove? afterMove
  by_cases here : position = source
  · rw [if_pos here, if_pos here]
  · have different : position.val ≠ source.val := fun same => here (Word.ext_val same)
    have passed := @RangeRelation.inside (min source.val target.val) (max source.val target.val)
      position.val (by omega)
    rw [if_neg here, if_neg here]
    cases direction : MoveDirection.between source.val target.val with
    | identity => rfl
    | forward =>
        have ahead := MoveDirection.between_eq_forward_iff.mp direction
        have down (inside : min source.val target.val ≤ position.val ∧
            position.val ≤ max source.val target.val) :
            position.minus? 1 = .ok (position.minus 1) :=
          (Word.minus?_eq_ok_iff _ _ _).mpr ⟨by omega, rfl⟩
        cases relation : RangeRelation.of (min source.val target.val) (max source.val target.val)
          position.val with
        | before => rfl
        | after => rfl
        | _ => exact down (passed (by simp [relation]) (by simp [relation]))
    | backward =>
        have behind := MoveDirection.between_eq_backward_iff.mp direction
        have up (inside : min source.val target.val ≤ position.val ∧
            position.val ≤ max source.val target.val) :
            position.plus? 1 = .ok (position.plus 1) := by
          rw [Word.plus?_eq_ok_iff, Word.val_plus]
          omega
        cases relation : RangeRelation.of (min source.val target.val) (max source.val target.val)
          position.val with
        | before => rfl
        | after => rfl
        | _ => exact up (passed (by simp [relation]) (by simp [relation]))

def afterRemove? (start : Word) (length : Nat) (position : Word) : Except Overflow Word :=
  if (start.plus length).val ≤ position.val then position.minus? length
  else if start.val ≤ position.val then .ok start
  else .ok position

theorem afterRemove?_eq_ok (start length position : Word) :
    afterRemove? start length.val position = .ok (afterRemove start length.val position) := by
  have lengthBound := length.isLt
  unfold afterRemove? afterRemove
  split
  · rename_i behind
    rw [Word.val_plus] at behind
    exact (Word.minus?_eq_ok_iff _ _ _).mpr ⟨by omega, rfl⟩
  · split <;> rfl

end Position

end SharedDocument
