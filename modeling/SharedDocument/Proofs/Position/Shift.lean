import Mathlib.Data.Set.Function
import SharedDocument.Proofs.Position
import SharedDocument.Proofs.Position.Exact

/-! The algebra of positions. A move permutes them as it permutes the elements of a list, and the move back
undoes it. A removal undoes the insertion of the same stretch as far as the words reach. None of the three
leaves the range of words. -/

namespace SharedDocument

inductive Shift where
  | insert (start length : Word)
  | remove (start length : Word)
  | move (source target : Word)
deriving DecidableEq, Repr

namespace Shift

def follow : Shift → Word → Word
  | .insert start length => Position.afterInsert start length.val
  | .remove start length => Position.afterRemove start length.val
  | .move source target => Position.afterMove source target

/-- As `follow`, where each addition and subtraction that does not saturate reports an overflow. -/
def follow? : Shift → Word → Except Overflow Word
  | .insert start length, position =>
      if start.val ≤ position.val then .ok (position.plus length.val) else .ok position
  | .remove start length, position => Position.afterRemove? start length.val position
  | .move source target, position => Position.afterMove? source target position

def followAll? (shift : Shift) (positions : List Word) : Except Overflow (List Word) :=
  positions.mapM shift.follow?

theorem follow?_eq_ok (shift : Shift) (position : Word) :
    shift.follow? position = .ok (shift.follow position) := by
  cases shift with
  | insert start length =>
      simp only [follow?, follow, Position.afterInsert]
      split <;> rfl
  | remove start length => exact Position.afterRemove?_eq_ok start length position
  | move source target => exact Position.afterMove?_eq_ok source target position

theorem followAll?_eq_ok (shift : Shift) (positions : List Word) :
    shift.followAll? positions = .ok (positions.map shift.follow) := by
  have exact : shift.follow? = fun position => pure (shift.follow position) :=
    funext shift.follow?_eq_ok
  rw [followAll?, exact]
  exact List.mapM_pure

/-! Moves. -/

section

variable (source target : Word)

/-- The element is at the target after the move and comes back to the source. Every other one is pulled and
pushed on its way, and what was pushed is never at the target, so that it is pulled and pushed back. -/
theorem move_undone :
    Function.LeftInverse (move target source).follow (move source target).follow := by
  intro position
  apply Word.ext_val
  rw [follow, follow, ArrayEdit.val_afterMove, ArrayEdit.val_afterMove]
  by_cases here : position.val = source.val
  · rw [if_pos here, if_pos rfl, here]
  · rw [if_neg here, if_neg (ArrayEdit.pushed_ne _ _), ArrayEdit.pulled_pushed,
      ArrayEdit.pushed_pulled here]

theorem move_bijective : Function.Bijective (move source target).follow :=
  Function.bijective_iff_has_inverse.mpr
    ⟨(move target source).follow, move_undone source target, move_undone target source⟩

theorem move_back (positions : List Word) :
    ((move source target).followAll? positions >>= (move target source).followAll?) =
      .ok positions := by
  refine Fallible.bind_eq_ok_iff.mpr ⟨_, followAll?_eq_ok _ positions, ?_⟩
  rw [followAll?_eq_ok, List.map_map, (move_undone source target).comp_eq_id, List.map_id]

variable {source target} {count : Nat} (sourceInside : source.val < count)
  (targetInside : target.val < count)

include sourceInside targetInside

theorem move_mapsTo : Set.MapsTo (move source target).follow
    {position | position.val < count} {position | position.val < count} := by
  intro position inside
  rw [Set.mem_ofPred_eq] at inside ⊢
  rw [follow, ArrayEdit.val_afterMove]
  split
  · exact targetInside
  · rename_i elsewhere
    have pulled := ArrayEdit.pulled_lt inside sourceInside (Ne.symm elsewhere)
    have pushed := @ArrayEdit.pushed_lt target.val _ _ pulled
    omega

theorem move_bijOn : Set.BijOn (move source target).follow
    {position | position.val < count} {position | position.val < count} :=
  Set.InvOn.bijOn
    ⟨fun position _ => move_undone source target position,
      fun position _ => move_undone target source position⟩
    (move_mapsTo sourceInside targetInside) (move_mapsTo targetInside sourceInside)

end

/-- A position that an insertion pushes to the last word does not come back, since the removal takes off
all of the length. -/
theorem remove_insert_iff {start length position : Word} :
    (remove start length).follow ((insert start length).follow position) = position ↔
      position.val < start.val ∨ position.val + length.val < 0x10000000000000000 := by
  have startBound := start.isLt
  have lengthBound := length.isLt
  have positionBound := position.isLt
  have same : (remove start length).follow ((insert start length).follow position) = position ↔
      ((remove start length).follow ((insert start length).follow position)).val = position.val :=
    ⟨congrArg Word.val, Word.ext_val⟩
  rw [same, follow, follow, Position.val_afterRemove, Position.val_afterInsert]
  split_ifs <;> omega

/-- Positions are followed without leaving the range of words. A move is undone by the move back, and it
takes the positions of a list to where removing and inserting the element takes what is there. A removal
undoes an insertion for exactly the positions that the insertion leaves alone or shifts in full. -/
theorem exact_and_undone :
    (∀ (shift : Shift) (positions : List Word),
      shift.followAll? positions = .ok (positions.map shift.follow)) ∧
    (∀ (source target : Word) (positions : List Word),
      ((move source target).followAll? positions >>= (move target source).followAll?) =
        .ok positions) ∧
    (∀ source target : Word, Function.Bijective (move source target).follow) ∧
    (∀ (source target : Word) (count : Nat), source.val < count → target.val < count →
      Set.BijOn (move source target).follow
          {position | position.val < count} {position | position.val < count} ∧
        ∀ {α : Type} (items : List α) (element : α), items.length = count →
          items[source.val]? = some element → ∀ position : Word,
          ((items.eraseIdx source.val).insertIdx target.val element)[((move source target).follow
            position).val]? = items[position.val]?) ∧
    ∀ start length position : Word,
      (remove start length).follow ((insert start length).follow position) = position ↔
        position.val < start.val ∨ position.val + length.val < 0x10000000000000000 := by
  refine ⟨followAll?_eq_ok, move_back, move_bijective, ?_, fun _ _ _ => remove_insert_iff⟩
  intro source target count sourceInside targetInside
  refine ⟨move_bijOn sourceInside targetInside, fun items element whole found position => ?_⟩
  exact Position.getElem?_moved found (whole ▸ targetInside) position

/-- The last of four letters goes to the second place. Its position goes with it and comes back. Three places
are taken off again where they were put in, but not from a position that they pushed to the last word. -/
theorem exact_and_undone_last_of_four :
    let letters := ['a', 'b', 'c', 'd']
    let source : Word := ⟨3, by decide⟩
    let target : Word := ⟨1, by decide⟩
    let position : Word := ⟨2, by decide⟩
    let moved := (letters.eraseIdx source.val).insertIdx target.val 'd'
    let length : Word := ⟨3, by decide⟩
    let inside : Word := ⟨0xFFFFFFFFFFFFFFFC, by decide⟩
    let beyond : Word := ⟨0xFFFFFFFFFFFFFFFD, by decide⟩
    letters.length = 4 ∧ letters[source.val]? = some 'd' ∧ moved = ['a', 'd', 'b', 'c'] ∧
      ((move source target).follow position).val = 3 ∧
      moved[((move source target).follow position).val]? = letters[position.val]? ∧
      ((move source target).followAll? [source, position] >>= (move target source).followAll?) =
        .ok [source, position] ∧
      (remove target length).follow ((insert target length).follow inside) = inside ∧
      (remove target length).follow ((insert target length).follow beyond) ≠ beyond := by
  intro letters source target position moved length inside beyond
  obtain ⟨-, back, -, moves, undone⟩ := exact_and_undone
  have elements := (moves source target 4 (by decide) (by decide)).2 letters 'd' rfl rfl position
  refine ⟨rfl, rfl, rfl, rfl, elements, back _ _ _, (undone _ _ _).mpr (Or.inr (by decide)), ?_⟩
  exact fun same => absurd ((undone _ _ _).mp same) (by decide)

end Shift

end SharedDocument
