import Mathlib.Data.List.InsertIdx
import SharedDocument.Proofs.Change
import SharedDocument.Proofs.Fallible
import SharedDocument.Proofs.Transform.Outcome
import SharedDocument.Transform.Array

/-! Concurrent edits of one array converge. Positions are followed through insertions and removals of
single elements; a move is a removal followed by an insertion, so that the rules for moves come
down to those for the two. -/

namespace SharedDocument.ArrayEdit

def pushed (inserted position : Nat) : Nat :=
  if inserted ≤ position then position + 1 else position

/-- Where a position, or the gap before it, goes when an element is removed. -/
def pulled (removed position : Nat) : Nat :=
  if removed < position then position - 1 else position

section

variable {α : Type} {items : List α} (value : α)

theorem eraseIdx_insertIdx_pushed {target position : Nat} (inside : position < items.length) :
    (items.insertIdx target value).eraseIdx (pushed target position) =
      (items.eraseIdx position).insertIdx (pulled position target) value := by
  unfold pushed pulled
  apply List.ext_getElem?
  intro k
  grind

theorem getElem?_insertIdx_pushed (target position : Nat) :
    (items.insertIdx target value)[pushed target position]? = items[position]? := by
  unfold pushed
  grind

theorem set_insertIdx_pushed (target position : Nat) (written : α) :
    (items.insertIdx target value).set (pushed target position) written =
      (items.set position written).insertIdx target value := by
  unfold pushed
  apply List.ext_getElem?
  intro k
  grind

theorem set_insertIdx_self {target : Nat} (inside : target ≤ items.length) (written : α) :
    (items.insertIdx target value).set target written = items.insertIdx target written := by
  apply List.ext_getElem?
  intro k
  grind

theorem eraseIdx_eraseIdx_pulled {first second : Nat} (different : first ≠ second) :
    (items.eraseIdx first).eraseIdx (pulled first second) =
      (items.eraseIdx second).eraseIdx (pulled second first) := by
  unfold pulled
  apply List.ext_getElem?
  intro k
  grind

theorem getElem?_eraseIdx_pulled {first second : Nat} (different : first ≠ second) :
    (items.eraseIdx first)[pulled first second]? = items[second]? := by
  unfold pulled
  grind

theorem set_eraseIdx_pulled {first second : Nat} (different : first ≠ second) :
    (items.eraseIdx first).set (pulled first second) value =
      (items.set second value).eraseIdx first := by
  unfold pulled
  apply List.ext_getElem?
  intro k
  grind

theorem insertIdx_eraseIdx_same {position : Nat} (inside : position < items.length) :
    (items.eraseIdx position).insertIdx position value = items.set position value := by
  apply List.ext_getElem?
  intro k
  grind

end

/-! One lemma for each rule. -/

theorem applyTo_move {children : List DataValue} {source : Word} {child : DataValue}
    (found : children[source.val]? = some child) (target : Word) :
    applyTo children (.move source target) =
      (children.eraseIdx source.val).insertIdx target.val child := by
  simp only [applyTo, found]

theorem plus?_one {word : Word} (small : word.val + 1 < 0x10000000000000000) :
    ∃ next, word.plus? 1 = .ok next ∧ next.val = word.val + 1 :=
  ⟨⟨word.val + 1, small⟩, (Word.plus?_eq_ok_iff _ _ _).mpr rfl, rfl⟩

theorem minus?_one {word : Word} (positive : 1 ≤ word.val) :
    word.minus? 1 = .ok (word.minus 1) :=
  (Word.minus?_eq_ok_iff _ _ _).mpr ⟨positive, rfl⟩

theorem plusIf?_pushed (word : Word) (inserted : Nat) {condition : Bool}
    (pushes : condition = true ↔ inserted ≤ word.val) (small : word.val + 1 < 0x10000000000000000) :
    ∃ next, word.plusIf? condition = .ok next ∧ next.val = pushed inserted word.val := by
  unfold Word.plusIf? pushed
  simp only [← pushes]
  split
  · exact plus?_one small
  · exact ⟨word, rfl, rfl⟩

theorem minusIf?_pulled (word : Word) (removed : Nat) {condition : Bool}
    (pulls : condition = true ↔ removed < word.val) :
    ∃ next, word.minusIf? condition = .ok next ∧ next.val = pulled removed word.val := by
  unfold Word.minusIf? pulled
  simp only [← pulls]
  split
  · rename_i down
    have positive := pulls.mp down
    exact ⟨_, minus?_one (by omega), rfl⟩
  · exact ⟨word, rfl, rfl⟩

theorem pushed_lt {inserted position length : Nat} (inside : position < length) :
    pushed inserted position < length + 1 := by
  unfold pushed
  split <;> omega

theorem pulled_lt {removed position length : Nat} (inside : position < length)
    (removedInside : removed < length) (different : removed ≠ position) :
    pulled removed position < length - 1 := by
  unfold pulled
  split <;> omega

theorem pulled_le {removed position length : Nat} (inside : position ≤ length)
    (removedInside : removed < length) : pulled removed position ≤ length - 1 := by
  unfold pulled
  split <;> omega

theorem pulled_pushed (inserted position : Nat) : pulled inserted (pushed inserted position) = position := by
  unfold pulled pushed
  split_ifs <;> omega

theorem pushed_pulled {removed position : Nat} (different : position ≠ removed) :
    pushed removed (pulled removed position) = position := by
  unfold pushed pulled
  split_ifs <;> omega

/-- Nothing is pushed to where the new element stands. -/
theorem pushed_ne (inserted position : Nat) : pushed inserted position ≠ inserted := by
  unfold pushed
  split_ifs <;> omega

/-- Two different elements are taken out and put in again, in either order. Where both go into one gap
of what is left, the first one stands before the second. -/
theorem move_move {α : Type} {items : List α} {first second firstTarget secondTarget : Nat}
    (firstValue secondValue : α) (different : first ≠ second) (firstInside : first < items.length)
    (secondInside : second < items.length) (firstTargetInside : firstTarget < items.length)
    (secondTargetInside : secondTarget < items.length) :
    (((items.eraseIdx first).insertIdx firstTarget firstValue).eraseIdx
          (pushed firstTarget (pulled first second))).insertIdx
        (pushed (pulled (pulled first second) firstTarget)
          (pulled (pulled second first) secondTarget)) secondValue =
      (((items.eraseIdx second).insertIdx secondTarget secondValue).eraseIdx
          (pushed secondTarget (pulled second first))).insertIdx
        (pushed (pulled (pulled second first) secondTarget + 1)
          (pulled (pulled first second) firstTarget)) firstValue := by
  have firstLength := List.length_eraseIdx_of_lt firstInside
  have secondLength := List.length_eraseIdx_of_lt secondInside
  have firstAlone := pulled_lt firstInside secondInside (Ne.symm different)
  have secondAlone := pulled_lt secondInside firstInside different
  have firstGap := @pulled_le (pulled first second) firstTarget _ (by omega) secondAlone
  have secondGap := @pulled_le (pulled second first) secondTarget _ (by omega) firstAlone
  have rest := List.length_eraseIdx_of_lt
    (show pulled second first < (items.eraseIdx second).length by omega)
  rw [eraseIdx_insertIdx_pushed firstValue (by omega),
    eraseIdx_insertIdx_pushed secondValue (by omega), eraseIdx_eraseIdx_pulled different]
  generalize (items.eraseIdx second).eraseIdx (pulled second first) = others at rest ⊢
  generalize pulled (pulled first second) firstTarget = gap at firstGap ⊢
  generalize pulled (pulled second first) secondTarget = otherGap at secondGap ⊢
  unfold pushed
  by_cases ordered : gap ≤ otherGap
  · rw [if_pos ordered, if_neg (by omega)]
    exact List.insertIdx_comm firstValue secondValue ordered (by omega)
  · rw [if_neg ordered, if_pos (by omega)]
    exact (List.insertIdx_comm secondValue firstValue (Nat.le_of_not_le ordered) (by omega)).symm

abbrev Meets (children : List DataValue) (server client : ArrayEdit)
    (outcome : Outcome ArrayEdit) : Prop :=
  outcome.Converges (fun edit children => edit.Fits children.length)
    (fun edit children => edit.applyTo children) children server client

section

variable {children : List DataValue} {serverIndex clientIndex source target : Word}
  {serverValue clientValue : DataValue} (small : children.length + 1 < 0x10000000000000000)

include small

theorem insertInsert_meets (serverFits : serverIndex.val ≤ children.length)
    (clientFits : clientIndex.val ≤ children.length) :
    ∃ outcome, insertInsert serverIndex serverValue clientIndex clientValue = .ok outcome ∧
      Meets children (.insert serverIndex serverValue) (.insert clientIndex clientValue) outcome := by
  have serverLength := List.length_insertIdx_of_le_length serverFits serverValue
  have clientLength := List.length_insertIdx_of_le_length clientFits clientValue
  unfold insertInsert
  split
  · rename_i ordered
    obtain ⟨shifted, exactly, moved⟩ := plus?_one (show clientIndex.val + 1 < _ by omega)
    rw [exactly]
    refine ⟨_, rfl, .keepBoth ?_ ?_ ?_⟩ <;>
      simp only [Fits, applyTo, serverLength, clientLength, moved]
    · omega
    · omega
    · exact (List.insertIdx_comm serverValue clientValue ordered clientFits)
  · rename_i ordered
    obtain ⟨shifted, exactly, moved⟩ := plus?_one (show serverIndex.val + 1 < _ by omega)
    rw [exactly]
    refine ⟨_, rfl, .keepBoth ?_ ?_ ?_⟩ <;>
      simp only [Fits, applyTo, serverLength, clientLength, moved]
    · omega
    · omega
    · exact (List.insertIdx_comm clientValue serverValue (Nat.le_of_not_le ordered) serverFits).symm

theorem insertRemove_meets (serverFits : serverIndex.val ≤ children.length)
    (clientFits : clientIndex.val < children.length) :
    ∃ outcome, insertRemove serverIndex serverValue clientIndex = .ok outcome ∧
      Meets children (.insert serverIndex serverValue) (.remove clientIndex) outcome := by
  have serverLength := List.length_insertIdx_of_le_length serverFits serverValue
  have clientLength := List.length_eraseIdx_of_lt clientFits
  have commutes := @eraseIdx_insertIdx_pushed _ children serverValue serverIndex.val _ clientFits
  unfold pushed pulled at commutes
  unfold insertRemove
  split
  · rename_i ordered
    rw [if_pos ordered, if_neg (by omega)] at commutes
    obtain ⟨shifted, exactly, moved⟩ := plus?_one (show clientIndex.val + 1 < _ by omega)
    rw [exactly]
    refine ⟨_, rfl, .keepBoth ?_ ?_ ?_⟩ <;>
      simp only [Fits, applyTo, serverLength, clientLength, moved]
    · omega
    · omega
    · exact commutes
  · rename_i ordered
    rw [if_neg ordered, if_pos (by omega)] at commutes
    rw [minus?_one (by omega)]
    refine ⟨_, rfl, .keepBoth ?_ ?_ ?_⟩ <;>
      simp only [Fits, applyTo, serverLength, clientLength, Word.val_minus]
    · omega
    · omega
    · exact commutes

theorem insertReplace_meets (serverFits : serverIndex.val ≤ children.length)
    (clientFits : clientIndex.val < children.length) :
    ∃ outcome, insertReplace serverIndex serverValue clientIndex clientValue = .ok outcome ∧
      Meets children (.insert serverIndex serverValue) (.replace clientIndex clientValue) outcome := by
  have serverLength := List.length_insertIdx_of_le_length serverFits serverValue
  have commutes := @set_insertIdx_pushed _ children serverValue serverIndex.val clientIndex.val clientValue
  unfold pushed at commutes
  unfold insertReplace
  split
  · rename_i ordered
    rw [if_pos ordered] at commutes
    obtain ⟨shifted, exactly, moved⟩ := plus?_one (show clientIndex.val + 1 < _ by omega)
    rw [exactly]
    refine ⟨_, rfl, .keepBoth ?_ ?_ ?_⟩ <;>
      simp only [Fits, applyTo, serverLength, List.length_set, moved]
    · omega
    · omega
    · exact commutes
  · rename_i ordered
    rw [if_neg ordered] at commutes
    refine ⟨_, rfl, .keepBoth ?_ ?_ ?_⟩ <;> simp only [Fits, applyTo, serverLength, List.length_set]
    · omega
    · omega
    · exact commutes

theorem insertMove_meets (serverFits : serverIndex.val ≤ children.length)
    (sourceFits : source.val < children.length) (targetFits : target.val < children.length) :
    ∃ outcome, insertMove serverIndex serverValue source target = .ok outcome ∧
      Meets children (.insert serverIndex serverValue) (.move source target) outcome := by
  obtain ⟨gap, gapExactly, gapVal⟩ := minusIf?_pulled serverIndex source.val
    (show (!decide (serverIndex.val ≤ source.val)) = true ↔ _ by simp)
  obtain ⟨newSource, sourceExactly, sourceVal⟩ := plusIf?_pushed source serverIndex.val
    (show decide (serverIndex.val ≤ source.val) = true ↔ _ by simp) (by omega)
  have alone := List.length_eraseIdx_of_lt sourceFits
  have serverLength := List.length_insertIdx_of_le_length serverFits serverValue
  have moved := List.getElem?_eq_getElem sourceFits
  generalize children[source.val] = child at moved
  have movedThen := @getElem?_insertIdx_pushed _ children serverValue serverIndex.val source.val
  have commutes := @eraseIdx_insertIdx_pushed _ children serverValue serverIndex.val _ sourceFits
  rw [← sourceVal, ← gapVal] at commutes
  rw [← sourceVal, moved] at movedThen
  have clientLength := List.length_insertIdx_of_le_length
    (show target.val ≤ (children.eraseIdx source.val).length by omega) child
  have gapInside : gap.val ≤ children.length - 1 := gapVal ▸ pulled_le serverFits sourceFits
  have sourceInside : newSource.val < children.length + 1 := sourceVal ▸ pushed_lt sourceFits
  simp only [insertMove, gapExactly, sourceExactly, bind, Except.bind]
  by_cases first : (if gap ≠ target then decide (gap.val < target.val)
      else decide (serverIndex.val ≤ source.val)) = true
  · have ordered : gap.val ≤ target.val := by
      split at first
      · exact (of_decide_eq_true first).le
      · rename_i together
        rw [not_not.mp together]
    obtain ⟨newTarget, targetExactly, targetVal⟩ := plus?_one (show target.val + 1 < _ by omega)
    rw [if_pos first, targetExactly]
    refine ⟨_, rfl, .keepBoth ?_ ?_ ?_⟩ <;>
      simp only [Fits, applyTo, moved, movedThen, commutes, serverLength, clientLength, targetVal]
    · omega
    · omega
    · exact List.insertIdx_comm serverValue child ordered (by omega)
  · have ordered : target.val ≤ gap.val := by
      split at first
      · simpa using first
      · rename_i together
        rw [not_not.mp together]
    obtain ⟨newIndex, indexExactly, indexVal⟩ := plus?_one (show gap.val + 1 < _ by omega)
    rw [if_neg first, indexExactly]
    refine ⟨_, rfl, .keepBoth ?_ ?_ ?_⟩ <;>
      simp only [Fits, applyTo, moved, movedThen, commutes, serverLength, clientLength, indexVal]
    · omega
    · omega
    · exact (List.insertIdx_comm child serverValue ordered (by omega)).symm

omit small in
theorem removeRemove_meets (serverFits : serverIndex.val < children.length)
    (clientFits : clientIndex.val < children.length) :
    ∃ outcome, removeRemove serverIndex clientIndex = .ok outcome ∧
      Meets children (.remove serverIndex) (.remove clientIndex) outcome := by
  have serverLength := List.length_eraseIdx_of_lt serverFits
  have clientLength := List.length_eraseIdx_of_lt clientFits
  unfold removeRemove
  split
  · rename_i together
    subst together
    exact ⟨_, rfl, .dropBoth rfl⟩
  · rename_i apart
    have different : serverIndex.val ≠ clientIndex.val := fun same => apart (Word.ext_val same)
    have commutes := @eraseIdx_eraseIdx_pulled _ children _ _ different
    unfold pulled at commutes
    split
    · rename_i ordered
      rw [if_pos ordered, if_neg (by omega)] at commutes
      rw [minus?_one (by omega)]
      refine ⟨_, rfl, .keepBoth ?_ ?_ ?_⟩ <;>
        simp only [Fits, applyTo, serverLength, clientLength, Word.val_minus]
      · omega
      · omega
      · exact commutes
    · rename_i ordered
      rw [if_neg ordered, if_pos (by omega)] at commutes
      rw [minus?_one (by omega)]
      refine ⟨_, rfl, .keepBoth ?_ ?_ ?_⟩ <;>
        simp only [Fits, applyTo, serverLength, clientLength, Word.val_minus]
      · omega
      · omega
      · exact commutes

omit small in
theorem removeReplace_meets (serverFits : serverIndex.val < children.length)
    (clientFits : clientIndex.val < children.length) :
    ∃ outcome, removeReplace serverIndex clientIndex clientValue = .ok outcome ∧
      Meets children (.remove serverIndex) (.replace clientIndex clientValue) outcome := by
  have serverLength := List.length_eraseIdx_of_lt serverFits
  unfold removeReplace
  split
  · rename_i together
    subst together
    refine ⟨_, rfl, .keepClient ?_ ?_⟩ <;> simp only [Fits, applyTo, serverLength]
    · omega
    · exact insertIdx_eraseIdx_same clientValue serverFits
  · rename_i apart
    have different : serverIndex.val ≠ clientIndex.val := fun same => apart (Word.ext_val same)
    have commutes := @set_eraseIdx_pulled _ children clientValue _ _ different
    unfold pulled at commutes
    split
    · rename_i ordered
      rw [if_pos ordered] at commutes
      rw [minus?_one (by omega)]
      refine ⟨_, rfl, .keepBoth ?_ ?_ ?_⟩ <;>
        simp only [Fits, applyTo, serverLength, List.length_set, Word.val_minus]
      · omega
      · omega
      · exact commutes
    · rename_i ordered
      rw [if_neg ordered] at commutes
      refine ⟨_, rfl, .keepBoth ?_ ?_ ?_⟩ <;> simp only [Fits, applyTo, serverLength, List.length_set]
      · omega
      · omega
      · exact commutes

omit small in
theorem replaceReplace_meets (serverFits : serverIndex.val < children.length)
    (clientFits : clientIndex.val < children.length)
    (unequal : (serverValue == clientValue) = false) :
    Meets children (.replace serverIndex serverValue) (.replace clientIndex clientValue)
      (replaceReplace serverIndex serverValue clientIndex clientValue) := by
  unfold replaceReplace
  split
  · rename_i together
    subst together
    rw [Outcome.writeConflict, unequal, if_neg Bool.false_ne_true]
    refine .keepServer ?_ ?_ <;> simp only [Fits, applyTo, List.length_set]
    · exact serverFits
    · exact (List.set_set clientValue).symm
  · rename_i apart
    have different : serverIndex.val ≠ clientIndex.val := fun same => apart (Word.ext_val same)
    refine .keepBoth ?_ ?_ ?_ <;> simp only [Fits, applyTo, List.length_set]
    · exact serverFits
    · exact clientFits
    · exact List.set_comm _ _ different

theorem removeMove_meets (serverFits : serverIndex.val < children.length)
    (sourceFits : source.val < children.length) (targetFits : target.val < children.length) :
    ∃ outcome, removeMove serverIndex source target = .ok outcome ∧
      Meets children (.remove serverIndex) (.move source target) outcome := by
  have alone := List.length_eraseIdx_of_lt sourceFits
  have serverLength := List.length_eraseIdx_of_lt serverFits
  have moved := List.getElem?_eq_getElem sourceFits
  generalize children[source.val] = child at moved
  have clientLength := List.length_insertIdx_of_le_length
    (show target.val ≤ (children.eraseIdx source.val).length by omega) child
  unfold removeMove
  split
  · rename_i together
    subst together
    refine ⟨_, rfl, .keepServer ?_ ?_⟩ <;> simp only [Fits, applyTo, moved, clientLength]
    · omega
    · exact (List.eraseIdx_insertIdx_self child).symm
  · rename_i apart
    have different : serverIndex.val ≠ source.val := fun same => apart (Word.ext_val same)
    obtain ⟨gap, gapExactly, gapVal⟩ := minusIf?_pulled serverIndex source.val
      (show decide (source.val ≤ serverIndex.val) = true ↔ _ by simp; omega)
    obtain ⟨newSource, sourceExactly, sourceVal⟩ := minusIf?_pulled source serverIndex.val
      (show decide (serverIndex.val < source.val) = true ↔ _ by simp)
    obtain ⟨newTarget, targetExactly, targetVal⟩ := minusIf?_pulled target gap.val
      (show decide (gap.val < target.val) = true ↔ _ by simp)
    have gapInside : gap.val < children.length - 1 :=
      gapVal ▸ pulled_lt serverFits sourceFits (Ne.symm different)
    obtain ⟨newIndex, indexExactly, indexVal⟩ := plusIf?_pushed gap target.val
      (show decide (target.val ≤ gap.val) = true ↔ _ by simp) (by omega)
    have sourceInside : newSource.val < children.length - 1 :=
      sourceVal ▸ pulled_lt sourceFits serverFits different
    have targetInside : newTarget.val ≤ children.length - 1 - 1 :=
      targetVal ▸ pulled_le (by omega) gapInside
    have indexInside : newIndex.val < children.length - 1 + 1 := indexVal ▸ pushed_lt gapInside
    have movedThen := @getElem?_eraseIdx_pulled _ children _ _ different
    have aloneThen := @eraseIdx_eraseIdx_pulled _ children _ _ different
    have commutes := @eraseIdx_insertIdx_pushed _ (children.eraseIdx source.val) child target.val
      gap.val (by omega)
    rw [← sourceVal, moved] at movedThen
    rw [← sourceVal, ← gapVal] at aloneThen
    rw [← indexVal, ← targetVal] at commutes
    simp only [gapExactly, sourceExactly, targetExactly, indexExactly, bind, Except.bind]
    refine ⟨_, rfl, .keepBoth ?_ ?_ ?_⟩ <;>
      simp only [Fits, applyTo, moved, movedThen, aloneThen, serverLength, clientLength]
    · omega
    · omega
    · exact commutes.symm

omit small in
theorem val_afterMove {position : Word} :
    (Position.afterMove source target position).val =
      if position.val = source.val then target.val
      else pushed target.val (pulled source.val position.val) := by
  have sourceBound := source.isLt
  unfold Position.afterMove
  by_cases here : position = source
  · simp [here]
  · have different : position.val ≠ source.val := fun same => here (Word.ext_val same)
    rw [if_neg here, if_neg different]
    unfold MoveDirection.between RangeRelation.of pushed pulled
    grind [Word.val_plus, Word.val_minus]

omit small in
theorem replaceMove_meets (serverFits : serverIndex.val < children.length)
    (sourceFits : source.val < children.length) (targetFits : target.val < children.length) :
    Meets children (.replace serverIndex serverValue) (.move source target)
      (replaceMove serverIndex serverValue source target) := by
  have alone := List.length_eraseIdx_of_lt sourceFits
  have targetInside : target.val ≤ (children.eraseIdx source.val).length := by omega
  have moved := List.getElem?_eq_getElem sourceFits
  generalize children[source.val] = child at moved
  have clientLength := List.length_insertIdx_of_le_length targetInside child
  have followed := @val_afterMove source target serverIndex
  refine .keepBoth ?_ ?_ ?_
  · simp only [Fits, applyTo_move moved, clientLength, followed]
    split
    · omega
    · rename_i different
      have inside := @pushed_lt target.val _ _
        (pulled_lt serverFits sourceFits (Ne.symm different))
      omega
  · simp only [Fits, applyTo, List.length_set]
    exact ⟨sourceFits, targetFits⟩
  · rw [applyTo_move moved]
    by_cases together : serverIndex.val = source.val
    · have replaced : (children.set serverIndex.val serverValue)[source.val]? = some serverValue := by
        rw [together, List.getElem?_set_self sourceFits]
      rw [if_pos together] at followed
      simp only [applyTo, replaced, followed]
      rw [together, List.eraseIdx_set_eq, set_insertIdx_self child targetInside]
    · have still : (children.set serverIndex.val serverValue)[source.val]? = some child := by
        rw [List.getElem?_set_ne together, moved]
      rw [if_neg together] at followed
      simp only [applyTo, still, followed]
      rw [set_insertIdx_pushed, set_eraseIdx_pulled serverValue (Ne.symm together)]

theorem moveMove_meets {serverSource serverTarget clientSource clientTarget : Word}
    (serverSourceFits : serverSource.val < children.length)
    (serverTargetFits : serverTarget.val < children.length)
    (clientSourceFits : clientSource.val < children.length)
    (clientTargetFits : clientTarget.val < children.length) :
    ∃ outcome, moveMove serverSource serverTarget clientSource clientTarget = .ok outcome ∧
      Meets children (.move serverSource serverTarget) (.move clientSource clientTarget)
        outcome := by
  have serverLength := List.length_eraseIdx_of_lt serverSourceFits
  have clientLength := List.length_eraseIdx_of_lt clientSourceFits
  have serverMoved := List.getElem?_eq_getElem serverSourceFits
  have clientMoved := List.getElem?_eq_getElem clientSourceFits
  generalize children[serverSource.val] = serverChild at serverMoved
  generalize children[clientSource.val] = clientChild at clientMoved
  have serverAgain := List.length_insertIdx_of_le_length
    (show serverTarget.val ≤ (children.eraseIdx serverSource.val).length by omega) serverChild
  have clientAgain := List.length_insertIdx_of_le_length
    (show clientTarget.val ≤ (children.eraseIdx clientSource.val).length by omega) clientChild
  unfold moveMove
  split
  · rename_i together
    subst together
    split
    · rename_i sameTarget
      subst sameTarget
      exact ⟨_, rfl, .dropBoth rfl⟩
    · rw [serverMoved, Option.some.injEq] at clientMoved
      subst clientMoved
      have movedThen : ((children.eraseIdx serverSource.val).insertIdx clientTarget.val
          serverChild)[clientTarget.val]? = some serverChild := by
        rw [List.getElem?_insertIdx_self, if_pos (by omega)]
      refine ⟨_, rfl, .keepServer ?_ ?_⟩
      · simp only [Fits, applyTo_move serverMoved, clientAgain]
        omega
      · rw [applyTo_move serverMoved, applyTo_move serverMoved, applyTo_move movedThen,
          List.eraseIdx_insertIdx_self]
  · rename_i apart
    have different : serverSource.val ≠ clientSource.val := fun same => apart (Word.ext_val same)
    obtain ⟨clientAlone, clientAloneExactly, clientAloneVal⟩ :=
      minusIf?_pulled clientSource serverSource.val
        (show decide (serverSource.val < clientSource.val) = true ↔ _ by simp)
    obtain ⟨serverAlone, serverAloneExactly, serverAloneVal⟩ :=
      minusIf?_pulled serverSource clientSource.val
        (show decide (clientSource.val < serverSource.val) = true ↔ _ by simp)
    obtain ⟨serverGap, serverGapExactly, serverGapVal⟩ :=
      minusIf?_pulled serverTarget clientAlone.val
        (show decide (clientAlone.val < serverTarget.val) = true ↔ _ by simp)
    obtain ⟨clientGap, clientGapExactly, clientGapVal⟩ :=
      minusIf?_pulled clientTarget serverAlone.val
        (show decide (serverAlone.val < clientTarget.val) = true ↔ _ by simp)
    have clientInside : clientAlone.val < children.length - 1 :=
      clientAloneVal ▸ pulled_lt clientSourceFits serverSourceFits different
    have serverInside : serverAlone.val < children.length - 1 :=
      serverAloneVal ▸ pulled_lt serverSourceFits clientSourceFits (Ne.symm different)
    have serverGapInside : serverGap.val ≤ children.length - 1 - 1 :=
      serverGapVal ▸ pulled_le (by omega) clientInside
    have clientGapInside : clientGap.val ≤ children.length - 1 - 1 :=
      clientGapVal ▸ pulled_le (by omega) serverInside
    have serverSecond : (!decide (serverGap.val ≤ clientGap.val)) = true ↔
        clientGap.val + 1 ≤ serverGap.val := by
      rw [Bool.not_eq_true', decide_eq_false_iff_not]
      omega
    obtain ⟨newServerTarget, newServerTargetExactly, newServerTargetVal⟩ :=
      plusIf?_pushed serverGap (clientGap.val + 1) serverSecond (by omega)
    obtain ⟨newClientTarget, newClientTargetExactly, newClientTargetVal⟩ :=
      plusIf?_pushed clientGap serverGap.val
        (show decide (serverGap.val ≤ clientGap.val) = true ↔ _ by simp) (by omega)
    obtain ⟨newClientSource, newClientSourceExactly, newClientSourceVal⟩ :=
      plusIf?_pushed clientAlone serverTarget.val
        (show decide (serverTarget.val ≤ clientAlone.val) = true ↔ _ by simp) (by omega)
    obtain ⟨newServerSource, newServerSourceExactly, newServerSourceVal⟩ :=
      plusIf?_pushed serverAlone clientTarget.val
        (show decide (clientTarget.val ≤ serverAlone.val) = true ↔ _ by simp) (by omega)
    simp only [clientAloneExactly, serverAloneExactly, serverGapExactly, clientGapExactly,
      newServerTargetExactly, newClientTargetExactly, newClientSourceExactly,
      newServerSourceExactly, bind, Except.bind]
    have clientThen : ((children.eraseIdx serverSource.val).insertIdx serverTarget.val
        serverChild)[newClientSource.val]? = some clientChild := by
      rw [newClientSourceVal, getElem?_insertIdx_pushed, clientAloneVal,
        getElem?_eraseIdx_pulled different, clientMoved]
    have serverThen : ((children.eraseIdx clientSource.val).insertIdx clientTarget.val
        clientChild)[newServerSource.val]? = some serverChild := by
      rw [newServerSourceVal, getElem?_insertIdx_pushed, serverAloneVal,
        getElem?_eraseIdx_pulled (Ne.symm different), serverMoved]
    have newClientSourceInside : newClientSource.val < children.length - 1 + 1 :=
      newClientSourceVal ▸ pushed_lt clientInside
    have newServerSourceInside : newServerSource.val < children.length - 1 + 1 :=
      newServerSourceVal ▸ pushed_lt serverInside
    refine ⟨_, rfl, .keepBoth ?_ ?_ ?_⟩
    · simp only [Fits, applyTo_move clientMoved, clientAgain, newServerTargetVal, pushed]
      grind
    · simp only [Fits, applyTo_move serverMoved, serverAgain, newClientTargetVal, pushed]
      grind
    · rw [applyTo_move serverMoved, applyTo_move clientMoved, applyTo_move clientThen,
        applyTo_move serverThen, newServerTargetVal, newClientTargetVal, newServerSourceVal,
        newClientSourceVal, serverGapVal, clientGapVal, serverAloneVal, clientAloneVal]
      exact move_move serverChild clientChild different serverSourceFits clientSourceFits
        serverTargetFits clientTargetFits

theorem transform_meets {server client : ArrayEdit} (serverFits : server.Fits children.length)
    (clientFits : client.Fits children.length)
    (unequal : ∀ written ∈ server.values, ∀ other ∈ client.values, (written == other) = false) :
    ∃ outcome, server.transform client = .ok outcome ∧ Meets children server client outcome := by
  have swapped {first second : ArrayEdit} {result : Except Overflow (Outcome ArrayEdit)}
      (meets : ∃ outcome, result = .ok outcome ∧ Meets children first second outcome) :
      ∃ outcome, result.map Transformed.swap = .ok outcome ∧
        Meets children second first outcome := by
    obtain ⟨outcome, rfl, converges⟩ := meets
    exact ⟨outcome.swap, rfl, converges.swap⟩
  cases server with
  | insert serverIndex serverValue =>
      cases client with
      | insert clientIndex clientValue => exact insertInsert_meets small serverFits clientFits
      | remove clientIndex => exact insertRemove_meets small serverFits clientFits
      | replace clientIndex clientValue => exact insertReplace_meets small serverFits clientFits
      | move source target => exact insertMove_meets small serverFits clientFits.1 clientFits.2
  | remove serverIndex =>
      cases client with
      | insert clientIndex clientValue =>
          exact swapped (insertRemove_meets small clientFits serverFits)
      | remove clientIndex => exact removeRemove_meets serverFits clientFits
      | replace clientIndex clientValue => exact removeReplace_meets serverFits clientFits
      | move source target => exact removeMove_meets small serverFits clientFits.1 clientFits.2
  | replace serverIndex serverValue =>
      cases client with
      | insert clientIndex clientValue =>
          exact swapped (insertReplace_meets small clientFits serverFits)
      | remove clientIndex => exact swapped (removeReplace_meets clientFits serverFits)
      | replace clientIndex clientValue =>
          exact ⟨_, rfl, replaceReplace_meets serverFits clientFits
            (unequal serverValue List.mem_cons_self clientValue List.mem_cons_self)⟩
      | move source target =>
          exact ⟨_, rfl, replaceMove_meets serverFits clientFits.1 clientFits.2⟩
  | move serverSource serverTarget =>
      cases client with
      | insert clientIndex clientValue =>
          exact swapped (insertMove_meets small clientFits serverFits.1 serverFits.2)
      | remove clientIndex =>
          exact swapped (removeMove_meets small clientFits serverFits.1 serverFits.2)
      | replace clientIndex clientValue =>
          exact ⟨_, rfl, (replaceMove_meets clientFits serverFits.1 serverFits.2).swap⟩
      | move source target =>
          exact moveMove_meets small serverFits.1 serverFits.2 clientFits.1 clientFits.2

end

/-! What becomes of a pair writes the same values. -/

def KeepValues (server client : ArrayEdit) (result : Except Overflow (Outcome ArrayEdit)) : Prop :=
  ∀ outcome, result = .ok outcome →
    outcome.server.change.values = server.values ∧ outcome.client.change.values = client.values

section

variable {server client : ArrayEdit}

theorem keepValues_ok {outcome : Outcome ArrayEdit}
    (serverSame : outcome.server.change.values = server.values)
    (clientSame : outcome.client.change.values = client.values) :
    KeepValues server client (.ok outcome) := by
  intro reached same
  cases same
  exact ⟨serverSame, clientSame⟩

theorem keepValues_bind {α : Type} {first : Except Overflow α}
    {next : α → Except Overflow (Outcome ArrayEdit)}
    (each : ∀ middle, KeepValues server client (next middle)) :
    KeepValues server client (first >>= next) := by
  intro reached succeeds
  obtain ⟨middle, _, further⟩ := Fallible.bind_eq_ok_iff.mp succeeds
  exact each middle reached further

theorem keepValues_swap {result : Except Overflow (Outcome ArrayEdit)}
    (keep : KeepValues server client result) :
    KeepValues client server (result.map Transformed.swap) := by
  intro reached succeeds
  obtain ⟨outcome, found, rfl⟩ := Fallible.map_eq_ok_iff.mp succeeds
  exact (keep outcome found).symm

end

section

variable {serverIndex clientIndex source target : Word} {serverValue clientValue : DataValue}

theorem insertInsert_keepValues :
    KeepValues (.insert serverIndex serverValue) (.insert clientIndex clientValue)
      (insertInsert serverIndex serverValue clientIndex clientValue) := by
  unfold insertInsert
  split <;> exact keepValues_bind fun _ => keepValues_ok rfl rfl

theorem insertRemove_keepValues :
    KeepValues (.insert serverIndex serverValue) (.remove clientIndex)
      (insertRemove serverIndex serverValue clientIndex) := by
  unfold insertRemove
  split <;> exact keepValues_bind fun _ => keepValues_ok rfl rfl

theorem insertReplace_keepValues :
    KeepValues (.insert serverIndex serverValue) (.replace clientIndex clientValue)
      (insertReplace serverIndex serverValue clientIndex clientValue) := by
  unfold insertReplace
  split
  · exact keepValues_bind fun _ => keepValues_ok rfl rfl
  · exact keepValues_ok rfl rfl

theorem insertMove_keepValues :
    KeepValues (.insert serverIndex serverValue) (.move source target)
      (insertMove serverIndex serverValue source target) := by
  refine keepValues_bind fun gap => keepValues_bind fun newSource => ?_
  split <;> split <;> exact keepValues_bind fun _ => keepValues_ok rfl rfl

theorem removeRemove_keepValues :
    KeepValues (.remove serverIndex) (.remove clientIndex)
      (removeRemove serverIndex clientIndex) := by
  unfold removeRemove
  split
  · exact keepValues_ok rfl rfl
  · split <;> exact keepValues_bind fun _ => keepValues_ok rfl rfl

theorem removeReplace_keepValues :
    KeepValues (.remove serverIndex) (.replace clientIndex clientValue)
      (removeReplace serverIndex clientIndex clientValue) := by
  unfold removeReplace
  split
  · exact keepValues_ok rfl rfl
  · split
    · exact keepValues_bind fun _ => keepValues_ok rfl rfl
    · exact keepValues_ok rfl rfl

theorem removeMove_keepValues :
    KeepValues (.remove serverIndex) (.move source target)
      (removeMove serverIndex source target) := by
  unfold removeMove
  split
  · exact keepValues_ok rfl rfl
  · exact keepValues_bind fun _ => keepValues_bind fun _ => keepValues_bind fun _ =>
      keepValues_bind fun _ => keepValues_ok rfl rfl

theorem replaceReplace_keepValues :
    KeepValues (.replace serverIndex serverValue) (.replace clientIndex clientValue)
      (.ok (replaceReplace serverIndex serverValue clientIndex clientValue)) := by
  unfold replaceReplace Outcome.writeConflict
  split
  · split <;> exact keepValues_ok rfl rfl
  · exact keepValues_ok rfl rfl

theorem moveMove_keepValues {serverSource serverTarget clientSource clientTarget : Word} :
    KeepValues (.move serverSource serverTarget) (.move clientSource clientTarget)
      (moveMove serverSource serverTarget clientSource clientTarget) := by
  unfold moveMove
  split
  · split <;> exact keepValues_ok rfl rfl
  · exact keepValues_bind fun _ => keepValues_bind fun _ => keepValues_bind fun _ =>
      keepValues_bind fun _ => keepValues_bind fun _ => keepValues_bind fun _ =>
      keepValues_bind fun _ => keepValues_bind fun _ => keepValues_ok rfl rfl

end

theorem transform_keepValues (server client : ArrayEdit) :
    KeepValues server client (server.transform client) := by
  cases server with
  | insert serverIndex serverValue =>
      cases client with
      | insert clientIndex clientValue => exact insertInsert_keepValues
      | remove clientIndex => exact insertRemove_keepValues
      | replace clientIndex clientValue => exact insertReplace_keepValues
      | move source target => exact insertMove_keepValues
  | remove serverIndex =>
      cases client with
      | insert clientIndex clientValue => exact keepValues_swap insertRemove_keepValues
      | remove clientIndex => exact removeRemove_keepValues
      | replace clientIndex clientValue => exact removeReplace_keepValues
      | move source target => exact removeMove_keepValues
  | replace serverIndex serverValue =>
      cases client with
      | insert clientIndex clientValue => exact keepValues_swap insertReplace_keepValues
      | remove clientIndex => exact keepValues_swap removeReplace_keepValues
      | replace clientIndex clientValue => exact replaceReplace_keepValues
      | move source target => exact keepValues_ok rfl rfl
  | move serverSource serverTarget =>
      cases client with
      | insert clientIndex clientValue => exact keepValues_swap insertMove_keepValues
      | remove clientIndex => exact keepValues_swap removeMove_keepValues
      | replace clientIndex clientValue => exact keepValues_ok rfl rfl
      | move source target => exact moveMove_keepValues

end SharedDocument.ArrayEdit
