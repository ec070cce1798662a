import SharedDocument.Proofs.Document.Cursors
import SharedDocument.Proofs.Position.Shift

/-! Positions in order. An insertion keeps the order of positions, and so does the removal of a stretch that
ends within the words: selections that go forward still do. Of a longer stretch the last word is taken to
lie behind it, and a selection that ends there may be turned round. -/

namespace SharedDocument

open Position (Torn)

def IndexRange.AllForward (selections : List IndexRange) : Prop :=
  ∀ selection ∈ selections, selection.start.val ≤ selection.finish.val

open IndexRange (AllForward)

namespace Shift

variable {start length : Word} {selections : List IndexRange}

theorem follow_inside {position : Word} (behindStart : start.val ≤ position.val)
    (inside : position.val < start.val + length.val) :
    (position.val ≠ 0xFFFFFFFFFFFFFFFF → (remove start length).follow position = start) ∧
      (position.val = 0xFFFFFFFFFFFFFFFF →
        ((remove start length).follow position).val < start.val) := by
  have lengthBound := length.isLt
  have positionBound := position.isLt
  have followed := @Position.val_afterRemove start position length.val
  refine ⟨fun notLast => Word.ext_val ?_, fun last => ?_⟩
  · rw [follow, followed, if_neg (by omega), if_pos behindStart]
  · rw [follow, followed, if_pos (by omega)]
    omega

theorem allForward_insert (forward : AllForward selections) :
    AllForward (selections.map (IndexRange.map (insert start length).follow)) :=
  List.forall_mem_map.mpr fun selection listed =>
    Position.afterInsert_mono (forward selection listed)

theorem allForward_remove_iff (forward : AllForward selections) :
    AllForward (selections.map (IndexRange.map (remove start length).follow)) ↔
      ∀ selection ∈ selections, ¬ Torn start length selection.start selection.finish :=
  List.forall_mem_map.trans <| forall₂_congr fun selection listed =>
    Position.afterRemove_mono_iff (forward selection listed)

/-- An insertion keeps the order of any two positions, and a removal that of all that it does not tear. What
lies in the removed stretch goes to its start, the last word excepted. Hence the selections of a list, and
those of a reference, go forward after an insertion if they did before, and after a removal exactly if none
of them is torn. -/
theorem keeps_order (start length : Word) :
    (∀ earlier later : Word, earlier.val ≤ later.val →
      ((insert start length).follow earlier).val ≤ ((insert start length).follow later).val ∧
      (((remove start length).follow earlier).val ≤ ((remove start length).follow later).val ↔
        ¬ Torn start length earlier later)) ∧
    (∀ position : Word, start.val ≤ position.val → position.val < start.val + length.val →
      (position.val ≠ 0xFFFFFFFFFFFFFFFF → (remove start length).follow position = start) ∧
      (position.val = 0xFFFFFFFFFFFFFFFF →
        ((remove start length).follow position).val < start.val)) ∧
    (∀ selections : List IndexRange, AllForward selections →
      AllForward (selections.map (IndexRange.map (insert start length).follow)) ∧
      (AllForward (selections.map (IndexRange.map (remove start length).follow)) ↔
        ∀ selection ∈ selections, ¬ Torn start length selection.start selection.finish)) ∧
    ∀ value : ReferenceValue, AllForward value.selections →
      AllForward (value.map (insert start length).follow).selections ∧
      (AllForward (value.map (remove start length).follow).selections ↔
        ∀ selection ∈ value.selections, ¬ Torn start length selection.start selection.finish) := by
  refine ⟨?positions, fun _ => follow_inside,
    fun _ forward => ⟨allForward_insert forward, allForward_remove_iff forward⟩, ?references⟩
  case positions =>
    intro earlier later ordered
    exact ⟨Position.afterInsert_mono ordered, Position.afterRemove_mono_iff ordered⟩
  case references =>
    intro value forward
    rw [ReferenceValue.selections_map, ReferenceValue.selections_map]
    exact ⟨allForward_insert forward, allForward_remove_iff forward⟩

/-- A removal that runs past the last word turns the selection round that ends there. One place shorter at
the end of the selection, or a shorter removal, and it goes forward still. -/
theorem keeps_order_up_to_last_word :
    let start : Word := ⟨10, by decide⟩
    let last : Word := ⟨0xFFFFFFFFFFFFFFFF, by decide⟩
    let torn : IndexRange := ⟨⟨5, by decide⟩, last⟩
    let whole : IndexRange := ⟨⟨5, by decide⟩, ⟨0xFFFFFFFFFFFFFFFE, by decide⟩⟩
    AllForward [torn] ∧ AllForward [whole] ∧
      Torn start last torn.start torn.finish ∧ ¬ Torn start last whole.start whole.finish ∧
      ¬ AllForward ((ReferenceValue.range torn).map (remove start last).follow).selections ∧
      AllForward ((ReferenceValue.range whole).map (remove start last).follow).selections ∧
      ((remove start last).follow last).val = 0 ∧
      (remove start last).follow whole.finish = start := by
  intro start last torn whole
  have tornForward : AllForward [torn] := by simp [AllForward, torn, last]
  have wholeForward : AllForward [whole] := by simp [AllForward, whole]
  have tears : Torn start last torn.start torn.finish := by decide
  have spares : ¬ Torn start last whole.start whole.finish := by decide
  obtain ⟨-, inside, -, references⟩ := keeps_order start last
  refine ⟨tornForward, wholeForward, tears, spares, fun forward => ?_, ?_, by decide,
    (inside whole.finish (by decide) (by decide)).1 (by decide)⟩
  · exact ((references (.range torn) tornForward).2.mp forward) torn (List.mem_singleton_self _) tears
  · refine (references (.range whole) wholeForward).2.mpr fun selection listed => ?_
    rw [List.mem_singleton.mp listed]
    exact spares

end Shift

end SharedDocument
