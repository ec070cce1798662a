import SharedDocument.Proofs.Position.Exact
import SharedDocument.Proofs.Transform.Change

/-! Where the transforms leave the range of words. Operations are transformed before anybody has
compared their positions with a document, so any words may meet. Texts are transformed within the range
always. Arrays leave it only where an insertion meets a position that is the last word already, and
would push it further. -/

namespace SharedDocument

def Word.last : Word :=
  ⟨0xFFFFFFFFFFFFFFFF, by decide⟩

theorem Word.eq_last_iff {word : Word} : word = .last ↔ 0xFFFFFFFFFFFFFFFF ≤ word.val := by
  have bound := word.isLt
  constructor
  · rintro rfl
    exact le_refl _
  · intro largest
    exact Word.ext_val (by change word.val = 0xFFFFFFFFFFFFFFFF; omega)

/-- The computation fails under the condition and not otherwise, and it is an addition that fails. -/
def ExceedsIff {α : Type} (condition : Prop) (result : Except Overflow α) : Prop :=
  ∀ fault, result = .error fault ↔ fault = .addition ∧ condition

namespace ExceedsIff

variable {α β : Type} {condition early late : Prop} {result first : Except Overflow α} {value : α}
  {next : α → Except Overflow β}

theorem of_ok (succeeds : result = .ok value) (never : ¬ condition) :
    ExceedsIff condition result := by
  intro fault
  simp [succeeds, never]

theorem isOk (exceeds : ExceedsIff condition result) (never : ¬ condition) :
    ∃ value, result = .ok value := by
  cases reached : result with
  | error fault => exact absurd ((exceeds fault).mp reached).2 never
  | ok value => exact ⟨value, rfl⟩

theorem congr (exceeds : ExceedsIff early result) (same : early ↔ condition) :
    ExceedsIff condition result :=
  fun fault => (exceeds fault).trans (and_congr_right fun _ => same)

theorem map (exceeds : ExceedsIff condition result) (transform : α → β) :
    ExceedsIff condition (result.map transform) :=
  fun fault => Fallible.map_eq_error_iff.trans (exceeds fault)

theorem after (reached : first = .ok value) (exceeds : ExceedsIff condition (next value)) :
    ExceedsIff condition (first >>= next) := by
  rw [reached]
  exact exceeds

theorem bind (firstExceeds : ExceedsIff early first)
    (nextExceeds : ∀ value, ExceedsIff late (next value)) :
    ExceedsIff (early ∨ late) (first >>= next) := by
  intro fault
  cases reached : first with
  | error earlier =>
      obtain ⟨rfl, holds⟩ := (firstExceeds earlier).mp reached
      simp only [Fallible.bind_eq_error_iff, Except.error.injEq, reduceCtorEq, false_and,
        exists_false, or_false, holds, true_or, and_true]
      exact eq_comm
  | ok value =>
      have notEarly : ¬ early := fun holds => by
        have failed := (firstExceeds .addition).mpr ⟨rfl, holds⟩
        rw [reached] at failed
        cases failed
      simp only [notEarly, false_or]
      exact nextExceeds value fault

/-- The last step that can fail. -/
theorem bind_pure (exceeds : ExceedsIff condition first) (transform : α → β) :
    ExceedsIff condition (first >>= fun value => pure (transform value)) :=
  (bind exceeds fun _ => of_ok rfl not_false).congr (or_iff_left not_false)

theorem plus?_one (word : Word) : ExceedsIff (word = .last) (word.plus? 1) := by
  intro fault
  rw [Word.plus?_eq_error_iff, Word.eq_last_iff]
  exact and_congr_right fun _ => by omega

theorem plusIf? (word : Word) (asked : Bool) :
    ExceedsIff (asked = true ∧ word = .last) (word.plusIf? asked) := by
  unfold Word.plusIf?
  cases asked with
  | false => exact of_ok rfl (by simp)
  | true => exact (plus?_one word).congr (by simp)

end ExceedsIff

theorem Word.minus?_eq_ok {word : Word} {amount : Nat} (enough : amount ≤ word.val) :
    word.minus? amount = .ok (word.minus amount) :=
  (Word.minus?_eq_ok_iff _ _ _).mpr ⟨enough, rfl⟩

namespace TextEdit

theorem insertRemove_exceedsIff (serverIndex : Word) (serverValue : String)
    (clientIndex clientLength : Word) :
    ExceedsIff False (insertRemove serverIndex serverValue clientIndex clientLength) := by
  have lengthBound := clientLength.isLt
  unfold insertRemove
  simp only
  split
  · exact .of_ok rfl not_false
  · split
    · rename_i after
      rw [Word.val_plus] at after
      exact .after (Word.minus?_eq_ok (by omega)) (.of_ok rfl not_false)
    · exact .of_ok rfl not_false

theorem removeRemove_exceedsIff (serverIndex serverLength clientIndex clientLength : Word) :
    ExceedsIff False (removeRemove serverIndex serverLength clientIndex clientLength) := by
  unfold removeRemove
  simp only [Word.val_plus]
  exact .after (Word.minus?_eq_ok (by omega)) <| .after (Word.minus?_eq_ok (by omega)) <|
    .after (Word.minus?_eq_ok (by omega)) <| .after (Word.minus?_eq_ok (by omega)) <|
    .of_ok rfl not_false

theorem transform_exceedsIff (server client : TextEdit) :
    ExceedsIff False (server.transform client) := by
  cases server with
  | insert serverIndex serverValue =>
      cases client with
      | insert clientIndex clientValue => exact .of_ok rfl not_false
      | remove clientIndex clientLength => exact insertRemove_exceedsIff _ _ _ _
  | remove serverIndex serverLength =>
      cases client with
      | insert clientIndex clientValue => exact (insertRemove_exceedsIff _ _ _ _).map _
      | remove clientIndex clientLength => exact removeRemove_exceedsIff _ _ _ _

end TextEdit

namespace ArrayEdit

def AtLast : ArrayEdit → Prop
  | .insert _ _ => False
  | .remove index => index = .last
  | .replace index _ => index = .last
  | .move source target => source = .last ∨ target = .last

/-- One of the edits inserts, and a position of the other one is the last word; of two insertions, the
larger position. -/
def Overflows : ArrayEdit → ArrayEdit → Prop
  | .insert serverIndex _, .insert clientIndex _ =>
      max serverIndex.val clientIndex.val = Word.last.val
  | .insert _ _, client => client.AtLast
  | server, .insert _ _ => server.AtLast
  | _, _ => False

variable {serverIndex clientIndex source target : Word} {serverValue clientValue : DataValue}

theorem insertInsert_exceedsIff :
    ExceedsIff (max serverIndex.val clientIndex.val = Word.last.val)
      (insertInsert serverIndex serverValue clientIndex clientValue) := by
  have largest : Word.last.val = 0xFFFFFFFFFFFFFFFF := rfl
  have serverBound := serverIndex.isLt
  have clientBound := clientIndex.isLt
  unfold insertInsert
  split
  · refine ((ExceedsIff.plus?_one clientIndex).bind_pure _).congr ?_
    rw [Word.eq_last_iff]
    omega
  · refine ((ExceedsIff.plus?_one serverIndex).bind_pure _).congr ?_
    rw [Word.eq_last_iff]
    omega

theorem insertRemove_exceedsIff :
    ExceedsIff (clientIndex = .last) (insertRemove serverIndex serverValue clientIndex) := by
  have bound := serverIndex.isLt
  unfold insertRemove
  split
  · exact (ExceedsIff.plus?_one clientIndex).bind_pure _
  · refine .after (Word.minus?_eq_ok (by omega)) (.of_ok rfl ?_)
    rw [Word.eq_last_iff]
    omega

theorem insertReplace_exceedsIff :
    ExceedsIff (clientIndex = .last)
      (insertReplace serverIndex serverValue clientIndex clientValue) := by
  have bound := serverIndex.isLt
  unfold insertReplace
  split
  · exact (ExceedsIff.plus?_one clientIndex).bind_pure _
  · refine .of_ok rfl ?_
    rw [Word.eq_last_iff]
    omega

theorem insertMove_exceedsIff :
    ExceedsIff (source = .last ∨ target = .last)
      (insertMove serverIndex serverValue source target) := by
  have serverBound := serverIndex.isLt
  have targetBound := target.isLt
  obtain ⟨gap, gapExactly, gapVal⟩ := minusIf?_pulled serverIndex source.val
    (show (!decide (serverIndex.val ≤ source.val)) = true ↔ _ by simp)
  unfold pulled at gapVal
  have gapEq : gap = target ↔ gap.val = target.val := ⟨congrArg Word.val, Word.ext_val⟩
  refine .after gapExactly ?_
  -- the one that comes first pushes the other one
  cases insertedFirst : (if gap ≠ target then decide (gap.val < target.val)
      else decide (serverIndex.val ≤ source.val)) with
  | true =>
      simp only [if_true]
      refine ((ExceedsIff.plusIf? source _).bind fun _ =>
        (ExceedsIff.plus?_one target).bind_pure _).congr ?_
      simp only [decide_eq_true_eq, Word.eq_last_iff]
      omega
  | false =>
      simp only [Bool.false_eq_true, if_false]
      refine ((ExceedsIff.plusIf? source _).bind fun _ =>
        (ExceedsIff.plus?_one gap).bind_pure _).congr ?_
      simp only [decide_eq_true_eq, Word.eq_last_iff]
      grind

theorem removeRemove_exceedsIff : ExceedsIff False (removeRemove serverIndex clientIndex) := by
  unfold removeRemove
  split
  · exact .of_ok rfl not_false
  · rename_i apart
    have different : serverIndex.val ≠ clientIndex.val := fun same => apart (Word.ext_val same)
    split <;> exact .after (Word.minus?_eq_ok (by omega)) (.of_ok rfl not_false)

theorem removeReplace_exceedsIff :
    ExceedsIff False (removeReplace serverIndex clientIndex clientValue) := by
  unfold removeReplace
  split
  · exact .of_ok rfl not_false
  · split
    · exact .after (Word.minus?_eq_ok (by omega)) (.of_ok rfl not_false)
    · exact .of_ok rfl not_false

theorem removeMove_exceedsIff : ExceedsIff False (removeMove serverIndex source target) := by
  have serverBound := serverIndex.isLt
  unfold removeMove
  split
  · exact .of_ok rfl not_false
  · rename_i apart
    have different : serverIndex.val ≠ source.val := fun same => apart (Word.ext_val same)
    obtain ⟨gap, gapExactly, gapVal⟩ := minusIf?_pulled serverIndex source.val
      (show decide (source.val ≤ serverIndex.val) = true ↔ _ by simp; omega)
    obtain ⟨newSource, sourceExactly, -⟩ := minusIf?_pulled source serverIndex.val
      (show decide (serverIndex.val < source.val) = true ↔ _ by simp)
    obtain ⟨newTarget, targetExactly, -⟩ := minusIf?_pulled target gap.val
      (show decide (gap.val < target.val) = true ↔ _ by simp)
    refine .after gapExactly (.after sourceExactly (.after targetExactly
      (((ExceedsIff.plusIf? gap _).bind_pure _).congr ?_)))
    have sourceBound := source.isLt
    unfold pulled at gapVal
    simp only [Word.eq_last_iff, iff_false]
    split at gapVal <;> omega

theorem moveMove_exceedsIff {serverSource serverTarget clientSource clientTarget : Word} :
    ExceedsIff False (moveMove serverSource serverTarget clientSource clientTarget) := by
  have serverSourceBound := serverSource.isLt
  have serverTargetBound := serverTarget.isLt
  have clientSourceBound := clientSource.isLt
  have clientTargetBound := clientTarget.isLt
  unfold moveMove
  split
  · split <;> exact .of_ok rfl not_false
  · rename_i apart
    have different : serverSource.val ≠ clientSource.val := fun same => apart (Word.ext_val same)
    obtain ⟨clientAlone, clientAloneExactly, clientAloneVal⟩ :=
      minusIf?_pulled clientSource serverSource.val
        (show decide (serverSource.val < clientSource.val) = true ↔ _ by simp)
    obtain ⟨serverAlone, serverAloneExactly, serverAloneVal⟩ :=
      minusIf?_pulled serverSource clientSource.val
        (show decide (clientSource.val < serverSource.val) = true ↔ _ by simp)
    obtain ⟨serverGap, serverGapExactly, serverGapVal⟩ :=
      minusIf?_pulled serverTarget clientAlone.val
        (show decide (clientAlone.val < serverTarget.val) = true ↔ _ by simp)
    obtain ⟨clientGap, clientGapExactly, clientGapVal⟩ :=
      minusIf?_pulled clientTarget serverAlone.val
        (show decide (serverAlone.val < clientTarget.val) = true ↔ _ by simp)
    -- with both elements taken out no gap is the last word, nor is a place without the other element
    have roomAlone : clientAlone.val < 0xFFFFFFFFFFFFFFFF ∧ serverAlone.val < 0xFFFFFFFFFFFFFFFF := by
      unfold pulled at clientAloneVal serverAloneVal
      constructor <;> split at clientAloneVal <;> split at serverAloneVal <;> omega
    have roomGaps : serverGap.val < 0xFFFFFFFFFFFFFFFF ∧ clientGap.val < 0xFFFFFFFFFFFFFFFF := by
      unfold pulled at serverGapVal clientGapVal
      constructor <;> split at serverGapVal <;> split at clientGapVal <;> omega
    refine .after clientAloneExactly (.after serverAloneExactly (.after serverGapExactly
      (.after clientGapExactly ?_)))
    refine ((ExceedsIff.plusIf? serverGap _).bind fun _ => (ExceedsIff.plusIf? clientGap _).bind
      fun _ => (ExceedsIff.plusIf? clientAlone _).bind fun _ =>
        (ExceedsIff.plusIf? serverAlone _).bind_pure _).congr ?_
    simp only [Word.eq_last_iff, iff_false]
    omega

theorem transform_exceedsIff (server client : ArrayEdit) :
    ExceedsIff (server.Overflows client) (server.transform client) := by
  cases server with
  | insert serverIndex serverValue =>
      cases client with
      | insert clientIndex clientValue => exact insertInsert_exceedsIff
      | remove clientIndex => exact insertRemove_exceedsIff
      | replace clientIndex clientValue => exact insertReplace_exceedsIff
      | move source target => exact insertMove_exceedsIff
  | remove serverIndex =>
      cases client with
      | insert clientIndex clientValue => exact insertRemove_exceedsIff.map _
      | remove clientIndex => exact removeRemove_exceedsIff
      | replace clientIndex clientValue => exact removeReplace_exceedsIff
      | move source target => exact removeMove_exceedsIff
  | replace serverIndex serverValue =>
      cases client with
      | insert clientIndex clientValue => exact insertReplace_exceedsIff.map _
      | remove clientIndex => exact removeReplace_exceedsIff.map _
      | replace clientIndex clientValue => exact .of_ok rfl not_false
      | move source target => exact .of_ok rfl not_false
  | move serverSource serverTarget =>
      cases client with
      | insert clientIndex clientValue => exact insertMove_exceedsIff.map _
      | remove clientIndex => exact removeMove_exceedsIff.map _
      | replace clientIndex clientValue => exact .of_ok rfl not_false
      | move source target => exact moveMove_exceedsIff

end ArrayEdit

namespace Change

def Overflows : Change → Change → Prop
  | .array server, .array client => server.Overflows client
  | _, _ => False

theorem transform_exceedsIff (server client : Change) :
    ExceedsIff (server.Overflows client) (server.transform client) := by
  unfold transform
  split
  · cases server with
    | set left => cases client <;> exact .of_ok rfl not_false
    | text left =>
        cases client with
        | text right => exact (left.transform_exceedsIff right).map _
        | _ => exact .of_ok rfl not_false
    | array left =>
        cases client with
        | array right => exact (left.transform_exceedsIff right).map _
        | _ => exact .of_ok rfl not_false
    | property left => cases client <;> exact .of_ok rfl not_false
    | addNumber amount => cases client <;> exact .of_ok rfl not_false
  · rename_i different
    refine .of_ok rfl fun overflows => different ?_
    cases server <;> cases client <;> first | exact overflows.elim | simp [kind]

end Change

namespace Edit

variable {ancestry : Ancestry}

def Overflows (server client : Edit) : Prop :=
  server.isNoOp = false ∧ client.isNoOp = false ∧ server.target = client.target ∧
    server.change.Overflows client.change

theorem transform_eq_overflow_iff (ancestry : Ancestry) (server client : Edit) (fault : Overflow) :
    server.transform ancestry client = .error (.overflow fault) ↔
      fault = .addition ∧ server.Overflows client := by
  unfold transform
  split
  · rename_i idle
    simp only [reduceCtorEq, false_iff, not_and]
    rintro - ⟨serverLive, clientLive, -⟩
    simp [serverLive, clientLive] at idle
  · rename_i busy
    obtain ⟨serverLive, clientLive⟩ := Bool.or_eq_false_iff.mp (Bool.not_eq_true _ ▸ busy)
    split
    · rename_i together
      have overflows : server.Overflows client ↔ server.change.Overflows client.change := by
        simp [Overflows, serverLive, clientLive, together]
      rw [overflows, ← Change.transform_exceedsIff server.change client.change fault]
      cases server.change.transform client.change with
      | error other => simp
      | ok found => cases found <;> simp
    · rename_i apart
      have never : ¬ server.Overflows client := fun overflows => apart overflows.2.2.1
      simp only [never, and_false, iff_false]
      split
      · simp
      · split <;> simp

/-- The transform of two edits, over any ancestry, leaves the range of words in the stated cases and in
no others, and it is an addition that does. The shifts by which a replaced child follows a move are
exact. -/
theorem transform_overflows_iff (ancestry : Ancestry) (server client : Edit) :
    (∀ fault, server.transform ancestry client = .error (.overflow fault) ↔
      fault = .addition ∧ server.Overflows client) ∧
    ∀ source target position : Word,
      Position.afterMove? source target position = .ok (Position.afterMove source target position) :=
  ⟨transform_eq_overflow_iff ancestry server client, Position.afterMove?_eq_ok⟩

end Edit

end SharedDocument
