import SharedDocument.Proofs.Transform.Operation
import SharedDocument.Proofs.Transform.Overflow

/-! How far the transforms push positions. Of two edits that meet in an array, each names afterwards at
most one position more than the larger one before. So operations whose positions stay as far away from
the last word as there are edits to meet never leave the range of words. -/

namespace SharedDocument

def Ensures {α : Type} (property : α → Prop) (result : Except Overflow α) : Prop :=
  ∀ value, result = .ok value → property value

namespace Ensures

variable {α β : Type} {early : α → Prop} {late : β → Prop} {first : Except Overflow α}

theorem of_ok {value : α} (holds : early value) : Ensures early (.ok value) := by
  rintro _ ⟨⟩
  exact holds

theorem bind {next : α → Except Overflow β} (firstEnsures : Ensures early first)
    (nextEnsures : ∀ value, early value → Ensures late (next value)) :
    Ensures late (first >>= next) := by
  intro result reached
  obtain ⟨value, found, further⟩ := Fallible.bind_eq_ok_iff.mp reached
  exact nextEnsures value (firstEnsures value found) result further

theorem map {transform : α → β} (ensures : Ensures early first)
    (carries : ∀ value, early value → late (transform value)) :
    Ensures late (first.map transform) := by
  intro result reached
  obtain ⟨value, found, rfl⟩ := Fallible.map_eq_ok_iff.mp reached
  exact carries value (ensures value found)

variable {word : Word} {bound : Nat}

theorem plus?_one (below : word.val ≤ bound) :
    Ensures (fun next => next.val ≤ bound + 1) (word.plus? 1) := by
  intro next shifted
  rw [(Word.plus?_eq_ok_iff word next 1).mp shifted]
  exact Nat.add_le_add_right below 1

theorem minus?_one (below : word.val ≤ bound) :
    Ensures (fun next => next.val ≤ bound) (word.minus? 1) := by
  intro next shifted
  rw [((Word.minus?_eq_ok_iff word next 1).mp shifted).2]
  exact Nat.le_trans (Nat.sub_le _ _) below

theorem plusIf? (below : word.val ≤ bound) (asked : Bool) :
    Ensures (fun next => next.val ≤ bound + 1) (word.plusIf? asked) := by
  unfold Word.plusIf?
  split
  · exact .plus?_one below
  · exact .of_ok (Nat.le_succ_of_le below)

theorem minusIf? (below : word.val ≤ bound) (asked : Bool) :
    Ensures (fun next => next.val ≤ bound) (word.minusIf? asked) := by
  unfold Word.minusIf?
  split
  · exact .minus?_one below
  · exact .of_ok below

end Ensures

namespace ArrayEdit

def reach : ArrayEdit → Nat
  | .insert index _ => index.val
  | .remove index => index.val
  | .replace index _ => index.val
  | .move source target => max source.val target.val

def BothReach (bound : Nat) (pair : Outcome ArrayEdit) : Prop :=
  pair.server.change.reach ≤ bound ∧ pair.client.change.reach ≤ bound

theorem BothReach.swap {bound : Nat} {pair : Outcome ArrayEdit} (both : BothReach bound pair) :
    BothReach bound pair.swap :=
  And.symm both

section

variable {bound : Nat} {serverIndex clientIndex source target : Word}
  {serverValue clientValue : DataValue} (serverBelow : serverIndex.val ≤ bound)

include serverBelow

theorem insertInsert_reach (clientBelow : clientIndex.val ≤ bound) :
    Ensures (BothReach (bound + 1)) (insertInsert serverIndex serverValue clientIndex clientValue) := by
  unfold insertInsert
  split
  · exact .bind (.plus?_one clientBelow) fun _ shiftedBelow =>
      .of_ok ⟨Nat.le_succ_of_le serverBelow, shiftedBelow⟩
  · exact .bind (.plus?_one serverBelow) fun _ shiftedBelow =>
      .of_ok ⟨shiftedBelow, Nat.le_succ_of_le clientBelow⟩

theorem insertRemove_reach (clientBelow : clientIndex.val ≤ bound) :
    Ensures (BothReach (bound + 1)) (insertRemove serverIndex serverValue clientIndex) := by
  unfold insertRemove
  split
  · exact .bind (.plus?_one clientBelow) fun _ shiftedBelow =>
      .of_ok ⟨Nat.le_succ_of_le serverBelow, shiftedBelow⟩
  · exact .bind (.minus?_one serverBelow) fun _ shiftedBelow =>
      .of_ok ⟨Nat.le_succ_of_le shiftedBelow, Nat.le_succ_of_le clientBelow⟩

theorem insertReplace_reach (clientBelow : clientIndex.val ≤ bound) :
    Ensures (BothReach (bound + 1))
      (insertReplace serverIndex serverValue clientIndex clientValue) := by
  unfold insertReplace
  split
  · exact .bind (.plus?_one clientBelow) fun _ shiftedBelow =>
      .of_ok ⟨Nat.le_succ_of_le serverBelow, shiftedBelow⟩
  · exact .of_ok ⟨Nat.le_succ_of_le serverBelow, Nat.le_succ_of_le clientBelow⟩

theorem insertMove_reach (sourceBelow : source.val ≤ bound) (targetBelow : target.val ≤ bound) :
    Ensures (BothReach (bound + 1)) (insertMove serverIndex serverValue source target) := by
  unfold insertMove
  refine .bind (.minusIf? serverBelow _) fun gap gapBelow =>
    .bind (.plusIf? sourceBelow _) fun newSource newSourceBelow => ?_
  cases (if gap ≠ target then decide (gap.val < target.val)
      else decide (serverIndex.val ≤ source.val)) with
  | true =>
      exact .bind (.plus?_one targetBelow) fun _ shiftedBelow =>
        .of_ok ⟨Nat.le_succ_of_le gapBelow, Nat.max_le.mpr ⟨newSourceBelow, shiftedBelow⟩⟩
  | false =>
      exact .bind (.plus?_one gapBelow) fun _ shiftedBelow =>
        .of_ok ⟨shiftedBelow, Nat.max_le.mpr ⟨newSourceBelow, Nat.le_succ_of_le targetBelow⟩⟩

theorem removeRemove_reach (clientBelow : clientIndex.val ≤ bound) :
    Ensures (BothReach (bound + 1)) (removeRemove serverIndex clientIndex) := by
  have serverNext := Nat.le_succ_of_le serverBelow
  have clientNext := Nat.le_succ_of_le clientBelow
  unfold removeRemove
  split
  · exact .of_ok ⟨serverNext, clientNext⟩
  · split
    · exact .bind (.minus?_one clientNext) fun _ shiftedBelow => .of_ok ⟨serverNext, shiftedBelow⟩
    · exact .bind (.minus?_one serverNext) fun _ shiftedBelow => .of_ok ⟨shiftedBelow, clientNext⟩

theorem removeReplace_reach (clientBelow : clientIndex.val ≤ bound) :
    Ensures (BothReach (bound + 1)) (removeReplace serverIndex clientIndex clientValue) := by
  have serverNext := Nat.le_succ_of_le serverBelow
  have clientNext := Nat.le_succ_of_le clientBelow
  unfold removeReplace
  split
  · exact .of_ok ⟨serverNext, clientNext⟩
  · split
    · exact .bind (.minus?_one clientNext) fun _ shiftedBelow => .of_ok ⟨serverNext, shiftedBelow⟩
    · exact .of_ok ⟨serverNext, clientNext⟩

theorem removeMove_reach (sourceBelow : source.val ≤ bound) (targetBelow : target.val ≤ bound) :
    Ensures (BothReach (bound + 1)) (removeMove serverIndex source target) := by
  have sourceNext := Nat.le_succ_of_le sourceBelow
  have targetNext := Nat.le_succ_of_le targetBelow
  unfold removeMove
  split
  · exact .of_ok ⟨targetNext, Nat.max_le.mpr ⟨sourceNext, targetNext⟩⟩
  · exact .bind (.minusIf? serverBelow _) fun gap gapBelow =>
      .bind (.minusIf? sourceNext _) fun newSource newSourceBelow =>
      .bind (.minusIf? targetNext _) fun newTarget newTargetBelow =>
      .bind (.plusIf? gapBelow _) fun newIndex newIndexBelow =>
      .of_ok ⟨newIndexBelow, Nat.max_le.mpr ⟨newSourceBelow, newTargetBelow⟩⟩

theorem replaceMove_reach (sourceBelow : source.val ≤ bound) (targetBelow : target.val ≤ bound) :
    BothReach (bound + 1) (replaceMove serverIndex serverValue source target) := by
  refine ⟨?_, Nat.max_le.mpr ⟨Nat.le_succ_of_le sourceBelow, Nat.le_succ_of_le targetBelow⟩⟩
  change (Position.afterMove source target serverIndex).val ≤ bound + 1
  rw [val_afterMove]
  unfold pushed pulled
  repeat' split
  all_goals omega

end

theorem moveMove_reach {bound : Nat} {serverSource serverTarget clientSource clientTarget : Word}
    (serverSourceBelow : serverSource.val ≤ bound) (serverTargetBelow : serverTarget.val ≤ bound)
    (clientSourceBelow : clientSource.val ≤ bound) (clientTargetBelow : clientTarget.val ≤ bound) :
    Ensures (BothReach (bound + 1))
      (moveMove serverSource serverTarget clientSource clientTarget) := by
  have pairNext {source target : Word} (sourceBelow : source.val ≤ bound)
      (targetBelow : target.val ≤ bound) : (ArrayEdit.move source target).reach ≤ bound + 1 :=
    Nat.le_succ_of_le (Nat.max_le.mpr ⟨sourceBelow, targetBelow⟩)
  unfold moveMove
  split
  · split
    · exact .of_ok ⟨pairNext serverSourceBelow serverTargetBelow,
        pairNext clientSourceBelow clientTargetBelow⟩
    · exact .of_ok ⟨pairNext clientTargetBelow serverTargetBelow,
        pairNext clientSourceBelow clientTargetBelow⟩
  · exact .bind (.minusIf? clientSourceBelow _) fun clientAlone clientAloneBelow =>
      .bind (.minusIf? serverSourceBelow _) fun serverAlone serverAloneBelow =>
      .bind (.minusIf? serverTargetBelow _) fun serverGap serverGapBelow =>
      .bind (.minusIf? clientTargetBelow _) fun clientGap clientGapBelow =>
      .bind (.plusIf? serverGapBelow _) fun newServerTarget serverTargetMoved =>
      .bind (.plusIf? clientGapBelow _) fun newClientTarget clientTargetMoved =>
      .bind (.plusIf? clientAloneBelow _) fun newClientSource clientSourceMoved =>
      .bind (.plusIf? serverAloneBelow _) fun newServerSource serverSourceMoved =>
      .of_ok ⟨Nat.max_le.mpr ⟨serverSourceMoved, serverTargetMoved⟩,
        Nat.max_le.mpr ⟨clientSourceMoved, clientTargetMoved⟩⟩

theorem transform_reach {bound : Nat} {server client : ArrayEdit} (serverBelow : server.reach ≤ bound)
    (clientBelow : client.reach ≤ bound) :
    Ensures (BothReach (bound + 1)) (server.transform client) := by
  have swap : ∀ pair, BothReach (bound + 1) pair → BothReach (bound + 1) pair.swap :=
    fun _ => .swap
  cases server with
  | insert serverIndex serverValue =>
      cases client with
      | insert clientIndex clientValue => exact insertInsert_reach serverBelow clientBelow
      | remove clientIndex => exact insertRemove_reach serverBelow clientBelow
      | replace clientIndex clientValue => exact insertReplace_reach serverBelow clientBelow
      | move source target =>
          obtain ⟨sourceBelow, targetBelow⟩ := Nat.max_le.mp clientBelow
          exact insertMove_reach serverBelow sourceBelow targetBelow
  | remove serverIndex =>
      cases client with
      | insert clientIndex clientValue => exact (insertRemove_reach clientBelow serverBelow).map swap
      | remove clientIndex => exact removeRemove_reach serverBelow clientBelow
      | replace clientIndex clientValue => exact removeReplace_reach serverBelow clientBelow
      | move source target =>
          obtain ⟨sourceBelow, targetBelow⟩ := Nat.max_le.mp clientBelow
          exact removeMove_reach serverBelow sourceBelow targetBelow
  | replace serverIndex serverValue =>
      cases client with
      | insert clientIndex clientValue => exact (insertReplace_reach clientBelow serverBelow).map swap
      | remove clientIndex => exact (removeReplace_reach clientBelow serverBelow).map swap
      | replace clientIndex clientValue =>
          refine .of_ok ?_
          unfold replaceReplace
          split
          · unfold Outcome.writeConflict
            split <;> exact ⟨Nat.le_succ_of_le serverBelow, Nat.le_succ_of_le clientBelow⟩
          · exact ⟨Nat.le_succ_of_le serverBelow, Nat.le_succ_of_le clientBelow⟩
      | move source target =>
          obtain ⟨sourceBelow, targetBelow⟩ := Nat.max_le.mp clientBelow
          exact .of_ok (replaceMove_reach serverBelow sourceBelow targetBelow)
  | move serverSource serverTarget =>
      obtain ⟨serverSourceBelow, serverTargetBelow⟩ := Nat.max_le.mp serverBelow
      cases client with
      | insert clientIndex clientValue =>
          exact (insertMove_reach clientBelow serverSourceBelow serverTargetBelow).map swap
      | remove clientIndex =>
          exact (removeMove_reach clientBelow serverSourceBelow serverTargetBelow).map swap
      | replace clientIndex clientValue =>
          exact .of_ok (replaceMove_reach clientBelow serverSourceBelow serverTargetBelow).swap
      | move source target =>
          obtain ⟨sourceBelow, targetBelow⟩ := Nat.max_le.mp clientBelow
          exact moveMove_reach serverSourceBelow serverTargetBelow sourceBelow targetBelow

theorem AtLast.reach {edit : ArrayEdit} (atLast : edit.AtLast) : Word.last.val ≤ edit.reach := by
  cases edit with
  | insert index value => exact atLast.elim
  | remove index => exact Nat.le_of_eq (congrArg Word.val (Eq.symm atLast))
  | replace index value => exact Nat.le_of_eq (congrArg Word.val (Eq.symm atLast))
  | move source target =>
      rcases atLast with rfl | rfl
      · exact Nat.le_max_left _ _
      · exact Nat.le_max_right _ _

theorem Overflows.reach {server client : ArrayEdit} (overflows : server.Overflows client) :
    Word.last.val ≤ max server.reach client.reach := by
  cases server with
  | insert serverIndex serverValue =>
      cases client with
      | insert clientIndex clientValue => exact Nat.le_of_eq (Eq.symm overflows)
      | remove | replace | move =>
          refine Nat.le_trans ?_ (Nat.le_max_right _ _)
          exact AtLast.reach overflows
  | remove | replace | move =>
      cases client with
      | insert clientIndex clientValue =>
          refine Nat.le_trans ?_ (Nat.le_max_left _ _)
          exact AtLast.reach overflows
      | remove | replace | move => exact overflows.elim

end ArrayEdit

namespace Change

def reach : Change → Nat
  | .array edit => edit.reach
  | _ => 0

def BothReach (bound : Nat) (pair : Outcome Change) : Prop :=
  pair.server.change.reach ≤ bound ∧ pair.client.change.reach ≤ bound

theorem transform_reach {bound : Nat} {server client : Change} (serverBelow : server.reach ≤ bound)
    (clientBelow : client.reach ≤ bound) :
    Ensures (fun found => ∀ pair, found = some pair → BothReach (bound + 1) pair)
      (server.transform client) := by
  have both : server.reach ≤ bound + 1 ∧ client.reach ≤ bound + 1 :=
    ⟨Nat.le_succ_of_le serverBelow, Nat.le_succ_of_le clientBelow⟩
  have unmatched : ∀ pair, (none : Option (Outcome Change)) = some pair →
      BothReach (bound + 1) pair := nofun
  have matched {pair : Outcome Change} (reached : BothReach (bound + 1) pair) :
      ∀ other, some pair = some other → BothReach (bound + 1) other := by
    rintro _ ⟨⟩
    exact reached
  unfold transform
  split
  · cases server with
    | set left =>
        cases client with
        | set right =>
            refine .of_ok (matched ?_)
            unfold Outcome.writeConflict
            split <;> exact both
        | _ => exact .of_ok (matched both)
    | text left =>
        cases client with
        | set right => exact .of_ok (matched both)
        | text right =>
            have trivially : Ensures (fun _ => True) (left.transform right) := fun _ _ => trivial
            exact trivially.map fun _ _ => matched ⟨Nat.zero_le _, Nat.zero_le _⟩
        | _ => exact .of_ok unmatched
    | array left =>
        cases client with
        | set right => exact .of_ok (matched both)
        | array right =>
            refine (ArrayEdit.transform_reach serverBelow clientBelow).map fun pair reached => ?_
            exact matched ⟨reached.1, reached.2⟩
        | _ => exact .of_ok unmatched
    | property left =>
        cases client with
        | set right => exact .of_ok (matched both)
        | property right => exact .of_ok (matched ⟨Nat.zero_le _, Nat.zero_le _⟩)
        | _ => exact .of_ok unmatched
    | addNumber amount =>
        cases client with
        | set right => exact .of_ok (matched both)
        | addNumber other => exact .of_ok (matched both)
        | _ => exact .of_ok unmatched
  · exact .of_ok unmatched

theorem Overflows.reach {server client : Change} (overflows : server.Overflows client) :
    Word.last.val ≤ max server.reach client.reach := by
  cases server with
  | array left =>
      cases client with
      | array right => exact ArrayEdit.Overflows.reach overflows
      | _ => exact overflows.elim
  | _ => exact overflows.elim

end Change

/-- The computation does not overflow, and if it succeeds the property holds of its result. -/
def InRange {α : Type} (property : α → Prop) : Except TransformError α → Prop
  | .ok value => property value
  | .error fault => ∀ overflow, fault ≠ .overflow overflow

namespace InRange

variable {α β : Type} {early : α → Prop} {late : β → Prop} {first : Except TransformError α}

theorem bind {next : α → Except TransformError β} (firstInRange : InRange early first)
    (nextInRange : ∀ value, first = .ok value → early value → InRange late (next value)) :
    InRange late (first >>= next) := by
  cases first with
  | ok value => exact nextInRange value rfl firstInRange
  | error fault => exact firstInRange

theorem map_iff (transform : α → β) :
    InRange late (first.map transform) ↔ InRange (fun value => late (transform value)) first := by
  cases first <;> rfl

theorem mono {later : α → Prop} (inRange : InRange early first)
    (carries : ∀ value, early value → later value) : InRange later first := by
  cases first with
  | ok value => exact carries value inRange
  | error fault => exact inRange

theorem ne_overflow (inRange : InRange early first) (overflow : Overflow) :
    first ≠ .error (.overflow overflow) := by
  rintro rfl
  exact inRange overflow rfl

end InRange

namespace Edit

variable {ancestry : Ancestry} {bound : Nat}

/-- The edit is a no-op, or names no position in an array beyond the bound. -/
def ReachesAtMost (bound : Nat) (edit : Edit) : Prop :=
  edit.isNoOp = false → edit.change.reach ≤ bound

theorem ReachesAtMost.mono {edit : Edit} {larger : Nat} (below : edit.ReachesAtMost bound)
    (grows : bound ≤ larger) : edit.ReachesAtMost larger :=
  fun live => Nat.le_trans (below live) grows

theorem reachesAtMost_asNoOp (bound : Nat) (edit : Edit) : edit.asNoOp.ReachesAtMost bound :=
  nofun

theorem ReachesAtMost.adapt {edit : Edit} {adapted : Adapted Change}
    (below : adapted.change.reach ≤ bound) : (edit.adapt adapted).ReachesAtMost bound :=
  fun _ => below

theorem transform_inRange {server client : Edit} (serverBelow : server.ReachesAtMost bound)
    (clientBelow : client.ReachesAtMost bound) (room : bound < 0xFFFFFFFFFFFFFFFF) :
    InRange (fun pair => pair.server.ReachesAtMost (bound + 1) ∧
      pair.client.ReachesAtMost (bound + 1)) (server.transform ancestry client) := by
  have serverNext := serverBelow.mono (Nat.le_succ bound)
  have clientNext := clientBelow.mono (Nat.le_succ bound)
  unfold transform
  split
  · exact ⟨serverNext, clientNext⟩
  · rename_i busy
    obtain ⟨serverLive, clientLive⟩ := Bool.or_eq_false_iff.mp (Bool.not_eq_true _ ▸ busy)
    split
    · have reached := Change.transform_reach (serverBelow serverLive) (clientBelow clientLive)
      cases transformed : server.change.transform client.change with
      | error fault =>
          have overflows := ((Change.transform_exceedsIff _ _ fault).mp transformed).2.reach
          have below := Nat.max_le.mpr ⟨serverBelow serverLive, clientBelow clientLive⟩
          have largest : Word.last.val = 0xFFFFFFFFFFFFFFFF := rfl
          omega
      | ok found =>
          cases found with
          | none => exact fun _ => nofun
          | some pair =>
              obtain ⟨serverReach, clientReach⟩ := reached _ transformed pair rfl
              exact ⟨.adapt serverReach, .adapt clientReach⟩
    · split
      · exact ⟨serverNext, reachesAtMost_asNoOp _ _⟩
      · split
        · exact ⟨reachesAtMost_asNoOp _ _, clientNext⟩
        · exact ⟨serverNext, clientNext⟩

/-- The bound that an edit keeps to grows by one with each edit before it. -/
def Spread : Nat → List Edit → Prop
  | _, [] => True
  | bound, edit :: rest => edit.ReachesAtMost bound ∧ Spread (bound + 1) rest

theorem Spread.of_forall {edits : List Edit} (below : ∀ edit ∈ edits, edit.ReachesAtMost bound) :
    Spread bound edits := by
  induction edits generalizing bound with
  | nil => trivial
  | cons edit rest ih =>
      obtain ⟨first, later⟩ := List.forall_mem_cons.mp below
      exact ⟨first, ih fun other listed => (later other listed).mono (Nat.le_succ bound)⟩

theorem Spread.mono {edits : List Edit} {larger : Nat} (spread : Spread bound edits)
    (grows : bound ≤ larger) : Spread larger edits := by
  induction edits generalizing bound larger with
  | nil => trivial
  | cons edit rest ih => exact ⟨spread.1.mono grows, ih spread.2 (Nat.succ_le_succ grows)⟩

theorem spread_append {before after : List Edit} :
    Spread bound (before ++ after) ↔ Spread bound before ∧ Spread (bound + before.length) after := by
  induction before generalizing bound with
  | nil => simp [Spread]
  | cons edit rest ih =>
      rw [List.cons_append, Spread, Spread, ih, List.length_cons, and_assoc, Nat.add_right_comm,
        Nat.add_assoc]

theorem against_inRange {server : Edit} {client : List Edit} (serverBelow : server.ReachesAtMost bound)
    (clientSpread : Spread bound client) (room : bound + client.length ≤ 0xFFFFFFFFFFFFFFFF) :
    InRange (fun row => row.1.ReachesAtMost (bound + client.length) ∧ Spread (bound + 1) row.2)
      (server.against ancestry client) := by
  induction client generalizing bound server with
  | nil => exact ⟨serverBelow, trivial⟩
  | cons first rest ih =>
      obtain ⟨firstBelow, restSpread⟩ := clientSpread
      rw [List.length_cons] at room ⊢
      refine (transform_inRange serverBelow firstBelow (by omega)).bind ?_
      rintro pair - ⟨serverNext, firstNext⟩
      refine (ih serverNext restSpread (by omega)).bind ?_
      rintro row - ⟨serverLast, restNext⟩
      exact ⟨serverLast.mono (by omega), firstNext, restNext⟩

/-- Each side is pushed by the edits of the other one. -/
theorem transformAll_inRange {server client : List Edit} (serverSpread : Spread bound server)
    (clientSpread : Spread bound client)
    (room : bound + server.length + client.length ≤ 0xFFFFFFFFFFFFFFFF) :
    InRange (fun result => Spread (bound + client.length) result.1 ∧
      Spread (bound + server.length) result.2) (transformAll ancestry server client) := by
  induction server generalizing bound client with
  | nil => exact ⟨trivial, clientSpread⟩
  | cons first rest ih =>
      obtain ⟨firstBelow, restSpread⟩ := serverSpread
      rw [List.length_cons] at room ⊢
      refine (against_inRange firstBelow clientSpread (by omega)).bind ?_
      rintro row rowFound ⟨firstNext, rowSpread⟩
      have sameLength := (against_descends rowFound).2.length_eq
      refine (ih restSpread rowSpread (by omega)).bind ?_
      rintro result - ⟨restNext, clientNext⟩
      rw [← sameLength, Nat.add_right_comm] at restNext
      exact ⟨⟨firstNext, restNext⟩, clientNext.mono (by omega)⟩

end Edit

end SharedDocument
