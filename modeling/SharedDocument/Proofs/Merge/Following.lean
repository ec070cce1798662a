import SharedDocument.Proofs.Merge.Array
import SharedDocument.Proofs.Merge.Text
import SharedDocument.Proofs.Position

/-! Positions that two concurrent edits leave their elements. Either edit followed by what is left of the
other takes such a position to one place, and there its element stands in what both have made. -/

namespace SharedDocument

namespace TextEdit

variable {length : Nat} {position : Word}

theorem covers_remove_iff {index count : Word} {place : Nat} :
    covers (.remove index count) place = false ↔
      ¬ (index.val ≤ place ∧ place < index.val + count.val) := by
  simp [covers]

/-- Where a place outside a removed stretch goes: it stays before the stretch and closes up behind it. -/
def closed (start count place : Nat) : Nat :=
  if place < start then place else place - count

theorem val_afterRemove_of_outside {start count : Word}
    (bound : start.val + count.val < 0x10000000000000000)
    (outside : ¬ (start.val ≤ position.val ∧ position.val < start.val + count.val)) :
    (Position.afterRemove start count.val position).val = closed start.val count.val position.val := by
  rw [Position.val_afterRemove, closed]
  split_ifs <;> omega

section

variable {start count otherStart otherCount place : Nat}
  (outside : ¬ (start ≤ place ∧ place < start + count))
  (outsideOther : ¬ (otherStart ≤ place ∧ place < otherStart + otherCount))

include outside outsideOther

/-- A place outside two stretches stays outside what one removal leaves of the other. -/
theorem closed_outside :
    ¬ (otherStart - before start count otherStart ≤ closed start count place ∧
      closed start count place < otherStart - before start count otherStart +
        (otherCount - overlap start count otherStart otherCount)) := by
  unfold closed before overlap
  split_ifs <;> omega

theorem closed_comm :
    closed (otherStart - before start count otherStart)
        (otherCount - overlap start count otherStart otherCount) (closed start count place) =
      closed (start - before otherStart otherCount start)
        (count - overlap otherStart otherCount start count) (closed otherStart otherCount place) := by
  have shared : overlap otherStart otherCount start count =
      overlap start count otherStart otherCount := by
    unfold overlap
    omega
  rw [shared]
  unfold closed before overlap
  by_cases early : place < start
  · rw [if_pos early]
    by_cases earlyOther : place < otherStart
    · rw [if_pos earlyOther, if_pos (by omega), if_pos (by omega)]
    · rw [if_neg earlyOther, if_neg (by omega), if_pos (by omega)]
      omega
  · rw [if_neg early]
    by_cases earlyOther : place < otherStart
    · rw [if_pos earlyOther, if_pos (by omega), if_neg (by omega)]
      omega
    · rw [if_neg earlyOther, if_neg (by omega), if_neg (by omega)]
      omega

end

theorem getElem?_onMarked_follow {edit : TextEdit} {marks : List (Char × Option Nat)}
    (fits : edit.Fits marks.length) (small : marks.length + edit.weight < 0x10000000000000000)
    (inside : position.val < marks.length) (kept : edit.covers position.val = false) :
    (edit.onMarked marks)[(edit.follow position).val]? = marks[position.val]? := by
  cases edit with
  | insert index value =>
      have valueLength : (value.toList.map fun letter => (letter, (none : Option Nat))).length =
          value.length := by
        rw [List.length_map, String.length_toList]
      simp only [weight] at small
      rw [onMarked, getElem?_inserted fits, valueLength, follow, Position.val_afterInsert]
      split_ifs <;> first | omega | rfl | (congr 1; omega)
  | remove index count =>
      obtain ⟨stretchInside, bound⟩ := fits
      have outside := covers_remove_iff.mp kept
      rw [onMarked, getElem?_removed (by omega), follow, val_afterRemove_of_outside bound outside,
        origin, closed]
      congr 1
      split_ifs <;> omega

structure Carries (position : Word) (server client : TextEdit) (outcome : Outcome TextEdit) :
    Prop where
  same : outcome.client.run follow (server.follow position) =
    outcome.server.run follow (client.follow position)
  clientKept : outcome.client.isNoOp = false →
    outcome.client.change.covers (server.follow position).val = false
  serverKept : outcome.server.isNoOp = false →
    outcome.server.change.covers (client.follow position).val = false

theorem Carries.swap {server client : TextEdit} {outcome : Outcome TextEdit}
    (carries : Carries position server client outcome) :
    Carries position client server outcome.swap :=
  ⟨carries.same.symm, carries.serverKept, carries.clientKept⟩

section

variable {serverIndex clientIndex clientLength : Word} {serverValue clientValue : String}
  (inside : position.val < length)

include inside

theorem insertInsert_carries
    (compatible : Compatible length (.insert serverIndex serverValue)
      (.insert clientIndex clientValue)) :
    Carries position (.insert serverIndex serverValue) (.insert clientIndex clientValue)
      (insertInsert serverIndex serverValue clientIndex clientValue) := by
  obtain ⟨serverFits, clientFits, small⟩ := compatible
  simp only [Fits, weight] at serverFits clientFits small
  unfold insertInsert
  split <;> refine ⟨Word.ext_val ?_, fun _ => rfl, fun _ => rfl⟩ <;>
    simp only [Outcome.keepBoth, Adapted.run_keep, follow, Position.val_afterInsert, Word.val_plus] <;>
    split_ifs <;> omega

theorem insertRemove_carries
    (compatible : Compatible length (.insert serverIndex serverValue)
      (.remove clientIndex clientLength))
    (kept : covers (.remove clientIndex clientLength) position.val = false)
    {outcome : Outcome TextEdit}
    (succeeds : insertRemove serverIndex serverValue clientIndex clientLength = .ok outcome) :
    Carries position (.insert serverIndex serverValue) (.remove clientIndex clientLength)
      outcome := by
  obtain ⟨serverFits, ⟨clientFits, clientBound⟩, small⟩ := compatible
  simp only [Fits, weight] at serverFits small
  have outside := covers_remove_iff.mp kept
  have alone := val_afterRemove_of_outside clientBound outside
  rw [closed] at alone
  unfold insertRemove at succeeds
  simp only [val_plus_of_lt clientBound] at succeeds
  split at succeeds
  · cases succeeds
    have moved : (clientIndex.plus serverValue.length).val =
        clientIndex.val + serverValue.length := val_plus_of_lt (by omega)
    refine ⟨Word.ext_val ?_, fun _ => covers_remove_iff.mpr ?_, fun _ => rfl⟩
    · simp only [Outcome.keepBoth, Adapted.run_keep, follow, Position.val_afterInsert, alone,
        Position.val_afterRemove, moved]
      split_ifs <;> omega
    · simp only [follow, Position.val_afterInsert, moved]
      split_ifs <;> omega
  · split at succeeds
    · obtain ⟨shifted, exactly, same⟩ := Fallible.bind_eq_ok_iff.mp succeeds
      obtain ⟨-, rfl⟩ := (Word.minus?_eq_ok_iff _ _ _).mp exactly
      cases same
      refine ⟨Word.ext_val ?_, fun _ => covers_remove_iff.mpr ?_, fun _ => rfl⟩
      · simp only [Outcome.keepBoth, Adapted.run_keep, follow, Position.val_afterInsert, alone,
          Position.val_afterRemove, Word.val_minus]
        split_ifs <;> omega
      · simp only [follow, Position.val_afterInsert]
        split_ifs <;> omega
    -- the insertion lies within the stretch: it is dropped, and the removal covers what was inserted
    · cases succeeds
      have longer : (clientLength.plus serverValue.length).val =
          clientLength.val + serverValue.length := val_plus_of_lt (by omega)
      refine ⟨Word.ext_val ?_, fun _ => covers_remove_iff.mpr ?_, fun live => by cases live⟩
      · simp only [Outcome.keepClient, Adapted.run_keep, Adapted.run_drop, follow, alone,
          Position.val_afterInsert, Position.val_afterRemove, longer]
        split_ifs <;> omega
      · simp only [follow, Position.val_afterInsert, longer]
        split_ifs <;> omega

end

/-- A removal of nothing takes no position anywhere. -/
theorem run_follow_shrunk (index count : Word) (position : Word) :
    (shrunk index count).run follow position = Position.afterRemove index count.val position := by
  unfold shrunk
  split
  · rename_i nothing
    have bound := index.isLt
    apply Word.ext_val
    rw [Adapted.run_drop, Position.val_afterRemove]
    split_ifs <;> omega
  · rfl

theorem covers_shrunk {index count : Word} {place : Nat}
    (outside : ¬ (index.val ≤ place ∧ place < index.val + count.val)) :
    (shrunk index count).change.covers place = false := by
  unfold shrunk
  split <;> exact covers_remove_iff.mpr outside

theorem removeRemove_carries {serverIndex serverLength clientIndex clientLength : Word}
    (compatible : Compatible length (.remove serverIndex serverLength)
      (.remove clientIndex clientLength))
    (serverKept : covers (.remove serverIndex serverLength) position.val = false)
    (clientKept : covers (.remove clientIndex clientLength) position.val = false)
    {outcome : Outcome TextEdit}
    (succeeds : removeRemove serverIndex serverLength clientIndex clientLength = .ok outcome) :
    Carries position (.remove serverIndex serverLength) (.remove clientIndex clientLength)
      outcome := by
  obtain ⟨⟨serverFits, serverBound⟩, ⟨clientFits, clientBound⟩, _⟩ := compatible
  have outsideServer := covers_remove_iff.mp serverKept
  have outsideClient := covers_remove_iff.mp clientKept
  have afterServer := val_afterRemove_of_outside serverBound outsideServer
  have afterClient := val_afterRemove_of_outside clientBound outsideClient
  simp only [removeRemove, val_plus_of_lt serverBound, val_plus_of_lt clientBound,
    Fallible.bind_eq_ok_iff, Fallible.pure_eq_ok_iff, Word.minus?_eq_ok_iff] at succeeds
  obtain ⟨_, ⟨-, rfl⟩, _, ⟨-, rfl⟩, _, ⟨-, rfl⟩, _, ⟨-, rfl⟩, rfl⟩ := succeeds
  have shared : min (clientIndex.val + clientLength.val) (serverIndex.val + serverLength.val) -
      max clientIndex.val serverIndex.val = min (serverIndex.val + serverLength.val)
        (clientIndex.val + clientLength.val) - max serverIndex.val clientIndex.val := by
    omega
  have keptByClient := closed_outside outsideServer outsideClient
  have keptByServer := closed_outside outsideClient outsideServer
  have together := closed_comm outsideServer outsideClient
  simp only [before, overlap, shared] at keptByClient keptByServer together
  rw [← afterServer] at keptByClient together
  rw [← afterClient] at keptByServer together
  have clientRest := fun bound => @val_afterRemove_of_outside
    (Position.afterRemove serverIndex serverLength.val position) (clientIndex.minus _)
    (clientLength.minus _) bound keptByClient
  have serverRest := fun bound => @val_afterRemove_of_outside
    (Position.afterRemove clientIndex clientLength.val position) (serverIndex.minus _)
    (serverLength.minus _) bound keptByServer
  simp only [Word.val_minus] at clientRest serverRest
  refine ⟨Word.ext_val ?_, fun _ => covers_shrunk keptByClient, fun _ => covers_shrunk keptByServer⟩
  rw [run_follow_shrunk, run_follow_shrunk, follow, follow]
  exact ((clientRest (by omega)).trans together).trans (serverRest (by omega)).symm

theorem transform_carries {server client : TextEdit} (compatible : Compatible length server client)
    (inside : position.val < length) (serverKept : server.covers position.val = false)
    (clientKept : client.covers position.val = false) {outcome : Outcome TextEdit}
    (succeeds : server.transform client = .ok outcome) :
    Carries position server client outcome := by
  cases server with
  | insert serverIndex serverValue =>
      cases client with
      | insert clientIndex clientValue =>
          cases succeeds
          exact insertInsert_carries inside compatible
      | remove clientIndex clientLength =>
          exact insertRemove_carries inside compatible clientKept succeeds
  | remove serverIndex serverLength =>
      cases client with
      | insert clientIndex clientValue =>
          obtain ⟨reverse, found, rfl⟩ := Fallible.map_eq_ok_iff.mp succeeds
          exact (insertRemove_carries inside compatible.swap serverKept found).swap
      | remove clientIndex clientLength =>
          exact removeRemove_carries compatible serverKept clientKept succeeds

section

variable {letters : List Char} {server : TextEdit}

theorem length_onMarked (edit : TextEdit) :
    (edit.onMarked (marked letters)).length = (edit.onLetters letters).length := by
  have same := congrArg List.length (letters_onMarked edit (marked letters))
  rwa [List.length_map, letters_marked] at same

theorem length_onLetters_le (edit : TextEdit) :
    (edit.onLetters letters).length ≤ letters.length + edit.weight := by
  cases edit with
  | insert index value =>
      rw [onLetters, length_inserted, String.length_toList]
      exact Nat.le_refl _
  | remove index count =>
      simp only [onLetters, removed, List.length_append, List.length_take, List.length_drop]
      omega

/-- The character at a position that both edits spare is at the place where the position goes. -/
theorem getElem?_run_onMarked {left : Adapted TextEdit} (serverFits : server.Fits letters.length)
    (fits : left.isNoOp = false → left.change.Fits (server.onLetters letters).length)
    (small : letters.length + server.weight + left.change.weight < 0x10000000000000000)
    (inside : position.val < letters.length) (serverKept : server.covers position.val = false)
    (kept : left.isNoOp = false → left.change.covers (server.follow position).val = false) :
    (left.run (fun edit marks => edit.onMarked marks) (server.onMarked (marked letters)))[
      (left.run follow (server.follow position)).val]? = (marked letters)[position.val]? := by
  have first : (server.onMarked (marked letters))[(server.follow position).val]? =
      (marked letters)[position.val]? :=
    getElem?_onMarked_follow (length_marked.symm ▸ serverFits) (by rw [length_marked]; omega)
      (length_marked.symm ▸ inside) serverKept
  unfold Adapted.run
  split
  · exact first
  · rename_i busy
    have live : left.isNoOp = false := Bool.eq_false_iff.mpr busy
    have longer := @length_onLetters_le letters server
    have insideAfter : (server.follow position).val < (server.onMarked (marked letters)).length := by
      rw [getElem?_marked, List.getElem?_eq_getElem inside, Option.map_some] at first
      exact (List.getElem?_eq_some_iff.mp first).1
    rw [← first]
    refine getElem?_onMarked_follow ?_ ?_ insideAfter (kept live)
    · rw [length_onMarked]
      exact fits live
    · rw [length_onMarked]
      omega

end

end TextEdit

namespace ArrayEdit

def takes : ArrayEdit → Nat → Bool
  | .insert _ _, _ => false
  | .remove index, position => position == index.val
  | .replace index _, position => position == index.val
  | .move _ _, _ => false

variable {children : List DataValue} {server client : ArrayEdit} {position : Word} {child : DataValue}

theorem notMem_discarded {edit : ArrayEdit} (distinct : children.Nodup) {place : Nat}
    (found : children[place]? = some child) (kept : edit.takes place = false) :
    child ∉ edit.discarded children := by
  have elsewhere {index : Word} (apart : (place == index.val) = false) :
      child ∉ children[index.val]?.toList := fun listed =>
    beq_eq_false_iff_ne.mp apart
      (Position.place_unique distinct found (Option.mem_toList.mp listed))
  cases edit with
  | insert index value => exact List.not_mem_nil
  | remove index => exact elsewhere kept
  | replace index value => exact elsewhere kept
  | move source target => exact List.not_mem_nil

theorem length_applyTo_le (edit : ArrayEdit) (children : List DataValue) :
    (edit.applyTo children).length ≤ children.length + 1 := by
  have longer : (edit.applyTo children).length ≤ children.length + edit.values.length :=
    Change.extent_applyTo_le (.array edit) (.array default children)
  have one : edit.values.length ≤ 1 := by cases edit <;> simp [values]
  omega

section

variable (serverFits : server.Fits children.length)
  (distinct : ((server.values ++ client.values ++ children).map DataValue.id).Nodup)
  (small : children.length < 0xFFFFFFFFFFFFFFFF)
  (found : children[position.val]? = some child)

include serverFits distinct small found

/-- A child that is still there after two edits is where its position has gone. -/
theorem getElem?_run_follow {left : Adapted ArrayEdit}
    (values : left.change.values = client.values)
    (fits : left.isNoOp = false → left.change.Fits (server.applyTo children).length)
    (kept : child ∈ server.applyTo children)
    (stays : child ∈ left.run (fun edit children => edit.applyTo children) (server.applyTo children)) :
    (left.run (fun edit children => edit.applyTo children) (server.applyTo children))[
      (left.run follow (server.follow position)).val]? = some child := by
  have longer := length_applyTo_le server children
  have at_id {items : List DataValue} {place : Nat} (here : items[place]? = some child) :
      (items.map DataValue.id)[place]? = some child.id := by
    rw [List.getElem?_map, here, Option.map_some]
  obtain ⟨middle, middleFound⟩ := List.getElem?_of_mem kept
  have middleInside := (List.getElem?_eq_some_iff.mp middleFound).1
  have first : server.follow position = ⟨middle, by omega⟩ :=
    (tracks_applyTo serverFits (distinct_server distinct)).kept position ⟨middle, by omega⟩ child.id
      (at_id found) (at_id middleFound)
  unfold Adapted.run at stays ⊢
  split
  · rw [first]
    exact middleFound
  · rename_i busy
    rw [if_neg busy] at stays
    have live : left.isNoOp = false := Bool.eq_false_iff.mpr busy
    have longest := length_applyTo_le left.change (server.applyTo children)
    obtain ⟨last, lastFound⟩ : ∃ last : Nat,
        (left.change.applyTo (server.applyTo children))[last]? = some child :=
      List.getElem?_of_mem stays
    have lastInside := (List.getElem?_eq_some_iff.mp lastFound).1
    have tracks := tracks_applyTo (fits live)
      (values ▸ distinct_client_after serverFits distinct)
    rw [first, tracks.kept ⟨middle, by omega⟩ ⟨last, by omega⟩ child.id (at_id middleFound)
      (at_id lastFound)]
    exact lastFound

theorem transform_follow (clientFits : client.Fits children.length) {outcome : Outcome ArrayEdit}
    (succeeds : server.transform client = .ok outcome) (meets : Meets children server client outcome)
    (serverKept : server.takes position.val = false)
    (clientKept : client.takes position.val = false) :
    (outcome.client.run (fun edit children => edit.applyTo children) (server.applyTo children))[
        (outcome.client.run follow (server.follow position)).val]? = some child ∧
      outcome.client.run follow (server.follow position) =
        outcome.server.run follow (client.follow position) := by
  obtain ⟨serverValues, clientValues⟩ := transform_keepValues server client outcome succeeds
  have swapped : ((client.values ++ server.values ++ children).map DataValue.id).Nodup :=
    ((List.perm_append_comm.append_right children).map DataValue.id).nodup_iff.mp distinct
  have listed := List.mem_of_getElem? found
  have childrenDistinct : children.Nodup :=
    (distinct.of_map _).sublist (List.sublist_append_right _ _)
  have notServer := notMem_discarded childrenDistinct found serverKept
  have notClient := notMem_discarded childrenDistinct found clientKept
  have keptByServer := (mem_applyTo_iff serverFits (distinct_server distinct) child).mpr
    ⟨Or.inr listed, notServer⟩
  have keptByClient := (mem_applyTo_iff clientFits (distinct_server swapped) child).mpr
    ⟨Or.inr listed, notClient⟩
  have stays := (mem_run_iff serverFits distinct clientValues meets.clientFits
    (transform_follows serverFits clientFits succeeds) child).mpr
    (Or.inl ⟨listed, notServer, notClient⟩)
  have left := getElem?_run_follow serverFits distinct small found clientValues meets.clientFits
    keptByServer stays
  have right := getElem?_run_follow clientFits swapped small found serverValues meets.serverFits
    keptByClient (meets.same ▸ stays)
  rw [← meets.same] at right
  -- both ways end at one child of one array that holds no child twice
  have mergedDistinct := (nodup_run serverFits distinct clientValues meets.clientFits).of_map _
  exact ⟨left, Word.ext_val (Position.place_unique mergedDistinct left right)⟩

end

end ArrayEdit

end SharedDocument
