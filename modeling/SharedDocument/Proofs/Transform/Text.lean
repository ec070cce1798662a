import Mathlib.Data.List.Basic
import Mathlib.Tactic.SplitIfs
import SharedDocument.Proofs.Change
import SharedDocument.Proofs.Fallible
import SharedDocument.Proofs.Transform.Outcome
import SharedDocument.Transform.Text

/-! Concurrent edits of one text converge, as long as the length of the text with all that is inserted is
a word. A text is read position by position: after an edit every position shows a character
of the old text or of the inserted one. -/

namespace SharedDocument.TextEdit

section

variable {α : Type} {letters value : List α}

def inserted (index : Nat) (value letters : List α) : List α :=
  letters.take index ++ value ++ letters.drop index

def removed (index count : Nat) (letters : List α) : List α :=
  letters.take index ++ letters.drop (index + count)

/-- Where the element at a position was before a stretch was removed. -/
def origin (start count position : Nat) : Nat :=
  if position < start then position else position + count

theorem getElem?_inserted {index : Nat} (inside : index ≤ letters.length) (position : Nat) :
    (inserted index value letters)[position]? =
      if position < index then letters[position]?
      else if position < index + value.length then value[position - index]?
      else letters[position - value.length]? := by
  unfold inserted
  grind

theorem getElem?_removed {start count : Nat} (inside : start ≤ letters.length) (position : Nat) :
    (removed start count letters)[position]? = letters[origin start count position]? := by
  unfold removed origin
  grind

theorem length_inserted (index : Nat) (value letters : List α) :
    (inserted index value letters).length = letters.length + value.length := by
  unfold inserted
  grind

theorem length_removed {start count : Nat} (inside : start + count ≤ letters.length) :
    (removed start count letters).length = letters.length - count := by
  unfold removed
  grind

theorem removed_nothing (start : Nat) : removed start 0 letters = letters :=
  List.take_append_drop start letters

theorem inserted_comm {first second : Nat} {other : List α} (ordered : first ≤ second)
    (inside : second ≤ letters.length) :
    inserted (second + value.length) other (inserted first value letters) =
      inserted first value (inserted second other letters) := by
  have firstInside : first ≤ letters.length := ordered.trans inside
  have firstThen : second + value.length ≤ (inserted first value letters).length := by
    rw [length_inserted]
    omega
  have secondThen : first ≤ (inserted second other letters).length := by
    rw [length_inserted]
    omega
  apply List.ext_getElem?
  intro position
  simp only [getElem?_inserted firstThen, getElem?_inserted secondThen,
    getElem?_inserted firstInside, getElem?_inserted inside]
  grind

section

variable {index start count : Nat} (inside : start + count ≤ letters.length)

include inside

theorem removed_inserted_before (before : index ≤ start) :
    removed (start + value.length) count (inserted index value letters) =
      inserted index value (removed start count letters) := by
  have shorter := length_removed inside
  have longer := length_inserted index value letters
  apply List.ext_getElem?
  intro position
  rw [getElem?_removed (by omega), getElem?_inserted (by omega), getElem?_inserted (by omega),
    getElem?_removed (by omega), getElem?_removed (by omega)]
  unfold origin
  grind

theorem removed_inserted_after (after : start + count ≤ index) (indexInside : index ≤ letters.length) :
    removed start count (inserted index value letters) =
      inserted (index - count) value (removed start count letters) := by
  have shorter := length_removed inside
  have longer := length_inserted index value letters
  apply List.ext_getElem?
  intro position
  rw [getElem?_removed (by omega), getElem?_inserted (by omega), getElem?_inserted (by omega),
    getElem?_removed (by omega), getElem?_removed (by omega)]
  unfold origin
  grind

/-- What is inserted inside a stretch goes with the stretch. -/
theorem removed_inserted_within (after : start < index) (before : index < start + count) :
    removed start (count + value.length) (inserted index value letters) =
      removed start count letters := by
  have longer := length_inserted index value letters
  apply List.ext_getElem?
  intro position
  rw [getElem?_removed (by omega), getElem?_inserted (by omega), getElem?_removed (by omega)]
  unfold origin
  grind

end

def overlap (start count otherStart otherCount : Nat) : Nat :=
  min (start + count) (otherStart + otherCount) - max start otherStart

def before (start count position : Nat) : Nat :=
  min (start + count) position - start

theorem origin_comm (start count otherStart otherCount position : Nat) :
    let shared := overlap start count otherStart otherCount
    origin start count
        (origin (otherStart - before start count otherStart) (otherCount - shared) position) =
      origin otherStart otherCount
        (origin (start - before otherStart otherCount start) (count - shared) position) := by
  intro shared
  have shared_eq : shared =
      min (start + count) (otherStart + otherCount) - max start otherStart := rfl
  unfold origin before
  rcases Nat.le_total (start + count) otherStart with apart | overlaps
  · have none : shared = 0 := by omega
    rw [none, Nat.min_eq_left apart]
    split_ifs <;> omega
  · rcases Nat.le_total (otherStart + otherCount) start with apart | otherOverlaps
    · have none : shared = 0 := by omega
      rw [none, Nat.min_eq_left apart]
      split_ifs <;> omega
    · rw [Nat.min_eq_right overlaps, Nat.min_eq_right otherOverlaps]
      have least : otherStart - (otherStart - start) = start - (start - otherStart) := by omega
      rw [least]
      split_ifs <;> omega

theorem removed_comm {start count otherStart otherCount : Nat}
    (inside : start + count ≤ letters.length) (otherInside : otherStart + otherCount ≤ letters.length) :
    let shared := overlap start count otherStart otherCount
    removed (otherStart - before start count otherStart) (otherCount - shared)
        (removed start count letters) =
      removed (start - before otherStart otherCount start) (count - shared)
        (removed otherStart otherCount letters) := by
  intro shared
  have shorter := length_removed inside
  have otherShorter := length_removed otherInside
  apply List.ext_getElem?
  intro position
  rw [getElem?_removed (by unfold before; omega), getElem?_removed (by omega),
    getElem?_removed (by unfold before; omega), getElem?_removed (by omega)]
  exact congrArg (letters[·]?) (origin_comm start count otherStart otherCount position)

end

/-! Edits as edits of the list of characters. -/

def weight : TextEdit → Nat
  | .insert _ value => value.length
  | .remove _ _ => 0

def onLetters (letters : List Char) : TextEdit → List Char
  | .insert index value => inserted index.val value.toList letters
  | .remove index count => removed index.val count.val letters

theorem applyTo_ofList (edit : TextEdit) (letters : List Char) :
    edit.applyTo (String.ofList letters) = String.ofList (edit.onLetters letters) := by
  cases edit <;> simp [applyTo, onLetters, inserted, removed]

structure Compatible (length : Nat) (server client : TextEdit) : Prop where
  serverFits : server.Fits length
  clientFits : client.Fits length
  small : length + server.weight + client.weight < 0x10000000000000000

theorem Compatible.swap {length : Nat} {server client : TextEdit}
    (compatible : Compatible length server client) : Compatible length client server :=
  ⟨compatible.clientFits, compatible.serverFits, by have := compatible.small; omega⟩

abbrev Meets (letters : List Char) (server client : TextEdit) (outcome : Outcome TextEdit) : Prop :=
  outcome.Converges (fun edit letters => edit.Fits letters.length)
    (fun edit letters => edit.onLetters letters) letters server client

theorem val_plus_of_lt {word : Word} {amount : Nat} (small : word.val + amount < 0x10000000000000000) :
    (word.plus amount).val = word.val + amount := by
  rw [Word.val_plus]
  omega

section

variable {letters : List Char}

theorem insertInsert_meets {serverIndex clientIndex : Word} {serverValue clientValue : String}
    (compatible : Compatible letters.length (.insert serverIndex serverValue)
      (.insert clientIndex clientValue)) :
    Meets letters (.insert serverIndex serverValue) (.insert clientIndex clientValue)
      (insertInsert serverIndex serverValue clientIndex clientValue) := by
  obtain ⟨serverFits, clientFits, small⟩ := compatible
  simp only [Fits, weight] at serverFits clientFits small
  unfold insertInsert
  split
  · rename_i ordered
    have moved : (clientIndex.plus serverValue.length).val =
        clientIndex.val + serverValue.toList.length := by
      rw [val_plus_of_lt (by omega), String.length_toList]
    refine .keepBoth ?_ ?_ ?_ <;>
      simp only [Fits, onLetters, length_inserted, moved]
    · omega
    · omega
    · exact inserted_comm ordered clientFits
  · rename_i ordered
    have moved : (serverIndex.plus clientValue.length).val =
        serverIndex.val + clientValue.toList.length := by
      rw [val_plus_of_lt (by omega), String.length_toList]
    refine .keepBoth ?_ ?_ ?_ <;>
      simp only [Fits, onLetters, length_inserted, moved]
    · omega
    · omega
    · exact (inserted_comm (Nat.le_of_not_le ordered) serverFits).symm

theorem insertRemove_meets {serverIndex clientIndex clientLength : Word} {serverValue : String}
    (compatible : Compatible letters.length (.insert serverIndex serverValue)
      (.remove clientIndex clientLength)) :
    ∃ outcome, insertRemove serverIndex serverValue clientIndex clientLength = .ok outcome ∧
      Meets letters (.insert serverIndex serverValue) (.remove clientIndex clientLength)
        outcome := by
  obtain ⟨serverFits, ⟨clientFits, clientBound⟩, small⟩ := compatible
  simp only [Fits, weight] at serverFits small
  have length := String.length_toList (s := serverValue)
  have removedLength := length_removed clientFits
  have removeEnd : (clientIndex.plus clientLength.val).val = clientIndex.val + clientLength.val :=
    val_plus_of_lt clientBound
  simp only [insertRemove, removeEnd]
  split
  · rename_i ordered
    have moved : (clientIndex.plus serverValue.length).val =
        clientIndex.val + serverValue.toList.length := by
      rw [val_plus_of_lt (by omega), length]
    refine ⟨_, rfl, .keepBoth ?_ ?_ ?_⟩ <;>
      simp only [Fits, onLetters, length_inserted, removedLength, moved]
    · omega
    · omega
    · exact removed_inserted_before clientFits ordered
  · split
    · rename_i notBefore after
      have shifted : serverIndex.minus? clientLength.val =
          .ok (serverIndex.minus clientLength.val) :=
        (Word.minus?_eq_ok_iff _ _ _).mpr ⟨by omega, rfl⟩
      rw [shifted]
      refine ⟨_, rfl, .keepBoth ?_ ?_ ?_⟩ <;>
        simp only [Fits, onLetters, length_inserted, removedLength, Word.val_minus]
      · omega
      · omega
      · exact removed_inserted_after clientFits after serverFits
    · rename_i notBefore notAfter
      have longer : (clientLength.plus serverValue.length).val =
          clientLength.val + serverValue.toList.length := by
        rw [val_plus_of_lt (by omega), length]
      refine ⟨_, rfl, .keepClient ?_ ?_⟩ <;>
        simp only [Fits, onLetters, length_inserted, longer]
      · omega
      · exact removed_inserted_within clientFits (Nat.lt_of_not_le notBefore)
          (Nat.lt_of_not_le notAfter)

theorem run_shrunk (letters : List Char) (index count : Word) :
    (shrunk index count).run (fun edit letters => edit.onLetters letters) letters =
      removed index.val count.val letters := by
  unfold shrunk
  split
  · rename_i nothing
    rw [Adapted.run_drop, nothing, removed_nothing]
  · rfl

theorem fits_shrunk {index count : Word} {length : Nat} (inside : index.val + count.val ≤ length)
    (bound : index.val + count.val < 0x10000000000000000) :
    (shrunk index count).change.Fits length := by
  unfold shrunk
  split <;> exact ⟨inside, bound⟩

theorem removeRemove_meets {serverIndex serverLength clientIndex clientLength : Word}
    (compatible : Compatible letters.length (.remove serverIndex serverLength)
      (.remove clientIndex clientLength)) :
    ∃ outcome, removeRemove serverIndex serverLength clientIndex clientLength = .ok outcome ∧
      Meets letters (.remove serverIndex serverLength) (.remove clientIndex clientLength)
        outcome := by
  obtain ⟨⟨serverFits, serverBound⟩, ⟨clientFits, clientBound⟩, _⟩ := compatible
  have commutes := removed_comm serverFits clientFits
  simp only [overlap, before] at commutes
  have serverRest := length_removed serverFits
  have clientRest := length_removed clientFits
  have exact {word : Word} {amount : Nat} (enough : amount ≤ word.val) :
      word.minus? amount = .ok (word.minus amount) :=
    (Word.minus?_eq_ok_iff _ _ _).mpr ⟨enough, rfl⟩
  simp only [removeRemove, val_plus_of_lt serverBound, val_plus_of_lt clientBound]
  rw [exact (by omega), exact (by omega), exact (by omega), exact (by omega)]
  refine ⟨_, rfl, ?_, ?_, ?_⟩
  · intro _
    apply fits_shrunk <;> simp only [onLetters, clientRest, Word.val_minus] <;> omega
  · intro _
    apply fits_shrunk <;> simp only [onLetters, serverRest, Word.val_minus] <;> omega
  · have clientRun := run_shrunk (removed serverIndex.val serverLength.val letters)
      (clientIndex.minus (min (serverIndex.val + serverLength.val) clientIndex.val - serverIndex.val))
    have serverRun := run_shrunk (removed clientIndex.val clientLength.val letters)
      (serverIndex.minus (min (clientIndex.val + clientLength.val) serverIndex.val - clientIndex.val))
    refine (clientRun _).trans (Eq.trans ?_ (serverRun _).symm)
    exact commutes

theorem transform_meets {server client : TextEdit}
    (compatible : Compatible letters.length server client) :
    ∃ outcome, server.transform client = .ok outcome ∧ Meets letters server client outcome := by
  cases server with
  | insert serverIndex serverValue =>
      cases client with
      | insert clientIndex clientValue => exact ⟨_, rfl, insertInsert_meets compatible⟩
      | remove clientIndex clientLength => exact insertRemove_meets compatible
  | remove serverIndex serverLength =>
      cases client with
      | insert clientIndex clientValue =>
          obtain ⟨outcome, transformed, meets⟩ := insertRemove_meets compatible.swap
          refine ⟨outcome.swap, ?_, meets.swap⟩
          simp only [transform, transformed]
          rfl
      | remove clientIndex clientLength => exact removeRemove_meets compatible

end

/-! What becomes of a pair inserts the same texts. -/

theorem insertRemove_weight {serverIndex clientIndex clientLength : Word} {serverValue : String}
    {outcome : Outcome TextEdit}
    (succeeds : insertRemove serverIndex serverValue clientIndex clientLength = .ok outcome) :
    outcome.server.change.weight = serverValue.length ∧ outcome.client.change.weight = 0 := by
  unfold insertRemove at succeeds
  dsimp only at succeeds
  split at succeeds
  · cases succeeds
    exact ⟨rfl, rfl⟩
  · split at succeeds
    · obtain ⟨shifted, _, same⟩ := Fallible.bind_eq_ok_iff.mp succeeds
      cases same
      exact ⟨rfl, rfl⟩
    · cases succeeds
      exact ⟨rfl, rfl⟩

theorem weight_shrunk (index length : Word) : (shrunk index length).change.weight = 0 := by
  unfold shrunk
  split <;> rfl

theorem transform_weight {server client : TextEdit} {outcome : Outcome TextEdit}
    (succeeds : server.transform client = .ok outcome) :
    outcome.server.change.weight = server.weight ∧
      outcome.client.change.weight = client.weight := by
  cases server with
  | insert serverIndex serverValue =>
      cases client with
      | insert clientIndex clientValue =>
          cases succeeds
          unfold insertInsert
          split <;> exact ⟨rfl, rfl⟩
      | remove clientIndex clientLength => exact insertRemove_weight succeeds
  | remove serverIndex serverLength =>
      cases client with
      | insert clientIndex clientValue =>
          obtain ⟨reverse, found, rfl⟩ := Fallible.map_eq_ok_iff.mp succeeds
          exact (insertRemove_weight found).symm
      | remove clientIndex clientLength =>
          simp only [transform, removeRemove, Fallible.bind_eq_ok_iff,
            Fallible.pure_eq_ok_iff] at succeeds
          obtain ⟨_, _, _, _, _, _, _, _, rfl⟩ := succeeds
          exact ⟨weight_shrunk _ _, weight_shrunk _ _⟩

end SharedDocument.TextEdit
