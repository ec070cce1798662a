import Mathlib.Data.List.Sigma
import SharedDocument.Proofs.Transform.Array
import SharedDocument.Proofs.Transform.Text

/-! Positions follow what they point at. When elements come into a list, leave it or move within it, the
position of an element that is still there goes where the element has gone, that of an element that has
left goes to the gap, and the end stays the end. Positions never run past the end, and those in a text
keep their order. -/

namespace SharedDocument

namespace Position

variable {start position : Word} {length : Nat}

theorem val_afterInsert :
    (afterInsert start length position).val =
      if start.val ≤ position.val then min (position.val + length) 0xFFFFFFFFFFFFFFFF
      else position.val := by
  unfold afterInsert
  split <;> rfl

theorem val_afterRemove :
    (afterRemove start length position).val =
      if min (start.val + length) 0xFFFFFFFFFFFFFFFF ≤ position.val then position.val - length
      else if start.val ≤ position.val then start.val else position.val := by
  unfold afterRemove
  rw [Word.val_plus]
  split
  · rfl
  · split <;> rfl

/-! Order. -/

theorem afterInsert_mono {earlier later : Word} (ordered : earlier.val ≤ later.val) :
    (afterInsert start length earlier).val ≤ (afterInsert start length later).val := by
  have bound := earlier.isLt
  rw [val_afterInsert, val_afterInsert]
  split_ifs <;> omega

/-- The stretch runs past the last word, which is then taken to lie behind it, and the later position is
the last word. It falls back by the whole length, to before where the earlier one goes. -/
def Torn (start length earlier later : Word) : Prop :=
  later.val = 0xFFFFFFFFFFFFFFFF ∧ earlier.val < later.val ∧
    0xFFFFFFFFFFFFFFFF < min start.val earlier.val + length.val

instance (start length earlier later : Word) : Decidable (Torn start length earlier later) :=
  inferInstanceAs (Decidable (_ ∧ _ ∧ _))

/-- A removal keeps the order of two positions unless it tears them. -/
theorem afterRemove_mono_iff {start length earlier later : Word} (ordered : earlier.val ≤ later.val) :
    (afterRemove start length.val earlier).val ≤ (afterRemove start length.val later).val ↔
      ¬ Torn start length earlier later := by
  have lengthBound := length.isLt
  have laterBound := later.isLt
  rw [val_afterRemove, val_afterRemove, Torn]
  split_ifs <;> omega

theorem not_torn {start length : Word} (exact : start.val + length.val < 0x10000000000000000)
    (earlier later : Word) : ¬ Torn start length earlier later := by
  rintro ⟨-, -, past⟩
  omega

/-! Elements. -/

/-- How a list has changed, seen from the positions in it. Positions and lengths are words. Where
nothing has left there is no gap. -/
structure Tracks {α : Type} (follow : Word → Word) (gap : Option Word) (before after : List α) :
    Prop where
  kept : ∀ (position place : Word) (element : α), before[position.val]? = some element →
    after[place.val]? = some element → follow position = place
  gone : ∀ (position length : Word) (element : α), before.length = length.val →
    before[position.val]? = some element → element ∉ after → gap = some (follow position)
  last : ∀ length finish : Word, before.length = length.val → after.length = finish.val →
    follow length = finish

section

variable {α : Type} {items value : List α} {index count : Word} (distinct : items.Nodup)

include distinct

theorem place_unique {place other : Nat} {element : α} (found : items[place]? = some element)
    (otherFound : items[other]? = some element) : place = other :=
  (List.getElem?_inj (List.getElem?_eq_some_iff.mp found).1 distinct).mp
    (found.trans otherFound.symm)

omit distinct in
theorem insertIdx_eq_inserted {place : Nat} {element : α} (inside : place ≤ items.length) :
    items.insertIdx place element = TextEdit.inserted place [element] items := by
  apply List.ext_getElem?
  intro position
  rw [TextEdit.getElem?_inserted inside, List.getElem?_insertIdx]
  grind

theorem tracks_inserted (apart : ∀ element ∈ value, element ∉ items)
    (inside : index.val ≤ items.length) :
    Tracks (afterInsert index value.length) none items
      (TextEdit.inserted index.val value items) := by
  refine ⟨?_, ?_, ?_⟩
  · intro position place element found foundAfter
    have bound := place.isLt
    apply Word.ext_val
    rw [val_afterInsert]
    rw [TextEdit.getElem?_inserted inside] at foundAfter
    split at foundAfter
    · have same := place_unique distinct found foundAfter
      rw [if_neg (by omega)]
      exact same
    · split at foundAfter
      · exact absurd (List.mem_of_getElem? found) (apart element (List.mem_of_getElem? foundAfter))
      · have same := place_unique distinct found foundAfter
        rw [if_pos (by omega)]
        omega
  · intro position length element _ found absent
    refine absurd ?_ absent
    have listed := List.mem_of_getElem? found
    rw [← List.take_append_drop index.val items] at listed
    unfold TextEdit.inserted
    grind
  · intro length finish atEnd atFinish
    have bound := finish.isLt
    rw [TextEdit.length_inserted] at atFinish
    apply Word.ext_val
    rw [val_afterInsert, if_pos (by omega)]
    omega

theorem tracks_removed (inside : index.val + count.val ≤ items.length) :
    Tracks (afterRemove index count.val) (some index) items
      (TextEdit.removed index.val count.val items) := by
  have indexInside : index.val ≤ items.length := by omega
  refine ⟨?_, ?_, ?_⟩
  · intro position place element found foundAfter
    rw [TextEdit.getElem?_removed indexInside] at foundAfter
    have same := place_unique distinct found foundAfter
    have bound := index.isLt
    unfold TextEdit.origin at same
    apply Word.ext_val
    rw [val_afterRemove]
    split at same
    · rw [if_neg (by omega), if_neg (by omega)]
      exact same
    · rw [if_pos (by omega)]
      omega
  · intro position length element isLength found absent
    have notAt (place : Nat) : items[TextEdit.origin index.val count.val place]? ≠ some element := by
      rw [← TextEdit.getElem?_removed indexInside]
      exact fun there => absent (List.mem_of_getElem? there)
    have bound := length.isLt
    refine congrArg some (Word.ext_val ?_)
    rw [val_afterRemove]
    by_cases early : position.val < index.val
    · have here := notAt position.val
      rw [TextEdit.origin, if_pos early] at here
      exact absurd found here
    · by_cases late : index.val + count.val ≤ position.val
      · have here := notAt (position.val - count.val)
        rw [TextEdit.origin, if_neg (by omega), Nat.sub_add_cancel (by omega)] at here
        exact absurd found here
      · rw [if_neg (by omega), if_pos (by omega)]
  · intro length finish atEnd atFinish
    apply Word.ext_val
    rw [TextEdit.length_removed inside] at atFinish
    rw [val_afterRemove, if_pos (by omega), ← atEnd, atFinish]

omit distinct in
/-- An element is found where its position has gone: the moved one at the target, every other one shifted
by the removal and then by the insertion. -/
theorem getElem?_moved {source target : Word} {element : α}
    (found : items[source.val]? = some element) (inside : target.val < items.length)
    (position : Word) :
    ((items.eraseIdx source.val).insertIdx target.val element)[(afterMove source target
      position).val]? = items[position.val]? := by
  have sourceInside := (List.getElem?_eq_some_iff.mp found).1
  have shorter := List.length_eraseIdx_of_lt sourceInside
  rw [ArrayEdit.val_afterMove]
  split
  · rename_i here
    rw [List.getElem?_insertIdx_self, if_pos (by omega), here, found]
  · rename_i elsewhere
    rw [ArrayEdit.getElem?_insertIdx_pushed, ArrayEdit.getElem?_eraseIdx_pulled (Ne.symm elsewhere)]

theorem tracks_moved {source target : Word} {element : α} (found : items[source.val]? = some element)
    (inside : target.val < items.length) :
    Tracks (afterMove source target) none items
      ((items.eraseIdx source.val).insertIdx target.val element) := by
  have sourceInside := (List.getElem?_eq_some_iff.mp found).1
  have shorter := List.length_eraseIdx_of_lt sourceInside
  have targetInside : target.val ≤ (items.eraseIdx source.val).length := by omega
  have movedLength : ((items.eraseIdx source.val).insertIdx target.val element).length =
      items.length := by
    rw [List.length_insertIdx_of_le_length targetInside]
    omega
  have same := getElem?_moved found inside
  have movedDistinct : ((items.eraseIdx source.val).insertIdx target.val element).Nodup := by
    refine (List.Perm.nodup_iff ?_).mpr distinct
    have erased := List.getElem_cons_eraseIdx_perm sourceInside
    rw [(List.getElem?_eq_some_iff.mp found).2] at erased
    exact (List.perm_insertIdx _ _ targetInside).trans erased
  refine ⟨?_, ?_, ?_⟩
  · intro position place other there foundAfter
    exact Word.ext_val (place_unique movedDistinct ((same position).trans there) foundAfter)
  · intro position length other _ there absent
    exact absurd (List.mem_of_getElem? ((same position).trans there)) absent
  · intro length finish atEnd atFinish
    apply Word.ext_val
    rw [ArrayEdit.val_afterMove, if_neg (fun here => by rw [here] at atEnd; omega), ← atFinish,
      movedLength]
    -- the end is behind both the source and the target: one down, one up
    have pulled : ArrayEdit.pulled source.val length.val = length.val - 1 := if_pos (by omega)
    rw [pulled, ArrayEdit.pushed, if_pos (by omega)]
    omega

theorem tracks_replaced {written : α} (apart : written ∉ items) :
    Tracks id (some index) items (items.set index.val written) := by
  refine ⟨?_, ?_, ?_⟩
  · intro position place element found foundAfter
    rw [List.getElem?_set] at foundAfter
    split at foundAfter
    · split at foundAfter
      · rw [Option.some.injEq] at foundAfter
        exact absurd (List.mem_of_getElem? found) (foundAfter ▸ apart)
      · cases foundAfter
    · exact Word.ext_val (place_unique distinct found foundAfter)
  · intro position length element _ found absent
    by_contra elsewhere
    have there : (items.set index.val written)[position.val]? = some element := by
      rw [List.getElem?_set, if_neg fun here : index.val = position.val =>
        elsewhere (congrArg some (Word.ext_val here))]
      exact found
    exact absent (List.mem_of_getElem? there)
  · intro length finish atEnd atFinish
    rw [List.length_set, atEnd] at atFinish
    exact Word.ext_val atFinish

end

end Position

open Position (Tracks)

namespace TextEdit

def follow : TextEdit → Word → Word
  | .insert index value => Position.afterInsert index value.length
  | .remove index count => Position.afterRemove index count.val

def gap? : TextEdit → Option Word
  | .insert _ _ => none
  | .remove index _ => some index

def marked (letters : List Char) : List (Char × Option Nat) :=
  letters.zipIdx.map fun entry => (entry.1, some entry.2)

/-- The edit of a text that is marked. What it inserts carries no mark. -/
def onMarked (letters : List (Char × Option Nat)) : TextEdit → List (Char × Option Nat)
  | .insert index value =>
      inserted index.val (value.toList.map fun letter => (letter, none)) letters
  | .remove index count => removed index.val count.val letters

variable {edit : TextEdit} {letters : List Char}

theorem getElem?_marked (place : Nat) :
    (marked letters)[place]? = letters[place]?.map fun letter => (letter, some place) := by
  rw [marked, List.getElem?_map, List.getElem?_zipIdx, Option.map_map, Nat.zero_add]
  rfl

@[simp] theorem length_marked : (marked letters).length = letters.length := by
  simp [marked]

theorem letters_marked : (marked letters).map Prod.fst = letters := by
  rw [marked, List.map_map]
  exact List.zipIdx_map_fst 0 letters

theorem nodup_marked : (marked letters).Nodup := by
  have places : (marked letters).map Prod.snd = (letters.zipIdx.map Prod.snd).map some := by
    rw [marked, List.map_map, List.map_map]
    rfl
  refine List.Nodup.of_map Prod.snd ?_
  rw [places]
  exact (List.nodup_zipIdx_map_snd letters).map fun _ _ => Option.some.inj

theorem letters_onMarked (edit : TextEdit) (letters : List (Char × Option Nat)) :
    (edit.onMarked letters).map Prod.fst = edit.onLetters (letters.map Prod.fst) := by
  cases edit with
  | insert index value =>
      simp only [onMarked, onLetters, inserted, List.map_append, List.map_take, List.map_drop,
        List.map_map]
      simp [Function.comp_def]
  | remove index count =>
      simp only [onMarked, onLetters, removed, List.map_append, List.map_take, List.map_drop]

theorem tracks_onMarked (fits : edit.Fits letters.length) :
    Tracks edit.follow edit.gap? (marked letters) (edit.onMarked (marked letters)) := by
  have length := @length_marked letters
  cases edit with
  | insert index value =>
      have tracks := @Position.tracks_inserted _ (marked letters)
        (value.toList.map fun letter => (letter, none)) index nodup_marked
        (fun element created listed => by
          obtain ⟨letter, -, rfl⟩ := List.mem_map.mp created
          simp [marked] at listed)
        (by rw [length]; exact fits)
      rw [List.length_map, String.length_toList] at tracks
      exact tracks
  | remove index count =>
      exact Position.tracks_removed nodup_marked (by rw [length]; exact fits.1)

/-- Positions in the text stay positions in the text. -/
theorem follow_le {position : Word} (fits : edit.Fits letters.length)
    (inside : position.val ≤ letters.length) :
    (edit.follow position).val ≤ (edit.onLetters letters).length := by
  cases edit with
  | insert index value =>
      rw [onLetters, length_inserted, String.length_toList, follow, Position.val_afterInsert]
      split <;> omega
  | remove index count =>
      obtain ⟨stretchInside, bound⟩ := fits
      rw [onLetters, length_removed stretchInside, follow, Position.val_afterRemove]
      split_ifs <;> omega

/-- Positions do not overtake each other. -/
theorem follow_mono {length : Nat} {first second : Word} (fits : edit.Fits length)
    (ordered : first.val ≤ second.val) : (edit.follow first).val ≤ (edit.follow second).val := by
  cases edit with
  | insert index value => exact Position.afterInsert_mono ordered
  | remove index count =>
      exact (Position.afterRemove_mono_iff ordered).mpr (Position.not_torn fits.2 first second)

end TextEdit

namespace ArrayEdit

/-- Where a position in an array goes. A replacement leaves the positions alone. -/
def follow : ArrayEdit → Word → Word
  | .insert index _ => Position.afterInsert index 1
  | .remove index => Position.afterRemove index 1
  | .replace _ _ => id
  | .move source target => Position.afterMove source target

def gap? : ArrayEdit → Option Word
  | .insert _ _ => none
  | .remove index => some index
  | .replace index _ => some index
  | .move _ _ => none

variable {edit : ArrayEdit} {children : List DataValue}

theorem tracks_applyTo (fits : edit.Fits children.length)
    (distinct : ((edit.values ++ children).map DataValue.id).Nodup) :
    Tracks edit.follow edit.gap? (children.map DataValue.id)
      ((edit.applyTo children).map DataValue.id) := by
  have length : (children.map DataValue.id).length = children.length := List.length_map DataValue.id
  rw [List.map_append] at distinct
  obtain ⟨-, oldDistinct, apart⟩ := List.nodup_append'.mp distinct
  cases edit with
  | insert index value =>
      have inside : index.val ≤ (children.map DataValue.id).length := by
        rw [length]
        exact fits
      have tracks := @Position.tracks_inserted _ _ [value.id] _ oldDistinct
        (fun element created => apart created) inside
      rw [applyTo, List.map_insertIdx, Position.insertIdx_eq_inserted inside]
      exact tracks
  | remove index =>
      have inside : index.val + 1 ≤ (children.map DataValue.id).length := by
        rw [length]
        exact fits
      have tracks := @Position.tracks_removed _ _ _ ⟨1, by decide⟩ oldDistinct inside
      rw [applyTo, ← List.eraseIdx_map, List.eraseIdx_eq_take_drop_succ]
      exact tracks
  | replace index value =>
      rw [applyTo, List.map_set]
      exact Position.tracks_replaced oldDistinct (apart List.mem_cons_self)
  | move source target =>
      have found := List.getElem?_eq_getElem fits.1
      rw [applyTo_move found, List.map_insertIdx, ← List.eraseIdx_map]
      refine Position.tracks_moved oldDistinct ?_ (by rw [length]; exact fits.2)
      rw [List.getElem?_map, found, Option.map_some]

theorem follow_le {position : Word} (fits : edit.Fits children.length)
    (inside : position.val ≤ children.length) :
    (edit.follow position).val ≤ (edit.applyTo children).length := by
  cases edit with
  | insert index value =>
      rw [applyTo, List.length_insertIdx_of_le_length fits, follow, Position.val_afterInsert]
      split <;> omega
  | remove index =>
      have room := List.length_eraseIdx_of_lt fits
      have bound := position.isLt
      have indexInside : index.val < children.length := fits
      rw [applyTo, room, follow, Position.val_afterRemove]
      split_ifs <;> omega
  | replace index value =>
      rw [applyTo, List.length_set]
      exact inside
  | move source target =>
      obtain ⟨sourceInside, targetInside⟩ := fits
      have shorter := List.length_eraseIdx_of_lt sourceInside
      rw [applyTo_move (List.getElem?_eq_getElem sourceInside),
        List.length_insertIdx_of_le_length (by omega), shorter, follow, val_afterMove]
      unfold pushed pulled
      grind

end ArrayEdit

end SharedDocument
