import SharedDocument.Proofs.Merge.Node

/-! What two concurrent edits of a text leave of it. At every position stand what the server inserts
there, what the client inserts there and the character, unless an edit removes it; a text that was
inserted strictly inside a removed stretch is lost with it. An edit of a text that is described
position by position changes the description. -/

namespace SharedDocument.TextEdit

def covers : TextEdit → Nat → Bool
  | .insert _ _, _ => false
  | .remove index count, position => index.val ≤ position && position < index.val + count.val

def encloses : TextEdit → Nat → Bool
  | .insert _ _, _ => false
  | .remove index count, position => index.val < position && position < index.val + count.val

def textAt (edit other : TextEdit) (position : Nat) : List Char :=
  match edit with
  | .insert index value =>
      if position = index.val ∧ other.encloses position = false then value.toList else []
  | .remove _ _ => []

/-- The text with both edits, position by position; nothing stands at the last position but what is
inserted there. -/
def merged (server client : TextEdit) (letters : List Char) : List Char :=
  (List.range (letters.length + 1)).flatMap fun position =>
    server.textAt client position ++ client.textAt server position ++
      if server.covers position || client.covers position then []
      else letters[position]?.toList

/-! Lists that are described position by position. -/

section

variable {α : Type} {letters value : List α} {piece other : Nat → List α}

def stretch (piece : Nat → List α) (start finish : Nat) : List α :=
  (List.range' start (finish - start)).flatMap piece

def letterAt (letters : List α) (position : Nat) : List α :=
  letters[position]?.toList

def placed (place : Nat) (value : List α) (piece : Nat → List α) (position : Nat) : List α :=
  (if position = place then value else []) ++ piece position

def cut (first second : Nat) (piece : Nat → List α) (position : Nat) : List α :=
  if first ≤ position ∧ position < second then [] else piece position

@[simp] theorem stretch_self (position : Nat) : stretch piece position position = [] := by
  simp [stretch]

theorem stretch_succ {start finish : Nat} (ordered : start ≤ finish) :
    stretch piece start (finish + 1) = stretch piece start finish ++ piece finish := by
  unfold stretch
  rw [Nat.succ_sub ordered, List.range'_concat, List.flatMap_append, Nat.one_mul,
    Nat.add_sub_cancel' ordered, List.flatMap_cons, List.flatMap_nil, List.append_nil]

theorem stretch_append {start middle finish : Nat} (first : start ≤ middle)
    (second : middle ≤ finish) :
    stretch piece start middle ++ stretch piece middle finish = stretch piece start finish := by
  induction finish, second using Nat.le_induction with
  | base => simp
  | succ finish later ih =>
      rw [stretch_succ later, stretch_succ (first.trans later), ← List.append_assoc, ih]

theorem stretch_congr {start finish : Nat}
    (same : ∀ position, start ≤ position → position < finish → piece position = other position) :
    stretch piece start finish = stretch other start finish := by
  refine List.flatMap_congr fun position listed => ?_
  rw [List.mem_range'_1] at listed
  exact same position listed.1 (by omega)

theorem stretch_letterAt (letters : List α) (finish : Nat) :
    stretch (letterAt letters) 0 finish = letters.take finish := by
  induction finish with
  | zero => simp
  | succ finish ih => rw [stretch_succ (Nat.zero_le _), ih, letterAt, List.take_add_one]

theorem stretch_placed_before {place start finish : Nat} (before : finish ≤ place) :
    stretch (placed place value piece) start finish = stretch piece start finish :=
  stretch_congr fun position _ inside => by simp [placed, (inside.trans_le before).ne]

theorem stretch_placed_after {place start finish : Nat} (after : place < start) :
    stretch (placed place value piece) start finish = stretch piece start finish :=
  stretch_congr fun position inside _ => by simp [placed, (after.trans_le inside).ne']

theorem inserted_stretch {index place finish : Nat} (inside : place < finish)
    (before : (stretch piece 0 place).length = index) :
    inserted index value (stretch piece 0 finish) = stretch (placed place value piece) 0 finish := by
  have split (described : Nat → List α) : stretch described 0 finish =
      stretch described 0 place ++ (described place ++ stretch described (place + 1) finish) := by
    have here : stretch described place (place + 1) = described place := by
      rw [stretch_succ (Nat.le_refl _), stretch_self, List.nil_append]
    rw [← here, stretch_append (Nat.le_succ _) inside, stretch_append (Nat.zero_le _) inside.le]
  rw [split, split, stretch_placed_before (Nat.le_refl _), stretch_placed_after (Nat.lt_succ_self _),
    inserted, List.take_left' before, List.drop_left' before]
  simp [placed]

theorem removed_stretch {index count first second finish : Nat} (ordered : first ≤ second)
    (inside : second ≤ finish) (before : (stretch piece 0 first).length = index)
    (within : (stretch piece first second).length = count) :
    removed index count (stretch piece 0 finish) = stretch (cut first second piece) 0 finish := by
  have split (described : Nat → List α) : stretch described 0 finish =
      stretch described 0 first ++ stretch described first second ++
        stretch described second finish := by
    rw [stretch_append (Nat.zero_le _) ordered, stretch_append (Nat.zero_le _) inside]
  have early : stretch (cut first second piece) 0 first = stretch piece 0 first :=
    stretch_congr fun position _ lower => if_neg (by omega)
  have gone : stretch (cut first second piece) first second = [] :=
    List.flatMap_eq_nil_iff.mpr fun position listed => by
      rw [List.mem_range'_1] at listed
      exact if_pos ⟨listed.1, by omega⟩
  have late : stretch (cut first second piece) second finish = stretch piece second finish :=
    stretch_congr fun position upper _ => if_neg (by omega)
  have both : (stretch piece 0 first ++ stretch piece first second).length = index + count := by
    rw [List.length_append, before, within]
  rw [split piece, split (cut first second piece), early, gone, late, removed,
    List.drop_left' both, List.append_assoc, List.take_left' before, List.append_nil]

/-- How many characters a removed stretch leaves between two positions. -/
theorem length_stretch_cut {start finish first second : Nat} (ordered : first ≤ second)
    (inside : second ≤ letters.length) :
    (stretch (cut start finish (letterAt letters)) first second).length =
      second - first - (min finish second - max start first) := by
  induction second, ordered using Nat.le_induction with
  | base => simp
  | succ second later ih =>
      rw [stretch_succ later, List.length_append, ih (by omega), cut]
      split
      · rename_i covered
        simp only [List.length_nil]
        omega
      · rename_i kept
        rw [letterAt, List.getElem?_eq_getElem (by omega)]
        simp only [Option.toList_some, List.length_singleton]
        omega

theorem eq_stretch (letters : List α) :
    letters = stretch (letterAt letters) 0 (letters.length + 1) := by
  rw [stretch_letterAt, List.take_of_length_le (Nat.le_succ _)]

theorem inserted_eq_stretch {index : Nat} (inside : index ≤ letters.length) :
    inserted index value letters =
      stretch (placed index value (letterAt letters)) 0 (letters.length + 1) := by
  have before : (stretch (letterAt letters) 0 index).length = index := by
    rw [stretch_letterAt, List.length_take_of_le inside]
  rw [← inserted_stretch (Nat.lt_succ_of_le inside) before, ← eq_stretch]

theorem removed_eq_stretch {start count : Nat} (inside : start + count ≤ letters.length) :
    removed start count letters =
      stretch (cut start (start + count) (letterAt letters)) 0 (letters.length + 1) := by
  have before : (stretch (letterAt letters) 0 start).length = start := by
    rw [stretch_letterAt, List.length_take_of_le (by omega)]
  have within : (stretch (letterAt letters) start (start + count)).length = count := by
    have both := congrArg List.length (@stretch_append _ (letterAt letters) 0 start (start + count)
      (Nat.zero_le _) (Nat.le_add_right _ _))
    rw [List.length_append, before, stretch_letterAt, List.length_take_of_le inside] at both
    omega
  rw [← removed_stretch (Nat.le_add_right _ _) (by omega) before within, ← eq_stretch]

end

theorem merged_eq_stretch (server client : TextEdit) (letters : List Char) :
    merged server client letters =
      stretch (fun position => server.textAt client position ++ client.textAt server position ++
        if server.covers position || client.covers position then []
        else letterAt letters position) 0 (letters.length + 1) := by
  rw [merged, stretch, List.range_eq_range']
  rfl

theorem cut_eq_covers (index count : Word) (piece : Nat → List Char) (position : Nat) :
    cut index.val (index.val + count.val) piece position =
      if covers (.remove index count) position then [] else piece position := by
  simp [cut, covers]

/-- The order of the sides matters for two insertions only. -/
theorem merged_swap {insertion removal : TextEdit} (letters : List Char)
    (nothing : ∀ position, removal.textAt insertion position = []) :
    merged removal insertion letters = merged insertion removal letters := by
  refine List.flatMap_congr fun position _ => ?_
  rw [nothing, List.nil_append, List.append_nil, Bool.or_comm]

section

variable {letters : List Char} {serverIndex clientIndex clientLength : Word}
  {serverValue clientValue : String}

theorem insertInsert_merged
    (compatible : Compatible letters.length (.insert serverIndex serverValue)
      (.insert clientIndex clientValue)) :
    let outcome := insertInsert serverIndex serverValue clientIndex clientValue
    outcome.client.run (fun edit letters => edit.onLetters letters)
        (inserted serverIndex.val serverValue.toList letters) =
      merged (.insert serverIndex serverValue) (.insert clientIndex clientValue) letters := by
  have serverFits : serverIndex.val ≤ letters.length := compatible.serverFits
  have clientFits : clientIndex.val ≤ letters.length := compatible.clientFits
  have meets := insertInsert_meets compatible
  rw [merged_eq_stretch]
  by_cases ordered : serverIndex.val ≤ clientIndex.val
  · refine meets.same.trans ?_
    have before : (stretch (placed clientIndex.val clientValue.toList (letterAt letters)) 0
        serverIndex.val).length = serverIndex.val := by
      rw [stretch_placed_before ordered, stretch_letterAt, List.length_take_of_le serverFits]
    simp only [insertInsert, if_pos ordered, Outcome.keepBoth, Adapted.run_keep, onLetters]
    rw [inserted_eq_stretch clientFits, inserted_stretch (Nat.lt_succ_of_le serverFits) before]
    refine stretch_congr fun position _ _ => ?_
    simp [placed, textAt, encloses, covers]
  · have before : (stretch (placed serverIndex.val serverValue.toList (letterAt letters)) 0
        clientIndex.val).length = clientIndex.val := by
      rw [stretch_placed_before (Nat.le_of_not_le ordered), stretch_letterAt,
        List.length_take_of_le clientFits]
    simp only [insertInsert, if_neg ordered, Outcome.keepBoth, Adapted.run_keep, onLetters]
    rw [inserted_eq_stretch serverFits, inserted_stretch (Nat.lt_succ_of_le clientFits) before]
    refine stretch_congr fun position _ _ => ?_
    simp only [placed, textAt, encloses, covers, and_true, Bool.or_self, Bool.false_eq_true, if_false]
    by_cases here : position = clientIndex.val
    · rw [if_pos here, if_neg (by omega : position ≠ serverIndex.val), List.nil_append,
        List.nil_append]
    · rw [if_neg here, List.nil_append, List.append_nil]

theorem insertRemove_merged
    (compatible : Compatible letters.length (.insert serverIndex serverValue)
      (.remove clientIndex clientLength)) {outcome : Outcome TextEdit}
    (succeeds : insertRemove serverIndex serverValue clientIndex clientLength = .ok outcome) :
    outcome.server.run (fun edit letters => edit.onLetters letters)
        (removed clientIndex.val clientLength.val letters) =
      merged (.insert serverIndex serverValue) (.remove clientIndex clientLength) letters := by
  have serverFits : serverIndex.val ≤ letters.length := compatible.serverFits
  obtain ⟨clientFits, clientBound⟩ := compatible.clientFits
  have left := @length_stretch_cut _ letters clientIndex.val (clientIndex.val + clientLength.val) 0
    serverIndex.val (Nat.zero_le _) serverFits
  -- What is inserted outside the removed stretch is placed after the characters left before it.
  have outside {place : Nat} (apart : ¬ (clientIndex.val < serverIndex.val ∧
      serverIndex.val < clientIndex.val + clientLength.val))
      (before : (stretch (cut clientIndex.val (clientIndex.val + clientLength.val)
        (letterAt letters)) 0 serverIndex.val).length = place) :
      inserted place serverValue.toList (removed clientIndex.val clientLength.val letters) =
        merged (.insert serverIndex serverValue) (.remove clientIndex clientLength) letters := by
    rw [removed_eq_stretch clientFits, inserted_stretch (Nat.lt_succ_of_le serverFits) before,
      merged_eq_stretch]
    refine stretch_congr fun position _ _ => ?_
    by_cases here : position = serverIndex.val
    · simp [placed, cut, textAt, covers, encloses, here, apart]
    · simp [placed, cut, textAt, covers, here]
  unfold insertRemove at succeeds
  simp only [val_plus_of_lt clientBound] at succeeds
  split at succeeds
  · cases succeeds
    exact outside (by omega) (by omega)
  · split at succeeds
    · obtain ⟨shifted, exactly, same⟩ := Fallible.bind_eq_ok_iff.mp succeeds
      obtain ⟨-, rfl⟩ := (Word.minus?_eq_ok_iff _ _ _).mp exactly
      cases same
      refine outside (by omega) ?_
      rw [left, Word.val_minus]
      omega
    · rename_i notBefore notAfter
      cases succeeds
      change removed clientIndex.val clientLength.val letters = _
      rw [removed_eq_stretch clientFits, merged_eq_stretch]
      refine stretch_congr fun position _ _ => ?_
      have lost : textAt (.insert serverIndex serverValue) (.remove clientIndex clientLength)
          position = [] := by
        refine if_neg ?_
        rintro ⟨rfl, kept⟩
        simp [encloses] at kept
        omega
      have nothing : textAt (.remove clientIndex clientLength) (.insert serverIndex serverValue)
          position = [] := rfl
      rw [lost, nothing, cut_eq_covers]
      rfl

theorem removeRemove_merged {serverLength : Word}
    (compatible : Compatible letters.length (.remove serverIndex serverLength)
      (.remove clientIndex clientLength)) {outcome : Outcome TextEdit}
    (succeeds : removeRemove serverIndex serverLength clientIndex clientLength = .ok outcome) :
    outcome.client.run (fun edit letters => edit.onLetters letters)
        (removed serverIndex.val serverLength.val letters) =
      merged (.remove serverIndex serverLength) (.remove clientIndex clientLength) letters := by
  obtain ⟨serverFits, serverBound⟩ := compatible.serverFits
  obtain ⟨clientFits, clientBound⟩ := compatible.clientFits
  have before := @length_stretch_cut _ letters serverIndex.val (serverIndex.val + serverLength.val) 0
    clientIndex.val (Nat.zero_le _) (by omega)
  have within := @length_stretch_cut _ letters serverIndex.val (serverIndex.val + serverLength.val)
    clientIndex.val (clientIndex.val + clientLength.val) (Nat.le_add_right _ _) clientFits
  simp only [removeRemove, val_plus_of_lt serverBound, val_plus_of_lt clientBound,
    Fallible.bind_eq_ok_iff, Fallible.pure_eq_ok_iff, Word.minus?_eq_ok_iff] at succeeds
  obtain ⟨_, -, _, -, newIndex, ⟨-, rfl⟩, newLength, ⟨-, rfl⟩, rfl⟩ := succeeds
  refine (run_shrunk _ _ _).trans ?_
  have rest : removed (clientIndex.minus (min (serverIndex.val + serverLength.val) clientIndex.val -
        serverIndex.val)).val (clientLength.minus (min (serverIndex.val + serverLength.val)
          (clientIndex.val + clientLength.val) - max serverIndex.val clientIndex.val)).val
        (stretch (cut serverIndex.val (serverIndex.val + serverLength.val) (letterAt letters)) 0
          (letters.length + 1)) =
      stretch (cut clientIndex.val (clientIndex.val + clientLength.val)
        (cut serverIndex.val (serverIndex.val + serverLength.val) (letterAt letters))) 0
          (letters.length + 1) := by
    refine removed_stretch (Nat.le_add_right _ _) (by omega) ?_ ?_ <;> rw [Word.val_minus]
    · omega
    · omega
  rw [removed_eq_stretch serverFits, rest, merged_eq_stretch]
  refine stretch_congr fun position _ _ => ?_
  simp only [cut_eq_covers, textAt, List.append_nil, List.nil_append]
  cases covers (.remove serverIndex serverLength) position <;>
    cases covers (.remove clientIndex clientLength) position <;> rfl

end

theorem transform_merged {server client : TextEdit} {letters : List Char}
    (compatible : Compatible letters.length server client) {outcome : Outcome TextEdit}
    (succeeds : server.transform client = .ok outcome) :
    outcome.client.run (fun edit letters => edit.onLetters letters) (server.onLetters letters) =
      merged server client letters := by
  cases server with
  | insert serverIndex serverValue =>
      cases client with
      | insert clientIndex clientValue =>
          cases succeeds
          exact insertInsert_merged compatible
      | remove clientIndex clientLength =>
          obtain ⟨found, transformed, meets⟩ := insertRemove_meets compatible
          rw [transform, transformed] at succeeds
          cases succeeds
          exact meets.same.trans (insertRemove_merged compatible transformed)
  | remove serverIndex serverLength =>
      cases client with
      | insert clientIndex clientValue =>
          obtain ⟨reverse, found, rfl⟩ := Fallible.map_eq_ok_iff.mp succeeds
          rw [merged_swap letters fun _ => rfl]
          exact insertRemove_merged compatible.swap found
      | remove clientIndex clientLength => exact removeRemove_merged compatible succeeds

end SharedDocument.TextEdit

namespace SharedDocument.Document

/-- Two edits of a text merge to the text with both of them, as long as its length with all that is
inserted is a word. -/
theorem text_mergesTo {document : Document} (reachable : document.Reachable)
    (isOpen : document.isClosed = false) {id : NodeId} {text : String}
    (stored : document.dataValue id = .ok (.string id text)) {server client : TextEdit}
    (serverAccepted : ∃ result, document.apply .own (.single (.on id (.text server))) = .ok result)
    (clientAccepted : ∃ result, document.apply .own (.single (.on id (.text client))) = .ok result)
    (small : text.length + server.weight + client.weight < 0x10000000000000000) :
    document.MergesTo id (.text server) (.text client)
      (.string id (String.ofList (server.merged client text.toList))) := by
  have ordered (edit : TextEdit) : (Change.text edit).Ordered :=
    ⟨fun value created => absurd created List.not_mem_nil, trivial⟩
  have rivals : document.Rivals id (.text server) (.text client) :=
    ⟨ordered server, ordered client, serverAccepted, clientAccepted,
      fun id created => absurd created List.not_mem_nil⟩
  obtain ⟨-, serverSuits, clientSuits⟩ := rivals.suits reachable isOpen stored
  have compatible : TextEdit.Compatible text.toList.length server client := by
    rw [String.length_toList]
    exact ⟨serverSuits.fits, clientSuits.fits, small⟩
  obtain ⟨outcome, transformed, meets⟩ := TextEdit.transform_meets compatible
  rw [← TextEdit.transform_merged compatible transformed]
  have same : text = String.ofList text.toList := String.ofList_toList.symm
  refine rivals.mergesTo_lift Change.text (fun letters => .string id (String.ofList letters)) reachable
    isOpen (same ▸ stored) (by simp [DataValue.kind]) (Change.transform_text transformed) meets ?_ ?_
  · intro edit letters fits
    simpa [Change.Fits] using fits
  · intro edit letters
    simp only [Change.applyTo, edit.applyTo_ofList]

/-- A text at the end of a removed stretch stays. -/
theorem text_mergesTo_touching :
    ∃ document : Document, document.dataValue ⟨"text"⟩ = .ok (.string ⟨"text"⟩ "abcd") ∧
      document.MergesTo ⟨"text"⟩ (.text (.remove ⟨1, by decide⟩ ⟨2, by decide⟩))
        (.text (.insert ⟨3, by decide⟩ "X")) (.string ⟨"text"⟩ "aXd") := by
  have reachable : Reachable
      ⟨⟨"text"⟩, Arena.empty.attach none (.string ⟨"text"⟩ "abcd"), .none, true, false⟩ :=
    ⟨.string ⟨"text"⟩ "abcd", _, [], .leaf rfl, rfl, by simp, rfl⟩
  have stored : dataValue ⟨⟨"text"⟩, Arena.empty.attach none (.string ⟨"text"⟩ "abcd"), .none, true,
      false⟩ ⟨"text"⟩ = .ok (.string ⟨"text"⟩ "abcd") := rfl
  have merged : String.ofList (TextEdit.merged (.remove ⟨1, by decide⟩ ⟨2, by decide⟩)
      (.insert ⟨3, by decide⟩ "X") "abcd".toList) = "aXd" := by decide +kernel
  refine ⟨_, stored, ?_⟩
  rw [← merged]
  exact text_mergesTo reachable rfl stored ⟨_, rfl⟩ ⟨_, rfl⟩ (by decide)

end SharedDocument.Document
