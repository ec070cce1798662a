import SharedDocument.Proofs.Document.Snapshots
import SharedDocument.Value.Fresh

/-! Values with fresh ids. The running number of an id has no colon, so it begins after the last one:
an id tells label and number, whatever the label is. Sources of different labels never issue the
same id, and what one source creates in any number of steps repeats no id. -/

namespace SharedDocument

/-- The last mark tells what stands before it and what stands after it. -/
theorem append_mark_inj {α : Type} {mark : α} {before other after rest : List α}
    (last : mark ∉ after) (otherLast : mark ∉ rest) :
    before ++ mark :: after = other ++ mark :: rest ↔ before = other ∧ after = rest := by
  refine ⟨fun same => ?_, fun ⟨sameBefore, sameAfter⟩ => sameBefore ▸ sameAfter ▸ rfl⟩
  rcases List.append_eq_append_iff.mp same with ⟨between, longer, tail⟩ | ⟨between, longer, tail⟩
  all_goals
    -- a mark that stands earlier would have the other one after it
    obtain _ | ⟨first, between⟩ := between
    · obtain ⟨-, rfl⟩ := List.cons.inj tail
      exact ⟨by simp [longer], rfl⟩
    · obtain ⟨-, rfl⟩ := List.cons.inj tail
      simp at last otherLast

namespace IdSource

theorem text_idAt (label : String) (position : Nat) :
    (idAt label position).text.toList = label.toList ++ ':' :: Nat.toDigits 10 position := by
  simp [idAt, String.toList_append, Nat.toString_eq_repr, Nat.toList_repr]

theorem colon_notMem_toDigits (position : Nat) : ':' ∉ Nat.toDigits 10 position := fun listed =>
  absurd (Nat.isDigit_of_mem_toDigits (by decide) (by decide) listed) (by decide)

theorem idAt_eq_idAt_iff {label other : String} {position place : Nat} :
    idAt label position = idAt other place ↔ label = other ∧ position = place := by
  constructor
  · intro same
    have sameText := congrArg (fun id => id.text.toList) same
    simp only [text_idAt] at sameText
    obtain ⟨sameLabel, sameDigits⟩ :=
      (append_mark_inj (colon_notMem_toDigits _) (colon_notMem_toDigits _)).mp sameText
    have sameNumber := congrArg (fun digits => Nat.ofDigitChars 10 digits 0) sameDigits
    simp only [Nat.ofDigitChars_toDigits (b := 10) (by decide) (by decide)] at sameNumber
    exact ⟨String.toList_inj.mp sameLabel, sameNumber⟩
  · rintro ⟨rfl, rfl⟩
    rfl

inductive Issues : IdSource → List NodeId → IdSource → Prop
  | done {source} : Issues source [] source
  | issue {source ids last} : Issues source.issue.2 ids last →
      Issues source (source.issue.1 :: ids) last

namespace Issues

variable {source next last : IdSource} {ids more : List NodeId}

theorem append (first : source.Issues ids next) (second : next.Issues more last) :
    source.Issues (ids ++ more) last := by
  induction first with
  | done => exact second
  | issue _ ih => exact .issue (ih second)

theorem ids_eq (issues : source.Issues ids next) :
    ids = (List.range' source.next ids.length).map (idAt source.label) := by
  induction issues with
  | done => rfl
  | issue _ ih =>
      rw [List.length_cons, List.range'_succ, List.map_cons]
      exact congrArg (_ :: ·) ih

theorem nodup (issues : source.Issues ids next) : ids.Nodup := by
  rw [issues.ids_eq]
  exact List.Nodup.map (fun _ _ same => (idAt_eq_idAt_iff.mp same).2) (List.nodup_range' 1)

end Issues

end IdSource

open IdSource

namespace DataValue

mutual

theorem issues_ofJson (source : IdSource) :
    (json : Json) → source.Issues (ofJson source json).1.nodeIds (ofJson source json).2
  | .null | .bool _ | .int _ | .float _ | .string _ => .issue .done
  | .array items => .issue (issues_itemsOfJson source.issue.2 items)
  | .object members => .issue (issues_membersOfJson source.issue.2 members)

theorem issues_itemsOfJson (source : IdSource) :
    (items : List Json) →
      source.Issues (itemIds (itemsOfJson source items).1) (itemsOfJson source items).2
  | [] => .done
  | item :: rest => (issues_ofJson source item).append (issues_itemsOfJson _ rest)

theorem issues_membersOfJson (source : IdSource) :
    (members : List (String × Json)) →
      source.Issues (memberIds (membersOfJson source members).1) (membersOfJson source members).2
  | [] => .done
  | (_, member) :: rest => (issues_ofJson source member).append (issues_membersOfJson _ rest)

end

end DataValue

namespace Json

mutual

/-- The JSON with every number as a float. A float that is not finite is null. -/
def inFloats : Json → Json
  | .null => .null
  | .bool value => .bool value
  | .int value => number (Float.ofInt value)
  | .float value => number value
  | .string value => .string value
  | .array items => .array (itemsInFloats items)
  | .object members => .object (membersInFloats members)

def itemsInFloats : List Json → List Json
  | [] => []
  | item :: rest => inFloats item :: itemsInFloats rest

def membersInFloats : List (String × Json) → List (String × Json)
  | [] => []
  | (key, member) :: rest => (key, inFloats member) :: membersInFloats rest

end

end Json

namespace DataValue

mutual

theorem json_ofJson (source : IdSource) : (json : Json) → (ofJson source json).1.json = json.inFloats
  | .null | .bool _ | .int _ | .float _ | .string _ => rfl
  | .array items => congrArg Json.array (json_itemsOfJson source.issue.2 items)
  | .object members => congrArg Json.object (json_membersOfJson source.issue.2 members)

theorem json_itemsOfJson (source : IdSource) :
    (items : List Json) → itemJson (itemsOfJson source items).1 = Json.itemsInFloats items
  | [] => rfl
  | item :: rest => by
      rw [Json.itemsInFloats, ← json_ofJson source item, ← json_itemsOfJson _ rest]
      rfl

theorem json_membersOfJson (source : IdSource) :
    (members : List (String × Json)) →
      memberJson (membersOfJson source members).1 = Json.membersInFloats members
  | [] => rfl
  | (_, member) :: rest => by
      rw [Json.membersInFloats, ← json_ofJson source member, ← json_membersOfJson _ rest]
      rfl

end

end DataValue

namespace IdSource

inductive Creation where
  | json (json : Json)
  | date (instant : Instant)

def create (source : IdSource) : Creation → DataValue × IdSource
  | .json json => DataValue.ofJson source json
  | .date instant => DataValue.ofInstant source instant

def createAll (source : IdSource) : List Creation → List DataValue
  | [] => []
  | creation :: rest => (source.create creation).1 :: (source.create creation).2.createAll rest

theorem issues_create (source : IdSource) :
    (creation : Creation) → source.Issues (source.create creation).1.nodeIds (source.create creation).2
  | .json json => DataValue.issues_ofJson source json
  | .date _ => .issue .done

def createdIds (label : String) (creations : List Creation) : List NodeId :=
  ((start label).createAll creations).flatMap DataValue.nodeIds

theorem issues_createAll (source : IdSource) (creations : List Creation) :
    ∃ last, source.Issues ((source.createAll creations).flatMap DataValue.nodeIds) last := by
  induction creations generalizing source with
  | nil => exact ⟨source, .done⟩
  | cons creation rest ih =>
      obtain ⟨last, later⟩ := ih (source.create creation).2
      exact ⟨last, (source.issues_create creation).append later⟩

theorem createdIds_eq (label : String) (creations : List Creation) :
    createdIds label creations =
      (List.range (createdIds label creations).length).map (idAt label) := by
  obtain ⟨last, issues⟩ := issues_createAll (start label) creations
  rw [List.range_eq_range']
  exact issues.ids_eq

/-- An id tells its label and its number. Hence a source repeats no id in anything that it creates, and
shares none with a source of another label. A value that is created from JSON makes a document, whose
JSON is that JSON with floats for its numbers. -/
theorem creations_never_collide :
    (∀ label other position place,
      idAt label position = idAt other place ↔ label = other ∧ position = place) ∧
    (∀ label creations, (createdIds label creations).Nodup ∧ createdIds label creations =
      (List.range (createdIds label creations).length).map (idAt label)) ∧
    (∀ label other, label ≠ other → ∀ creations further,
      (createdIds label creations).Disjoint (createdIds other further)) ∧
    ∀ (source : IdSource) (json : Json), ∃ document,
      Document.ofValue (DataValue.ofJson source json).1 = .ok document ∧
        document.json = json.inFloats := by
  refine ⟨fun _ _ _ _ => idAt_eq_idAt_iff, fun label creations => ?_, ?_, fun source json => ?_⟩
  · obtain ⟨_, issues⟩ := issues_createAll (start label) creations
    exact ⟨issues.nodup, createdIds_eq label creations⟩
  · intro label other apart creations further id here there
    rw [createdIds_eq] at here there
    obtain ⟨position, -, rfl⟩ := List.mem_map.mp here
    obtain ⟨place, -, same⟩ := List.mem_map.mp there
    exact apart (idAt_eq_idAt_iff.mp same).1.symm
  · have distinct := (DataValue.issues_ofJson source json).nodup
    refine ⟨_, Document.ofValue_eq_ok_iff.mpr ⟨distinct, rfl⟩, ?_⟩
    rw [Document.json_eq (Arena.holds_attach distinct) distinct rfl, DataValue.json_ofJson]

/-- A label that looks like an id of the other source. -/
theorem creations_never_collide_with_colons :
    let creations : List Creation := [.json (.array [.null]), .date ⟨0, 0⟩]
    "left" ≠ "left:1" ∧
      createdIds "left" creations = [⟨"left:0"⟩, ⟨"left:1"⟩, ⟨"left:2"⟩] ∧
      createdIds "left:1" creations = [⟨"left:1:0"⟩, ⟨"left:1:1"⟩, ⟨"left:1:2"⟩] ∧
      (createdIds "left" creations).Disjoint (createdIds "left:1" creations) :=
  ⟨by decide, rfl, rfl, creations_never_collide.2.2.1 _ _ (by decide) _ _⟩

end IdSource

end SharedDocument
