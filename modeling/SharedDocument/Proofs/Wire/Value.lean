import SharedDocument.Proofs.Value
import SharedDocument.Wire.Value

/-! Values survive the wire. A value whose numbers are finite and whose dates read back from their text
is decoded from its encoding, at the top and inside another record. -/

namespace SharedDocument

def Instant.ReadsBack (instant : Instant) : Prop :=
  Instant.parse? instant.text = some instant

namespace DataValue

def Throughout (holds : DataValue → Prop) (value : DataValue) : Prop :=
  ∀ outerParent parent inner, Occurs outerParent value parent inner → holds inner

theorem throughout_iff {holds : DataValue → Prop} {value : DataValue} :
    value.Throughout holds ↔
      holds value ∧ ∀ child ∈ value.childValues, child.Throughout holds := by
  constructor
  · intro throughout
    refine ⟨throughout none none value .here, ?_⟩
    intro child listed outerParent parent inner occurs
    obtain ⟨innerParent, deeper⟩ := occurs.exists_below (some value.id)
    exact throughout none innerParent inner (.deeper listed deeper)
  · rintro ⟨here, below⟩ outerParent parent inner occurs
    rcases occurs.eq_or_deeper with ⟨-, rfl⟩ | ⟨child, listed, deeper⟩
    · exact here
    · exact below child listed _ _ inner deeper

theorem Throughout.leaf {holds : DataValue → Prop} {value : DataValue}
    (childless : value.childValues = []) (here : holds value) : value.Throughout holds := by
  refine throughout_iff.mpr ⟨here, ?_⟩
  simp [childless]

def HasFiniteNumber : DataValue → Prop
  | .number _ value => value.isFinite = true
  | _ => True

def HasReadableDate : DataValue → Prop
  | .date _ value => value.ReadsBack
  | _ => True

def IsFinite : DataValue → Prop :=
  Throughout HasFiniteNumber

def DatesReadBack : DataValue → Prop :=
  Throughout HasReadableDate

end DataValue

theorem Word.ofNat?_val (word : Word) : ofNat? word.val = some word := by
  rw [ofNat?, dif_pos word.isLt]

namespace Wire

theorem word?_ofNat (number : Nat) : word? (.int number) = Word.ofNat? number := by
  rw [word?, if_pos (Int.natCast_nonneg _), Int.toNat_natCast]

theorem word?_word (value : Word) : word? (word value) = some value :=
  (word?_ofNat value.val).trans value.ofNat?_val

theorem float?_number {value : Float} (finite : value.isFinite = true) :
    float? (Json.number value) = some value := by
  simp [Json.number, finite, float?]

theorem instant?_text {value : Instant} (readsBack : value.ReadsBack) :
    instant? (.string value.text) = some value := by
  rw [instant?, text?, Option.bind_some]
  exact readsBack

end Wire

@[simp] theorem NodeId.decode?_encode (id : NodeId) : decode? id.encode = some id := rfl

theorem NodeKind.tag?_name (isNested : Bool) (kind : NodeKind) :
    Wire.tag? isNested all name (.string kind.name) = some kind := by
  cases kind <;> rfl

namespace DataValue

theorem decodeItems_encodeItems {children : List DataValue}
    (each : ∀ child ∈ children, decodeAs true child.encode = some child) :
    decodeItems (encodeItems children) = some children := by
  induction children with
  | nil => rfl
  | cons child rest ih =>
      obtain ⟨first, others⟩ := List.forall_mem_cons.mp each
      simp only [encodeItems, decodeItems, first, ih others]

theorem decodeMembers_encodeMembers {children : List (String × DataValue)}
    (each : ∀ child ∈ children.map Prod.snd, decodeAs true child.encode = some child) :
    decodeMembers (encodeMembers children) = some children := by
  induction children with
  | nil => rfl
  | cons entry rest ih =>
      obtain ⟨first, others⟩ := List.forall_mem_cons.mp each
      simp only [encodeMembers, decodeMembers, first, ih others]

theorem decodeAs_record {isNested : Bool} {members : List (String × Json)} (kind : NodeKind)
    (id : NodeId) (tag : Keyed.find? "type" members = some (.string kind.name))
    (named : Keyed.find? "id" members = some id.encode) :
    decodeAs isNested (.object members) =
      assemble kind id (Keyed.find? "value" members) (childrenField members) := by
  simp [decodeAs, tag, named, NodeKind.tag?_name]

theorem decodeAs_encode (isNested : Bool) {value : DataValue} (finite : value.IsFinite)
    (dates : value.DatesReadBack) : decodeAs isNested value.encode = some value := by
  induction value using DataValue.induction generalizing isNested with
  | step value ih =>
      have below (child : DataValue) (listed : child ∈ value.childValues) :
          decodeAs true child.encode = some child :=
        ih child listed true ((throughout_iff.mp finite).2 child listed)
          ((throughout_iff.mp dates).2 child listed)
      cases value with
      | object id children =>
          refine (decodeAs_record .object id rfl rfl).trans ?_
          have members : decodeMembers (encodeMembers children) = some children :=
            decodeMembers_encodeMembers below
          simp [assemble, childrenField, decodeChildren, members]
      | array id children =>
          refine (decodeAs_record .array id rfl rfl).trans ?_
          have items : decodeItems (encodeItems children) = some children :=
            decodeItems_encodeItems below
          simp [assemble, childrenField, decodeChildren, items]
      | string id text => exact decodeAs_record .string id rfl rfl
      | number id number =>
          refine (decodeAs_record .number id rfl rfl).trans ?_
          have here : number.isFinite = true := (throughout_iff.mp finite).1
          have read := Wire.float?_number here
          simp [assemble, Keyed.find?, read]
      | boolean id flag => exact decodeAs_record .boolean id rfl rfl
      | date id date =>
          refine (decodeAs_record .date id rfl rfl).trans ?_
          have here : date.ReadsBack := (throughout_iff.mp dates).1
          have read := Wire.instant?_text here
          simp [assemble, Keyed.find?, read]
      | null id => exact decodeAs_record .null id rfl rfl

end DataValue

end SharedDocument
