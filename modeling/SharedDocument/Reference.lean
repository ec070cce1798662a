import SharedDocument.Document.Error
import SharedDocument.Keyed
import SharedDocument.Position

/-! Cursors and selections on text and array nodes. A reference is owned by a session and named by
a key, and its positions follow every edit of the node that it is attached to. -/

namespace SharedDocument

inductive ReferenceValue where
  | index (position : Word)
  | indices (positions : List Word)
  | range (selection : IndexRange)
  | ranges (selections : List IndexRange)
deriving DecidableEq, Repr

def ReferenceValue.map (follow : Word → Word) : ReferenceValue → ReferenceValue
  | .index position => .index (follow position)
  | .indices positions => .indices (positions.map follow)
  | .range selection => .range (selection.map follow)
  | .ranges selections => .ranges (selections.map (IndexRange.map follow))

structure ReferenceName where
  sessionId : String
  key : String
deriving DecidableEq, Repr

instance : LT ReferenceName := ⟨fun left right =>
  left.sessionId < right.sessionId ∨ left.sessionId = right.sessionId ∧ left.key < right.key⟩

instance : DecidableLT ReferenceName := fun left right =>
  inferInstanceAs (Decidable
    (left.sessionId < right.sessionId ∨ left.sessionId = right.sessionId ∧ left.key < right.key))

structure Reference where
  name : ReferenceName
  value : ReferenceValue
deriving DecidableEq, Repr

/-- A part that is not given matches everything. -/
structure ReferenceFilter where
  sessionId : Option String
  key : Option String
deriving DecidableEq, Repr

def ReferenceFilter.accepts (filter : ReferenceFilter) (name : ReferenceName) : Bool :=
  (filter.sessionId.all fun sessionId => sessionId == name.sessionId) &&
    filter.key.all fun key => key == name.key

structure ReferenceMap where
  entries : List (ReferenceName × ReferenceValue)
deriving DecidableEq, Repr

namespace ReferenceMap

def empty : ReferenceMap :=
  ⟨[]⟩

def isEmpty (references : ReferenceMap) : Bool :=
  references.entries.isEmpty

def get? (references : ReferenceMap) (name : ReferenceName) : Option Reference :=
  (Keyed.find? name references.entries).map fun value => ⟨name, value⟩

def getAll (references : ReferenceMap) (filter : ReferenceFilter) : List Reference :=
  (references.entries.filter fun entry => filter.accepts entry.1).map fun entry =>
    ⟨entry.1, entry.2⟩

def put (references : ReferenceMap) (reference : Reference) : Except DocumentError ReferenceMap :=
  if Keyed.contains reference.name references.entries then
    .error (.referenceExists reference.name.sessionId reference.name.key)
  else .ok ⟨Keyed.insert reference.name reference.value references.entries⟩

def remove (references : ReferenceMap) (name : ReferenceName) : ReferenceMap :=
  ⟨Keyed.erase name references.entries⟩

def removeSession (references : ReferenceMap) (sessionId : String) : ReferenceMap :=
  ⟨references.entries.filter fun entry => entry.1.sessionId != sessionId⟩

def removeKey (references : ReferenceMap) (key : String) : ReferenceMap :=
  ⟨references.entries.filter fun entry => entry.1.key != key⟩

def map (follow : Word → Word) (references : ReferenceMap) : ReferenceMap :=
  ⟨Keyed.mapValues (ReferenceValue.map follow) references.entries⟩

end ReferenceMap

end SharedDocument
