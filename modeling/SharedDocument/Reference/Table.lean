import SharedDocument.Reference

/-! The references of a node as they are laid out: by session, and for every session by key. Each
operation changes the table in place, and a session that has lost its last reference leaves with it. -/

namespace SharedDocument

structure ReferenceTable where
  sessions : List (String × List (String × Reference))
deriving DecidableEq, Repr

namespace ReferenceTable

def empty : ReferenceTable :=
  ⟨[]⟩

def isEmpty (table : ReferenceTable) : Bool :=
  table.sessions.isEmpty

def get? (table : ReferenceTable) (name : ReferenceName) : Option Reference :=
  (Keyed.find? name.sessionId table.sessions).bind (Keyed.find? name.key)

def ofSession (table : ReferenceTable) (sessionId : String) : List (String × Reference) :=
  (Keyed.find? sessionId table.sessions).getD []

/-- Sessions are chosen by the name under which they are listed, references by the key that they bear. -/
def getAll (table : ReferenceTable) (filter : ReferenceFilter) : List Reference :=
  let chosen := table.sessions.filter fun entry =>
    filter.sessionId.all fun sessionId => sessionId == entry.1
  (chosen.flatMap fun entry => entry.2.map Prod.snd).filter fun reference =>
    filter.key.all fun key => key == reference.name.key

/-- The session is entered into the table before its keys are looked at. -/
def put (table : ReferenceTable) (reference : Reference) :
    Except DocumentError Unit × ReferenceTable :=
  let session := table.ofSession reference.name.sessionId
  let entered := Keyed.insert reference.name.sessionId session table.sessions
  if Keyed.contains reference.name.key session then
    (.error (.referenceExists reference.name.sessionId reference.name.key), ⟨entered⟩)
  else
    let grown := Keyed.insert reference.name.key reference session
    (.ok (), ⟨Keyed.insert reference.name.sessionId grown entered⟩)

def remove (table : ReferenceTable) (name : ReferenceName) : Option Reference × ReferenceTable :=
  match Keyed.find? name.sessionId table.sessions with
  | none => (none, table)
  | some session =>
      let left := Keyed.erase name.key session
      let shrunk := Keyed.insert name.sessionId left table.sessions
      (Keyed.find? name.key session,
        ⟨if left.isEmpty then Keyed.erase name.sessionId shrunk else shrunk⟩)

def removeSession (table : ReferenceTable) (sessionId : String) : ReferenceTable :=
  ⟨Keyed.erase sessionId table.sessions⟩

def removeKey (table : ReferenceTable) (key : String) : ReferenceTable :=
  ⟨(Keyed.mapValues (Keyed.erase key) table.sessions).filter fun entry => !entry.2.isEmpty⟩

def rewrite (table : ReferenceTable) (change : ReferenceValue → ReferenceValue) : ReferenceTable :=
  ⟨Keyed.mapValues
    (Keyed.mapValues fun reference => { reference with value := change reference.value })
    table.sessions⟩

end ReferenceTable

end SharedDocument
