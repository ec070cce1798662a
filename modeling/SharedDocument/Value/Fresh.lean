import SharedDocument.Value

/-! Values with fresh ids. A source of ids issues its label, a colon and a running number. -/

namespace SharedDocument

structure IdSource where
  label : String
  next : Nat
deriving DecidableEq, Repr

namespace IdSource

def start (label : String) : IdSource :=
  ⟨label, 0⟩

def idAt (label : String) (position : Nat) : NodeId :=
  ⟨label ++ ":" ++ toString position⟩

def issue (source : IdSource) : NodeId × IdSource :=
  (idAt source.label source.next, { source with next := source.next + 1 })

end IdSource

namespace DataValue

mutual

/-- A value with the given plain JSON and a fresh id on every node, parents first. -/
def ofJson (source : IdSource) : Json → DataValue × IdSource
  | .null => (.null source.issue.1, source.issue.2)
  | .bool value => (.boolean source.issue.1 value, source.issue.2)
  | .int value => (.number source.issue.1 (Float.ofInt value), source.issue.2)
  | .float value => (.number source.issue.1 value, source.issue.2)
  | .string value => (.string source.issue.1 value, source.issue.2)
  | .array items =>
      let children := itemsOfJson source.issue.2 items
      (.array source.issue.1 children.1, children.2)
  | .object members =>
      let children := membersOfJson source.issue.2 members
      (.object source.issue.1 children.1, children.2)

def itemsOfJson (source : IdSource) : List Json → List DataValue × IdSource
  | [] => ([], source)
  | item :: rest =>
      let first := ofJson source item
      let others := itemsOfJson first.2 rest
      (first.1 :: others.1, others.2)

def membersOfJson (source : IdSource) : List (String × Json) → List (String × DataValue) × IdSource
  | [] => ([], source)
  | (key, member) :: rest =>
      let first := ofJson source member
      let others := membersOfJson first.2 rest
      ((key, first.1) :: others.1, others.2)

end

def ofInstant (source : IdSource) (instant : Instant) : DataValue × IdSource :=
  (.date source.issue.1 instant, source.issue.2)

end DataValue

end SharedDocument
