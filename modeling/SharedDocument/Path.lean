/-! Paths from the root of a document to a node. The empty path is the root. -/

namespace SharedDocument

inductive PathElement where
  | key (name : String)
  | index (position : Nat)
deriving DecidableEq, Repr

abbrev Path : Type :=
  List PathElement

namespace Path

def child (path : Path) (element : PathElement) : Path :=
  path ++ [element]

def startsWith (path ancestor : Path) : Bool :=
  ancestor.isPrefixOf path

def elementText : PathElement → String
  | .key name => "." ++ name
  | .index position => "[" ++ toString position ++ "]"

def text (path : Path) : String :=
  "$" ++ String.join (path.map elementText)

end Path

end SharedDocument
