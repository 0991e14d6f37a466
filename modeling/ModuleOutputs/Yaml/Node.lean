import ModuleOutputs.Yaml.Token

/-!
The nodes of a document. A text that breaks off still has the nodes before the
place where it does, so a list or a mapping may lack its end, and the last node may
not be known at all.
-/

namespace ModuleOutputs.Yaml

/-- A node of a document, with the place where it begins and the number of its
anchor. -/
inductive Node where
  | scalar (mark : Mark) (anchor : Option Nat) (tag : Option String) (style : ScalarStyle)
      (text : String)
  /-- The node with the anchor of that number. -/
  | alias (target : Nat)
  | list (mark : Mark) (anchor : Option Nat) (items : List Node) (complete : Bool)
  | mapping (mark : Mark) (anchor : Option Nat) (entries : List (Node × Node)) (complete : Bool)
  /-- The text breaks off before the node is known. -/
  | broken
deriving Repr

namespace Node

/-- A scalar that is not written. -/
def empty (mark : Mark) : Node :=
  .scalar mark none none .plain ""

mutual

/-- Whether the text of a node is all there. -/
def isComplete : Node → Bool
  | .scalar .. => true
  | .alias _ => true
  | .list _ _ items complete => complete && areComplete items
  | .mapping _ _ entries complete => complete && entriesComplete entries
  | .broken => false

/-- Whether the texts of all nodes of a list are there. -/
def areComplete : List Node → Bool
  | [] => true
  | n :: rest => n.isComplete && areComplete rest

/-- Whether the texts of all entries of a mapping are there. -/
def entriesComplete : List (Node × Node) → Bool
  | [] => true
  | (k, v) :: rest => k.isComplete && v.isComplete && entriesComplete rest

end

mutual

/-- The last node, in the order of the text, whose anchor has a number. -/
def find? (id : Nat) : Node → Option Node
  | .list mark anchor items complete =>
    (findIn? id items).or
      (if anchor = some id then some (.list mark anchor items complete) else none)
  | .mapping mark anchor entries complete =>
    (findInEntries? id entries).or
      (if anchor = some id then some (.mapping mark anchor entries complete) else none)
  | .scalar mark anchor tag style text =>
    if anchor = some id then some (.scalar mark anchor tag style text) else none
  | .alias _ => none
  | .broken => none

/-- The last such node of a list. -/
def findIn? (id : Nat) : List Node → Option Node
  | [] => none
  | n :: rest => (findIn? id rest).or (n.find? id)

/-- The last such node of a mapping. -/
def findInEntries? (id : Nat) : List (Node × Node) → Option Node
  | [] => none
  | (k, v) :: rest => (findInEntries? id rest).or ((v.find? id).or (k.find? id))

end

end Node

/-- A document: its outermost node, if there is any, and whether nothing is wrong
with the text that follows it. -/
structure Document where
  root : Option Node
  wellEnded : Bool
deriving Repr

namespace Document

/-- What a node stands for: itself, unless it is an alias. -/
def resolve (d : Document) : Node → Node
  | .alias target => (d.root.bind (·.find? target)).getD .broken
  | n => n

end Document

end ModuleOutputs.Yaml
