import Phrasebook.Table

namespace Phrasebook

/-- A value as written in a resource. Raw text may hold placeables, a string never does. The parts
of a complex string are literal where they are raw. -/
inductive Node where
  | raw (text : String)
  | identifier (name : String)
  | string (content : String)
  | complexString (content : List Node)
  | hash (items : List (String × Node)) (default? : Option String)
  | call (callee : Node) (arguments : List Node)

inductive AttributeNode where
  | plain (value : Node)
  | indexed (value : Node) (index : List Node)

structure EntryNode where
  id : String
  value? : Option Node := none
  index? : Option (List Node) := none
  attributes : Table AttributeNode := []

namespace Node

/-- Raw text is literal; all other nodes are expressions. -/
def isRaw : Node → Bool
  | .raw _ => true
  | _ => false

end Node

def EntryNode.simple (id text : String) : EntryNode where
  id := id
  value? := some (.raw text)

end Phrasebook
