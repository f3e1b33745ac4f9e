import Phrasebook.Node.Basic
import Phrasebook.Json.Value

namespace Phrasebook

def optionalMember (name : String) : Option Json.Value → List (String × Json.Value)
  | some value => [(name, value)]
  | none => []

mutual

def Node.toJson : Node → Json.Value
  | .raw text => .string text
  | .identifier name => .object [("type", .string "identifier"), ("name", .string name)]
  | .string content => .object [("type", .string "string"), ("content", .string content)]
  | .complexString content =>
      .object [("type", .string "complexString"), ("content", .array (Node.toJsons content))]
  | .hash items default? =>
      .object ([("type", .string "hash"), ("items", .object (Node.toMembers items))] ++
        optionalMember "default" (default?.map .string))
  | .call callee arguments =>
      .object [("type", .string "call"), ("callee", callee.toJson),
        ("args", .array (Node.toJsons arguments))]

def Node.toJsons : List Node → List Json.Value
  | [] => []
  | node :: nodes => node.toJson :: Node.toJsons nodes

def Node.toMembers : List (String × Node) → List (String × Json.Value)
  | [] => []
  | (key, node) :: items => (key, node.toJson) :: Node.toMembers items

end

def AttributeNode.toJson : AttributeNode → Json.Value
  | .plain value => value.toJson
  | .indexed value index =>
      .object [("value", value.toJson), ("index", .array (Node.toJsons index))]

/-- Absent fields are left out; an index without selectors is kept. -/
def EntryNode.toJson (entry : EntryNode) : Json.Value :=
  .object ([("id", .string entry.id)] ++
    optionalMember "value" (entry.value?.map Node.toJson) ++
    optionalMember "index" (entry.index?.map fun index => .array (Node.toJsons index)) ++
    if entry.attributes.isEmpty then []
    else [("attrs", .object (entry.attributes.mapValues AttributeNode.toJson))])

inductive NodeType where
  | identifier
  | string
  | complexString
  | hash
  | call

/-- A type is given by its name or by its place in the order of the types. -/
def NodeType.ofJson? : Json.Value → Option NodeType
  | .string "identifier" => some .identifier
  | .string "string" => some .string
  | .string "complexString" => some .complexString
  | .string "hash" => some .hash
  | .string "call" => some .call
  | .number (.natural 0) => some .identifier
  | .number (.natural 1) => some .string
  | .number (.natural 2) => some .complexString
  | .number (.natural 3) => some .hash
  | .number (.natural 4) => some .call
  | _ => none

/-- Everything that a value could stand for in a field of a node. -/
structure Reading where
  type? : Option NodeType := none
  text? : Option String := none
  node? : Option Node := none
  nodes? : Option (List Node) := none
  table? : Option (Table Node) := none
  isNull : Bool := false

def Reading.default? (reading : Reading) : Option (Option String) :=
  if reading.isNull then some none else reading.text?.map some

/-- The one member of a name; a name given twice is no member. -/
def onlyMember? (name : String) (members : List (String × Reading)) : Option Reading :=
  match members.filter fun member => member.1 = name with
  | [member] => some member.2
  | _ => none

def Node.ofIdentifier? (name : Reading) : Option Node :=
  name.text?.map .identifier

def Node.ofString? (content : Reading) : Option Node :=
  content.text?.map .string

def Node.ofComplexString? (content : Reading) : Option Node :=
  content.nodes?.map .complexString

def Node.ofHash? (items : Reading) (default? : Option Reading) : Option Node :=
  match items.table?, default? with
  | some table, none => some (.hash table none)
  | some table, some reading => reading.default?.map (.hash table)
  | none, _ => none

def Node.ofCall? (callee arguments : Reading) : Option Node :=
  match callee.node?, arguments.nodes? with
  | some callee, some arguments => some (.call callee arguments)
  | _, _ => none

/-- Members that belong to no field are passed over. -/
def Node.ofMembers? (members : List (String × Reading)) : Option Node := do
  match ← (← onlyMember? "type" members).type? with
  | .identifier => Node.ofIdentifier? (← onlyMember? "name" members)
  | .string => Node.ofString? (← onlyMember? "content" members)
  | .complexString => Node.ofComplexString? (← onlyMember? "content" members)
  | .hash =>
      let items ← onlyMember? "items" members
      if members.any (·.1 = "default") then
        Node.ofHash? items (some (← onlyMember? "default" members))
      else Node.ofHash? items none
  | .call => Node.ofCall? (← onlyMember? "callee" members) (← onlyMember? "args" members)

/-- A list holds the type and then the fields in their order. -/
def Node.ofFields? : List Reading → Option Node
  | [] => none
  | type :: fields =>
      match type.type?, fields with
      | some .identifier, [name] => Node.ofIdentifier? name
      | some .string, [content] => Node.ofString? content
      | some .complexString, [content] => Node.ofComplexString? content
      | some .hash, [items] => Node.ofHash? items none
      | some .hash, [items, default] => Node.ofHash? items (some default)
      | some .call, [callee, arguments] => Node.ofCall? callee arguments
      | _, _ => none

def tableItems? : List (String × Reading) → Option (List (String × Node))
  | [] => some []
  | (name, reading) :: members =>
      match reading.node?, tableItems? members with
      | some node, some items => some ((name, node) :: items)
      | _, _ => none

mutual

def Reading.ofJson : Json.Value → Reading
  | .null => { isNull := true }
  | .bool _ => {}
  | .number n => { type? := NodeType.ofJson? (.number n) }
  | .string s =>
      { type? := NodeType.ofJson? (.string s), text? := some s, node? := some (.raw s) }
  | .array items =>
      let readings := Reading.ofItems items
      { node? := Node.ofFields? readings, nodes? := readings.mapM Reading.node? }
  | .object members =>
      let readings := Reading.ofMembers members
      { node? := Node.ofMembers? readings,
        table? := (tableItems? readings).map Table.ofList }

def Reading.ofItems : List Json.Value → List Reading
  | [] => []
  | item :: items => Reading.ofJson item :: Reading.ofItems items

def Reading.ofMembers : List (String × Json.Value) → List (String × Reading)
  | [] => []
  | (name, value) :: members => (name, Reading.ofJson value) :: Reading.ofMembers members

end

def Node.ofJson? (value : Json.Value) : Option Node :=
  (Reading.ofJson value).node?

/-- Any node is a plain attribute; an object with a value is one with its own index. -/
def AttributeNode.ofJson? (value : Json.Value) : Option AttributeNode :=
  match Node.ofJson? value, value with
  | some node, _ => some (.plain node)
  | none, .object members => do
      let readings := Reading.ofMembers members
      let node ← (← onlyMember? "value" readings).node?
      if readings.any (·.1 = "index") then
        return .indexed node (← (← onlyMember? "index" readings).nodes?)
      else
        return .indexed node []
  | none, _ => none

end Phrasebook
