import Phrasebook.Resource.Interchange
import Phrasebook.Resource.Properties

namespace Phrasebook.Resource

open Phrasebook.Decimal
open Phrasebook.Text

abbrev Parser := String → Except ParseFailure (List EntryNode)

/-- Every line is a phrase of its own, named by its number from zero. -/
def parseLines : Parser := fun source =>
  .ok ((lines source.toList).mapIdx fun n line =>
    .simple ("line" ++ numeral n) (String.ofList line))

abbrev Registry := Table Parser

def Registry.standard : Registry :=
  Table.ofList [("properties", parseProperties), ("json", parseInterchange)]

/-- The text behind the last dot, unless the dot belongs to a folder's name. -/
def extensionOf (resource : String) : String :=
  let reversed := resource.toList.reverse
  let extension := reversed.takeWhile (· ≠ '.')
  if extension.length = reversed.length ∨ extension.contains '/' then ""
  else String.ofList extension.reverse

def Registry.parserFor? (registry : Registry) (resource : String) : Option Parser :=
  registry.find? (extensionOf resource)

def Registry.describe (registry : Registry) : String :=
  let quotedNames := registry.names.map fun name => String.ofList (quoted name.toList)
  "ParserRegistry \x7b extensions: [" ++ String.intercalate ", " quotedNames ++ "] \x7d"

end Phrasebook.Resource
