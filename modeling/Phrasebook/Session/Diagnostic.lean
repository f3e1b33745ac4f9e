import Phrasebook.Evaluation.Fault

namespace Phrasebook

inductive Severity where
  | warning
  | error
deriving DecidableEq

def Severity.name : Severity → String
  | .warning => "Warning"
  | .error => "Error"

inductive Detail where
  | notFound (id : String)
  | resolve (id : String) (kind : Fault.Kind) (message : String)
  | load (resource message : String)
deriving DecidableEq

structure Diagnostic where
  language : String
  detail : Detail
deriving DecidableEq

namespace Diagnostic

def severity (diagnostic : Diagnostic) : Severity :=
  match diagnostic.detail with
  | .load _ _ => .error
  | _ => .warning

def id? (diagnostic : Diagnostic) : Option String :=
  match diagnostic.detail with
  | .notFound id => some id
  | .resolve id _ _ => some id
  | .load _ _ => none

def message (diagnostic : Diagnostic) : String :=
  "[" ++ diagnostic.language ++ "] " ++
    match diagnostic.detail with
    | .notFound id => "'" ++ id ++ "' not found"
    | .resolve id kind message => "'" ++ id ++ "' failed (" ++ kind.name ++ "): " ++ message
    | .load resource message => "cannot load '" ++ resource ++ "': " ++ message

def ofFault (language id : String) (fault : Fault) : Diagnostic where
  language := language
  detail := .resolve id fault.kind fault.message

end Diagnostic

/-- The diagnostics a receiver has not taken yet. When there are more than the channel holds, the
oldest are lost and counted. -/
structure Channel where
  capacity : Nat
  pending : List Diagnostic := []
  lost : Nat := 0

inductive Notice where
  | lagged (count : Nat)
  | diagnostic (diagnostic : Diagnostic)

namespace Channel

def defaultCapacity : Nat := 64

/-- Capacities are powers of two. -/
def ofCapacity (capacity : Nat) : Channel where
  capacity := (max 1 capacity).nextPowerOfTwo

def send (channel : Channel) (diagnostic : Diagnostic) : Channel :=
  let pending := channel.pending ++ [diagnostic]
  if pending.length ≤ channel.capacity then { channel with pending := pending }
  else { channel with pending := pending.tail, lost := channel.lost + 1 }

def sendAll (channel : Channel) (diagnostics : List Diagnostic) : Channel :=
  diagnostics.foldl send channel

def notices (channel : Channel) : List Notice :=
  (if channel.lost = 0 then [] else [.lagged channel.lost]) ++
    channel.pending.map Notice.diagnostic

/-- The channel after its receiver has taken everything, or has been replaced by a new one. -/
def drained (channel : Channel) : Channel where
  capacity := channel.capacity

end Channel

end Phrasebook
