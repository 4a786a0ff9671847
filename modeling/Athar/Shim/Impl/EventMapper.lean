/-!
This module contains the mapping from the states of a model record to event types, which the shim
applies whenever a record is created, updated or deleted.
-/

namespace Athar.Shim

inductive Phase where
  | created
  | updated
  | deleted
  deriving DecidableEq, Repr

namespace EventMapper

-- `strtolower`, which lowers the ASCII letters.
def strtolower (s : String) : String :=
  s.map Char.toLower

def defaultTerminalMap : List (String × String) :=
  [("success", "settle"), ("succeeded", "settle"), ("completed", "settle"), ("settled", "settle"),
    ("paid", "settle"), ("failed", "fail"), ("error", "fail"), ("declined", "fail"),
    ("cancelled", "cancel"), ("canceled", "cancel"), ("reversed", "reverse"),
    ("refunded", "reverse")]

def eventType (typePrefix : String) (phase : Phase) (currentState previousState : Option String)
    (terminalMap : List (String × String)) : String :=
  let terminal := if terminalMap.isEmpty then defaultTerminalMap else terminalMap
  match phase with
  | .deleted => typePrefix ++ ".cancel"
  | .created =>
    -- The record may be created in a terminal state already.
    match currentState.bind fun s => terminal.lookup (strtolower s) with
    | some verb => typePrefix ++ "." ++ verb
    | none => typePrefix ++ ".create"
  | .updated =>
    let curr := currentState.map strtolower
    let prev := previousState.map strtolower
    match curr.bind fun s => if curr ≠ prev then terminal.lookup s else none with
    | some verb => typePrefix ++ "." ++ verb
    | none => typePrefix ++ ".process"

end EventMapper

end Athar.Shim
