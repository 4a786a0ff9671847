import Athar.Detection.Impl

/-!
This module contains the watcher that swaps the configuration of the policy engine when its file
changes on disk. A change is detected by the modification time, which the watcher remembers, and only
a configuration that differs from the last one applied is handed to the engine.

Reading of JSON is external: `parse` gives the policies of the detection configuration in a text.
-/

namespace Athar

inductive StatResult where
  -- The file's modification time, where the platform has one.
  | ok (modified : Option Nat)
  | notFound
  | failed
  deriving DecidableEq, Repr

-- The engine's configuration with what the watcher remembers.
structure PolicyWatcher where
  config : PolicyConfig
  lastMtime : Option Nat
  lastApplied : Option PolicyConfig
  deriving DecidableEq, Repr

namespace PolicyWatcher

def new (config : PolicyConfig) : PolicyWatcher where
  config
  lastMtime := none
  lastApplied := some config

variable (parse : String → Option PolicyConfig)

def apply (w : PolicyWatcher) (newPolicies : PolicyConfig) : PolicyWatcher :=
  if w.lastApplied ≠ some newPolicies then
    { w with config := newPolicies, lastApplied := some newPolicies }
  else
    w

-- One turn of the loop; the read only happens where the source reads.
def tick (w : PolicyWatcher) (stat : StatResult) (read : Option String) : PolicyWatcher :=
  match stat with
  | .ok mtime =>
    if mtime = w.lastMtime then
      w
    else
      let w := { w with lastMtime := mtime }
      match read with
      | some text =>
        match parse text with
        | some newPolicies => w.apply newPolicies
        -- Keeping the previous config.
        | none => w
      | none => w
  | .notFound => if w.lastMtime.isSome then { w with lastMtime := none } else w
  | .failed => w

end PolicyWatcher

end Athar
