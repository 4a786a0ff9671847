import Mathlib.Data.List.AList
import Athar.Audit.Impl.Persistence

/-!
This module contains the data directory of an installation, as a tree of files, and the health check
`athar doctor` that the command line offers for it. What the checks find that is not about the audit chain, in
the databases, in the policies or on the network, is an input here.
-/

namespace Athar.Cli

open Audit

inductive Node (Text : Type) where
  | file (text : Text)
  | dir

-- What is at each path. Only directories have something in them.
structure DataDir (Text : Type) where
  nodes : AList fun _ : List String => Node Text
  parents : ∀ path name, path ++ [name] ∈ nodes → nodes.lookup path = some .dir

def nameIn : List String → List String → Option String
  | [], [name] => some name
  | r :: root, p :: path => if r = p then nameIn root path else none
  | _, _ => none

namespace DataDir

variable {c : Crates} (d : DataDir c.Text)

def «exists» (path : List String) : Bool :=
  (d.nodes.lookup path).isSome

def isFile (path : List String) : Bool :=
  match d.nodes.lookup path with
  | some (.file _) => true
  | _ => false

def fileIn (root : List String) (entry : (_ : List String) × Node c.Text)
    : Option ((_ : String) × c.Text) :=
  match nameIn root entry.1, entry.2 with
  | some name, .file text => some ⟨name, text⟩
  | _, _ => none

-- What can be read of a segment store: the files in its directory.
def storeAt (root : List String) : SegmentStore c :=
  ⟨(d.nodes.entries.filterMap (fileIn root)).toAList⟩

-- The listing of a store does not tell files from directories.
def list (root : List String) : List Nat :=
  (d.nodes.keys.filterMap (fun path => (nameIn root path).bind SegmentStore.idOf)).insertionSort (· ≤ ·)

-- `SegmentStore::open` creates the directory. There is nothing in it then, so nothing changes here.
def openStore (root : List String) : Except PersistError Unit :=
  if root.inits.any d.isFile then .error .io else .ok ()

def verifyAll (root : List String) : Except PersistError VerifyReport := do
  let (_, report) ← (d.list root).foldlM (d.storeAt root).verifyNext (none, ⟨0, 0⟩)
  return report

def openAndVerify (root : List String) : Except PersistError VerifyReport := do
  d.openStore root
  d.verifyAll root

end DataDir

-- The directories that `IngestServer::new` joins to the data directory for the audit chain.
def auditRoot : List String := ["audit"]

def segmentsRoot : List String := auditRoot ++ ["segments"]

inductive PoliciesText where
  | unreadable
  | malformed
  | valid
  deriving DecidableEq, Repr

inductive StatusReply where
  | failed
  | incomplete
  | complete
  deriving DecidableEq, Repr

-- What the other checks come upon. The address is that of the flags or the default one.
structure Surroundings where
  lifecyclesOpen : Bool
  decisionsOpen : Bool
  policies : PoliciesText
  addr : String
  reachable : Bool
  status : StatusReply
  deriving DecidableEq, Repr

-- A line of the report. Every failed check is counted.
inductive Line where
  | check (name : String) (ok : Bool)
  | warn (text : String)
  | info (text : String)
  | skip (text : String)
  deriving DecidableEq, Repr

def Line.failed : Line → Bool
  | .check _ ok => !ok
  | _ => false

namespace Doctor

variable {c : Crates} (d : DataDir c.Text) (s : Surroundings)

def checkAudit : List Line :=
  if d.exists auditRoot then
    match d.openStore auditRoot with
    | .error _ => [.check "audit segment store opens" false]
    | .ok () =>
      match d.verifyAll auditRoot with
      | .error _ => [.check "audit segment store opens" true, .check "audit chain verifies to genesis" false]
      | .ok _ => [.check "audit segment store opens" true, .check "audit chain verifies to genesis" true]
  else
    [.warn "audit directory not created yet"]

def checkDb (path : List String) (name missing : String) (opens : Bool) : List Line :=
  if d.exists path then [.check name opens] else [.warn missing]

def checkLifecycles : List Line :=
  checkDb d ["state", "lifecycles.db"] "lifecycles DB opens" "lifecycles DB not created yet" s.lifecyclesOpen

def checkDecisions : List Line :=
  checkDb d ["state", "decisions.db"] "decisions DB opens" "decisions DB not created yet" s.decisionsOpen

def checkPolicies : List Line :=
  if d.exists ["config", "policies.json"] then
    match s.policies with
    | .unreadable => [.check "policies.json is readable" false]
    | .malformed => [.check "policies.json is valid" false]
    | .valid => [.check "policies.json is valid" true]
  else
    [.info "policies.json not present"]

def checkReachable : List Line :=
  [.check ("daemon reachable at " ++ s.addr) s.reachable]

def checkStatus (deep : Bool) : List Line :=
  if ¬deep then
    []
  else if s.reachable then
    [.check "daemon status endpoint responds" (s.status = .complete)]
  else
    [.skip "daemon status endpoint responds (daemon not reachable)"]

def report (deep : Bool) : List Line :=
  [.check "data-dir exists" (d.exists [])] ++ checkAudit d ++ checkLifecycles d s ++ checkDecisions d s
    ++ checkPolicies d s ++ checkReachable s ++ checkStatus s deep

end Doctor

-- The exit code. The data directory is what is at the first argument.
def cmdDoctor {c : Crates} (rest : List String) (d : DataDir c.Text) (s : Surroundings) : Nat :=
  match rest with
  | [] => 2
  | _ :: _ =>
    let fails := (Doctor.report d s (rest.contains "--deep")).countP Line.failed
    if fails = 0 then 0 else 1

end Athar.Cli
