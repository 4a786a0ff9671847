import Mathlib.Data.List.AList
import Athar.Lib.Run
import Athar.Shim.Impl.Buffer
import Athar.Spool.Instance
import Athar.Spool.Lemmas

/-!
This module contains the hand-off of loss records through the spool directory. A shim creates its
file and then writes one line to it; the daemon reads a file, ingests what it read, and deletes the
file by its name. No record is lost exactly as long as no line is written after the daemon has read
the file it goes to.

A file keeps its inode, and a shim that has it open can write to it, after its name is gone.
-/

namespace Athar.Spool

open Storage Audit

def ShimLossRecord.ofLoss (record : Shim.LossRecord) : ShimLossRecord where
  kind := record.kind
  reason := record.reason
  shimPid := Int64.ofNat record.shimPid
  atMs := UInt64.ofNat record.atMs
  framesLost := UInt64.ofNat record.framesLost
  bytesLost := UInt64.ofNat record.bytesLost
  tenantId := record.tenantId

-- `json_encode` of the shim, with the JSON of the daemon.
structure Codec where
  jsonEncode : Shim.LossRecord → Option (List Char)
  json : SpoolJson

-- The record is written as one line that holds a JSON object, and read back from it.
structure Codec.ReadsBack (codec : Codec) (record : Shim.LossRecord) (line : List Char) : Prop where
  oneLine : '\n' ∉ line
  first : line.head? = some '\x7b'
  last : line.getLast? = some '\x7d'
  read : codec.json.fromStr line = some (.ofLoss record)

def fileName (random : List Char) (record : Shim.LossRecord) : String :=
  String.ofList ("shim-".toList ++ Nat.toDigits 10 record.shimPid ++ ['-'] ++ random ++ ['-']
    ++ Nat.toDigits 10 record.atMs ++ ".jsonl".toList)

-- A shim between opening its file and writing to it.
structure Pending where
  inode : Nat
  record : Shim.LossRecord
  line : List Char

inductive Phase where
  | idle
  | read (name : String) (inode : Nat) (bytes : List UInt8)
  | ingested (name : String) (inode : Nat) (bytes : List UInt8)

inductive Action (c : Crates) where
  | create (shim : Nat) (random : List Char) (record : Shim.LossRecord)
  | write (shim : Nat)
  | read (name : String)
  | ingest (ios : Nat → RecordIo c)
  | delete

structure HandOff (c : Crates) where
  names : AList fun _ : String => Nat
  -- By inode number.
  contents : List (List UInt8)
  shims : AList fun _ : Nat => Pending
  phase : Phase
  stores : Stores c Nat
  -- The records whose `writeLoss` has returned true.
  completed : List (Gap Nat)

def lineCount (bytes : List UInt8) : Nat :=
  match readToString bytes with
  | none => 0
  | some content => (Lines.lines content.toList).length

def lineBytes (line : List Char) : List UInt8 := asBytes (String.ofList (line ++ ['\n']))

namespace HandOff

variable {c : Crates} (codec : Codec) (s : HandOff c)

def start (log : SegmentLog) (audit : AuditChainWriter c) : HandOff c where
  names := ∅
  contents := []
  shims := ∅
  phase := .idle
  stores := ⟨log, audit, [], [], []⟩
  completed := []

def content (inode : Nat) : List UInt8 := s.contents.getD inode []

def create (shim : Nat) (random : List Char) (record : Shim.LossRecord) : HandOff c :=
  match s.shims.lookup shim, codec.jsonEncode record with
  | none, some line =>
    let name := fileName random record
    match s.names.lookup name with
    | some inode => { s with shims := s.shims.insert shim ⟨inode, record, line⟩ }
    | none =>
      let inode := s.contents.length
      { s with
        names := s.names.insert name inode
        contents := s.contents ++ [[]]
        shims := s.shims.insert shim ⟨inode, record, line⟩ }
  | _, _ => s

def write (shim : Nat) : HandOff c :=
  match s.shims.lookup shim with
  | none => s
  | some p =>
    let gap := ⟨p.inode, lineCount (s.content p.inode), .ofLoss p.record⟩
    { s with
      contents := s.contents.set p.inode (s.content p.inode ++ lineBytes p.line)
      shims := s.shims.erase shim
      completed := s.completed ++ [gap] }

def read (name : String) : HandOff c :=
  match s.phase, s.names.lookup name with
  | .idle, some inode =>
    if extension name.toList = some "jsonl".toList then
      { s with phase := .read name inode (s.content inode) }
    else
      s
  | _, _ => s

def ingest (ios : Nat → RecordIo c) : HandOff c :=
  match s.phase with
  | .read name inode bytes =>
    match s.stores.ingestFile codec.json inode bytes ios with
    | (stores, .error _) => { s with stores, phase := .idle }
    | (stores, .ok _) => { s with stores, phase := .ingested name inode bytes }
  | _ => s

def delete : HandOff c :=
  match s.phase with
  | .ingested name _ _ => { s with names := s.names.erase name, phase := .idle }
  | _ => s

def step : Action c → HandOff c
  | .create shim random record => s.create codec shim random record
  | .write shim => s.write shim
  | .read name => s.read name
  | .ingest ios => s.ingest codec ios
  | .delete => s.delete

def Linked (inode : Nat) : Prop := ∃ name, s.names.lookup name = some inode

-- The records of files that no longer exist are in both stores.
def NoneLost : Prop :=
  ∀ gap ∈ s.completed, ¬s.Linked gap.file →
    gap ∈ s.stores.appended ∧ gap ∈ s.stores.committed

-- A line is written to a file that still exists, and a file is deleted as it was read.
def KeepsUp : Action c → Prop
  | .write shim => ∀ p, s.shims.lookup shim = some p → s.Linked p.inode
  | .delete => ∀ name inode bytes, s.phase = .ingested name inode bytes → s.content inode = bytes
  | _ => True

end HandOff

-- The bytes of a text of which every line is ended.
def Lined (bytes : List UInt8) : Prop :=
  ∃ text, bytes = asBytes (String.ofList text) ∧ Lines.Ended text

theorem asBytes_append (a b : List Char)
    : asBytes (String.ofList (a ++ b)) = asBytes (String.ofList a) ++ asBytes (String.ofList b) := by
  unfold asBytes
  rw [String.ofList_append, String.toByteArray_append, ByteArray.data_append, Array.toList_append]

theorem lined_nil : Lined [] := by
  exact ⟨[], rfl, Lines.ended_nil⟩

theorem Lined.append_line {bytes : List UInt8} (h : Lined bytes) (line : List Char)
    : Lined (bytes ++ lineBytes line) := by
  rcases h with ⟨text, rfl, _⟩
  refine ⟨text ++ (line ++ ['\n']), ?_, Lines.Ended.append_line line⟩
  rw [asBytes_append, lineBytes]

theorem mem_gapsOf_lt {F : Type} (json : SpoolJson) {file : F} {bytes : List UInt8} {gap : Gap F}
    (h : gap ∈ gapsOf json file bytes) : gap.lineNo < lineCount bytes := by
  unfold gapsOf at h
  unfold lineCount
  cases hread : readToString bytes with
  | none =>
    rw [hread] at h
    contradiction
  | some text =>
    rw [hread] at h
    have := (mem_gapsFrom json h).2.2
    dsimp only
    omega

theorem Codec.ReadsBack.parseLine {codec : Codec} {record : Shim.LossRecord} {line : List Char}
    (h : codec.ReadsBack record line) : parseLine codec.json line = some (.ofLoss record) := by
  rw [parseLine_object codec.json h.first h.last, h.read]

theorem gapsOf_append_line {F : Type} {codec : Codec} {record : Shim.LossRecord} {line : List Char}
    (hreads : codec.ReadsBack record line) (file : F) {bytes : List UInt8} (h : Lined bytes)
    : gapsOf codec.json file (bytes ++ lineBytes line)
        = gapsOf codec.json file bytes ++ [⟨file, lineCount bytes, .ofLoss record⟩] := by
  rcases h with ⟨text, rfl, hended⟩
  have hreturn : line.getLast? ≠ some '\r' := by
    rw [hreads.last]
    decide
  unfold gapsOf lineCount lineBytes
  rw [← asBytes_append, readToString_asBytes, readToString_asBytes]
  dsimp only
  rw [String.toList_ofList, String.toList_ofList,
    Lines.lines_append_line hended hreads.oneLine hreturn, gapsFrom_append, Nat.zero_add]
  rw [gapsFrom, hreads.parseLine]
  rfl

namespace HandOff

variable {c : Crates} {codec : Codec} {s : HandOff c}

-- What the daemon has read of a file is a first part of it, and anything written since is missing.
structure PartOf (codec : Codec) (s : HandOff c) (name : String) (inode : Nat) (bytes : List UInt8)
    : Prop where
  linked : s.names.lookup name = some inode
  subset : gapsOf codec.json inode bytes ⊆ gapsOf codec.json inode (s.content inode)
  missing : s.content inode ≠ bytes →
    ∃ gap ∈ gapsOf codec.json inode (s.content inode), gap ∉ gapsOf codec.json inode bytes
  appended : ∀ gap ∈ s.stores.appended, gap.file = inode → gap ∈ gapsOf codec.json inode bytes

def Phase.Sound (codec : Codec) (s : HandOff c) : Phase → Prop
  | .idle => True
  | .read name inode bytes => PartOf codec s name inode bytes
  | .ingested name inode bytes =>
    PartOf codec s name inode bytes
      ∧ ∀ gap ∈ gapsOf codec.json inode bytes, gap ∈ s.stores.appended ∧ gap ∈ s.stores.committed

-- What holds in every state: the lines of a file are the records that were completed in it, and the
-- daemon has ingested no others.
structure Inv (codec : Codec) (s : HandOff c) : Prop where
  exists_of_linked : ∀ inode, s.Linked inode → inode < s.contents.length
  inj : ∀ name name' inode,
    s.names.lookup name = some inode → s.names.lookup name' = some inode → name = name'
  shims : ∀ shim p, s.shims.lookup shim = some p →
    p.inode < s.contents.length ∧ codec.ReadsBack p.record p.line
  lined : ∀ inode, Lined (s.content inode)
  completed : ∀ gap, gap ∈ s.completed ↔ gap ∈ gapsOf codec.json gap.file (s.content gap.file)
  appended : ∀ gap ∈ s.stores.appended, gap ∈ s.completed
  phase : Phase.Sound codec s s.phase

theorem inv_start (log : SegmentLog) (audit : AuditChainWriter c) : Inv codec (start log audit) := by
  constructor
  . rintro inode ⟨name, h⟩
    contradiction
  . intro name name' inode h
    contradiction
  . intro shim p h
    contradiction
  . intro inode
    exact lined_nil
  . intro gap
    constructor
    . intro h
      contradiction
    . intro h
      contradiction
  . intro gap h
    contradiction
  . exact trivial

theorem content_append_nil (contents : List (List UInt8)) (inode : Nat)
    : (contents ++ [[]]).getD inode [] = contents.getD inode [] := by
  rw [List.getD_eq_getElem?_getD, List.getD_eq_getElem?_getD, List.getElem?_append]
  split
  . rfl
  . next h =>
    rw [List.getElem?_eq_none (Nat.le_of_not_lt h)]
    cases inode - contents.length <;> rfl

theorem content_set (contents : List (List UInt8)) {target : Nat} (h : target < contents.length)
    (bytes : List UInt8) (inode : Nat)
    : (contents.set target bytes).getD inode []
        = if inode = target then bytes else contents.getD inode [] := by
  rw [List.getD_eq_getElem?_getD, List.getD_eq_getElem?_getD, List.getElem?_set]
  split
  . next heq =>
    rw [if_pos heq.symm]
    rfl
  . next hne => rw [if_neg (Ne.symm hne)]

-- The calls that leave files, records and stores alone.
theorem Phase.Sound.congr {s s' : HandOff c} {phase : Phase} (h : Phase.Sound codec s phase)
    (hnames : ∀ name inode, s.names.lookup name = some inode → s'.names.lookup name = some inode)
    (hcontent : ∀ inode, s'.content inode = s.content inode) (hstores : s'.stores = s.stores)
    : Phase.Sound codec s' phase := by
  have hpart : ∀ {name inode bytes}, PartOf codec s name inode bytes →
      PartOf codec s' name inode bytes := by
    intro name inode bytes h
    constructor
    . exact hnames name inode h.linked
    . rw [hcontent]
      exact h.subset
    . rw [hcontent]
      exact h.missing
    . rw [hstores]
      exact h.appended
  cases phase with
  | idle => trivial
  | read name inode bytes => exact hpart h
  | ingested name inode bytes =>
    rw [Phase.Sound, hstores]
    exact ⟨hpart h.1, h.2⟩

section Create

variable (codec s) (shim : Nat) (random : List Char) (record : Shim.LossRecord)

-- Creating a file, or opening one of the same name, leaves what there was.
theorem create_frame
    : (s.create codec shim random record).stores = s.stores
        ∧ (s.create codec shim random record).phase = s.phase
        ∧ (s.create codec shim random record).completed = s.completed
        ∧ (∀ inode, (s.create codec shim random record).content inode = s.content inode)
        ∧ (∀ name inode, s.names.lookup name = some inode →
          (s.create codec shim random record).names.lookup name = some inode) := by
  unfold create
  split
  . dsimp only
    split
    . exact ⟨rfl, rfl, rfl, fun _ => rfl, fun _ _ h => h⟩
    . next hnew =>
      refine ⟨rfl, rfl, rfl, ?_, ?_⟩
      . intro inode
        apply content_append_nil
      . intro name inode h
        have hne : name ≠ fileName random record := by
          intro heq
          rw [heq, hnew] at h
          contradiction
        rw [AList.lookup_insert_ne hne, h]
  . exact ⟨rfl, rfl, rfl, fun _ => rfl, fun _ _ h => h⟩

-- What creating does to the directory and the shims.
theorem create_cases
    : s.create codec shim random record = s
        ∨ ∃ line inode, codec.jsonEncode record = some line
          ∧ (s.create codec shim random record).shims = s.shims.insert shim ⟨inode, record, line⟩
          ∧ ((s.Linked inode ∧ (s.create codec shim random record).names = s.names
              ∧ (s.create codec shim random record).contents = s.contents)
            ∨ (inode = s.contents.length
              ∧ (s.create codec shim random record).names
                = s.names.insert (fileName random record) inode
              ∧ (s.create codec shim random record).contents = s.contents ++ [[]])) := by
  unfold create
  split
  . next line hshim hline =>
    apply Or.inr
    dsimp only
    split
    . next inode hname =>
      exact ⟨line, inode, hline, rfl, Or.inl ⟨⟨_, hname⟩, rfl, rfl⟩⟩
    . next hname =>
      exact ⟨line, s.contents.length, hline, rfl, Or.inr ⟨rfl, rfl, rfl⟩⟩
  . exact Or.inl rfl

variable {codec s record}

theorem Inv.create_linked (h : Inv codec s) {name : String} {inode : Nat}
    (hlookup : (s.create codec shim random record).names.lookup name = some inode)
    : inode < (s.create codec shim random record).contents.length
        ∧ (s.names.lookup name = some inode
          ∨ (name = fileName random record ∧ inode = s.contents.length)) := by
  rcases create_cases codec s shim random record
    with heq | ⟨line, new, _, _, ⟨_, hnames, hcontents⟩ | ⟨hnew, hnames, hcontents⟩⟩
  . rw [heq] at hlookup ⊢
    exact ⟨h.exists_of_linked inode ⟨name, hlookup⟩, Or.inl hlookup⟩
  . rw [hnames] at hlookup
    rw [hcontents]
    exact ⟨h.exists_of_linked inode ⟨name, hlookup⟩, Or.inl hlookup⟩
  . rw [hcontents, List.length_append, List.length_singleton]
    rw [hnames] at hlookup
    by_cases hname : name = fileName random record
    . rw [hname, AList.lookup_insert, Option.some.injEq] at hlookup
      subst hlookup
      exact ⟨by omega, Or.inr ⟨hname, hnew⟩⟩
    . rw [AList.lookup_insert_ne hname] at hlookup
      have := h.exists_of_linked inode ⟨name, hlookup⟩
      exact ⟨by omega, Or.inl hlookup⟩

theorem Inv.create_inj (h : Inv codec s) {name name' : String} {inode : Nat}
    (hname : (s.create codec shim random record).names.lookup name = some inode)
    (hname' : (s.create codec shim random record).names.lookup name' = some inode)
    : name = name' := by
  rcases h.create_linked shim random hname with ⟨_, hold | ⟨rfl, hnew⟩⟩
  . rcases h.create_linked shim random hname' with ⟨_, hold' | ⟨rfl, hnew'⟩⟩
    . exact h.inj name name' inode hold hold'
    . have := h.exists_of_linked inode ⟨name, hold⟩
      omega
  . rcases h.create_linked shim random hname' with ⟨_, hold' | ⟨rfl, hnew'⟩⟩
    . have := h.exists_of_linked inode ⟨name', hold'⟩
      omega
    . rfl

theorem Inv.create_shims (h : Inv codec s)
    (hreads : ∀ line, codec.jsonEncode record = some line → codec.ReadsBack record line)
    {other : Nat} {p : Pending}
    (hlookup : (s.create codec shim random record).shims.lookup other = some p)
    : p.inode < (s.create codec shim random record).contents.length
        ∧ codec.ReadsBack p.record p.line := by
  rcases create_cases codec s shim random record with heq | ⟨line, inode, hline, hshims, hfile⟩
  . rw [heq] at hlookup ⊢
    exact h.shims other p hlookup
  . have hlength : inode < (s.create codec shim random record).contents.length
        ∧ s.contents.length ≤ (s.create codec shim random record).contents.length := by
      rcases hfile with ⟨hlinked, _, hcontents⟩ | ⟨hnew, _, hcontents⟩
      . rw [hcontents]
        exact ⟨h.exists_of_linked inode hlinked, Nat.le_refl _⟩
      . rw [hcontents, List.length_append, List.length_singleton]
        omega
    rw [hshims] at hlookup
    by_cases hother : other = shim
    . rw [hother, AList.lookup_insert, Option.some.injEq] at hlookup
      subst hlookup
      exact ⟨hlength.1, hreads line hline⟩
    . rw [AList.lookup_insert_ne hother] at hlookup
      rcases h.shims other p hlookup with ⟨hlt, hread⟩
      exact ⟨by omega, hread⟩

theorem Inv.create (h : Inv codec s)
    (hreads : ∀ line, codec.jsonEncode record = some line → codec.ReadsBack record line)
    : Inv codec (s.create codec shim random record) := by
  rcases create_frame codec s shim random record
    with ⟨hstores, hphase, hcompleted, hcontent, hnames⟩
  constructor
  . rintro inode ⟨name, hlookup⟩
    exact (h.create_linked shim random hlookup).1
  . intro name name' inode hname hname'
    exact h.create_inj shim random hname hname'
  . intro other p hlookup
    exact h.create_shims shim random hreads hlookup
  . intro inode
    rw [hcontent]
    exact h.lined inode
  . intro gap
    rw [hcompleted, hcontent]
    exact h.completed gap
  . rw [hstores, hcompleted]
    exact h.appended
  . rw [hphase]
    exact h.phase.congr hnames hcontent hstores

theorem NoneLost.create (h : s.NoneLost) : (s.create codec shim random record).NoneLost := by
  rcases create_frame codec s shim random record with ⟨hstores, _, hcompleted, _, hnames⟩
  intro gap hgap hunlinked
  rw [hstores]
  rw [hcompleted] at hgap
  apply h gap hgap
  rintro ⟨name, hlookup⟩
  exact hunlinked ⟨name, hnames name _ hlookup⟩

end Create

section Write

variable {shim : Nat} {p : Pending}

theorem write_of_pending (hp : s.shims.lookup shim = some p)
    : s.write shim = { s with
        contents := s.contents.set p.inode (s.content p.inode ++ lineBytes p.line)
        shims := s.shims.erase shim
        completed := s.completed
          ++ [⟨p.inode, lineCount (s.content p.inode), .ofLoss p.record⟩] } := by
  unfold write
  rw [hp]

theorem write_of_none (hp : s.shims.lookup shim = none) : s.write shim = s := by
  unfold write
  rw [hp]

-- The record that a write completes is none of those before.
theorem Inv.write_fresh (h : Inv codec s) (p : Pending)
    : ⟨p.inode, lineCount (s.content p.inode), .ofLoss p.record⟩ ∉ s.completed := by
  intro hmem
  have := mem_gapsOf_lt codec.json ((h.completed _).mp hmem)
  dsimp only at this
  omega

theorem Inv.content_write (h : Inv codec s) (hp : s.shims.lookup shim = some p) (inode : Nat)
    : (s.write shim).content inode
        = if inode = p.inode then s.content inode ++ lineBytes p.line else s.content inode := by
  have hset := content_set s.contents (h.shims shim p hp).1 (s.content p.inode ++ lineBytes p.line)
    inode
  rw [write_of_pending hp, content, hset]
  split
  . next heq => rw [heq]
  . rfl

theorem Inv.gapsOf_write (h : Inv codec s) (hp : s.shims.lookup shim = some p) (inode : Nat)
    : gapsOf codec.json inode ((s.write shim).content inode)
        = gapsOf codec.json inode (s.content inode)
          ++ if inode = p.inode then
              [⟨p.inode, lineCount (s.content p.inode), .ofLoss p.record⟩]
            else
              [] := by
  rw [h.content_write hp]
  split
  . next heq =>
    subst heq
    rw [gapsOf_append_line (h.shims shim p hp).2 _ (h.lined _)]
  . rw [List.append_nil]

theorem Inv.partOf_write (h : Inv codec s) (hp : s.shims.lookup shim = some p) {name : String}
    {inode : Nat} {bytes : List UInt8} (hpart : PartOf codec s name inode bytes)
    : PartOf codec (s.write shim) name inode bytes := by
  constructor
  . rw [write_of_pending hp]
    exact hpart.linked
  . rw [h.gapsOf_write hp]
    exact List.subset_append_of_subset_left _ hpart.subset
  . intro hne
    rw [h.gapsOf_write hp]
    by_cases hbefore : s.content inode = bytes
    . by_cases hinode : inode = p.inode
      . subst hinode
        rw [if_pos rfl]
        refine ⟨_, List.mem_append_right _ (List.mem_singleton_self _), ?_⟩
        intro hmem
        rw [← hbefore] at hmem
        have := mem_gapsOf_lt codec.json hmem
        dsimp only at this
        omega
      . rw [h.content_write hp, if_neg hinode] at hne
        exact absurd hbefore hne
    . rcases hpart.missing hbefore with ⟨gap, hgap, hmissing⟩
      exact ⟨gap, List.mem_append_left _ hgap, hmissing⟩
  . rw [write_of_pending hp]
    exact hpart.appended

theorem Inv.write (h : Inv codec s) (shim : Nat) : Inv codec (s.write shim) := by
  cases hp : s.shims.lookup shim with
  | none =>
    rw [write_of_none hp]
    exact h
  | some p =>
    have hlength : (s.write shim).contents.length = s.contents.length := by
      rw [write_of_pending hp]
      apply List.length_set
    have hnames : (s.write shim).names = s.names := by
      rw [write_of_pending hp]
    constructor
    . intro inode hlinked
      unfold Linked at hlinked
      rw [hnames] at hlinked
      rw [hlength]
      exact h.exists_of_linked inode hlinked
    . rw [hnames]
      exact h.inj
    . intro other p' hlookup
      rw [hlength]
      apply h.shims other
      rw [write_of_pending hp] at hlookup
      by_cases hother : other = shim
      . rw [hother, AList.lookup_erase] at hlookup
        contradiction
      . rwa [AList.lookup_erase_ne hother] at hlookup
    . intro inode
      rw [h.content_write hp]
      split
      . exact (h.lined inode).append_line p.line
      . exact h.lined inode
    . intro gap
      rw [h.gapsOf_write hp, List.mem_append, ← h.completed gap, write_of_pending hp,
        List.mem_append, List.mem_singleton]
      constructor
      . rintro (hold | rfl)
        . exact Or.inl hold
        . simp
      . rintro (hold | hnew)
        . exact Or.inl hold
        . split at hnew
          . exact Or.inr (List.mem_singleton.mp hnew)
          . contradiction
    . intro gap hgap
      rw [write_of_pending hp] at hgap ⊢
      exact List.mem_append_left _ (h.appended gap hgap)
    . have hphase : (s.write shim).phase = s.phase := by
        rw [write_of_pending hp]
      have hstores : (s.write shim).stores = s.stores := by
        rw [write_of_pending hp]
      have hsound := h.phase
      rw [hphase]
      cases hcase : s.phase with
      | idle => trivial
      | read name inode bytes =>
        rw [hcase] at hsound
        exact h.partOf_write hp hsound
      | ingested name inode bytes =>
        rw [hcase] at hsound
        refine ⟨h.partOf_write hp hsound.1, ?_⟩
        rw [hstores]
        exact hsound.2

theorem NoneLost.write (h : s.NoneLost) (hkeeps : s.KeepsUp (c := c) (.write shim))
    : (s.write shim).NoneLost := by
  cases hp : s.shims.lookup shim with
  | none =>
    rw [write_of_none hp]
    exact h
  | some p =>
    rw [write_of_pending hp]
    intro gap hgap hunlinked
    cases List.mem_append.mp hgap with
    | inl hold => exact h gap hold hunlinked
    | inr hnew =>
      rw [List.mem_singleton.mp hnew] at hunlinked
      exact absurd (hkeeps p hp) hunlinked

theorem not_noneLost_write (h : Inv codec s) (hkeeps : ¬s.KeepsUp (c := c) (.write shim))
    : ¬(s.write shim).NoneLost := by
  intro hnone
  apply hkeeps
  intro p hp
  by_contra hunlinked
  rw [write_of_pending hp] at hnone
  apply h.write_fresh p
  apply h.appended
  exact (hnone _ (List.mem_append_right _ (List.mem_singleton_self _)) hunlinked).1

end Write

-- What the daemon does between its accesses to the directory leaves the files alone.
structure SameFiles (s s' : HandOff c) : Prop where
  names : s'.names = s.names
  contents : s'.contents = s.contents
  shims : s'.shims = s.shims
  completed : s'.completed = s.completed

theorem Inv.of_sameFiles {s' : HandOff c} (h : Inv codec s) (hsame : SameFiles s s')
    (happended : ∀ gap ∈ s'.stores.appended, gap ∈ s'.completed)
    (hphase : Phase.Sound codec s' s'.phase) : Inv codec s' := by
  have hcontent : ∀ inode, s'.content inode = s.content inode := by
    intro inode
    rw [content, content, hsame.contents]
  constructor
  . intro inode hlinked
    unfold Linked at hlinked
    rw [hsame.names] at hlinked
    rw [hsame.contents]
    exact h.exists_of_linked inode hlinked
  . rw [hsame.names]
    exact h.inj
  . rw [hsame.shims, hsame.contents]
    exact h.shims
  . intro inode
    rw [hcontent]
    exact h.lined inode
  . intro gap
    rw [hsame.completed, hcontent]
    exact h.completed gap
  . exact happended
  . exact hphase

theorem NoneLost.of_sameFiles {s' : HandOff c} (h : s.NoneLost) (hsame : SameFiles s s')
    (happended : s.stores.appended ⊆ s'.stores.appended)
    (hcommitted : s.stores.committed ⊆ s'.stores.committed) : s'.NoneLost := by
  intro gap hgap hunlinked
  unfold Linked at hunlinked
  rw [hsame.completed] at hgap
  rw [hsame.names] at hunlinked
  rcases h gap hgap hunlinked with ⟨ha, hc⟩
  exact ⟨happended ha, hcommitted hc⟩

theorem read_cases (s : HandOff c) (name : String)
    : s.read name = s
        ∨ ∃ inode, s.names.lookup name = some inode
          ∧ s.read name = { s with phase := .read name inode (s.content inode) } := by
  unfold HandOff.read
  split
  . next inode _ hname =>
    split
    . exact Or.inr ⟨inode, hname, rfl⟩
    . exact Or.inl rfl
  . exact Or.inl rfl

theorem Inv.read (h : Inv codec s) (name : String) : Inv codec (s.read name) := by
  rcases read_cases s name with heq | ⟨inode, hname, heq⟩
  . rw [heq]
    exact h
  . rw [heq]
    refine h.of_sameFiles ⟨rfl, rfl, rfl, rfl⟩ h.appended ?_
    constructor
    . exact hname
    . exact List.Subset.refl _
    . intro hne
      exact absurd rfl hne
    . rintro gap hgap rfl
      exact (h.completed gap).mp (h.appended gap hgap)

theorem NoneLost.read (h : s.NoneLost) (name : String) : (s.read name).NoneLost := by
  rcases read_cases s name with heq | ⟨_, _, heq⟩
  . rw [heq]
    exact h
  . rw [heq]
    exact h.of_sameFiles ⟨rfl, rfl, rfl, rfl⟩ (List.Subset.refl _) (List.Subset.refl _)

section Ingest

variable {name : String} {inode : Nat} {bytes : List UInt8}

-- Ingesting adds records of the bytes read, and all of them when it goes through.
theorem ingest_cases (codec : Codec) (s : HandOff c) (ios : Nat → RecordIo c)
    : s.ingest codec ios = s
        ∨ ∃ name inode bytes stores added added', s.phase = .read name inode bytes
          ∧ added ⊆ gapsOf codec.json inode bytes
          ∧ stores.appended = s.stores.appended ++ added
          ∧ stores.committed = s.stores.committed ++ added'
          ∧ (s.ingest codec ios = { s with stores, phase := .idle }
            ∨ (s.ingest codec ios = { s with stores, phase := .ingested name inode bytes }
              ∧ added = gapsOf codec.json inode bytes
              ∧ added' = gapsOf codec.json inode bytes)) := by
  unfold ingest
  split
  . next name inode bytes hphase =>
    apply Or.inr
    split
    . next stores e heq =>
      rcases Stores.ingestFile_takes codec.json s.stores inode bytes ios
        with ⟨added, added', hadded, ha, hc⟩
      rw [heq] at ha hc
      exact ⟨name, inode, bytes, stores, added, added', hphase, hadded, ha, hc, Or.inl rfl⟩
    . next stores n heq =>
      rcases Stores.ingestFile_ok heq with ⟨ha, hc⟩
      exact ⟨name, inode, bytes, stores, _, _, hphase, List.Subset.refl _, ha, hc,
        Or.inr ⟨rfl, rfl, rfl⟩⟩
  . exact Or.inl rfl

theorem PartOf.ingest {stores : Stores c Nat} {added : List (Gap Nat)} {phase : Phase}
    (h : PartOf codec s name inode bytes) (hadded : added ⊆ gapsOf codec.json inode bytes)
    (happended : stores.appended = s.stores.appended ++ added)
    : PartOf codec { s with stores, phase } name inode bytes := by
  constructor
  . exact h.linked
  . exact h.subset
  . exact h.missing
  . dsimp only
    rw [happended]
    intro gap hgap hfile
    cases List.mem_append.mp hgap with
    | inl hold => exact h.appended gap hold hfile
    | inr hnew => exact hadded hnew

theorem Inv.ingest (h : Inv codec s) (ios : Nat → RecordIo c) : Inv codec (s.ingest codec ios) := by
  rcases ingest_cases codec s ios
    with heq | ⟨name, inode, bytes, stores, added, added', hphase, hadded, ha, hc, hresult⟩
  . rw [heq]
    exact h
  . have hpart : PartOf codec s name inode bytes := by
      have := h.phase
      rw [hphase] at this
      exact this
    have happended : ∀ gap ∈ stores.appended, gap ∈ s.completed := by
      intro gap hgap
      rw [ha] at hgap
      cases List.mem_append.mp hgap with
      | inl hold => exact h.appended gap hold
      | inr hnew =>
        have hof := hadded hnew
        have hfile := mem_gapsOf codec.json hof
        rw [h.completed, hfile]
        exact hpart.subset hof
    rcases hresult with heq | ⟨heq, hall, hall'⟩
    . rw [heq]
      exact h.of_sameFiles ⟨rfl, rfl, rfl, rfl⟩ happended trivial
    . rw [heq]
      refine h.of_sameFiles ⟨rfl, rfl, rfl, rfl⟩ happended ⟨hpart.ingest hadded ha, ?_⟩
      intro gap hgap
      rw [ha, hc, hall, hall']
      exact ⟨List.mem_append_right _ hgap, List.mem_append_right _ hgap⟩

theorem NoneLost.ingest (h : s.NoneLost) (ios : Nat → RecordIo c)
    : (s.ingest codec ios).NoneLost := by
  rcases ingest_cases codec s ios with heq | ⟨_, _, _, stores, _, _, _, _, ha, hc, heq | ⟨heq, _⟩⟩
  . rw [heq]
    exact h
  all_goals
    rw [heq]
    refine h.of_sameFiles ⟨rfl, rfl, rfl, rfl⟩ ?_ ?_
    . rw [ha]
      apply List.subset_append_left
    . rw [hc]
      apply List.subset_append_left

end Ingest

section Delete

variable {name : String} {inode : Nat} {bytes : List UInt8}

theorem delete_of_ingested (hphase : s.phase = .ingested name inode bytes)
    : s.delete = { s with names := s.names.erase name, phase := .idle } := by
  unfold delete
  rw [hphase]

theorem delete_cases (s : HandOff c)
    : s.delete = s ∨ ∃ name inode bytes, s.phase = .ingested name inode bytes := by
  unfold delete
  split
  . next name inode bytes hphase => exact Or.inr ⟨name, inode, bytes, hphase⟩
  . exact Or.inl rfl

theorem lookup_of_erase {names : AList fun _ : String => Nat} {name other : String} {inode : Nat}
    (h : (names.erase name).lookup other = some inode)
    : other ≠ name ∧ names.lookup other = some inode := by
  by_cases heq : other = name
  . rw [heq, AList.lookup_erase] at h
    contradiction
  . rw [AList.lookup_erase_ne heq] at h
    exact ⟨heq, h⟩

theorem Inv.delete (h : Inv codec s) : Inv codec s.delete := by
  rcases delete_cases s with heq | ⟨name, inode, bytes, hphase⟩
  . rw [heq]
    exact h
  . rw [delete_of_ingested hphase]
    constructor
    . rintro inode' ⟨other, hlookup⟩
      exact h.exists_of_linked inode' ⟨other, (lookup_of_erase hlookup).2⟩
    . intro other other' inode' hlookup hlookup'
      exact h.inj other other' inode' (lookup_of_erase hlookup).2 (lookup_of_erase hlookup').2
    . exact h.shims
    . exact h.lined
    . exact h.completed
    . exact h.appended
    . trivial

theorem NoneLost.delete (hinv : Inv codec s) (h : s.NoneLost) (hkeeps : s.KeepsUp (c := c) .delete)
    : s.delete.NoneLost := by
  rcases delete_cases s with heq | ⟨name, inode, bytes, hphase⟩
  . rw [heq]
    exact h
  . rw [delete_of_ingested hphase]
    have hsound := hinv.phase
    rw [hphase] at hsound
    intro gap hgap hunlinked
    by_cases hfile : gap.file = inode
    . apply hsound.2
      rw [← hkeeps name inode bytes hphase, ← hfile]
      exact (hinv.completed gap).mp hgap
    . apply h gap hgap
      rintro ⟨other, hlookup⟩
      apply hunlinked
      refine ⟨other, ?_⟩
      have hne : other ≠ name := by
        intro heq
        rw [heq, hsound.1.linked, Option.some.injEq] at hlookup
        exact hfile hlookup.symm
      dsimp only
      rw [AList.lookup_erase_ne hne, hlookup]

theorem not_noneLost_delete (h : Inv codec s) (hkeeps : ¬s.KeepsUp (c := c) .delete)
    : ¬s.delete.NoneLost := by
  intro hnone
  apply hkeeps
  intro name inode bytes hphase
  by_contra hne
  have hsound := h.phase
  rw [hphase] at hsound
  rcases hsound.1.missing hne with ⟨gap, hgap, hmissing⟩
  have hfile := mem_gapsOf codec.json hgap
  rw [delete_of_ingested hphase] at hnone
  have hcompleted : gap ∈ s.completed := by
    rw [h.completed, hfile]
    exact hgap
  have hunlinked : ¬HandOff.Linked { s with names := s.names.erase name, phase := .idle } gap.file := by
    rw [hfile]
    rintro ⟨other, hlookup⟩
    rcases lookup_of_erase hlookup with ⟨hother, hold⟩
    exact hother (h.inj other name inode hold hsound.1.linked)
  have happended := (hnone gap hcompleted hunlinked).1
  exact hmissing (hsound.1.appended gap happended hfile)

end Delete

-- The lines that a shim writes in this action are read back.
def Action.ReadsBack (codec : Codec) : Action c → Prop
  | .create _ _ record => ∀ line, codec.jsonEncode record = some line → codec.ReadsBack record line
  | _ => True

theorem Inv.step {action : Action c} (h : Inv codec s) (hreads : Action.ReadsBack codec action)
    : Inv codec (s.step codec action) := by
  cases action with
  | create shim random record => exact h.create shim random hreads
  | write shim => exact h.write shim
  | read name => exact h.read name
  | ingest ios => exact h.ingest ios
  | delete => exact h.delete

theorem NoneLost.step {action : Action c} (hinv : Inv codec s) (h : s.NoneLost)
    (hkeeps : s.KeepsUp action) : (s.step codec action).NoneLost := by
  cases action with
  | create shim random record => exact h.create shim random
  | write shim => exact h.write hkeeps
  | read name => exact h.read name
  | ingest ios => exact h.ingest ios
  | delete => exact NoneLost.delete hinv h hkeeps

theorem not_noneLost_step {action : Action c} (h : Inv codec s) (hkeeps : ¬s.KeepsUp action)
    : ¬(s.step codec action).NoneLost := by
  cases action with
  | write shim => exact not_noneLost_write h hkeeps
  | delete => exact not_noneLost_delete h hkeeps
  | create shim random record => exact absurd trivial hkeeps
  | read name => exact absurd trivial hkeeps
  | ingest ios => exact absurd trivial hkeeps

end HandOff

/--
When the daemon reads back the lines that the shims write, no record is lost along a run if and only
if every line is written to a file that still exists, and no file is deleted that has grown since it
was read.
-/
theorem noneLost_iff_keepsUp {c : Crates} {codec : Codec} {actions : List (Action c)}
    (hreads : ∀ action ∈ actions, HandOff.Action.ReadsBack codec action) (log : SegmentLog)
    (audit : AuditChainWriter c)
    : Run.Always (HandOff.step codec) HandOff.NoneLost (.start log audit) actions
        ↔ Run.Guarded (HandOff.step codec) HandOff.KeepsUp (.start log audit) actions := by
  have hmem : Run.Guarded (HandOff.step codec) (fun _ action => action ∈ actions)
      (.start log audit) actions := Run.guarded_mem _ actions
  have hD := hmem.imp (fun _ action h => hreads action h)
  apply Run.always_iff_guarded_of_guarded (I := fun s => HandOff.Inv codec s ∧ s.NoneLost) hD
  . refine ⟨HandOff.inv_start log audit, ?_⟩
    intro gap hgap
    contradiction
  . rintro s action ⟨hinv, hnone⟩ hread hkeeps
    exact ⟨hinv.step hread, hnone.step hinv hkeeps⟩
  . rintro s ⟨_, hnone⟩
    exact hnone
  . rintro s action ⟨hinv, _⟩ _ hkeeps
    exact HandOff.not_noneLost_step hinv hkeeps

-- A codec that knows one record, and a shim that spools it.
def lossCodec : Codec where
  jsonEncode record := some (lossText (.ofLoss record))
  json := .ofRecords [loss]

def shimLoss : Shim.LossRecord :=
  Shim.lossRecord ⟨1234, 1700000000000, "tnt_x"⟩ "daemon_unreachable" 7 2048

theorem lossCodec_readsBack : lossCodec.ReadsBack shimLoss (lossText loss) := by
  rcases lossText_loss with ⟨hfeed, hfirst, hlast⟩
  have hof : ShimLossRecord.ofLoss shimLoss = loss := by decide
  refine ⟨hfeed, hfirst, hlast, ?_⟩
  rw [hof]
  exact SpoolJson.fromStr_lossText loss

def spooled : Action Crates.toy := .create 0 "0a1b2c3d".toList shimLoss

theorem spooled_readsBack : HandOff.Action.ReadsBack lossCodec spooled := by
  intro line hline
  have hof : ShimLossRecord.ofLoss shimLoss = loss := by decide
  rw [lossCodec, Option.some.injEq, hof] at hline
  rw [← hline]
  exact lossCodec_readsBack

theorem noneLost_iff_keepsUp_spooled
    : Run.Always (HandOff.step lossCodec) HandOff.NoneLost (.start emptyEvidence toyWriter)
          [spooled, .write 0]
        ↔ Run.Guarded (HandOff.step lossCodec) HandOff.KeepsUp (.start emptyEvidence toyWriter)
          [spooled, .write 0] := by
  apply noneLost_iff_keepsUp
  intro action haction
  rw [List.mem_cons, List.mem_singleton] at haction
  rcases haction with rfl | rfl
  . exact spooled_readsBack
  . trivial

-- The daemon reads the file between its creation and the write to it.
def overtaken : List (Action Crates.toy) :=
  [spooled, .read (fileName "0a1b2c3d".toList shimLoss),
    .ingest fun _ => workingIo .done, .delete, .write 0]

theorem written_after_delete_lost
    : ¬Run.Always (HandOff.step lossCodec) HandOff.NoneLost (.start emptyEvidence toyWriter)
      overtaken := by
  intro h
  have hcompleted : ⟨0, 0, loss⟩ ∈ (Run.exec (HandOff.step lossCodec)
      (.start emptyEvidence toyWriter) overtaken).completed := by
    decide +kernel
  have hnames : (Run.exec (HandOff.step lossCodec)
      (.start emptyEvidence toyWriter) overtaken).names = ∅ := by
    apply AList.ext
    decide +kernel
  have happended : (Run.exec (HandOff.step lossCodec)
      (.start emptyEvidence toyWriter) overtaken).stores.appended = [] := by
    decide +kernel
  have hunlinked : ¬(Run.exec (HandOff.step lossCodec)
      (.start emptyEvidence toyWriter) overtaken).Linked 0 := by
    rintro ⟨name, hlookup⟩
    rw [hnames] at hlookup
    contradiction
  have hlost := (h.last _ hcompleted hunlinked).1
  rw [happended] at hlost
  contradiction

end Athar.Spool
