/-
The data part of a scrub (SCOPool.cpp). The entries that are left of a snapshot are walked beside the
list of its SCOs. Clusters of SCOs that are hardly used are copied to new SCOs, which take over the
numbers of such SCOs; the entries of the other SCOs stay as they are.
-/
import VolumeDriver.Scrub.Split

namespace VolumeDriver

open Lib

namespace Scrubbing

/-- The constants of a `SCOPool`. -/
structure SCOPoolConfig where
  cluster_size_ : Nat
  sco_size_ : Nat
  minimum_used_entries_ : Nat

/-! ## The list of SCOs -/

/-- The members of `SCOPool` that concern the SCO data; the iterators are positions. -/
structure Cursor where
  scodata_ : List ScrubbingSCOData
  scodata_iterator_ : Nat := 0
  to_be_reused_iterator_ : Nat := 0
  current_usage_count_ : Nat := 0

namespace Cursor

/-- Leaving a SCO behind. -/
def leave (current_usage_count_ : Nat) (d : ScrubbingSCOData) : Except Exn ScrubbingSCOData :=
  if d.state = .Unknown then do
    VERIFY (d.usageCount = 0) "scodata_iterator_->usageCount == 0"
    pure { d with state := .Scrubbed }
  else do
    VERIFY (current_usage_count_ = 0) "current_usage_count_ == 0"
    pure d

/-- The loop of `doEntry`, over the data from the iterator on; also says how many it passed. -/
def skip (sco_name : SCO) (current_usage_count_ : Nat) :
    List ScrubbingSCOData → Except Exn (List ScrubbingSCOData × Nat)
  | [] => pure ([], 0)
  | d :: rest =>
    if sco_name = d.sconame_ then pure (d :: rest, 0)
    else do
      let d ← leave current_usage_count_ d
      let (rest, n) ← skip sco_name current_usage_count_ rest
      pure (d :: rest, n + 1)

/-- Goes on to the data of a SCO. -/
def advance (c : Cursor) (sco_name : SCO) : Except Exn Cursor := do
  let (rest, n) ← skip sco_name c.current_usage_count_ (c.scodata_.drop c.scodata_iterator_)
  pure { c with
    scodata_ := c.scodata_.take c.scodata_iterator_ ++ rest
    scodata_iterator_ := c.scodata_iterator_ + n }

/-- Whether a SCO is scrubbed, for one that was not looked at before. -/
def decided (cfg : SCOPoolConfig) (d : ScrubbingSCOData) : ScrubbingSCOData :=
  if d.state = .Unknown then
    { d with state := if d.usageCount < cfg.minimum_used_entries_ then .Scrubbed else .NotScrubbed }
  else d

/-- Goes to a SCO and decides about it; returns its state. -/
def enter (cfg : SCOPoolConfig) (c : Cursor) (sco_name : SCO) : Except Exn (Cursor × State) := do
  let c ← c.advance sco_name
  match c.scodata_[c.scodata_iterator_]? with
  | none => throw (.assertion "scodata_iterator_ != scodata_.end()")
  | some d => do
    VERIFY (d.usageCount ≠ 0) "scodata_iterator_->usageCount != 0"
    pure ({ c with
      scodata_ := c.scodata_.set c.scodata_iterator_ (decided cfg d)
      current_usage_count_ := if d.state = .Unknown then d.usageCount else c.current_usage_count_ },
      (decided cfg d).state)

/-- `--current_usage_count_`, a 16-bit counter. -/
def countDown (c : Cursor) : Cursor :=
  { c with current_usage_count_ := (c.current_usage_count_ + (2 ^ 16 - 1)) % 2 ^ 16 }

/-- Takes the name of the next scrubbed SCO whose name was not taken yet. -/
def reuse (c : Cursor) : Except Exn (Cursor × SCO) :=
  match (c.scodata_.drop c.to_be_reused_iterator_).findIdx? (·.state = .Scrubbed) with
  | none => throw (.assertion "to_be_reused_iterator_ != scodata_.end()")
  | some n => do
    let i := c.to_be_reused_iterator_ + n
    VERIFY (i ≤ c.scodata_iterator_) "to_be_reused_iterator_ <= scodata_iterator_"
    match c.scodata_[i]? with
    | none => throw (.assertion "to_be_reused_iterator_ != scodata_.end()")
    | some d => pure ({ c with
        scodata_ := c.scodata_.set i { d with state := .Reused }
        to_be_reused_iterator_ := i }, d.sconame_)

/-- The SCOs that were scrubbed; all have to be decided. -/
def getSCONamesToBeDeleted (c : Cursor) : Except Exn (List SCO) :=
  c.scodata_.foldlM (fun out d => do
    VERIFY (d.state ≠ .Unknown) "it->state != scrubbing::ScrubbingSCOData::State::Unknown"
    pure (if d.state = .Scrubbed ∨ d.state = .Reused then out ++ [d.sconame_] else out)) []

end Cursor

/-! ## SCO names -/

/-- Versions are counted modulo 256. -/
def nextVersion (version : SCOVersion) : SCOVersion := if version = 255 then 0 else version + 1

/-- The loop of `makeNewSCOName`. -/
def tryVersions (b : BackendInterface) (sco : SCO) : Nat → SCOVersion → Except Exn SCO
  | 0, _ => throw (.ioException "Could not create a new SCOName")
  | n + 1, version =>
    let sconame : SCO := { sco with version := nextVersion version }
    if b.objectExists (.sco sconame) = false then pure sconame else tryVersions b sco n (nextVersion version)

/-- The next version of a SCO's name that is not on the backend. -/
def makeNewSCOName (b : BackendInterface) (sco : SCO) : Except Exn SCO := tryVersions b sco 255 sco.version

/-! ## Files -/

/-- The members of `SCOPool` that concern clusters and TLogs. An open file is its contents; `sconame_map_`
is ordered by name. -/
structure Files where
  backendinterface_ : BackendInterface
  sconame_map_ : List (SCO × Option Bytes) := []
  buffer_ : Bytes
  current_sco_ : Option Bytes := none
  current_offset_ : Nat := 0
  current_sco_name_ : SCO := ⟨0, 0, 0⟩
  nonrewritten_tlog : List Entry := []
  rewritten_tlog : List Entry := []
  relocations_tlog : List Entry := []
  new_scos_ : List SCO := []

namespace Files

/-- Closes the file of the greatest name. -/
def closeLast (m : List (SCO × Option Bytes)) : List (SCO × Option Bytes) :=
  match m.getLast? with
  | none => m
  | some x => m.dropLast ++ [(x.1, none)]

/-- Opens an old SCO, or finds it open. -/
def openSCO (f : Files) (sco_name : SCO) : Except Exn (Files × Bytes) :=
  match f.sconame_map_.find? (·.1 = sco_name) with
  | none => do
    let file ← f.backendinterface_.read (.sco sco_name)
    let m := (closeLast f.sconame_map_).orderedInsert (fun a b => (SCO.cmp a.1 b.1).isLE) (sco_name, some file)
    pure ({ f with sconame_map_ := m }, file)
  | some (_, fd) => do
    VERIFY (f.sconame_map_.getLast?.map Prod.fst = some sco_name) "it->first == sconame_map_.rbegin()->first"
    match fd with
    | none => throw (.assertion "it->second != nullptr")
    | some file => pure (f, file)

/-- Reads a cluster of an old SCO into the buffer. -/
def fetch (cfg : SCOPoolConfig) (f : Files) (loc : ClusterLocation) : Except Exn Files := do
  let (f, file) ← f.openSCO loc.sco
  pure { f with buffer_ := pread file f.buffer_ cfg.cluster_size_ (loc.offset * cfg.cluster_size_) }

/-- Writes the new SCO to the backend. -/
def writeSCO (f : Files) (file : Bytes) : Except Exn Files := do
  let b ← f.backendinterface_.write (.sco f.current_sco_name_) file
  pure { f with backendinterface_ := b, current_sco_ := none, new_scos_ := f.new_scos_ ++ [f.current_sco_name_] }

/-- Writes the new SCO that is full. -/
def finish (cfg : SCOPoolConfig) (f : Files) : Except Exn Files :=
  match f.current_sco_ with
  | none => pure f
  | some file => do
    VERIFY (0 < cfg.sco_size_) "sco_size_ > 0"
    f.writeSCO file

/-- Begins a new SCO. -/
def begin_ (f : Files) (reused : SCO) : Except Exn Files := do
  let name ← makeNewSCOName f.backendinterface_ reused
  pure { f with current_offset_ := 0, current_sco_name_ := name, current_sco_ := some [] }

/-- Writes the cluster in the buffer to the new SCO and the entries to the TLogs. -/
def append (f : Files) (e : Entry) : Except Exn Files := do
  let loc_and_hash : ClusterLocationAndHash := ⟨⟨f.current_sco_name_, f.current_offset_⟩, e.loc_and_hash.weed⟩
  let ca ← e.clusterAddress
  let rewritten_tlog ← TLogWriter.add f.rewritten_tlog ca loc_and_hash
  let relocations_tlog ← TLogWriter.add f.relocations_tlog ca e.loc_and_hash
  let relocations_tlog ← TLogWriter.add relocations_tlog ca loc_and_hash
  pure { f with
    current_sco_ := f.current_sco_.map (· ++ f.buffer_)
    current_offset_ := (f.current_offset_ + 1) % 2 ^ 16
    rewritten_tlog, relocations_tlog }

/-- An entry of a SCO that is not scrubbed. -/
def keep (f : Files) (e : Entry) : Except Exn Files := do
  let ca ← e.clusterAddress
  let nonrewritten_tlog ← TLogWriter.add f.nonrewritten_tlog ca e.loc_and_hash
  pure { f with nonrewritten_tlog }

/-- Writes the last new SCO. -/
def close (f : Files) : Except Exn Files :=
  if 0 < f.current_offset_ then
    match f.current_sco_ with
    | none => throw (.assertion "current_sco_ != nullptr")
    | some file => f.writeSCO file
  else pure f

end Files

/-! ## SCOPool -/

/-- The pool: the cursor in the SCO data and the files. -/
structure SCOPool extends Cursor, Files

namespace SCOPool

variable (cfg : SCOPoolConfig)

/-- The constructor: the last SCO is not scrubbed away. -/
def make (scos : List ScrubbingSCOData) (b : BackendInterface) (lastSCOName : SCO) :
    Except Exn SCOPool := do
  let scodata_ ← scos.mapM fun d => do
    VERIFY (d.sconame_.number ≤ lastSCOName.number) "it->sconame_.number() <= lastSCOName.number()"
    pure (if d.sconame_ = lastSCOName then { d with state := .NotScrubbed } else d)
  pure { scodata_, backendinterface_ := b, buffer_ := List.replicate cfg.cluster_size_ 0 }

/-- Begins a new SCO if there is none or it is full. -/
def MaybeUpdateCurrentSCO (p : SCOPool) : Except Exn SCOPool :=
  if p.current_sco_ = none ∨ cfg.sco_size_ ≤ p.current_offset_ then do
    let f ← p.toFiles.finish cfg
    let (c, reused) ← p.toCursor.reuse
    let f ← f.begin_ reused
    pure { toCursor := c, toFiles := f }
  else pure p

/-- Copies a cluster to a new SCO. -/
def rewrite (p : SCOPool) (e : Entry) : Except Exn SCOPool := do
  let f ← p.toFiles.fetch cfg e.clusterLocation
  let p ← MaybeUpdateCurrentSCO cfg { p with toFiles := f }
  let f ← p.toFiles.append e
  pure { p with toFiles := f }

/-- What is done with an entry, by the state of its SCO. -/
def place (p : SCOPool) (e : Entry) : State → Except Exn SCOPool
  | .Scrubbed => p.rewrite cfg e
  | .Reused => p.rewrite cfg e
  | .NotScrubbed => do
    let f ← p.toFiles.keep e
    pure { p with toFiles := f }
  | .Unknown => throw (.assertion "0==\"We should not get here\"")

/-- An entry: its SCO is decided, and it is rewritten or kept. -/
def doEntry (p : SCOPool) (e : Entry) : Except Exn SCOPool := do
  let (c, state) ← p.toCursor.enter cfg e.sco
  let p ← place cfg { p with toCursor := c } e state
  pure { p with toCursor := p.toCursor.countDown }

/-- Over the merged entries; returns the number of relocations, too. -/
def run (p : SCOPool) (entries : List Entry) : Except Exn (SCOPool × Nat) := do
  let p ← entries.foldlM (doEntry cfg) p
  VERIFY (p.scodata_iterator_ = p.scodata_.length ∨ p.scodata_iterator_ + 1 = p.scodata_.length)
    "scodata_iterator_ == scodata_.end() or ++scodata_iterator_ == scodata_.end()"
  let f ← p.toFiles.close
  pure ({ p with toFiles := f }, p.relocations_tlog.length / 2)

end SCOPool

end Scrubbing

end VolumeDriver
