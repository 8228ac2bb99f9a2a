/-
Merging TLogs by SCO number and offset (TLogMerger.h), and with it the whole metadata part of a scrub:
the entries that are left of a snapshot are the last ones of each address, in some order.
-/
import VolumeDriver.Lib.Merge
import VolumeDriver.Scrub.Split

namespace VolumeDriver

open Lib List

namespace Scrubbing

namespace TLogMerger

/-- `compare`: whether the first of two readers is the one to read from. -/
def compare (first second : Entry) : Bool :=
  let fst := first.clusterLocation
  let snd := second.clusterLocation
  if fst.number < snd.number then true
  else if snd.number < fst.number then false
  else fst.offset < snd.offset

/-- Writes an entry of one of the readers. -/
def addEntry (log : List Entry) (e : Entry) : Except Exn (List Entry) := do
  let ca ← e.clusterAddress
  TLogWriter.add log ca e.loc_and_hash

/-- Merges the location entries of the readers; also returns the last location. -/
def run (readers : List (List Entry)) : Except Exn (List Entry × ClusterLocation) := do
  let tlog_readers := readers.foldl Merge.addReader []
  let (entries, tlog_readers) := Merge.run compare readers.flatten.length tlog_readers
  let out ← entries.foldlM addEntry []
  VERIFY (tlog_readers = []) "tlog_readers.empty()"
  pure (out, (out.getLast?.map (·.clusterLocation)).getD ⟨⟨0, 0, 0⟩, 0⟩)

theorem addEntry_ok {log log' : List Entry} {e : Entry} (h : addEntry log e = .ok log') :
    log' = log ++ [e] ∧ e.clusterAddress = .ok e.clusteraddress := by
  obtain ⟨ca, hca, h⟩ := bind_ok h
  exact ⟨TLogWriter.copy_ok hca h, by rw [hca, Entry.clusterAddress_ok hca]⟩

theorem addAll_ok {l log log' : List Entry} (h : l.foldlM addEntry log = .ok log') : log' = log ++ l := by
  refine foldlM_pre (P := fun done log' => log' = log ++ done) ?_ l [] log log' (by simp) h
  intro done b e b' hb he
  rw [(addEntry_ok he).1, hb, append_assoc]

theorem run_ok {readers : List (List Entry)} {out : List Entry} {last : ClusterLocation}
    (h : run readers = .ok (out, last)) :
    out.Perm readers.flatten ∧ last = (out.getLast?.map (·.clusterLocation)).getD ⟨⟨0, 0, 0⟩, 0⟩ := by
  obtain ⟨out', hout, h⟩ := bind_ok h
  obtain ⟨-, h⟩ := VERIFY_bind_ok h
  cases pure_ok h
  have hcontents : Merge.contents (readers.foldl Merge.addReader []) = readers.flatten := by
    rw [Merge.contents_foldl_addReader]; rfl
  obtain ⟨-, hperm⟩ := @Merge.run_spec Entry compare readers.flatten.length (readers.foldl Merge.addReader [])
    (by rw [hcontents])
  rw [addAll_ok hout, nil_append]
  exact ⟨hperm.trans (by rw [hcontents]), rfl⟩

end TLogMerger

/-! ## The metadata part -/

/-- What the metadata part leaves: the SCO data and the merged entries, with the last location. -/
structure MetaDataScrubbed where
  scodata : List ScrubbingSCOData
  entries : List Entry
  last : ClusterLocation

/-- The metadata part of `Scrubber::operator()`, on the location entries of the snapshot. -/
def scrubMetaData (region_exponent : Nat) (T : List Entry) : Except Exn MetaDataScrubbed := do
  let tlog_splitter ← TLogSplitter.run region_exponent T
  let (scodata, tlogs) ← PartScrubber.runAll region_exponent tlog_splitter.sco_data_ tlog_splitter.tlog_names_.toList
  -- the TLogs of the regions are read backwards again
  let (entries, last) ← TLogMerger.run (tlogs.map List.reverse)
  pure { scodata, entries, last }

variable {region_exponent : Nat}

/-- One region after the other: of each the last entries of its addresses, and their SCOs counted. -/
theorem PartScrubber.runAll_ok {T : List Entry} : ∀ {regions : List (Nat × List Entry)}
    {scodata scodata' : List ScrubbingSCOData} {tlogs tlogs' : List (List Entry)},
    (∀ r ∈ regions, r.2 = T.filter fun e => region region_exponent e = r.1) →
    regions.foldlM (runStep region_exponent) (scodata, tlogs) = .ok (scodata', tlogs') →
    ∃ new, tlogs' = tlogs ++ new ∧ new.map List.reverse = (regions.map Prod.fst).map (fun i =>
        (latest (·.clusteraddress) T).filter fun e => region region_exponent e = i) ∧
      ((scodata.map (·.sconame_)).Nodup → (∀ d ∈ scodata, d.usageCount < 2 ^ 16) →
        scodata' = scodata.map (uses new.flatten))
  | [], scodata, scodata', tlogs, tlogs', _, h => by
    cases pure_ok h
    refine ⟨[], by simp, rfl, fun _ hlt => ?_⟩
    exact ((map_congr_left fun d hd => uses_nil (hlt d hd)).trans (map_id _)).symm
  | (i, log) :: regions, scodata, scodata', tlogs, tlogs', hreg, h => by
    rw [foldlM_cons] at h
    obtain ⟨st, hstep, hrest⟩ := bind_ok h
    obtain ⟨⟨data, out⟩, hrun, hst⟩ := bind_ok hstep
    have hst := pure_ok hst
    subst hst
    have hlog : log = T.filter fun e => region region_exponent e = i := hreg _ (mem_cons_self ..)
    subst hlog
    obtain ⟨hout, hdata⟩ := run_ok (fun e he => by simpa using (mem_filter.1 he).2) hrun
    obtain ⟨new, rfl, h2, h3⟩ := PartScrubber.runAll_ok (fun r hr => hreg r (mem_cons_of_mem _ hr)) hrest
    refine ⟨out :: new, by simp, ?_, ?_⟩
    · -- within a region the last entries are the last ones of the snapshot
      have hfilter : latest (·.clusteraddress) (T.filter fun e => region region_exponent e = i) =
          (latest (·.clusteraddress) T).filter fun e => region region_exponent e = i :=
        latest_filter (·.clusteraddress) (fun ca => decide (ca >>> region_exponent = i)) T
      rw [map_cons, map_cons, map_cons, h2, hout, hfilter]
    · intro hn hlt
      have hd := hdata hn hlt
      rw [h3 (by rw [hd, map_uses_names]; exact hn) (by rw [hd]; exact uses_lt), hd, map_map]
      exact map_congr_left fun d _ => uses_append out new.flatten d

/-- The metadata part keeps of every address the last entry, and knows of each SCO how many of its
entries are kept. -/
theorem scrubMetaData_ok {T : List Entry} {m : MetaDataScrubbed} (h : scrubMetaData region_exponent T = .ok m) :
    m.entries.Perm (latest (·.clusteraddress) T) ∧
      m.last = (m.entries.getLast?.map (·.clusterLocation)).getD ⟨⟨0, 0, 0⟩, 0⟩ ∧
      ∃ data, TLogSplitter.Listed T data ∧
        ((data.map (·.sconame_)).Nodup → m.scodata = data.map (PartScrubber.uses (latest (·.clusteraddress) T))) := by
  obtain ⟨s, hs, h⟩ := bind_ok h
  obtain ⟨⟨scodata, tlogs⟩, hparts, h⟩ := bind_ok h
  obtain ⟨⟨entries, last⟩, hmerge, h⟩ := bind_ok h
  rw [← pure_ok h]
  obtain ⟨hkeys, hlogs, hall⟩ := TLogSplitter.run_toList hs
  have hlisted := TLogSplitter.run_listed hs
  obtain ⟨new, heq, hnew, hdata⟩ := PartScrubber.runAll_ok hlogs hparts
  rw [nil_append] at heq
  subst heq
  obtain ⟨hperm, hlast⟩ := TLogMerger.run_ok hmerge
  -- the regions together have all last entries
  have hlatest : (tlogs.map List.reverse).flatten.Perm (latest (·.clusteraddress) T) := by
    rw [hnew, ← flatMap_def]
    exact perm_of_classes _ hkeys fun e he => hall e ((latest_sublist _ T).subset he)
  refine ⟨hperm.trans hlatest, hlast, s.sco_data_, hlisted, ?_⟩
  intro hn
  have hflat : tlogs.flatten.Perm (tlogs.map List.reverse).flatten := by
    rw [← flatMap_def, ← flatMap_id]
    exact List.Perm.flatMap_left tlogs fun l _ => (reverse_perm l).symm
  rw [hdata hn fun d hd => by rw [(hlisted.unused d hd).1]; norm_num]
  rw [PartScrubber.uses_perm (hflat.trans hlatest)]

end Scrubbing

end VolumeDriver
