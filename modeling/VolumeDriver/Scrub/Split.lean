/-
The metadata part of a scrub (TLogSplitter.cpp, PartScrubber.cpp). The location entries of a snapshot
are split by the region of their cluster address; each region is read backwards and of every address
only the last entry is kept. Beside that the SCOs are listed in the order of the entries, with the number
of entries in each and the number of those that were kept.
-/
import VolumeDriver.Lib.Latest
import VolumeDriver.Scrub.Objects

namespace VolumeDriver

open Lib List

namespace Scrubbing

/-! ## SCO data -/

/-- What is decided about a SCO: whether its clusters are moved, and whether its number was given to a new SCO. -/
inductive State
  | Unknown
  | Scrubbed
  | NotScrubbed
  | Reused
  deriving DecidableEq, Repr

/-- `usageCount` and `size` are 16-bit counters. -/
structure ScrubbingSCOData where
  sconame_ : SCO
  usageCount : Nat := 0
  size : Nat := 1
  state : State := .Unknown
  deriving DecidableEq, Repr

/-- `TLogWriter::add`, which constructs a location entry. -/
def TLogWriter.add (log : List Entry) (ca : ClusterAddress) (loc_and_hash : ClusterLocationAndHash) :
    Except Exn (List Entry) := do
  let e ← Entry.mkLocation ca loc_and_hash
  pure (log ++ [e])

open TLogWriter

variable {ca : ClusterAddress} {log log' T : List Entry} {e : Entry}

theorem TLogWriter.add_ok {loc : ClusterLocationAndHash} (h : add log ca loc = .ok log') :
    log' = log ++ [⟨ca, loc⟩] := by
  obtain ⟨e, he, h⟩ := bind_ok h
  rw [← pure_ok h, (Entry.mkLocation_ok he).1]

theorem TLogWriter.copy_ok (hca : e.clusterAddress = .ok ca)
    (h : add log ca e.loc_and_hash = .ok log') : log' = log ++ [e] := by
  rw [add_ok h, Entry.clusterAddress_ok hca]

theorem TLogWriter.copy_sane (hca : e.clusterAddress = .ok ca) (h : add log ca e.loc_and_hash = .ok log') :
    e.isLocation = true ∧ e.clusterAddress = .ok e.clusteraddress := by
  obtain ⟨x, hx, -⟩ := bind_ok h
  exact ⟨Entry.isLocation_iff.2 (Entry.mkLocation_ok hx).2.1, by rw [hca, Entry.clusterAddress_ok hca]⟩

/-! ## TLogSplitter -/

/-- `tlog_names_` holds the entries of the region TLogs instead of their paths. -/
structure TLogSplitter where
  tlog_names_ : Std.TreeMap Nat (List Entry) := ∅
  sco_data_ : List ScrubbingSCOData := []

namespace TLogSplitter

/-- One more entry of a SCO: of the last one, or of a new one. -/
def countEntry (sco_data : List ScrubbingSCOData) (sco_name : SCO) : List ScrubbingSCOData :=
  match sco_data.getLast? with
  | none => [{ sconame_ := sco_name }]
  | some s =>
    if s.sconame_ = sco_name then sco_data.dropLast ++ [{ s with size := (s.size + 1) % 2 ^ 16 }]
    else sco_data ++ [{ sconame_ := sco_name }]

/-- Adds the entry to the log of its region and counts it. -/
def doEntry (region_exponent_ : Nat) (s : TLogSplitter) (e : Entry) : Except Exn TLogSplitter := do
  let cluster_address ← e.clusterAddress
  let index := cluster_address >>> region_exponent_
  let log ← add (s.tlog_names_.getD index []) cluster_address e.loc_and_hash
  pure { tlog_names_ := s.tlog_names_.insert index log, sco_data_ := countEntry s.sco_data_ e.sco }

/-- Over the location entries of the combined TLog reader. -/
def run (region_exponent_ : Nat) (reader_ : List Entry) : Except Exn TLogSplitter :=
  reader_.foldlM (doEntry region_exponent_) {}

end TLogSplitter

/-! ## PartScrubber -/

/-- `scodata_iterator` is a reverse iterator: `behind` it has passed, `ahead` begins with the element it
is at, both from the back of the vector. -/
structure PartScrubber where
  behind : List ScrubbingSCOData := []
  ahead : List ScrubbingSCOData
  bitset : List Nat := []
  out_tlog : List Entry := []

namespace PartScrubber

/-- Goes on to the SCO of an entry and counts it there. -/
def updateIterator (sconame : SCO) : List ScrubbingSCOData → List ScrubbingSCOData →
    Except Exn (List ScrubbingSCOData × List ScrubbingSCOData)
  | _, [] => throw (.ioException "Unknown SCO in SCODATA")
  | behind, d :: ahead =>
    if d.sconame_ = sconame then do
      let d := { d with usageCount := (d.usageCount + 1) % 2 ^ 16 }
      VERIFY (d.usageCount ≤ d.size) "scodata_iterator->size >= scodata_iterator->usageCount"
      pure (behind, d :: ahead)
    else updateIterator sconame (behind ++ [d]) ahead

/-- Keeps an entry if none of its address was seen before. -/
def doEntry (region_exponent_ cluster_begin_ : Nat) (p : PartScrubber) (e : Entry) : Except Exn PartScrubber := do
  let ca ← e.clusterAddress
  VERIFY (ca - cluster_begin_ < 2 ^ region_exponent_) "e->clusterAddress() - cluster_begin_ < (1UL<<region_exponent_)"
  if ca - cluster_begin_ ∈ p.bitset then pure p
  else do
    let out_tlog ← add p.out_tlog ca e.loc_and_hash
    let (behind, ahead) ← updateIterator e.sco p.behind p.ahead
    pure { behind, ahead, out_tlog, bitset := (ca - cluster_begin_) :: p.bitset }

/-- Scrubs one region; returns the SCO data and the TLog of the region, newest entry first. -/
def run (region_exponent_ : Nat) (scodata_ : List ScrubbingSCOData) (region : Nat × List Entry) :
    Except Exn (List ScrubbingSCOData × List Entry) := do
  VERIFY (region_exponent_ < 64) "region_exponent_ < (sizeof(unsigned long) * 8)"
  let p ← region.2.reverse.foldlM (doEntry region_exponent_ (region.1 <<< region_exponent_))
    { ahead := scodata_.reverse }
  pure ((p.behind ++ p.ahead).reverse, p.out_tlog)

/-- One more region. -/
def runStep (region_exponent_ : Nat) (st : List ScrubbingSCOData × List (List Entry)) (region : Nat × List Entry) :
    Except Exn (List ScrubbingSCOData × List (List Entry)) := do
  let (scodata_, tlog) ← run region_exponent_ st.1 region
  pure (scodata_, st.2 ++ [tlog])

/-- All regions in the order of their indices. -/
def runAll (region_exponent_ : Nat) (scodata_ : List ScrubbingSCOData) (regions : List (Nat × List Entry)) :
    Except Exn (List ScrubbingSCOData × List (List Entry)) :=
  regions.foldlM (runStep region_exponent_) (scodata_, [])

end PartScrubber

/-! ## The regions -/

/-- The region of an address. -/
def region (region_exponent_ : Nat) (e : Entry) : Nat := e.clusteraddress >>> region_exponent_

namespace TLogSplitter

theorem run_regions {region_exponent_ : Nat} {T : List Entry} {s : TLogSplitter} (h : run region_exponent_ T = .ok s)
    (i : Nat) : s.tlog_names_.getD i [] = T.filter fun e => region region_exponent_ e = i := by
  refine foldlM_pre (P := fun done (s : TLogSplitter) => ∀ i, s.tlog_names_.getD i [] =
    done.filter fun e => region region_exponent_ e = i) ?_ T [] {} s (fun i => by simp) h i
  intro done s e s' hs he i
  obtain ⟨ca, hca, he⟩ := bind_ok he
  obtain ⟨log, hlog, he⟩ := bind_ok he
  rw [← pure_ok he, copy_ok hca hlog, hs, filter_append]
  have hreg : ca >>> region_exponent_ = region region_exponent_ e := by
    rw [region, Entry.clusterAddress_ok hca]
  rw [hreg, Std.TreeMap.getD_insert]
  by_cases hi : region region_exponent_ e = i
  · subst hi; simp
  · rw [if_neg (by simpa using hi), hs]
    simp [hi]

theorem run_toList {region_exponent_ : Nat} {T : List Entry} {s : TLogSplitter} (h : run region_exponent_ T = .ok s) :
    (s.tlog_names_.toList.map Prod.fst).Nodup ∧
      (∀ r ∈ s.tlog_names_.toList, r.2 = T.filter fun e => region region_exponent_ e = r.1) ∧
      ∀ e ∈ T, region region_exponent_ e ∈ s.tlog_names_.toList.map Prod.fst := by
  have hreg := run_regions h
  refine ⟨?_, ?_, ?_⟩
  · have := s.tlog_names_.distinct_keys_toList
    rw [List.Nodup, pairwise_map]
    exact this.imp fun h he => by simp [he] at h
  · rintro ⟨i, l⟩ hr
    rw [Std.TreeMap.mem_toList_iff_getElem?_eq_some] at hr
    rw [← hreg i, Std.TreeMap.getD_eq_getD_getElem?, hr]
    rfl
  · intro e he
    cases hk : s.tlog_names_[region region_exponent_ e]? with
    | some l => exact mem_map.2 ⟨(_, l), Std.TreeMap.mem_toList_iff_getElem?_eq_some.2 hk, rfl⟩
    | none =>
      -- a region without a TLog has no entries
      have hnil := hreg (region region_exponent_ e)
      rw [Std.TreeMap.getD_eq_getD_getElem?, hk] at hnil
      have hmem : e ∈ T.filter fun x => region region_exponent_ x = region region_exponent_ e :=
        mem_filter.2 ⟨he, by simp⟩
      rw [← hnil] at hmem
      cases hmem

end TLogSplitter

/-! ## The SCOs -/

/-- The entries of a SCO are next to each other. -/
def Contiguous (T : List Entry) : Prop :=
  ∀ a x b y c, T = a ++ x :: b ++ y :: c → x.sco = y.sco → ∀ z ∈ b, z.sco = x.sco

theorem contiguous_of_sorted (hs : T.Pairwise fun x y => x.sco.number ≤ y.sco.number)
    (hn : ∀ x ∈ T, ∀ y ∈ T, x.sco.number = y.sco.number → x.sco = y.sco) : Contiguous T := by
  rintro a x b y c rfl hxy z hz
  apply hn z (by simp [hz]) x (by simp)
  -- the number of z is between two equal ones
  have hxz : x.sco.number ≤ z.sco.number := by
    have := (pairwise_append.1 (pairwise_append.1 hs).1).2.1
    exact (pairwise_cons.1 this).1 z hz
  have hzy : z.sco.number ≤ y.sco.number :=
    (pairwise_append.1 hs).2.2 z (by simp [hz]) y (by simp)
  rw [← hxy] at hzy
  exact Nat.le_antisymm hzy hxz

theorem Contiguous.front (h : Contiguous (T ++ [e])) : Contiguous T := by
  intro a x b y c hT
  apply h a x b y (c ++ [e])
  rw [hT]; simp

theorem Contiguous.new (h : Contiguous (T ++ [e])) (hlast : (T.map (·.sco)).getLast? ≠ some e.sco) :
    e.sco ∉ T.map (·.sco) := by
  intro hmem
  obtain ⟨x, hx, hsco⟩ := mem_map.1 hmem
  obtain ⟨a, b, rfl⟩ := append_of_mem hx
  apply hlast
  rcases eq_nil_or_concat' b with rfl | ⟨b', z, rfl⟩
  · simp [hsco]
  · have hz := h a x (b' ++ [z]) e [] (by simp) hsco z (by simp)
    rw [← cons_append, ← append_assoc, map_append, map_singleton, List.getLast?_concat, hz, hsco]

namespace TLogSplitter

/-- What is listed after the entries `done`. -/
structure Listed (done : List Entry) (data : List ScrubbingSCOData) : Prop where
  names : ∀ x, x ∈ data.map (·.sconame_) ↔ x ∈ done.map (·.sco)
  last : (data.map (·.sconame_)).getLast? = (done.map (·.sco)).getLast?
  unused : ∀ d ∈ data, d.usageCount = 0 ∧ d.state = .Unknown
  nodup : Contiguous done → (data.map (·.sconame_)).Nodup

theorem Listed.countEntry {done : List Entry} {data : List ScrubbingSCOData} (h : Listed done data) (e : Entry) :
    Listed (done ++ [e]) (countEntry data e.sco) := by
  -- the names afterwards, and that the counts are untouched
  obtain ⟨hnames, hunused⟩ : (TLogSplitter.countEntry data e.sco).map (·.sconame_) =
      (if (data.map (·.sconame_)).getLast? = some e.sco then data.map (·.sconame_)
        else data.map (·.sconame_) ++ [e.sco]) ∧
      ∀ d ∈ TLogSplitter.countEntry data e.sco, d.usageCount = 0 ∧ d.state = .Unknown := by
    unfold TLogSplitter.countEntry
    rcases eq_nil_or_concat' data with rfl | ⟨front, s, rfl⟩
    · simp
    · have hs := h.unused s (by simp)
      rw [List.getLast?_concat]
      by_cases hsco : s.sconame_ = e.sco
      · simp only [dropLast_concat, map_append, map_cons, map_nil, List.getLast?_concat, hsco, if_true, true_and]
        intro d hd
        rcases mem_append.1 hd with hd | hd
        · exact h.unused d (mem_append_left _ hd)
        · rw [mem_singleton.1 hd]; exact hs
      · simp only [if_neg hsco, map_append, map_cons, map_nil, List.getLast?_concat, Option.some.injEq, true_and]
        intro d hd
        rcases mem_append.1 hd with hd | hd
        · exact h.unused d hd
        · rw [mem_singleton.1 hd]; exact ⟨rfl, rfl⟩
  refine ⟨?_, ?_, hunused, ?_⟩
  · intro x
    rw [hnames, map_append, mem_append, ← h.names x]
    split
    · rename_i hlast
      constructor
      · exact Or.inl
      · rintro (hx | hx)
        · exact hx
        · rw [map_singleton, mem_singleton] at hx
          rw [hx]; exact mem_of_getLast? hlast
    · simp
  · rw [hnames]
    split
    · rename_i hlast
      rw [hlast]; simp
    · simp
  · intro hc
    rw [hnames]
    split
    · exact h.nodup hc.front
    · rename_i hlast
      rw [h.last] at hlast
      have hnew := hc.new hlast
      rw [← h.names] at hnew
      exact nodup_append.2 ⟨h.nodup hc.front, nodup_singleton _, by
        rintro x hx y hy rfl
        exact hnew (mem_singleton.1 hy ▸ hx)⟩

theorem run_listed {region_exponent_ : Nat} {T : List Entry} {s : TLogSplitter} (h : run region_exponent_ T = .ok s) :
    Listed T s.sco_data_ := by
  refine foldlM_pre (P := fun done (s : TLogSplitter) => Listed done s.sco_data_) ?_ T [] {} s
    ⟨by simp, by simp, by simp, by simp⟩ h
  intro done s e s' hs he
  obtain ⟨ca, _, he⟩ := bind_ok he
  obtain ⟨log, _, he⟩ := bind_ok he
  rw [← pure_ok he]
  exact hs.countEntry e

end TLogSplitter

/-! ## One region -/

namespace PartScrubber

variable {region_exponent_ i : Nat} {e : Entry}

theorem region_sub (h : region region_exponent_ e = i) :
    i <<< region_exponent_ + (e.clusteraddress - i <<< region_exponent_) = e.clusteraddress := by
  rw [← h, region, Nat.shiftRight_eq_div_pow, Nat.shiftLeft_eq]
  have := Nat.div_mul_le_self e.clusteraddress (2 ^ region_exponent_)
  omega

/-- Counts the entries `l` among the uses of a SCO. -/
def uses (l : List Entry) (d : ScrubbingSCOData) : ScrubbingSCOData :=
  { d with usageCount := (d.usageCount + l.countP (·.sco = d.sconame_)) % 2 ^ 16 }

theorem uses_append (l₁ l₂ : List Entry) (d : ScrubbingSCOData) : uses l₂ (uses l₁ d) = uses (l₁ ++ l₂) d := by
  unfold uses
  rw [countP_append, Nat.mod_add_mod, Nat.add_assoc]

theorem uses_perm {l₁ l₂ : List Entry} (h : l₁.Perm l₂) : uses l₁ = uses l₂ := by
  funext d
  unfold uses
  rw [h.countP_eq]

theorem uses_nil {d : ScrubbingSCOData} (h : d.usageCount < 2 ^ 16) : uses [] d = d := by
  unfold uses
  rw [countP_nil, Nat.add_zero, Nat.mod_eq_of_lt h]

theorem updateIterator_ok {sconame : SCO} : ∀ {ahead behind behind' ahead' : List ScrubbingSCOData},
    updateIterator sconame behind ahead = .ok (behind', ahead') →
    ∃ l₁ d l₂, behind ++ ahead = l₁ ++ d :: l₂ ∧ d.sconame_ = sconame ∧
      behind' ++ ahead' = l₁ ++ { d with usageCount := (d.usageCount + 1) % 2 ^ 16 } :: l₂
  | [], behind, behind', ahead', h => by cases h
  | d :: ahead, behind, behind', ahead', h => by
    unfold updateIterator at h
    split at h
    · rename_i hname
      obtain ⟨-, h⟩ := VERIFY_bind_ok h
      cases pure_ok h
      exact ⟨behind, d, ahead, rfl, hname, rfl⟩
    · obtain ⟨l₁, x, l₂, h1, h2, h3⟩ := updateIterator_ok h
      exact ⟨l₁, x, l₂, by rw [← h1]; simp, h2, h3⟩

theorem uses_singleton {l₁ l₂ : List ScrubbingSCOData} {d : ScrubbingSCOData} (hd : d.sconame_ = e.sco)
    (hn : ((l₁ ++ d :: l₂).map (·.sconame_)).Nodup) (hlt : ∀ x ∈ l₁ ++ d :: l₂, x.usageCount < 2 ^ 16) :
    l₁ ++ { d with usageCount := (d.usageCount + 1) % 2 ^ 16 } :: l₂ = (l₁ ++ d :: l₂).map (uses [e]) := by
  have hother : ∀ x ∈ l₁ ++ l₂, uses [e] x = x := by
    intro x hx
    have hne : e.sco ≠ x.sconame_ := by
      rw [map_append, map_cons, nodup_middle, nodup_cons, ← map_append] at hn
      rw [← hd]
      intro he
      exact hn.1 (he ▸ mem_map_of_mem hx)
    have hx' : x ∈ l₁ ++ d :: l₂ := perm_middle.mem_iff.2 (mem_cons_of_mem _ hx)
    unfold uses
    rw [countP_singleton, if_neg (by simpa using hne), Nat.add_zero, Nat.mod_eq_of_lt (hlt x hx')]
  have hself : uses [e] d = { d with usageCount := (d.usageCount + 1) % 2 ^ 16 } := by
    unfold uses
    rw [countP_singleton, if_pos (by simpa using hd.symm)]
  have hmap : ∀ l : List ScrubbingSCOData, (∀ x ∈ l, x ∈ l₁ ++ l₂) → l.map (uses [e]) = l :=
    fun l hl => (map_congr_left fun x hx => hother x (hl x hx)).trans (map_id l)
  rw [map_append, map_cons, hself, hmap l₁ (fun x hx => mem_append_left _ hx),
    hmap l₂ (fun x hx => mem_append_right _ hx)]

theorem uses_lt {l : List Entry} {data : List ScrubbingSCOData} : ∀ d ∈ data.map (uses l), d.usageCount < 2 ^ 16 := by
  intro d hd
  obtain ⟨x, _, rfl⟩ := mem_map.1 hd
  exact Nat.mod_lt _ (by norm_num)

theorem map_uses_names (l : List Entry) (data : List ScrubbingSCOData) :
    (data.map (uses l)).map (·.sconame_) = data.map (·.sconame_) := by
  rw [map_map]; rfl

/-- The state after the entries `suf` of region `i`, which were read backwards. -/
structure Walked (region_exponent_ i : Nat) (scodata_ : List ScrubbingSCOData) (suf : List Entry) (p : PartScrubber) :
    Prop where
  out : p.out_tlog.reverse = latest (·.clusteraddress) suf
  bits : ∀ e : Entry, region region_exponent_ e = i →
    (e.clusteraddress - i <<< region_exponent_ ∈ p.bitset ↔ e.clusteraddress ∈ suf.map (·.clusteraddress))
  data : (scodata_.map (·.sconame_)).Nodup → (∀ d ∈ scodata_, d.usageCount < 2 ^ 16) →
    (p.behind ++ p.ahead).reverse = scodata_.map (uses p.out_tlog)

theorem Walked.step {scodata_ : List ScrubbingSCOData} {suf : List Entry} {p p' : PartScrubber}
    (h : Walked region_exponent_ i scodata_ suf p) (he : region region_exponent_ e = i)
    (hs : doEntry region_exponent_ (i <<< region_exponent_) p e = .ok p') :
    Walked region_exponent_ i scodata_ (e :: suf) p' := by
  obtain ⟨ca, hca, hs⟩ := bind_ok hs
  obtain ⟨-, hs⟩ := VERIFY_bind_ok hs
  have haddr := Entry.clusterAddress_ok hca
  subst haddr
  by_cases hbit : e.clusteraddress - i <<< region_exponent_ ∈ p.bitset
  · -- a later entry of the address was seen
    rw [if_pos hbit] at hs
    rw [← pure_ok hs]
    have hseen := (h.bits e he).1 hbit
    refine ⟨?_, ?_, h.data⟩
    · rw [latest_cons, if_pos hseen]; exact h.out
    · intro x hx
      rw [h.bits x hx, map_cons, mem_cons]
      constructor
      · exact Or.inr
      · rintro (hxe | hx)
        · rw [hxe]; exact hseen
        · exact hx
  · rw [if_neg hbit] at hs
    have hnew : e.clusteraddress ∉ suf.map (·.clusteraddress) := fun hm => hbit ((h.bits e he).2 hm)
    obtain ⟨out, hout, hs⟩ := bind_ok hs
    obtain ⟨⟨behind, ahead⟩, hit, hs⟩ := bind_ok hs
    have hout := copy_ok hca hout
    subst hout
    rw [← pure_ok hs]
    refine ⟨?_, ?_, ?_⟩
    · rw [latest_cons, if_neg hnew, ← h.out]; simp
    · intro x hx
      show x.clusteraddress - i <<< region_exponent_ ∈ (e.clusteraddress - i <<< region_exponent_) :: p.bitset ↔ _
      rw [mem_cons, h.bits x hx, map_cons, mem_cons]
      have hsame : x.clusteraddress - i <<< region_exponent_ = e.clusteraddress - i <<< region_exponent_ ↔
          x.clusteraddress = e.clusteraddress := by
        constructor
        · intro hsub
          rw [← region_sub hx, ← region_sub he, hsub]
        · intro heq; rw [heq]
      rw [hsame]
    · intro hn hlt
      show (behind ++ ahead).reverse = _
      have hdata := h.data hn hlt
      obtain ⟨l₁, d, l₂, h1, h2, h3⟩ := updateIterator_ok hit
      have hrev : p.behind ++ p.ahead = (scodata_.map (uses p.out_tlog)).reverse := by rw [← hdata, reverse_reverse]
      have hsingle := @uses_singleton e l₁ l₂ d h2 (by
        rw [← h1, hrev, map_reverse, nodup_reverse, map_uses_names]; exact hn) (by
        rw [← h1, hrev]
        intro x hx
        exact uses_lt x (mem_reverse.1 hx))
      rw [h3, hsingle, ← h1, hrev, ← map_reverse, reverse_reverse, map_map]
      exact map_congr_left fun x _ => uses_append _ _ x

theorem run_ok {log : List Entry} {scodata_ scodata' : List ScrubbingSCOData} {out : List Entry}
    (hlog : ∀ e ∈ log, region region_exponent_ e = i)
    (h : run region_exponent_ scodata_ (i, log) = .ok (scodata', out)) :
    out.reverse = latest (·.clusteraddress) log ∧
      ((scodata_.map (·.sconame_)).Nodup → (∀ d ∈ scodata_, d.usageCount < 2 ^ 16) →
        scodata' = scodata_.map (uses out)) := by
  have hwalk : ∀ (log : List Entry) {p : PartScrubber}, (∀ e ∈ log, region region_exponent_ e = i) →
      log.reverse.foldlM (doEntry region_exponent_ (i <<< region_exponent_)) { ahead := scodata_.reverse } = .ok p →
      Walked region_exponent_ i scodata_ log p := by
    intro log
    induction log with
    | nil =>
      intro p _ hp
      rw [← pure_ok hp]
      refine ⟨rfl, by simp, fun _ hlt => ?_⟩
      show (([] : List ScrubbingSCOData) ++ scodata_.reverse).reverse = _
      rw [nil_append, reverse_reverse]
      exact ((map_congr_left fun d hd => uses_nil (hlt d hd)).trans (map_id _)).symm
    | cons e log ih =>
      intro p hreg hp
      rw [reverse_cons] at hp
      obtain ⟨p₁, hp₁, hp⟩ := foldlM_append_ok hp
      obtain ⟨p₂, hp₂, hp⟩ := bind_ok hp
      rw [← pure_ok hp]
      exact (ih (fun x hx => hreg x (mem_cons_of_mem _ hx)) hp₁).step (hreg e (mem_cons_self ..)) hp₂
  obtain ⟨-, h⟩ := VERIFY_bind_ok h
  obtain ⟨p, hp, h⟩ := bind_ok h
  have hw := hwalk log hlog hp
  cases pure_ok h
  exact ⟨hw.out, hw.data⟩

end PartScrubber

end Scrubbing

end VolumeDriver
