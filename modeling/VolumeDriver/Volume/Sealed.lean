/-
When a TLog is fit for recovery: before a location in another SCO there is a SCO CRC entry with
the checksum of the SCO that was left. `CheckSCOCRCProcessor` (EntryProcessor.h) does not throw
`SCOSwitchWithoutSCOCRC` on such a TLog, nor on a part of it.
-/
import VolumeDriver.Restart.Scanner
import VolumeDriver.Lib.Steps

namespace VolumeDriver

open Lib List

/-! ## Checksum entries -/

namespace Entry

theorem or_tag {cs : Nat} (h : cs < 2 ^ 32) (t : Nat) : cs ||| t <<< checksum_shift = t * 2 ^ 32 + cs := by
  rw [Nat.or_comm, ← Nat.shiftLeft_add_eq_or_of_lt (show cs < 2 ^ checksum_shift from h), Nat.shiftLeft_eq]
  rfl

theorem type_tagged {cs : Nat} (h : cs < 2 ^ 32) (t : Nat) : (⟨cs ||| t <<< checksum_shift, .zero⟩ : Entry).type =
      if t = 1 then .ok .TLogCRC else if t = 2 then .ok .SCOCRC
      else if cs ||| t <<< checksum_shift = 0 then .ok .SyncTC else .error .invalidEntry := by
  have hdiv : (cs ||| t <<< checksum_shift) >>> checksum_shift = t := by
    rw [or_tag h, Nat.shiftRight_eq_div_pow]
    show (t * 2 ^ 32 + cs) / 2 ^ 32 = t
    omega
  have hnull : ¬ ClusterLocationAndHash.zero.clusterLocation.isNull = false := by decide
  refine (if_neg hnull).trans ?_
  simp only [hdiv]

theorem mkCheckSum_SCOCRC {cs : Nat} (h : cs < 2 ^ 32) :
    ∃ e, mkCheckSum cs .SCOCRC = .ok e ∧ e.isLocation = false ∧ e.isSCOCRC = true ∧ e.getCheckSum = cs := by
  refine ⟨⟨cs ||| 2 <<< checksum_shift, .zero⟩, rfl, ?_, ?_, ?_⟩
  · unfold isLocation isOfType
    rw [type_tagged h]
    rfl
  · unfold isSCOCRC isOfType
    rw [type_tagged h]
    rfl
  · show (cs ||| 2 <<< checksum_shift) % 2 ^ 32 = cs
    rw [or_tag h]
    omega

theorem mkCheckSum_TLogCRC {cs : Nat} (h : cs < 2 ^ 32) :
    ∃ e, mkCheckSum cs .TLogCRC = .ok e ∧ e.isLocation = false ∧ e.isSCOCRC = false := by
  refine ⟨⟨cs ||| 1 <<< checksum_shift, .zero⟩, rfl, ?_, ?_⟩
  · unfold isLocation isOfType
    rw [type_tagged h]
    rfl
  · unfold isSCOCRC isOfType
    rw [type_tagged h]
    rfl

end Entry

/-! ## The property -/

namespace Sealed

/-- Between a location and the next one in another SCO stands the checksum of the SCO that is left. -/
def CRCBetween (crc : SCO → Nat) (es : List Entry) : Prop :=
  ∀ before a mid b rest, es = before ++ a :: (mid ++ b :: rest) → a.isLocation = true → b.isLocation = true →
    (∀ e ∈ mid, e.isLocation = false) → a.sco ≠ b.sco → ∃ e ∈ mid, e.isSCOCRC = true ∧ e.getCheckSum = crc a.sco

/-- What `CheckSCOCRCProcessor` does with an entry. -/
def processEntry (p : CheckTLogAndSCOCRCProcessor) (e : Entry) : Except Exn CheckTLogAndSCOCRCProcessor :=
  if e.isLocation then p.processLoc e.clusterLocation
  else if e.isSCOCRC then p.processSCOCRC
  else pure p

/-- The checks on a number of TLogs, read one after the other. -/
def check (tlogs : List (List Entry)) : Except Exn CheckTLogAndSCOCRCProcessor :=
  tlogs.flatten.foldlM processEntry { tlog_id_ := 0 }

/-- `crc`: the checksums of the SCOs' complete data. -/
structure WellFormed (crc : SCO → Nat) (tlogs : List (List Entry)) : Prop where
  between : CRCBetween crc tlogs.flatten
  accepted : ∀ before mid rest, tlogs = before ++ (mid ++ rest) → check mid ≠ .error .scoSwitchWithoutSCOCRC

/-! ## Reading the entries one by one -/

/-- The SCO of the last location, and whether its checksum came since. -/
def scan (crc : SCO → Nat) (cur : Option (SCO × Bool)) (e : Entry) : Option (SCO × Bool) :=
  if e.isLocation then some (e.sco, false)
  else if e.isSCOCRC then cur.map fun p => (p.1, p.2 || decide (e.getCheckSum = crc p.1))
  else cur

/-- A SCO is left only after its checksum came. -/
def SwitchOk (cur : Option (SCO × Bool)) (e : Entry) : Prop :=
  e.isLocation = true → ∀ p, cur = some p → p.1 ≠ e.sco → p.2 = true

section
variable {crc crc' : SCO → Nat} {cur : Option (SCO × Bool)} {e : Entry}

theorem scan_location (h : e.isLocation = true) : scan crc cur e = some (e.sco, false) := if_pos h

theorem scan_other {p : SCO × Bool} (hl : e.isLocation = false) (h : scan crc cur e = some p) :
    ∃ seen, cur = some (p.1, seen) ∧ (seen = true → p.2 = true) := by
  unfold scan at h
  rw [if_neg (by simp [hl])] at h
  cases cur with
  | none => split at h <;> simp at h
  | some q =>
    split at h
    · obtain rfl := Option.some.inj h
      exact ⟨q.2, rfl, fun hq => by simp [hq]⟩
    · obtain rfl := Option.some.inj h
      exact ⟨q.2, rfl, id⟩

theorem switchOk_of_not_location (h : e.isLocation = false) : SwitchOk cur e :=
  fun hl => absurd (h.symm.trans hl) (by simp)

variable (crc) in
theorem scan_mid (s : SCO) : ∀ (mid : List Entry) (seen : Bool), (∀ e ∈ mid, e.isLocation = false) →
    ∃ seen', runs (scan crc) (some (s, seen)) mid = some (s, seen') ∧
      (seen' = true → seen = true ∨ ∃ e ∈ mid, e.isSCOCRC = true ∧ e.getCheckSum = crc s)
  | [], seen, _ => ⟨seen, rfl, .inl⟩
  | e :: mid, seen, h => by
    have he : ¬ e.isLocation = true := by simp [h e (mem_cons_self ..)]
    have hmid : ∀ x ∈ mid, x.isLocation = false := fun x hx => h x (mem_cons_of_mem _ hx)
    rw [runs_cons]
    by_cases hcrc : e.isSCOCRC = true
    · have hscan : scan crc (some (s, seen)) e = some (s, seen || decide (e.getCheckSum = crc s)) := by
        simp [scan, he, hcrc]
      obtain ⟨seen', hrun, hseen⟩ := scan_mid s mid (seen || decide (e.getCheckSum = crc s)) hmid
      rw [← hscan] at hrun
      refine ⟨seen', hrun, fun ht => ?_⟩
      rcases hseen ht with hor | ⟨x, hx, hsum⟩
      · rcases (Bool.or_eq_true _ _).mp hor with hs | hd
        · exact .inl hs
        · exact .inr ⟨e, mem_cons_self .., hcrc, of_decide_eq_true hd⟩
      · exact .inr ⟨x, mem_cons_of_mem _ hx, hsum⟩
    · have hscan : scan crc (some (s, seen)) e = some (s, seen) := by simp [scan, he, hcrc]
      obtain ⟨seen', hrun, hseen⟩ := scan_mid s mid seen hmid
      refine ⟨seen', hscan.symm ▸ hrun, fun ht => (hseen ht).imp_right ?_⟩
      rintro ⟨x, hx, hsum⟩
      exact ⟨x, mem_cons_of_mem _ hx, hsum⟩

theorem crcBetween_of_each {es : List Entry} (h : Each (scan crc) SwitchOk none es) : CRCBetween crc es := by
  rintro before a mid b rest rfl ha hb hmid hne
  rw [each_append, each_cons, scan_location ha, each_append] at h
  obtain ⟨-, -, -, hswitch, -⟩ := h
  obtain ⟨seen, hrun, hseen⟩ := scan_mid crc a.sco mid false hmid
  rw [hrun] at hswitch
  rcases hseen (hswitch hb _ rfl hne) with hf | hex
  · exact absurd hf (by simp)
  · exact hex

/-- What is read depends on the checksums of the SCOs that the entries name only. -/
theorem scan_congr : ∀ {es : List Entry} {cur : Option (SCO × Bool)},
    (∀ e ∈ es, e.isLocation = true → crc e.sco = crc' e.sco) → (∀ p, cur = some p → crc p.1 = crc' p.1) →
    runs (scan crc) cur es = runs (scan crc') cur es ∧
      (Each (scan crc) SwitchOk cur es → Each (scan crc') SwitchOk cur es)
  | [], _, _, _ => ⟨rfl, id⟩
  | e :: es, cur, hes, hcur => by
    have hstep : scan crc cur e = scan crc' cur e := by
      unfold scan
      cases cur with
      | none => rfl
      | some p => simp only [Option.map_some, hcur p rfl]
    have hnext : ∀ p, scan crc cur e = some p → crc p.1 = crc' p.1 := by
      intro p hp
      by_cases hl : e.isLocation = true
      · rw [scan_location hl] at hp
        cases hp
        exact hes e (mem_cons_self ..) hl
      · obtain ⟨seen, hp, -⟩ := scan_other (by simpa using hl) hp
        exact hcur (p.1, seen) hp
    obtain ⟨hrun, heach⟩ := scan_congr (fun x hx => hes x (mem_cons_of_mem _ hx)) hnext
    rw [runs_cons, runs_cons, ← hstep]
    refine ⟨hrun, fun h => ⟨h.1, ?_⟩⟩
    rw [← hstep]
    exact heach h.2

theorem scan_mem : ∀ {es : List Entry} {cur : Option (SCO × Bool)} {p : SCO × Bool},
    runs (scan crc) cur es = some p → (∃ e ∈ es, e.isLocation = true ∧ e.sco = p.1) ∨ ∃ seen, cur = some (p.1, seen)
  | [], _, p, h => .inr ⟨p.2, h⟩
  | e :: es, cur, p, h => by
    rw [runs_cons] at h
    rcases scan_mem h with ⟨x, hx, hloc⟩ | ⟨seen, hcur⟩
    · exact .inl ⟨x, mem_cons_of_mem _ hx, hloc⟩
    · by_cases hl : e.isLocation = true
      · rw [scan_location hl] at hcur
        exact .inl ⟨e, mem_cons_self .., hl, (Prod.mk.inj (Option.some.inj hcur)).1⟩
      · obtain ⟨seen', hcur, -⟩ := scan_other (by simpa using hl) hcur
        exact .inr ⟨seen', hcur⟩

/-! ## The processor -/

/-- The processor started at the beginning of a later TLog, or it is at the same SCO and has seen
at least the checksum that `scan` has. -/
def Follows (p : CheckTLogAndSCOCRCProcessor) (cur : Option (SCO × Bool)) : Prop :=
  p.current_clusterlocation_.isNull = true ∨
    ∃ seen, cur = some (p.current_clusterlocation_.sco, seen) ∧ (seen = true → p.seen_final_sco_crc_ = true)

theorem processEntry_follows {p : CheckTLogAndSCOCRCProcessor} (h : Follows p cur) (hok : SwitchOk cur e) :
    (∃ p', processEntry p e = .ok p' ∧ Follows p' (scan crc cur e)) ∨
      processEntry p e = .error .scoCRCWithoutActiveSCO := by
  unfold processEntry
  by_cases hl : e.isLocation = true
  · rw [if_pos hl, scan_location hl]
    refine .inl ⟨_, if_neg ?_, .inr ⟨false, rfl, fun hf => absurd hf (by simp)⟩⟩
    rintro ⟨hne, hnull, hseen⟩
    rcases h with hn | ⟨seen, hcur, hs⟩
    · exact absurd (hn.symm.trans hnull) (by simp)
    · exact absurd ((hs (hok hl _ hcur hne)).symm.trans hseen) (by simp)
  · rw [if_neg hl]
    by_cases hcrc : e.isSCOCRC = true
    · rw [if_pos hcrc]
      rcases h with hn | ⟨seen, hcur, hs⟩
      · exact .inr (if_pos hn)
      · by_cases hn : p.current_clusterlocation_.isNull = true
        · exact .inr (if_pos hn)
        · have hscan : ∃ seen', scan crc cur e = some (p.current_clusterlocation_.sco, seen') := by
            rw [scan, if_neg hl, if_pos hcrc, hcur]
            exact ⟨_, rfl⟩
          obtain ⟨seen', hscan⟩ := hscan
          exact .inl ⟨_, if_neg hn, .inr ⟨seen', hscan, fun _ => rfl⟩⟩
    · rw [if_neg hcrc, scan, if_neg hl, if_neg hcrc]
      exact .inl ⟨p, rfl, h⟩

theorem processEntries_accepted : ∀ {es : List Entry} {p : CheckTLogAndSCOCRCProcessor} {cur : Option (SCO × Bool)},
    Follows p cur → Each (scan crc) SwitchOk cur es → es.foldlM processEntry p ≠ .error .scoSwitchWithoutSCOCRC
  | [], _, _, _, _ => by simp [pure, Except.pure]
  | e :: es, p, cur, h, ⟨hok, hrest⟩ => by
    rw [foldlM_cons]
    rcases processEntry_follows h hok with ⟨p', hp, hfollows⟩ | hp
    · rw [hp]
      exact processEntries_accepted hfollows hrest
    · rw [hp]
      simp [bind, Except.bind]

theorem wellFormed_of_each {tlogs : List (List Entry)} (h : Each (scan crc) SwitchOk none tlogs.flatten) :
    WellFormed crc tlogs where
  between := crcBetween_of_each h
  accepted := by
    rintro before mid rest rfl
    rw [flatten_append, flatten_append, each_append, each_append] at h
    exact processEntries_accepted (.inl rfl) h.2.1

end

/-! ## What was written about the SCOs before the current one -/

section
variable {D : Type} (crc : List D → Nat)

/-- The checksums of the SCOs with these clusters. -/
def sumsOf (scos : Nat → List D) : SCO → Nat := fun s => crc (scos s.number)

/-- The entries speak of SCOs before number `n` only, and the last of them has its checksum, or
`cs` is the checksum that is missing. -/
structure Past (scos : Nat → List D) (n : Nat) (cs : Option (List D)) (past : List Entry) : Prop where
  below : ∀ e ∈ past, e.isLocation = true → n > e.sco.number
  switches : Each (scan (sumsOf crc scos)) SwitchOk none past
  last : ∀ p, runs (scan (sumsOf crc scos)) none past = some p → p.2 = true ∨ cs = some (scos p.1.number)

variable {crc} {scos scos' : Nat → List D} {n : Nat} {cs : Option (List D)} {past : List Entry}

theorem past_nil : Past crc scos n none [] :=
  ⟨by simp, trivial, by simp⟩

theorem Past.mono {n' : Nat} (h : Past crc scos n cs past) (hle : n ≤ n') : Past crc scos n' cs past :=
  ⟨fun e he hl => Nat.lt_of_lt_of_le (h.below e he hl) hle, h.switches, h.last⟩

theorem Past.of_scos (h : Past crc scos n cs past) (heq : ∀ m, m < n → scos' m = scos m) :
    Past crc scos' n cs past := by
  have hsum : ∀ e ∈ past, e.isLocation = true → sumsOf crc scos e.sco = sumsOf crc scos' e.sco := by
    intro e he hl
    unfold sumsOf
    rw [heq _ (h.below e he hl)]
  obtain ⟨hrun, heach⟩ := scan_congr hsum (show ∀ p, none = some p → _ by simp)
  refine ⟨h.below, heach h.switches, fun p hp => ?_⟩
  rw [← hrun] at hp
  refine (h.last p hp).imp_right fun hcs => ?_
  -- the SCO is one of those that the entries name
  rcases scan_mem hp with ⟨e, he, hl, hsco⟩ | ⟨seen, hnone⟩
  · rw [hcs, heq _ (hsco ▸ h.below e he hl)]
  · simp at hnone

theorem Past.append (h : Past crc scos n cs past) : ∀ {es : List Entry}, (∀ e ∈ es, e.isLocation = false) →
    Past crc scos n cs (past ++ es) := by
  intro es hes
  induction es using List.reverseRecOn with
  | nil => rwa [append_nil]
  | append_singleton es e ih =>
    have hpast := ih fun x hx => hes x (mem_append_left _ hx)
    have he : e.isLocation = false := hes e (by simp)
    rw [← append_assoc]
    refine ⟨?_, ?_, ?_⟩
    · intro x hx hl
      rcases mem_append.mp hx with hx | hx
      · exact hpast.below x hx hl
      · obtain rfl := mem_singleton.mp hx
        simp [he] at hl
    · rw [each_append]
      exact ⟨hpast.switches, switchOk_of_not_location he, trivial⟩
    · intro p hp
      rw [runs_append] at hp
      obtain ⟨seen, hrun, hseen⟩ := scan_other he hp
      exact (hpast.last _ hrun).imp_left hseen

theorem Past.append_crc {c : List D} {e : Entry} (h : Past crc scos n (some c) past) (hl : e.isLocation = false)
    (hcrc : e.isSCOCRC = true) (hsum : e.getCheckSum = crc c) : Past crc scos n none (past ++ [e]) := by
  have happ : Past crc scos n (some c) (past ++ [e]) := h.append (by simpa using hl)
  refine ⟨happ.below, happ.switches, fun p hp => .inl ?_⟩
  rw [runs_append] at hp
  obtain ⟨seen, hrun, hseen⟩ := scan_other hl hp
  rcases h.last _ hrun with hs | hs
  · exact hseen hs
  · -- the checksum of the SCO read last
    rw [hrun] at hp
    have hdec : sumsOf crc scos p.1 = e.getCheckSum := by
      rw [hsum, Option.some.inj hs]
      rfl
    have hscan : scan (sumsOf crc scos) (some (p.1, seen)) e = some (p.1, true) := by
      simp [scan, hl, hcrc, hdec]
    rw [runs_cons, runs_nil, hscan] at hp
    rw [← Option.some.inj hp]

/-- The SCO read last has number `n` or has its checksum. -/
def AtOrSealed (n : Nat) (cur : Option (SCO × Bool)) : Prop := ∀ p, cur = some p → p.2 = true ∨ p.1 = ⟨n, 0, 0⟩

theorem scan_present {sum : SCO → Nat} (cur : Option (SCO × Bool)) (e : Entry) (hcur : AtOrSealed n cur)
    (he : e.isLocation = true → e.sco = ⟨n, 0, 0⟩) : SwitchOk cur e ∧ AtOrSealed n (scan sum cur e) := by
  constructor
  · intro hl p hp hne
    exact (hcur p hp).resolve_right fun hn => hne (hn.trans (he hl).symm)
  · intro p hp
    by_cases hl : e.isLocation = true
    · rw [scan_location hl] at hp
      rw [← Option.some.inj hp]
      exact .inr (he hl)
    · obtain ⟨seen, hrun, hseen⟩ := scan_other (by simpa using hl) hp
      exact (hcur _ hrun).imp_left hseen

/-- The entries about the current SCO, when there is a next one: only its checksum is missing. -/
theorem Past.next (h : Past crc scos n none past) {present : List Entry}
    (hpresent : ∀ e ∈ present, e.isLocation = true → e.sco = ⟨n, 0, 0⟩) :
    Past crc scos (n + 1) (some (scos n)) (past ++ present) := by
  have hpast : AtOrSealed n (runs (scan (sumsOf crc scos)) none past) :=
    fun p hp => .inl ((h.last p hp).resolve_right (by simp))
  obtain ⟨heach, hrun⟩ := each_of_invariant (AtOrSealed n) scan_present hpast hpresent
  refine ⟨?_, (each_append ..).mpr ⟨h.switches, heach⟩, ?_⟩
  · intro e he hl
    rcases mem_append.mp he with he | he
    · exact Nat.lt_succ_of_lt (h.below e he hl)
    · rw [hpresent e he hl]
      exact Nat.lt_succ_self n
  · intro p hp
    rw [runs_append] at hp
    refine (hrun p hp).imp_right fun hsco => ?_
    rw [hsco]

end

end Sealed

end VolumeDriver
