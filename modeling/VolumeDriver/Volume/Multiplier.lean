/-
`Volume::setSCOMultiplier` with every call in it that may throw. The multiplier is kept in four places: the size
of the vector of locations, the data store, the limit of entries in a TLog, and the configuration on the
backend, which is written last.
-/
import VolumeDriver.Volume.Write

namespace VolumeDriver.Multiplier

open Lib

variable {D : Type}

/-- A volume, its configuration's multiplier in memory and the one on the backend. -/
structure Configured (D : Type) where
  volume : Volume D
  halted : Bool := false
  config_ : Nat
  persisted : Nat

/-- How the `sync_` of the backend sync ends. -/
inductive Sync
  | ok
  | dataStoreFails
  | tlogFails
  deriving DecidableEq

/-- How writing the configuration ends. A call that throws may have had its effect. -/
inductive Save
  | ok
  | lost
  | unconfirmed
  deriving DecidableEq

/-- How the calls that `setSCOMultiplier` makes end. -/
structure Calls where
  /-- The SCO cache has room for the larger SCOs. -/
  enough : Bool := true
  sync : Sync := .ok
  /-- The SCO cache has no mount point for the next SCO. -/
  noMountPoints : Bool := false
  tlogFails : Bool := false
  save : Save := .ok

/-- Calls on such a volume. -/
abbrev M (D : Type) := EStateM VolumeExn (Configured D)

/-- A call of the volume's own. -/
def vol {α : Type} (m : Volume.M D α) : M D α := fun c =>
  match m c.volume with
  | .ok a v => .ok a { c with volume := v }
  | .error e v => .error e { c with volume := v }

/-- The volume is halted. -/
def halt : M D Unit := modify fun c => { c with halted := true }

/-- A halted volume takes no calls. -/
def checkNotHalted_ : M D Unit := do
  let c ← get
  if c.halted then throw (.exn (.ioException "Volume is halted due to previous errors")) else pure ()

variable (sums : Sums D) (calls : Calls)

/-- `sync_(AppendCheckSum::F)`. -/
def sync_ : M D Unit := do
  checkNotHalted_
  match calls.sync with
  | .ok => pure ()
  | .dataStoreFails => throw .transientException
  | .tlogFails => do
    halt
    throw (.exn (.ioException "could not sync TLog"))

/-- The location moves on before the next SCO is created. -/
def finalizeCurrentSCO : M D (Option (List D)) := do
  let c ← get
  if calls.noMountPoints = true ∧ c.volume.dataStore_.offset ≠ 0 ∧ c.volume.dataStore_.current_open = true then do
    set { c with
      volume := { c.volume with dataStore_ := c.volume.dataStore_.nextSCO.notCreated }
      halted := true }
    throw (.exn (.ioException "SCOCacheNoMountPointsException"))
  else vol (Volume.ds DataStoreNG.finalizeCurrentSCO)

/-- `SnapshotManagement::scheduleBackendSync`. -/
def closeTLogWith (maybe_sco_crc : Option (List D)) : M D Unit :=
  if calls.tlogFails then do
    halt
    throw (.exn (.ioException "could not schedule backend sync"))
  else vol (Volume.closeTLogWith sums maybe_sco_crc)

/-- `Volume::scheduleBackendSync_`. -/
def scheduleBackendSync_ : M D Unit := do
  sync_ calls
  let maybe_sco_crc ← finalizeCurrentSCO calls
  closeTLogWith sums calls maybe_sco_crc

/-- `writeConfigToBackend_`, which a halted volume does not reach. -/
def writeConfigToBackend_ (sco_mult : Nat) : M D Unit := do
  checkNotHalted_
  match calls.save with
  | .ok => modify fun c => { c with persisted := sco_mult }
  | .lost => throw (.exn (.ioException "writeConfigToBackend_"))
  | .unconfirmed => do
    modify fun c => { c with persisted := sco_mult }
    throw (.exn (.ioException "writeConfigToBackend_"))

/-- The configuration in memory follows the one on the backend. -/
def update_config_ (sco_mult : Nat) : M D Unit := do
  writeConfigToBackend_ calls sco_mult
  modify fun c => { c with config_ := sco_mult }

/-- What follows the checks. -/
def change (sco_mult : Nat) : M D Unit := do
  vol (Volume.applySCOMultiplier sco_mult)
  scheduleBackendSync_ sums calls
  update_config_ calls sco_mult

/-- `Volume::setSCOMultiplier`. -/
def setSCOMultiplier (limits : Volume.SCOSizeLimits) (csize sco_mult : Nat) : M D Unit := do
  checkNotHalted_
  if csize * sco_mult < limits.sco_size_min then throw (.invalidOperation "Resulting SCO size is too small")
  else if csize * sco_mult > limits.sco_size_max then throw (.invalidOperation "Resulting SCO size is too big")
  else if calls.enough = false then throw (.insufficientResourcesException "SCOCache would be overcommitted")
  else change sums calls sco_mult

/-! ## What the four places have to say -/

/-- The multiplier is the same everywhere, and the current SCO is not longer than it allows. -/
structure Agree (c : Configured D) : Prop where
  pos : 0 < c.volume.dataStore_.sco_mult_
  locations : c.volume.cluster_locations_ = c.volume.dataStore_.sco_mult_
  tlog : c.volume.maxTLogEntries_ = c.volume.tlog_mult * c.volume.dataStore_.sco_mult_ % 2 ^ 32
  persisted : c.persisted = c.volume.dataStore_.sco_mult_
  offset : c.volume.dataStore_.offset ≤ c.volume.dataStore_.sco_mult_

/-- A call that throws leaves agreement behind. -/
def FailureAtomic (limits : Volume.SCOSizeLimits) (csize sco_mult : Nat) (c : Configured D) : Prop :=
  returns (setSCOMultiplier sums calls limits csize sco_mult) c = false →
    Agree (after (setSCOMultiplier sums calls limits csize sco_mult) c)

/-- The call is refused before anything is changed. -/
def Refused (limits : Volume.SCOSizeLimits) (csize sco_mult : Nat) (c : Configured D) : Prop :=
  c.halted = true ∨ csize * sco_mult < limits.sco_size_min ∨ csize * sco_mult > limits.sco_size_max ∨
    calls.enough = false

/-- The current SCO, if there is anything in it, can be closed and the next one created. -/
abbrev Closes (c : Configured D) : Prop :=
  c.volume.dataStore_.offset ≠ 0 → c.volume.dataStore_.current_open = true ∧ calls.noMountPoints = false

/-- The backend sync ends well. -/
def Synced (c : Configured D) : Prop := calls.sync = .ok ∧ calls.tlogFails = false ∧ Closes calls c

/-- The multiplier does not change, the call is refused, or nothing fails before the new configuration is on
the backend. -/
def Safe (limits : Volume.SCOSizeLimits) (csize sco_mult : Nat) (c : Configured D) : Prop :=
  sco_mult = c.volume.dataStore_.sco_mult_ ∨ Refused calls limits csize sco_mult c ∨
    sco_mult ≠ 0 ∧ Synced calls c ∧ calls.save ≠ .lost

/-- The new multiplier is in force in the volume; the configuration is as before. -/
structure Applied (c : Configured D) (sco_mult : Nat) (c' : Configured D) : Prop where
  mult : c'.volume.dataStore_.sco_mult_ = sco_mult
  locations : c'.volume.cluster_locations_ = sco_mult
  tlog : c'.volume.maxTLogEntries_ = c'.volume.tlog_mult * sco_mult % 2 ^ 32
  persisted : c'.persisted = c.persisted
  offset : c'.volume.dataStore_.offset = c.volume.dataStore_.offset ∨ c'.volume.dataStore_.offset = 0

/-! ## What the calls do -/

section
variable {c c₁ : Configured D} {sco_mult : Nat}

theorem vol_ok {α : Type} {m : Volume.M D α} {a : α} {v : Volume D} (h : m c.volume = .ok a v) :
    vol m c = .ok a { c with volume := v } := by
  unfold vol
  rw [h]

theorem vol_error {α : Type} {m : Volume.M D α} {e : VolumeExn} {v : Volume D} (h : m c.volume = .error e v) :
    vol m c = .error e { c with volume := v } := by
  unfold vol
  rw [h]

theorem checkNotHalted_ok (h : c.halted = false) : checkNotHalted_ c = .ok () c := by
  unfold checkNotHalted_
  rw [run_get_bind, if_neg (by rw [h]; exact Bool.false_ne_true)]
  rfl

theorem sync_run (h : c.halted = false) : sync_ calls c = match calls.sync with
    | .ok => .ok () c
    | .dataStoreFails => .error .transientException c
    | .tlogFails => .error (.exn (.ioException "could not sync TLog")) { c with halted := true } := by
  unfold sync_
  rw [run_bind (checkNotHalted_ok h)]
  cases calls.sync <;> rfl

theorem finalizeCurrentSCO_closed {d : DataStoreNG D} (h : d.offset ≠ 0) (ho : d.current_open = false) :
    DataStoreNG.finalizeCurrentSCO d = .error (.exn (.assertion "currentSCO_() != 0")) d := by
  have hverify : DataStoreNG.verify (d.current_open = true) "currentSCO_() != 0" d =
      .error (.exn (.assertion "currentSCO_() != 0")) d := by
    unfold DataStoreNG.verify
    rw [if_neg (by rw [ho]; exact Bool.false_ne_true)]
    rfl
  unfold DataStoreNG.finalizeCurrentSCO DataStoreNG.pushAndUpdateCurrentSCO_
  rw [run_get_bind, if_pos h, run_get_bind, run_bind_error hverify]

theorem closeTLogWith_ok (maybe_sco_crc : Option (List D)) (v : Volume D) :
    ∃ w, Volume.closeTLogWith sums maybe_sco_crc v = .ok () w ∧ w.dataStore_ = v.dataStore_ ∧
      w.cluster_locations_ = v.cluster_locations_ ∧ w.maxTLogEntries_ = v.maxTLogEntries_ ∧
      w.tlog_mult = v.tlog_mult := by
  cases maybe_sco_crc with
  | none | some => exact ⟨_, rfl, rfl, rfl, rfl, rfl⟩

theorem applySCOMultiplier_zero (v : Volume D) : Volume.applySCOMultiplier 0 v =
    .error (.exn (.assertion "sco_mult != SCOMultiplier(0)")) { v with cluster_locations_ := 0 } := rfl

theorem Applied.of_apply (c : Configured D) (sco_mult : Nat) : Applied c sco_mult { c with
      volume := { c.volume with
        cluster_locations_ := sco_mult
        dataStore_ := { c.volume.dataStore_ with sco_mult_ := sco_mult }
        maxTLogEntries_ := c.volume.tlog_mult * sco_mult % 2 ^ 32 } } :=
  ⟨rfl, rfl, rfl, rfl, Or.inl rfl⟩

theorem Applied.halt (h : Applied c sco_mult c₁) : Applied c sco_mult { c₁ with halted := true } :=
  { h with }

theorem Applied.next (h : Applied c sco_mult c₁) {d : DataStoreNG D}
    (hd : DataStoreNG.SameLocation c₁.volume.dataStore_.nextSCO d) (halted : Bool) :
    Applied c sco_mult { c₁ with volume := { c₁.volume with dataStore_ := d }, halted := halted } :=
  ⟨hd.mult.trans h.mult, h.locations, h.tlog, h.persisted, Or.inr (congrArg ClusterLocation.offset hd.loc)⟩

theorem Applied.agree_iff (hc : Agree c) (h : Applied c sco_mult c₁) :
    Agree c₁ ↔ sco_mult = c.volume.dataStore_.sco_mult_ := by
  constructor
  · intro ha
    rw [← h.mult, ← ha.persisted, h.persisted, hc.persisted]
  · intro heq
    constructor
    case pos =>
      rw [h.mult, heq]
      exact hc.pos
    case locations => rw [h.locations, h.mult]
    case tlog => rw [h.tlog, h.mult]
    case persisted => rw [h.persisted, hc.persisted, h.mult, heq]
    case offset =>
      rw [h.mult, heq]
      rcases h.offset with ho | ho
      · rw [ho]
        exact hc.offset
      · rw [ho]
        exact Nat.zero_le _

section
variable (h : Applied c sco_mult c₁)
include h

theorem finalizeCurrentSCO_ok (hopen : Closes calls c₁) :
    ∃ crc c₂, finalizeCurrentSCO calls c₁ = .ok crc c₂ ∧ Applied c sco_mult c₂ ∧ c₂.volume.dataStore_.offset = 0 ∧
      c₂.halted = c₁.halted := by
  unfold finalizeCurrentSCO
  rw [run_get_bind]
  by_cases h0 : c₁.volume.dataStore_.offset = 0
  · rw [if_neg (fun hand => hand.2.1 h0), vol_ok (Volume.ds_ok (DataStoreNG.finalizeCurrentSCO_empty h0))]
    exact ⟨none, _, rfl, h, h0, rfl⟩
  · obtain ⟨ho, hmp⟩ := hopen h0
    have hsame := DataStoreNG.sameLocation_attempted c₁.volume.dataStore_.nextSCO
    rw [if_neg (fun hand => by rw [hmp] at hand; exact Bool.false_ne_true hand.1),
      vol_ok (Volume.ds_ok (DataStoreNG.finalizeCurrentSCO_data h0 ho))]
    exact ⟨_, _, rfl, h.next hsame c₁.halted, congrArg ClusterLocation.offset hsame.loc, rfl⟩

theorem finalizeCurrentSCO_fails (hopen : ¬ Closes calls c₁) :
    ∃ e c₂, finalizeCurrentSCO calls c₁ = .error e c₂ ∧ Applied c sco_mult c₂ := by
  rw [Classical.not_imp] at hopen
  obtain ⟨h0, hnot⟩ := hopen
  unfold finalizeCurrentSCO
  rw [run_get_bind]
  cases ho : c₁.volume.dataStore_.current_open with
  | false =>
    rw [if_neg (fun hand => Bool.false_ne_true hand.2.2), vol_error (Volume.ds_error (finalizeCurrentSCO_closed h0 ho))]
    exact ⟨_, _, rfl, h⟩
  | true =>
    have hmp : calls.noMountPoints = true := Bool.of_not_eq_false fun hmp => hnot ⟨ho, hmp⟩
    rw [if_pos ⟨hmp, h0, rfl⟩]
    exact ⟨_, _, rfl, h.next (d := c₁.volume.dataStore_.nextSCO.notCreated) ⟨rfl, rfl⟩ true⟩

theorem scheduleBackendSync_ok (hh : c₁.halted = false) (hs : Synced calls c₁) :
    ∃ c₂, scheduleBackendSync_ sums calls c₁ = .ok () c₂ ∧ Applied c sco_mult c₂ ∧ c₂.volume.dataStore_.offset = 0 ∧
      c₂.halted = false := by
  obtain ⟨hsync, htlog, hopen⟩ := hs
  have hsynced : sync_ calls c₁ = .ok () c₁ := by rw [sync_run calls hh, hsync]
  obtain ⟨crc, c₂, hfin, happ, hoff, hhalted⟩ := finalizeCurrentSCO_ok calls h hopen
  obtain ⟨w, hw, hds, hloc, hmax, hmult⟩ := closeTLogWith_ok sums crc c₂.volume
  unfold scheduleBackendSync_
  rw [run_bind hsynced, run_bind hfin]
  unfold closeTLogWith
  rw [if_neg (by rw [htlog]; exact Bool.false_ne_true), vol_ok hw]
  refine ⟨_, rfl, ⟨?_, ?_, ?_, happ.persisted, ?_⟩, ?_, hhalted.trans hh⟩
  · show w.dataStore_.sco_mult_ = sco_mult
    rw [hds]
    exact happ.mult
  · exact hloc.trans happ.locations
  · show w.maxTLogEntries_ = w.tlog_mult * sco_mult % 2 ^ 32
    rw [hmax, hmult]
    exact happ.tlog
  · show w.dataStore_.offset = _ ∨ w.dataStore_.offset = 0
    rw [hds]
    exact happ.offset
  · show w.dataStore_.offset = 0
    rw [hds]
    exact hoff

theorem scheduleBackendSync_fails (hh : c₁.halted = false) (hs : ¬ Synced calls c₁) :
    ∃ e c₂, scheduleBackendSync_ sums calls c₁ = .error e c₂ ∧ Applied c sco_mult c₂ := by
  unfold scheduleBackendSync_
  have hrun := sync_run calls hh
  cases hsync : calls.sync with
  | dataStoreFails =>
    rw [hsync] at hrun
    rw [run_bind_error hrun]
    exact ⟨_, c₁, rfl, h⟩
  | tlogFails =>
    rw [hsync] at hrun
    rw [run_bind_error hrun]
    exact ⟨_, _, rfl, h.halt⟩
  | ok =>
    rw [hsync] at hrun
    rw [run_bind hrun]
    by_cases hopen : Closes calls c₁
    · -- only the TLog is left to fail
      obtain ⟨crc, c₂, hfin, happ, -, -⟩ := finalizeCurrentSCO_ok calls h hopen
      have htlog : calls.tlogFails = true := Bool.of_not_eq_false fun ht => hs ⟨hsync, ht, hopen⟩
      rw [run_bind hfin]
      unfold closeTLogWith
      rw [if_pos htlog]
      exact ⟨_, _, rfl, happ.halt⟩
    · obtain ⟨e, c₂, hfin, happ⟩ := finalizeCurrentSCO_fails calls h hopen
      rw [run_bind_error hfin]
      exact ⟨e, c₂, rfl, happ⟩

end

end

/-! ## Atomicity -/

section
variable {c : Configured D} {limits : Volume.SCOSizeLimits} {csize sco_mult : Nat}

theorem setSCOMultiplier_refused (h : Refused calls limits csize sco_mult c) :
    ∃ e, setSCOMultiplier sums calls limits csize sco_mult c = .error e c := by
  unfold setSCOMultiplier
  cases hh : c.halted with
  | true =>
    have hcheck : checkNotHalted_ c = .error (.exn (.ioException "Volume is halted due to previous errors")) c := by
      unfold checkNotHalted_
      rw [run_get_bind, if_pos hh]
      rfl
    exact ⟨_, run_bind_error hcheck⟩
  | false =>
    rw [run_bind (checkNotHalted_ok hh)]
    by_cases hmin : csize * sco_mult < limits.sco_size_min
    · rw [if_pos hmin]
      exact ⟨_, rfl⟩
    · rw [if_neg hmin]
      by_cases hmax : csize * sco_mult > limits.sco_size_max
      · rw [if_pos hmax]
        exact ⟨_, rfl⟩
      · rw [if_neg hmax]
        have henough : calls.enough = false := by
          rcases h with h | h | h | h
          · rw [hh] at h
            cases h
          · exact absurd h hmin
          · exact absurd h hmax
          · exact h
        rw [if_pos henough]
        exact ⟨_, rfl⟩

theorem setSCOMultiplier_accepted (h : ¬ Refused calls limits csize sco_mult c) :
    setSCOMultiplier sums calls limits csize sco_mult c = change sums calls sco_mult c := by
  unfold Refused at h
  simp only [not_or] at h
  obtain ⟨hh, hmin, hmax, henough⟩ := h
  unfold setSCOMultiplier
  rw [run_bind (checkNotHalted_ok (by simpa using hh)), if_neg hmin, if_neg hmax, if_neg henough]

theorem change_spec (hpos : sco_mult ≠ 0) (hh : c.halted = false) :
    (Synced calls c ∧ calls.save = .ok → returns (change sums calls sco_mult) c = true) ∧
      (Synced calls c ∧ calls.save = .unconfirmed →
        returns (change sums calls sco_mult) c = false ∧ Agree (after (change sums calls sco_mult) c)) ∧
      (¬ (Synced calls c ∧ calls.save ≠ .lost) →
        returns (change sums calls sco_mult) c = false ∧
          Applied c sco_mult (after (change sums calls sco_mult) c)) := by
  have happly := vol_ok (Volume.applySCOMultiplier_ok (v := c.volume) hpos)
  have happ := Applied.of_apply c sco_mult
  generalize hc₁ : ({ c with volume := _ } : Configured D) = c₁ at happly
  have happ₁ : Applied c sco_mult c₁ := by rw [← hc₁]; exact happ
  have hh₁ : c₁.halted = false := by rw [← hc₁]; exact hh
  have hsynced : Synced calls c₁ ↔ Synced calls c := by rw [← hc₁]; exact Iff.rfl
  have hchange : change sums calls sco_mult c =
      (scheduleBackendSync_ sums calls >>= fun _ => update_config_ calls sco_mult) c₁ := run_bind happly
  unfold returns after
  rw [hchange]
  by_cases hs : Synced calls c
  · obtain ⟨c₂, hsync, happ₂, hoff, hh₂⟩ := scheduleBackendSync_ok sums calls happ₁ hh₁ (hsynced.2 hs)
    rw [run_bind hsync]
    unfold update_config_ writeConfigToBackend_
    rw [bind_assoc, run_bind (checkNotHalted_ok hh₂)]
    cases hsave : calls.save with
    | ok => exact ⟨fun _ => rfl, fun h => absurd h.2 nofun, fun h => absurd ⟨hs, nofun⟩ h⟩
    | lost => exact ⟨fun h => absurd h.2 nofun, fun h => absurd h.2 nofun, fun _ => ⟨rfl, happ₂⟩⟩
    | unconfirmed =>
      refine ⟨fun h => absurd h.2 nofun, fun _ => ⟨rfl, ?_⟩, fun h => absurd ⟨hs, nofun⟩ h⟩
      constructor
      case pos =>
        show 0 < c₂.volume.dataStore_.sco_mult_
        rw [happ₂.mult]
        omega
      case locations => exact happ₂.locations.trans happ₂.mult.symm
      case tlog =>
        show c₂.volume.maxTLogEntries_ = c₂.volume.tlog_mult * c₂.volume.dataStore_.sco_mult_ % 2 ^ 32
        rw [happ₂.mult]
        exact happ₂.tlog
      case persisted => exact happ₂.mult.symm
      case offset =>
        show c₂.volume.dataStore_.offset ≤ _
        rw [hoff]
        exact Nat.zero_le _
  · obtain ⟨e, c₂, hsync, happ₂⟩ := scheduleBackendSync_fails sums calls happ₁ hh₁ (fun h => hs (hsynced.1 h))
    rw [run_bind_error hsync]
    exact ⟨fun h => absurd h.1 hs, fun h => absurd h.1 hs, fun _ => ⟨rfl, happ₂⟩⟩

/-- The call is failure atomic iff it is refused, changes nothing, or gets as far as the backend. -/
theorem setSCOMultiplier_atomic_iff (hc : Agree c) :
    FailureAtomic sums calls limits csize sco_mult c ↔ Safe calls limits csize sco_mult c := by
  unfold FailureAtomic Safe
  by_cases href : Refused calls limits csize sco_mult c
  · obtain ⟨e, he⟩ := setSCOMultiplier_refused sums calls href
    rw [after_error he]
    exact ⟨fun _ => Or.inr (Or.inl href), fun _ _ => hc⟩
  · have hcall := setSCOMultiplier_accepted sums calls href
    rw [show returns _ c = returns (change sums calls sco_mult) c by unfold returns; rw [hcall], after_congr hcall]
    have hh : c.halted = false := by
      unfold Refused at href
      simp only [not_or] at href
      simpa using href.1
    by_cases hzero : sco_mult = 0
    · -- the vector is empty, and the data store has refused
      subst hzero
      have hpos := hc.pos
      have hfails : change sums calls 0 c = .error (.exn (.assertion "sco_mult != SCOMultiplier(0)"))
          { c with volume := { c.volume with cluster_locations_ := 0 } } :=
        run_bind_error (vol_error (applySCOMultiplier_zero c.volume))
      constructor
      · intro h
        have hloc : 0 = c.volume.dataStore_.sco_mult_ := (h rfl).locations
        omega
      · rintro (heq | h | ⟨hne, -⟩)
        · omega
        · exact absurd h href
        · exact absurd rfl hne
    · obtain ⟨hok, hun, hfail⟩ := change_spec sums calls hzero hh
      by_cases hs : Synced calls c ∧ calls.save ≠ .lost
      · refine ⟨fun _ => Or.inr (Or.inr ⟨hzero, hs⟩), fun _ hthrew => ?_⟩
        cases hsave : calls.save with
        | ok =>
          rw [hok ⟨hs.1, hsave⟩] at hthrew
          cases hthrew
        | lost => exact absurd hsave hs.2
        | unconfirmed => exact (hun ⟨hs.1, hsave⟩).2
      · obtain ⟨hthrew, happ⟩ := hfail hs
        constructor
        · intro h
          exact Or.inl ((happ.agree_iff hc).1 (h hthrew))
        · rintro (heq | h | ⟨-, h⟩) _
          · exact (happ.agree_iff hc).2 heq
          · exact absurd h href
          · exact absurd h hs

end

/-- The limits of the source without environment variables, for clusters of 4096 bytes. -/
def limits : Volume.SCOSizeLimits := { first_csize := 4096, min_sco_size := 2 ^ 20, max_sco_size := 2 ^ 27 }

/-- A volume with 300 of 1024 clusters in its SCO. -/
def partly : Configured Unit where
  volume :=
    { dataStore_ := { currentClusterLoc_ := ⟨⟨7, 0, 0⟩, 300⟩, sco_mult_ := 1024, current_open := true }
      cluster_locations_ := 1024
      maxTLogEntries_ := 20 * 1024 }
  config_ := 1024
  persisted := 1024

theorem partly_agree : Agree partly := ⟨by decide, rfl, rfl, rfl, by decide⟩

/-- The configuration is written, but the call that writes it throws. -/
theorem unconfirmed_save_atomic : FailureAtomic .lengths { save := .unconfirmed } limits 4096 256 partly :=
  (setSCOMultiplier_atomic_iff .lengths _ partly_agree).2
    (Or.inr (Or.inr ⟨by decide, ⟨rfl, rfl, fun _ => ⟨rfl, rfl⟩⟩, nofun⟩))

/-- The sync fails: the data store has 256 clusters to a SCO, the current SCO has 300, and the configuration on
the backend still says 1024. -/
theorem failed_sync_disagrees :
    let call := setSCOMultiplier .lengths { sync := .dataStoreFails } limits 4096 256
    returns call partly = false ∧ (after call partly).volume.dataStore_.sco_mult_ = 256 ∧
      (after call partly).volume.dataStore_.offset = 300 ∧ (after call partly).persisted = 1024 := by
  decide

end VolumeDriver.Multiplier
