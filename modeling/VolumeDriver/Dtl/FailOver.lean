/-
The failover state of a volume (`Volume::failoverstate_`) and everything that writes it: the
configuration of a distributed transaction log (DTL), its removal, the periodic repair, the
bridge's report of a failed DTL and the callback for a TLog that reached the backend.
-/
import VolumeDriver.Types
import VolumeDriver.Lib.Steps
import VolumeDriver.Lib.Triple

namespace VolumeDriver

open Lib

/-! ## The state -/

/-- How far a volume and its DTL are in step. -/
inductive VolumeFailOverState
  | OK_SYNC
  | OK_STANDALONE
  | KETCHUP
  | DEGRADED
  deriving DecidableEq, Repr

/-- Whether a write waits for the DTL. -/
inductive FailOverCacheMode
  | Asynchronous
  | Synchronous
  deriving DecidableEq, Repr

/-- Where the DTL is and how it is used. -/
structure FailOverCacheConfig where
  host : String
  port : Nat
  mode : FailOverCacheMode
  deriving DecidableEq, Repr

/-- The part of a volume that takes part in failover handling. `mode` and `cache_` belong to the
bridge `failover_`; `broken` is no field of the code: it records that a DTL failure was noticed
since the last cache was installed. -/
structure FailOver where
  failoverstate_ : VolumeFailOverState := .DEGRADED
  last_tlog_not_on_failover_ : Option TLogId := none
  foc_config_wrapper_ : Option FailOverCacheConfig := none
  mode : FailOverCacheMode := .Asynchronous
  cache_ : Bool := false
  halted_ : Bool := false
  broken : Bool := false
  deriving DecidableEq, Repr

namespace FailOver

/-- A method that changes the failover state and may throw; what it wrote before it throws stays. -/
abbrev M := EStateM Exn FailOver

/-- What the calls made while a DTL is configured do: `some e` stands for a call that throws `e`.
`noticed` says that the bridge notices a DTL failure after the new cache was installed and
before the volume's state is decided. -/
structure Calls where
  newCache : Option Exn := none
  writeFailOverCacheConfigToBackend_ : Option Exn := none
  FailOverCacheProxy : Option Exn := none
  clear : Option Exn := none
  noticed : Bool := false
  finalizeCurrentSCO : Option Exn := none
  getTLogsNotWrittenToBackend : List TLogId
  getCurrentTLogId : TLogId
  sync : Option Exn := none
  currentTLogHasData : Bool
  scheduleBackendSync : Option Exn := none

/-! ## The methods -/

/-- A call whose outcome is known beforehand. -/
def call : Option Exn → M Unit
  | none => pure ()
  | some e => throw e

/-- Sets the state. -/
def setVolumeFailOverState (s : VolumeFailOverState) : M Unit :=
  modify fun v => { v with failoverstate_ := s }

/-- A halted volume refuses to be configured. -/
def checkNotHalted_ : M Unit := do
  if (← get).halted_ then throw (.ioException "Volume is halted")

/-- The function a bridge calls when it gives up on its DTL. -/
def degraded_fun_ : M Unit :=
  modify fun v => { v with failoverstate_ := .DEGRADED, broken := true }

/-- `failover_->newCache`: an installed cache starts without a failure. -/
def newCache (cache : Bool) : M Unit :=
  modify fun v => { v with cache_ := cache, broken := if cache then false else v.broken }

/-- A bridge of another kind starts without a cache. -/
def setFailOverCacheMode_ (mode : FailOverCacheMode) : M Unit :=
  modify fun v => { v with mode := mode, cache_ := if mode ≠ v.mode then false else v.cache_ }

/-- `failover_->Clear`: the synchronous bridge reports the failure and drops its cache, the
asynchronous one lets the exception through. -/
def Clear (c : Calls) : M Unit := do
  let v ← get
  if v.cache_ then
    if c.clear ≠ none ∧ v.mode = .Synchronous then
      degraded_fun_
      modify fun v => { v with cache_ := false }
    else
      call c.clear

/-- `SnapshotManagement::halt_on_error_`: a call that throws halts the volume. -/
def halt_on_error_ : Option Exn → M Unit
  | none => pure ()
  | some e => do
    modify fun v => { v with halted_ := true }
    throw e

/-- Schedules a sync to the backend. -/
def scheduleBackendSync (c : Calls) : M Unit := halt_on_error_ c.scheduleBackendSync

/-- The state a freshly configured DTL is in, and the TLog that has to reach the backend before
it is in sync. -/
def findOutVolumeState (c : Calls) : M Unit := do
  let out := c.getTLogsNotWrittenToBackend
  ofExcept (VERIFY (out.length ≥ 1) "out.size() >= 1")
  let curTLog := c.getCurrentTLogId
  ofExcept (VERIFY (out.getLast? = some curTLog) "out.back() == curTLog")
  -- `sync` of the snapshot management is `syncTLog_`
  halt_on_error_ c.sync
  if c.currentTLogHasData then
    modify fun v => { v with last_tlog_not_on_failover_ := some curTLog }
    setVolumeFailOverState .KETCHUP
  else if out.length > 1 then
    modify fun v => { v with last_tlog_not_on_failover_ := out[out.length - 2]? }
    setVolumeFailOverState .KETCHUP
  else
    setVolumeFailOverState .OK_SYNC

/-- The second half of `setFailOverCacheConfig_`, with the new cache installed. -/
def useNewCache (c : Calls) : M Unit := do
  Clear c
  -- the bridge's own thread, or a backend thread that talks to the DTL, is not held back by the
  -- volume's lock
  if c.noticed then degraded_fun_
  call c.finalizeCurrentSCO
  findOutVolumeState c
  scheduleBackendSync c

/-- Configures a DTL. -/
def setFailOverCacheConfig_ (c : Calls) (config : FailOverCacheConfig) : M Unit := do
  checkNotHalted_
  setVolumeFailOverState .DEGRADED
  modify fun v => { v with foc_config_wrapper_ := some config, last_tlog_not_on_failover_ := none }
  call c.newCache
  newCache false
  call c.writeFailOverCacheConfigToBackend_
  setFailOverCacheMode_ config.mode
  call c.FailOverCacheProxy
  newCache true
  useNewCache c

/-- Removes the DTL. -/
def setNoFailOverCache_ (c : Calls) : M Unit := do
  checkNotHalted_
  setVolumeFailOverState .DEGRADED
  modify fun v => { v with last_tlog_not_on_failover_ := none, foc_config_wrapper_ := none }
  call c.newCache
  newCache false
  call c.writeFailOverCacheConfigToBackend_
  setVolumeFailOverState .OK_STANDALONE

/-- Configures or removes the DTL. -/
def setFailOverCacheConfig (c : Calls) : Option FailOverCacheConfig → M Unit
  | some config => setFailOverCacheConfig_ c config
  | none => setNoFailOverCache_ c

/-- The periodic repair; exceptions are logged and dropped. -/
def check_and_fix_failovercache (c : Calls) : M Unit := do
  let v ← get
  if v.failoverstate_ = .DEGRADED then
    try setFailOverCacheConfig c v.foc_config_wrapper_ catch _ => pure ()

/-- The callback for a TLog that reached the backend. -/
def checkState (tlog_id : TLogId) : M Unit := do
  if (← get).last_tlog_not_on_failover_ = some tlog_id then
    setVolumeFailOverState .OK_SYNC

/-- What may happen to the failover state, in any order. -/
inductive Action
  | setFailOverCacheConfig_ (c : Calls) (config : FailOverCacheConfig)
  | setNoFailOverCache_ (c : Calls)
  | check_and_fix_failovercache (c : Calls)
  | dtlFailure
  | checkState (tlog_id : TLogId)

/-- The method an action runs. -/
def Action.method : Action → M Unit
  | .setFailOverCacheConfig_ c config => FailOver.setFailOverCacheConfig_ c config
  | .setNoFailOverCache_ c => FailOver.setNoFailOverCache_ c
  | .check_and_fix_failovercache c => FailOver.check_and_fix_failovercache c
  | .dtlFailure => degraded_fun_
  | .checkState t => FailOver.checkState t

/-- The state after an action. -/
def step (v : FailOver) (a : Action) : FailOver := after a.method v

/-! ## What a method leaves behind, one statement at a time -/

theorem after_modify (g : FailOver → FailOver) (v : FailOver) : after (modify g : M Unit) v = g v := rfl

theorem after_modify_bind (g : FailOver → FailOver) (f : PUnit → M Unit) (v : FailOver) :
    after (modify g >>= f) v = after (f ⟨⟩) (g v) := rfl

theorem after_get_bind (f : FailOver → M Unit) (v : FailOver) : after (get >>= f) v = after (f v) v := rfl

theorem after_call_bind (o : Option Exn) (f : Unit → M Unit) (v : FailOver) :
    after (call o >>= f) v = if o = none then after (f ()) v else v := by
  cases o <;> rfl

theorem after_halt_bind (o : Option Exn) (f : Unit → M Unit) (v : FailOver) :
    after (halt_on_error_ o >>= f) v = if o = none then after (f ()) v else { v with halted_ := true } := by
  cases o <;> rfl

theorem after_verify_bind (p : Prop) [Decidable p] (what : String) (f : Unit → M Unit) (v : FailOver) :
    after (ofExcept (VERIFY p what) >>= f) v = if p then after (f ()) v else v := by
  unfold VERIFY verify
  by_cases hp : p
  · rw [if_pos hp, if_pos hp]; rfl
  · rw [if_neg hp, if_neg hp]; rfl

theorem after_ite_bind (p : Prop) [Decidable p] (m₁ m₂ : M Unit) (f : Unit → M Unit) (v : FailOver) :
    after ((if p then m₁ else m₂) >>= f) v = if p then after (m₁ >>= f) v else after (m₂ >>= f) v := by
  split <;> rfl

theorem after_checkNotHalted_bind (f : Unit → M Unit) (v : FailOver) :
    after (checkNotHalted_ >>= f) v = if v.halted_ then v else after (f ()) v := by
  unfold checkNotHalted_
  rw [bind_assoc, after_get_bind]
  split <;> rfl

/-! ## What configuring a DTL decides -/

/-- The checks made on the TLogs hold. -/
def Calls.verified (c : Calls) : Prop :=
  c.getTLogsNotWrittenToBackend.length ≥ 1 ∧ c.getTLogsNotWrittenToBackend.getLast? = some c.getCurrentTLogId ∧
    c.sync = none

/-- Everything the volume holds is on the backend. -/
def Calls.allOnBackend (c : Calls) : Prop :=
  c.currentTLogHasData = false ∧ c.getTLogsNotWrittenToBackend.length ≤ 1

instance (c : Calls) : Decidable c.allOnBackend := inferInstanceAs (Decidable (_ ∧ _))

/-- The state a configuration that comes to its end decides on. -/
def Calls.verdict (c : Calls) : VolumeFailOverState := if c.allOnBackend then .OK_SYNC else .KETCHUP

/-- No call made before the state is decided throws. -/
def Calls.reaches (c : Calls) (mode : FailOverCacheMode) : Prop :=
  c.newCache = none ∧ c.writeFailOverCacheConfigToBackend_ = none ∧ c.FailOverCacheProxy = none ∧
    (c.clear = none ∨ mode = .Synchronous) ∧ c.finalizeCurrentSCO = none ∧ c.verified

/-- The newly installed cache fails before the state is decided. -/
def Calls.fails (c : Calls) (mode : FailOverCacheMode) : Prop :=
  c.noticed = true ∨ (c.clear ≠ none ∧ mode = .Synchronous)

theorem after_scheduleBackendSync (c : Calls) (v : FailOver) : (after (scheduleBackendSync c) v).broken = v.broken ∧
      (after (scheduleBackendSync c) v).failoverstate_ = v.failoverstate_ := by
  unfold scheduleBackendSync
  cases c.scheduleBackendSync <;> exact ⟨rfl, rfl⟩

theorem after_findOutVolumeState (c : Calls) (v : FailOver) :
    (¬ c.verified ∧ (after (do findOutVolumeState c; scheduleBackendSync c) v).failoverstate_ = v.failoverstate_ ∧
      (after (do findOutVolumeState c; scheduleBackendSync c) v).last_tlog_not_on_failover_ =
        v.last_tlog_not_on_failover_) ∨
    (c.verified ∧ (after (do findOutVolumeState c; scheduleBackendSync c) v).broken = v.broken ∧
      (after (do findOutVolumeState c; scheduleBackendSync c) v).failoverstate_ = c.verdict) := by
  simp only [findOutVolumeState, setVolumeFailOverState, bind_assoc, after_verify_bind, after_halt_bind]
  by_cases hv : c.verified
  · obtain ⟨h1, h2, h3⟩ := hv
    refine .inr ⟨⟨h1, h2, h3⟩, ?_⟩
    rw [if_pos h1, if_pos h2, if_pos h3]
    rw [after_ite_bind, after_ite_bind]
    by_cases hd : c.currentTLogHasData = true
    · have hk : c.verdict = .KETCHUP := if_neg fun h => by cases hd.symm.trans h.1
      rw [if_pos hd, bind_assoc, after_modify_bind, after_modify_bind, hk]
      exact after_scheduleBackendSync c _
    · rw [if_neg hd]
      by_cases hl : c.getTLogsNotWrittenToBackend.length > 1
      · have hk : c.verdict = .KETCHUP := if_neg fun h => by have := h.2; omega
        rw [if_pos hl, bind_assoc, after_modify_bind, after_modify_bind, hk]
        exact after_scheduleBackendSync c _
      · have hk : c.verdict = .OK_SYNC := if_pos ⟨by simpa using hd, by omega⟩
        rw [if_neg hl, after_modify_bind, hk]
        exact after_scheduleBackendSync c _
  · refine .inl ⟨hv, ?_⟩
    -- the first check that fails ends the call
    split
    · split
      · rw [if_neg fun h3 => hv ⟨by assumption, by assumption, h3⟩]
        exact ⟨rfl, rfl⟩
      · exact ⟨rfl, rfl⟩
    · exact ⟨rfl, rfl⟩

variable {c : Calls} {v w : FailOver} {mode : FailOverCacheMode}

theorem after_Clear_bind {f : Unit → M Unit} (hc : v.cache_ = true) : after (Clear c >>= f) v =
      if c.clear ≠ none ∧ v.mode = .Synchronous then
        after (f ()) { v with failoverstate_ := .DEGRADED, broken := true, cache_ := false }
      else if c.clear = none then after (f ()) v else v := by
  unfold Clear degraded_fun_
  rw [bind_assoc, after_get_bind, if_pos hc, after_ite_bind, bind_assoc, after_modify_bind, after_modify_bind,
    after_call_bind]

/-- Outcome of a configuration: either some call threw before the state was decided and the
volume is degraded with nothing to catch up with, or the state was decided by what is on the
backend, whatever happened to the new cache in the meantime. -/
def Configured (c : Calls) (mode : FailOverCacheMode) (v : FailOver) : Prop :=
  (¬ c.reaches mode ∧ v.failoverstate_ = .DEGRADED ∧ v.last_tlog_not_on_failover_ = none) ∨
  (c.reaches mode ∧ (v.broken = true ↔ c.fails mode) ∧ v.failoverstate_ = c.verdict)

theorem after_decide (hs : w.failoverstate_ = .DEGRADED) (hl : w.last_tlog_not_on_failover_ = none) :
    let v := after (do call c.finalizeCurrentSCO; findOutVolumeState c; scheduleBackendSync c) w
    (¬ (c.finalizeCurrentSCO = none ∧ c.verified) ∧ v.failoverstate_ = .DEGRADED ∧
      v.last_tlog_not_on_failover_ = none) ∨
    ((c.finalizeCurrentSCO = none ∧ c.verified) ∧ v.broken = w.broken ∧ v.failoverstate_ = c.verdict) := by
  intro v
  by_cases hf : c.finalizeCurrentSCO = none
  · have hv : v = after (do findOutVolumeState c; scheduleBackendSync c) w := by
      show after (call c.finalizeCurrentSCO >>= _) w = _
      rw [after_call_bind, if_pos hf]
    rw [hv]
    rcases after_findOutVolumeState c w with ⟨hn, hstate, hlast⟩ | ⟨hy, hb, ho⟩
    · exact .inl ⟨fun h => hn h.2, hstate.trans hs, hlast.trans hl⟩
    · exact .inr ⟨⟨hf, hy⟩, hb, ho⟩
  · have hv : v = w := by
      show after (call c.finalizeCurrentSCO >>= _) w = _
      rw [after_call_bind, if_neg hf]
    exact .inl ⟨fun h => hf h.1, by rw [hv]; exact ⟨hs, hl⟩⟩

theorem after_noticed (hs : w.failoverstate_ = .DEGRADED) (hl : w.last_tlog_not_on_failover_ = none) :
    let v := after (do
      if c.noticed then degraded_fun_
      call c.finalizeCurrentSCO; findOutVolumeState c; scheduleBackendSync c) w
    (¬ (c.finalizeCurrentSCO = none ∧ c.verified) ∧ v.failoverstate_ = .DEGRADED ∧
      v.last_tlog_not_on_failover_ = none) ∨
    ((c.finalizeCurrentSCO = none ∧ c.verified) ∧ (v.broken = true ↔ c.noticed = true ∨ w.broken = true) ∧
      v.failoverstate_ = c.verdict) := by
  intro v
  have hv : v = after (do call c.finalizeCurrentSCO; findOutVolumeState c; scheduleBackendSync c)
      (if c.noticed then { w with failoverstate_ := .DEGRADED, broken := true } else w) := by
    dsimp only [v]
    cases c.noticed <;> rfl
  rw [hv]
  rcases after_decide (c := c) (w := if c.noticed then { w with failoverstate_ := .DEGRADED, broken := true } else w)
    (by split <;> trivial) (by split <;> exact hl) with h | ⟨hr, hb, ho⟩
  · exact .inl h
  · refine .inr ⟨hr, ?_, ho⟩
    rw [hb]
    cases c.noticed <;> simp

theorem after_useNewCache (hm : w.mode = mode) (hs : w.failoverstate_ = .DEGRADED)
    (hl : w.last_tlog_not_on_failover_ = none) (hc : w.cache_ = true) (hb : w.broken = false)
    (h1 : c.newCache = none) (h2 : c.writeFailOverCacheConfigToBackend_ = none) (h3 : c.FailOverCacheProxy = none) :
    Configured c mode (after (useNewCache c) w) := by
  subst hm
  unfold useNewCache
  rw [after_Clear_bind hc]
  by_cases hcl : c.clear ≠ none ∧ w.mode = .Synchronous
  · -- the synchronous bridge has swallowed the failure of `Clear`
    rw [if_pos hcl]
    rcases after_noticed (c := c) (w := { w with failoverstate_ := .DEGRADED, broken := true, cache_ := false }) rfl hl
      with ⟨hn, hd⟩ | ⟨hr, hbr, ho⟩
    · exact .inl ⟨fun h => hn ⟨h.2.2.2.2.1, h.2.2.2.2.2⟩, hd⟩
    · refine .inr ⟨⟨h1, h2, h3, .inr hcl.2, hr.1, hr.2⟩, ?_, ho⟩
      rw [hbr]
      exact iff_of_true (.inr rfl) (.inr hcl)
  · rw [if_neg hcl]
    by_cases he : c.clear = none
    · rw [if_pos he]
      rcases after_noticed (c := c) hs hl with ⟨hn, hd⟩ | ⟨hr, hbr, ho⟩
      · exact .inl ⟨fun h => hn ⟨h.2.2.2.2.1, h.2.2.2.2.2⟩, hd⟩
      · refine .inr ⟨⟨h1, h2, h3, .inl he, hr.1, hr.2⟩, ?_, ho⟩
        rw [hbr, hb]
        simp [Calls.fails, he]
    · -- the asynchronous bridge lets the exception through
      rw [if_neg he]
      refine .inl ⟨fun h => ?_, hs, hl⟩
      rcases h.2.2.2.1 with h | h
      · exact he h
      · exact hcl ⟨he, h⟩

theorem after_setFailOverCacheConfig_ {config : FailOverCacheConfig} (hh : v.halted_ = false) :
    Configured c config.mode (after (setFailOverCacheConfig_ c config) v) := by
  unfold setFailOverCacheConfig_ setVolumeFailOverState newCache setFailOverCacheMode_
  rw [after_checkNotHalted_bind, if_neg (by simp [hh]), after_modify_bind, after_modify_bind, after_call_bind]
  -- up to the installation of the cache, a call that throws leaves the state written so far
  by_cases h1 : c.newCache = none
  swap
  · exact .inl ⟨fun h => h1 h.1, by rw [if_neg h1]; exact ⟨rfl, rfl⟩⟩
  rw [if_pos h1, after_modify_bind, after_call_bind]
  by_cases h2 : c.writeFailOverCacheConfigToBackend_ = none
  swap
  · exact .inl ⟨fun h => h2 h.2.1, by rw [if_neg h2]; exact ⟨rfl, rfl⟩⟩
  rw [if_pos h2, after_modify_bind, after_call_bind]
  by_cases h3 : c.FailOverCacheProxy = none
  swap
  · exact .inl ⟨fun h => h3 h.2.2.1, by rw [if_neg h3]; exact ⟨rfl, rfl⟩⟩
  rw [if_pos h3, after_modify_bind]
  exact after_useNewCache rfl rfl rfl rfl rfl h1 h2 h3

theorem after_setNoFailOverCache_ (hh : v.halted_ = false) :
    (after (setNoFailOverCache_ c) v).failoverstate_ ≠ .OK_SYNC ∧
      (after (setNoFailOverCache_ c) v).last_tlog_not_on_failover_ = none := by
  unfold setNoFailOverCache_ setVolumeFailOverState newCache
  rw [after_checkNotHalted_bind, if_neg (by simp [hh]), after_modify_bind, after_modify_bind, after_call_bind]
  by_cases h1 : c.newCache = none
  swap
  · rw [if_neg h1]; exact ⟨by simp, rfl⟩
  rw [if_pos h1, after_modify_bind, after_call_bind]
  by_cases h2 : c.writeFailOverCacheConfigToBackend_ = none
  · rw [if_pos h2, after_modify]; exact ⟨by simp, rfl⟩
  · rw [if_neg h2]; exact ⟨by simp, rfl⟩

theorem after_halted {o : Option FailOverCacheConfig} (hh : v.halted_ = true) :
    after (setFailOverCacheConfig c o) v = v := by
  cases o with
  | none | some => exact (after_checkNotHalted_bind _ v).trans (if_pos hh)

/-- The periodic repair does what configuring the stored DTL again does. -/
theorem after_check_and_fix : after (check_and_fix_failovercache c) v =
      if v.failoverstate_ = .DEGRADED then after (setFailOverCacheConfig c v.foc_config_wrapper_) v else v := by
  unfold check_and_fix_failovercache
  rw [after_get_bind]
  split
  · cases h : setFailOverCacheConfig c v.foc_config_wrapper_ v with
    | ok u v' => rw [after_ok (run_tryCatch h), after_ok h]
    | error e v' => rw [after_ok ((run_tryCatch_error h).trans rfl), after_error h]
  · rfl

/-! ## A volume never reports a broken DTL to be in sync -/

/-- `OK_SYNC` is only reported for a DTL that did not fail since it was installed. -/
def Truthful (v : FailOver) : Prop := v.failoverstate_ = .OK_SYNC → v.broken = false

/-- The actions that (try to) configure or remove the DTL. -/
def Action.configures : Action → Bool
  | .setFailOverCacheConfig_ .. | .setNoFailOverCache_ _ | .check_and_fix_failovercache _ => true
  | .dtlFailure | .checkState _ => false

/-- A step keeps the report truthful, and leads out of `DEGRADED` only by configuring the DTL. -/
def SoundStep (v : FailOver) (a : Action) : Prop :=
  Truthful (step v a) ∧
    (v.failoverstate_ = .DEGRADED → a.configures = false → (step v a).failoverstate_ = .DEGRADED)

/-- A configuration sets the state to `OK_SYNC` after the bridge noticed the failure of the new cache. -/
def Calls.overtakes (c : Calls) (mode : FailOverCacheMode) : Prop :=
  c.reaches mode ∧ c.fails mode ∧ c.allOnBackend

/-- The steps that do not overtake a failure: the TLog a volume waits for does not reach the
backend while the DTL is broken, and no configuration overtakes the failure of its own cache. -/
def Timely (v : FailOver) : Action → Prop
  | .setFailOverCacheConfig_ c config => v.halted_ = false → ¬ c.overtakes config.mode
  | .setNoFailOverCache_ _ => True
  | .check_and_fix_failovercache c =>
    v.failoverstate_ = .DEGRADED → v.halted_ = false → ∀ config, v.foc_config_wrapper_ = some config →
      ¬ c.overtakes config.mode
  | .dtlFailure => True
  | .checkState t => v.broken = true → v.last_tlog_not_on_failover_ ≠ some t

/-- What holds between the steps: a degraded volume that still waits for a TLog has a broken DTL. -/
structure Consistent (v : FailOver) : Prop where
  truthful : Truthful v
  waiting : v.failoverstate_ = .DEGRADED → v.last_tlog_not_on_failover_ ≠ none → v.broken = true

theorem configured_truthful (h : Configured c mode v) : Truthful v ↔ ¬ c.overtakes mode := by
  rcases h with ⟨hn, hd, -⟩ | ⟨hr, hb, hs⟩
  · refine iff_of_true (fun h => ?_) fun h => hn h.1
    rw [hd] at h; cases h
  · unfold Truthful Calls.overtakes
    rw [hs, Calls.verdict]
    by_cases ha : c.allOnBackend
    · simp [hr, ha, ← hb]
    · simp [ha]

theorem configured_consistent (h : Configured c mode v) (ht : Truthful v) : Consistent v := by
  refine ⟨ht, fun hd hl => ?_⟩
  rcases h with ⟨-, -, hn⟩ | ⟨-, -, hs⟩
  · exact absurd hn hl
  · rw [hs, Calls.verdict] at hd
    split at hd <;> cases hd

theorem halted_or_configured (c : Calls) (config : FailOverCacheConfig) (v : FailOver) :
    (v.halted_ = true ∧ after (setFailOverCacheConfig_ c config) v = v) ∨
    (v.halted_ = false ∧ Configured c config.mode (after (setFailOverCacheConfig_ c config) v)) := by
  cases hh : v.halted_ with
  | true => exact .inl ⟨rfl, after_halted (o := some config) hh⟩
  | false => exact .inr ⟨rfl, after_setFailOverCacheConfig_ hh⟩

theorem configure_iff (hv : Consistent v) (c : Calls) (config : FailOverCacheConfig) :
    (Truthful (after (setFailOverCacheConfig_ c config) v) ↔ (v.halted_ = false → ¬ c.overtakes config.mode)) ∧
      (Truthful (after (setFailOverCacheConfig_ c config) v) →
        Consistent (after (setFailOverCacheConfig_ c config) v)) := by
  rcases halted_or_configured c config v with ⟨hh, he⟩ | ⟨hh, hc⟩
  · rw [he, hh]
    exact ⟨iff_of_true hv.truthful (by simp), fun _ => hv⟩
  · rw [configured_truthful hc, hh]
    exact ⟨by simp, fun h => configured_consistent hc ((configured_truthful hc).2 h)⟩

theorem unconfigure_consistent (hv : Consistent v) (c : Calls) : Consistent (after (setNoFailOverCache_ c) v) := by
  cases hh : v.halted_ with
  | true =>
    have he : after (setNoFailOverCache_ c) v = v := after_halted (o := none) hh
    rw [he]; exact hv
  | false =>
    obtain ⟨hs, hl⟩ := after_setNoFailOverCache_ (c := c) hh
    exact ⟨fun h => absurd h hs, fun _ h => absurd hl h⟩

/-- What one step does to a consistent volume, as an exact condition. -/
theorem soundStep_iff (hv : Consistent v) (a : Action) :
    (SoundStep v a ↔ Timely v a) ∧ (Timely v a → Consistent (step v a)) := by
  cases a with
  | setFailOverCacheConfig_ c config =>
    obtain ⟨h1, h2⟩ := configure_iff hv c config
    refine ⟨⟨fun h => h1.1 h.1, fun h => ⟨h1.2 h, fun _ ha => by cases ha⟩⟩, fun h => h2 (h1.2 h)⟩
  | setNoFailOverCache_ c =>
    have hc := unconfigure_consistent hv c
    exact ⟨iff_of_true ⟨hc.truthful, fun _ ha => by cases ha⟩ trivial, fun _ => hc⟩
  | check_and_fix_failovercache c =>
    have hs : step v (.check_and_fix_failovercache c) = _ := after_check_and_fix
    unfold SoundStep Timely
    rw [hs]
    by_cases hd : v.failoverstate_ = .DEGRADED
    · rw [if_pos hd]
      cases hf : v.foc_config_wrapper_ with
      | none =>
        have hc := unconfigure_consistent hv c
        exact ⟨iff_of_true ⟨hc.truthful, fun _ ha => by cases ha⟩ (by simp), fun _ => hc⟩
      | some config =>
        obtain ⟨h1, h2⟩ := configure_iff hv c config
        refine ⟨⟨fun h _ hh config' he => ?_, fun h => ⟨h1.2 fun hh => h hd hh config rfl, fun _ ha => by cases ha⟩⟩,
          fun h => h2 (h1.2 fun hh => h hd hh config rfl)⟩
        cases he
        exact h1.1 h.1 hh
    · rw [if_neg hd]
      exact ⟨iff_of_true ⟨hv.truthful, fun h => absurd h hd⟩ fun h => absurd h hd, fun _ => hv⟩
  | dtlFailure =>
    refine ⟨iff_of_true ⟨fun h => ?_, fun _ _ => rfl⟩ trivial, fun _ => ⟨fun h => ?_, fun _ _ => rfl⟩⟩
    · cases h
    · cases h
  | checkState t =>
    have hs : step v (.checkState t) =
        if v.last_tlog_not_on_failover_ = some t then { v with failoverstate_ := .OK_SYNC } else v := by
      show after (checkState t) v = _
      unfold checkState
      rw [after_get_bind]
      split <;> rfl
    unfold SoundStep Timely
    rw [hs]
    by_cases hl : v.last_tlog_not_on_failover_ = some t
    · rw [if_pos hl]
      -- the callback for the awaited TLog: sound exactly when the DTL is not broken
      cases hb : v.broken with
      | true =>
        have hn : ¬ (true = true → v.last_tlog_not_on_failover_ ≠ some t) := fun h => h rfl hl
        refine ⟨iff_of_false (fun h => ?_) hn, fun h => absurd h hn⟩
        cases h.1 rfl
      | false =>
        have hnd : v.failoverstate_ ≠ .DEGRADED := fun hd => by
          have := hv.waiting hd (by simp [hl])
          rw [hb] at this; cases this
        exact ⟨iff_of_true ⟨fun _ => rfl, fun hd => absurd hd hnd⟩ (by simp),
          fun _ => ⟨fun _ => rfl, fun h => by cases h⟩⟩
    · rw [if_neg hl]
      exact ⟨iff_of_true ⟨hv.truthful, fun h _ => h⟩ fun _ => hl, fun _ => hv⟩

/-- A volume that is not waiting for a TLog, as after its construction and every kind of start,
reports `OK_SYNC` only for an unbroken DTL and leaves `DEGRADED` only by a configuration, along
exactly the runs in which no step overtakes a DTL failure. -/
theorem never_ok_sync_when_broken_iff {v : FailOver} (hl : v.last_tlog_not_on_failover_ = none) (ht : Truthful v)
    (as : List Action) : Each step SoundStep v as ↔ Each step Timely v as :=
  each_iff Consistent (fun _ a hv => (soundStep_iff hv a).1) (fun _ a hv => (soundStep_iff hv a).2)
    ⟨ht, fun _ h => absurd hl h⟩

namespace Sample

/-- A DTL. -/
def config : FailOverCacheConfig := ⟨"dtl", 23096, .Asynchronous⟩

/-- A configuration at a time when the current TLog 7 holds data. -/
def calls : Calls := { getTLogsNotWrittenToBackend := [7], getCurrentTLogId := 7, currentTLogHasData := true }

/-- Catching up, noticing a failure, and only then hearing that the awaited TLog is on the backend. -/
def overtaken : List Action := [.setFailOverCacheConfig_ calls config, .dtlFailure, .checkState 7]

/-- The same with the repair in between. -/
def repaired : List Action :=
  [.setFailOverCacheConfig_ calls config, .dtlFailure, .check_and_fix_failovercache calls, .checkState 7]

end Sample

open Sample

theorem never_ok_sync_when_broken_repaired :
    Each step SoundStep {} repaired ∧ (runs step {} repaired).failoverstate_ = .OK_SYNC := by
  have hcalls : ∀ mode, ¬ calls.overtakes mode := fun _ h => absurd h.2.2 (by decide)
  refine ⟨(never_ok_sync_when_broken_iff rfl (fun h => by cases h) repaired).2 ?_, by decide⟩
  exact ⟨fun _ => hcalls _, trivial, fun _ _ config _ => hcalls config.mode, fun h => absurd h (by decide), trivial⟩

/-- A new volume, a DTL that fails while the volume catches up: once the awaited TLog is on the
backend the volume is back from `DEGRADED` in `OK_SYNC`, with a broken DTL and no repair. -/
theorem ok_sync_although_broken :
    (runs step {} (overtaken.take 2)).failoverstate_ = .DEGRADED ∧
    (runs step {} overtaken).failoverstate_ = .OK_SYNC ∧ (runs step {} overtaken).broken = true ∧
    ¬ Each step SoundStep {} overtaken := by
  refine ⟨by decide, by decide, by decide, fun he => ?_⟩
  have hlast : Truthful (runs step {} overtaken) := he.2.2.1.1
  exact absurd (hlast (by decide)) (by decide)

end FailOver

end VolumeDriver
