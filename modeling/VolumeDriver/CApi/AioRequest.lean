/-
One asynchronous request of the C API: the thread that completes it (`handle_xio_request`,
`handle_shm_request`) against the calls of its user (`ovs_aio_error`, `ovs_aio_suspend`,
`ovs_aio_return`, `ovs_aio_finish`). A step is what the source does atomically: a store, a
compare-and-swap, or a section under the request's mutex. Stores are seen in program order.
-/
import VolumeDriver.Lib.Steps
import VolumeDriver.Lib.Bytes
import Mathlib.Tactic.Common

namespace VolumeDriver.CApi

open Lib

/-! ## The request and the calls on it -/

/-- A wait timed out. -/
def ETIMEDOUT : Int := 110

/-- The request is under way. -/
def EINPROGRESS : Int := 115

/-- The request was cancelled. -/
def ECANCELED : Int := 125

/-- The conversion of an `ssize_t` to an `int`. -/
def int32 (n : Int) : Int := n.bmod (2 ^ 32)

theorem int32_eq_self {n : Int} (hlo : -2 ^ 31 ≤ n) (hhi : n < 2 ^ 31) : int32 n = n := by
  unfold int32
  rw [Int.bmod_eq_of_le] <;> omega

/-- `ovs_aio_request`, with the fields that its completion and the calls read or write. -/
structure Request where
  on_suspend : Bool := false
  canceled : Bool := false
  completed : Bool := false
  signaled : Bool := false
  failed : Bool := false
  errno : Int := 0
  rv : Int := 0
  deriving DecidableEq, Repr

/-- What the server delivers: the arguments of `xio_complete` and of `shm_complete`. -/
inductive Delivery
  | xio (retval errval : Int)
  | shm (errval : Int) (ret : Nat) (failed : Bool)
  deriving DecidableEq, Repr

namespace Delivery

/-- What is stored in `_errno`. -/
def errval : Delivery → Int
  | xio _ errval => errval
  | shm errval _ _ => errval

/-- What is stored in `_rv`. -/
def rv : Delivery → Int
  | xio retval _ => retval
  | shm _ ret _ => int64 ret

/-- What is stored in `_failed`. -/
def failed : Delivery → Bool
  | xio retval _ => retval == -1
  | shm _ _ failed => failed

/-- The result of the operation, as the server gives it. -/
def result (d : Delivery) : Int := if d.failed then -1 else d.rv

end Delivery

/-- `ovs_aio_error`. -/
def Request.ovs_aio_error (r : Request) : Int :=
  if r.canceled then ECANCELED
  else if r.completed then if r.failed then r.errno else 0
  else EINPROGRESS

/-- `ovs_aio_return`: the value, which goes through a variable of type `int`, and `errno`. -/
def Request.ovs_aio_return (r : Request) : Int × Int :=
  (int32 (if r.failed then -1 else r.rv), r.errno)

/-- Where the completing thread is: before its first store, with the result stored, with `_completed`
set, in `try_wake_up_suspended_aiocb` after its compare-and-swap has failed, after the wake-up, and out
of the handler. -/
inductive Completer
  | idle | stored | marked | losing | woken | done
  deriving DecidableEq, Repr

/-- Past the wake-up. -/
def Completer.past : Completer → Bool
  | woken | done => true
  | _ => false

/-- A call of `ovs_aio_suspend` that won the compare-and-swap: it is about to look at `_signaled`, or it
is blocked in `pthread_cond_wait` (`pthread_cond_timedwait`, with a timeout). -/
structure Call where
  timeout : Bool
  blocked : Bool
  deriving DecidableEq, Repr

/-- `pthread_cond_signal`: one blocked thread goes on. -/
def signal : List Call → List Call
  | [] => []
  | c :: cs => if c.blocked then { c with blocked := false } :: cs else c :: signal cs

/-- The request with the thread that completes it and the calls that are under way. `completion` says
that the request was made with a completion object. `suspended` and `polled` record that a call of
`ovs_aio_suspend` has returned 0 and that one of `ovs_aio_error` has returned something else than
`EINPROGRESS`; `freed` that `ovs_aio_finish` has deleted the request. -/
structure State where
  delivery : Delivery
  completion : Bool
  request : Request := {}
  completer : Completer := .idle
  calls : List Call := []
  suspended : Bool := false
  polled : Bool := false
  freed : Bool := false
  deriving DecidableEq, Repr

/-- The user has been told that the request is complete. -/
def State.told (s : State) : Bool := s.suspended || s.polled

/-! ## Steps -/

/-- The next step of `handle_xio_request` and `handle_shm_request`, for any other operation than
`AsyncFlush` (whose control block the user never sees). -/
def State.complete (s : State) : State :=
  match s.completer with
  | .idle =>
    { s with
      request := { s.request with errno := s.delivery.errval, rv := s.delivery.rv, failed := s.delivery.failed }
      completer := .stored }
  | .stored => { s with request := { s.request with completed := true }, completer := .marked }
  -- `try_wake_up_suspended_aiocb`
  | .marked =>
    if s.request.on_suspend then { s with completer := .losing }
    else { s with request := { s.request with on_suspend := true }, completer := .woken }
  | .losing =>
    { s with request := { s.request with signaled := true }, calls := signal s.calls, completer := .woken }
  -- `set_completion` and `is_async_flush`, if there is a completion object
  | .woken => { s with completer := .done }
  | .done => s

/-- The next step of the completing thread reads or writes the request. -/
def State.touches (s : State) : Bool :=
  match s.completer with
  | .woken => s.completion
  | .done => false
  | _ => true

/-- `complete` is a step of the completing thread. A call of `ovs_aio_suspend` starts with its
compare-and-swap; `check i` is its test of `_signaled`, `wake i` its return from the condition variable
and `expire i r` the return from `pthread_cond_timedwait` with an error. -/
inductive Action
  | complete
  | ovs_aio_error
  | ovs_aio_suspend (timeout : Bool)
  | check (i : Nat)
  | wake (i : Nat)
  | expire (i : Nat) (r : Int)
  | ovs_aio_return
  | ovs_aio_finish
  deriving DecidableEq, Repr

/-- What a call returns to the user. -/
inductive Outcome
  | error (r : Int)
  | suspend (r : Int)
  | ret (r errno : Int)
  deriving DecidableEq, Repr

/-- One step and the call that it ends, if any. The user asks for the result and frees the request once
it was told that the request is complete, makes no call afterwards and frees it when no call is under
way. -/
def perform (s : State) : Action → State × Option Outcome
  | .complete => (s.complete, none)
  | .ovs_aio_error =>
    if s.freed then (s, none)
    else
      ({ s with polled := s.polled || s.request.ovs_aio_error != EINPROGRESS }, some (.error s.request.ovs_aio_error))
  | .ovs_aio_suspend timeout =>
    if s.freed then (s, none)
    else if s.request.on_suspend then ({ s with suspended := true }, some (.suspend 0))
    else ({ s with request := { s.request with on_suspend := true }, calls := ⟨timeout, false⟩ :: s.calls }, none)
  | .check i =>
    match s.calls[i]? with
    | some ⟨timeout, false⟩ =>
      if s.request.signaled then ({ s with calls := s.calls.eraseIdx i, suspended := true }, some (.suspend 0))
      else ({ s with calls := s.calls.set i ⟨timeout, true⟩ }, none)
    | _ => (s, none)
  | .wake i =>
    match s.calls[i]? with
    | some ⟨timeout, true⟩ => ({ s with calls := s.calls.set i ⟨timeout, false⟩ }, none)
    | _ => (s, none)
  | .expire i r =>
    match s.calls[i]? with
    | some ⟨true, true⟩ =>
      if r = 0 then (s, none)
      else ({ s with calls := s.calls.eraseIdx i }, some (.suspend (if r = ETIMEDOUT then -1 else r)))
    | _ => (s, none)
  | .ovs_aio_return =>
    if s.told && !s.freed then (s, some (.ret s.request.ovs_aio_return.1 s.request.ovs_aio_return.2)) else (s, none)
  | .ovs_aio_finish =>
    if s.told && !s.freed && s.calls.isEmpty then ({ s with freed := true }, none) else (s, none)

/-- The state after a step. -/
def step (s : State) (a : Action) : State := (perform s a).1

/-! ## What the pattern asks for, and when -/

/-- Every call under way sees the signal when it looks for it next, and none is blocked. -/
def State.Awake (s : State) : Prop := ∀ c ∈ s.calls, c.blocked = false ∧ s.request.signaled = true

/-- What the user of the calls relies on, for one step: a call of `ovs_aio_suspend` returns 0 only if the
request is complete; once it is, two more steps of the completing thread release every call that waits;
`ovs_aio_return` yields what the server delivered; and the completing thread leaves a freed request
alone. -/
structure Posix (s : State) (a : Action) : Prop where
  suspend : (perform s a).2 = some (.suspend 0) → s.request.completed = true
  wakes : s.request.completed = true → s.complete.complete.Awake
  result : ∀ r errno, (perform s a).2 = some (.ret r errno) → r = s.delivery.result ∧ errno = s.delivery.errval
  alone : a = .complete → s.freed = true → s.touches = false

/-- The delivered result fits in an `int`; no call of `ovs_aio_suspend` is made after an earlier one that
waits or has timed out, as long as the completing thread has not been through its wake-up; and the request
is freed after a call of `ovs_aio_suspend` that returned 0 (not only after `ovs_aio_error`) if it has no
completion object, or else when the completing thread has no more access to it to make. -/
def State.careful (s : State) : Action → Bool
  | .ovs_aio_suspend _ => !s.request.on_suspend || s.completer.past
  | .ovs_aio_return => decide (-2 ^ 31 ≤ s.delivery.result) && decide (s.delivery.result < 2 ^ 31)
  | .ovs_aio_finish => (s.suspended && !s.completion) || !s.touches
  | _ => true

/-- The step is one of a careful user. -/
def Careful (s : State) (a : Action) : Prop := s.careful a = true

instance (s : State) (a : Action) : Decidable (Careful s a) := inferInstanceAs (Decidable (_ = true))

/-! ## The invariant -/

/-- `_completed` is set. -/
def Completer.completed : Completer → Bool
  | idle | stored => false
  | _ => true

/-- The flag `_on_suspend` lets in one call at most, before the completing thread has been through its
compare-and-swap; a call that is let in later has nothing to wait for. -/
structure Inv (s : State) : Prop where
  canceled : s.request.canceled = false
  stored : s.completer ≠ .idle → s.request.errno = s.delivery.errval ∧ s.request.rv = s.delivery.rv ∧
    s.request.failed = s.delivery.failed
  completed : s.request.completed = s.completer.completed
  swapped : s.completer = .losing ∨ s.completer.past = true → s.request.on_suspend = true
  fresh : s.request.on_suspend = false → s.calls = []
  one : s.calls.length ≤ 1
  signaled : s.request.signaled = true → s.completer.past = true
  awake : s.completer.past = true → s.Awake
  suspended : s.suspended = true → s.completer.past = true
  polled : s.polled = true → s.completer.completed = true
  freed : s.freed = true → s.touches = false

theorem Completer.completed_of_past {c : Completer} (h : c.past = true) : c.completed = true := by
  cases c <;> simp_all [Completer.past, Completer.completed]

theorem Completer.ne_idle_of_completed {c : Completer} (h : c.completed = true) : c ≠ .idle := by
  rintro rfl
  cases h

theorem signal_length : ∀ (cs : List Call), (signal cs).length = cs.length
  | [] => rfl
  | c :: cs => by
    unfold signal
    split
    · rfl
    · rw [List.length_cons, signal_length cs, List.length_cons]

theorem blocked_of_mem_signal {cs : List Call} (h : cs.length ≤ 1) : ∀ c ∈ signal cs, c.blocked = false := by
  match cs, h with
  | [], _ => simp [signal]
  | [c], _ =>
    cases hb : c.blocked <;> simp [signal, hb]

variable {a : Action}

/-- A call of `ovs_aio_suspend` returns 0 in two places: when its compare-and-swap fails and when it sees
the signal. A wait that failed returns something else. -/
theorem perform_suspend_zero {s : State} (hr : (perform s a).2 = some (.suspend 0)) :
    (∃ timeout, a = .ovs_aio_suspend timeout ∧ s.request.on_suspend = true) ∨ s.request.signaled = true := by
  unfold perform at hr
  cases a with
  | ovs_aio_suspend timeout =>
    dsimp only at hr
    split at hr
    · cases hr
    · split at hr
      · next hon => exact Or.inl ⟨timeout, rfl, hon⟩
      · cases hr
  | check i =>
    dsimp only at hr
    split at hr
    · split at hr
      · next hs => exact Or.inr hs
      · cases hr
    · cases hr
  | expire i r =>
    dsimp only at hr
    split at hr
    · split at hr
      · cases hr
      · simp only [Option.some.injEq, Outcome.suspend.injEq] at hr
        split at hr <;> omega
    · cases hr
  | complete => cases hr
  | wake i | ovs_aio_error | ovs_aio_return | ovs_aio_finish =>
    dsimp only at hr
    split at hr <;> cases hr

theorem perform_ret {s : State} {r errno : Int} (hr : (perform s a).2 = some (.ret r errno)) :
    a = .ovs_aio_return ∧ s.told = true ∧ r = s.request.ovs_aio_return.1 ∧ errno = s.request.ovs_aio_return.2 := by
  unfold perform at hr
  cases a with
  | ovs_aio_return =>
    dsimp only at hr
    split at hr
    · next ht =>
      cases hr
      exact ⟨rfl, (Bool.and_eq_true _ _ ▸ ht).1, rfl, rfl⟩
    · cases hr
  | complete => cases hr
  | wake i | ovs_aio_error | ovs_aio_finish =>
    dsimp only at hr
    split at hr <;> cases hr
  | ovs_aio_suspend timeout | check i | expire i r' =>
    dsimp only at hr
    split at hr <;> (try split at hr) <;> cases hr

namespace Inv

variable {s : State} (h : Inv s)

include h

theorem told_completed (ht : s.told = true) : s.completer.completed = true := by
  rcases Bool.or_eq_true _ _ ▸ ht with hs | hp
  · exact Completer.completed_of_past (h.suspended hs)
  · exact h.polled hp

/-- Another call may only be let in, or told that the request is complete, after the wake-up. -/
theorem not_past_of_fresh (hf : s.request.on_suspend = false) : s.completer.past = false :=
  Bool.eq_false_iff.2 fun hp => Bool.eq_false_iff.1 hf (h.swapped (Or.inr hp))

theorem not_freed (ht : s.touches = true) : s.freed = false :=
  Bool.eq_false_iff.2 fun hf => Bool.eq_false_iff.1 (h.freed hf) ht

theorem complete : Inv s.complete := by
  have hsig : s.completer.past = false → s.request.signaled = false := fun hp =>
    Bool.eq_false_iff.2 (mt h.signaled (Bool.eq_false_iff.1 hp))
  have hsus : s.completer.past = false → s.suspended = false := fun hp =>
    Bool.eq_false_iff.2 (mt h.suspended (Bool.eq_false_iff.1 hp))
  have hpol : s.completer.completed = false → s.polled = false := fun hp =>
    Bool.eq_false_iff.2 (mt h.polled (Bool.eq_false_iff.1 hp))
  unfold State.complete
  cases hc : s.completer with
  | idle =>
    have hf := h.not_freed (by simp [State.touches, hc])
    rw [hc] at hsig hsus hpol
    constructor <;> simp_all [Completer.past, Completer.completed, h.canceled, h.completed, h.one]
    exact h.fresh
  | stored =>
    have hf := h.not_freed (by simp [State.touches, hc])
    rw [hc] at hsig hsus hpol
    constructor <;> simp_all [Completer.past, Completer.completed, h.canceled, h.one, h.stored]
    exact h.fresh
  | marked =>
    have hf := h.not_freed (by simp [State.touches, hc])
    have hst := h.stored (by simp [hc])
    have hcompleted := h.completed
    rw [hc] at hsig hsus hcompleted
    dsimp only
    split
    · next hon => constructor <;> simp_all [Completer.past, Completer.completed, h.canceled, h.one]
    · next hon =>
      -- nobody waits: the flag was free
      have hcalls := h.fresh (by simpa using hon)
      constructor <;> simp_all [Completer.past, Completer.completed, h.canceled, State.Awake]
  | losing =>
    have hf := h.not_freed (by simp [State.touches, hc])
    have hst := h.stored (by simp [hc])
    have hcompleted := h.completed
    have hon := h.swapped (Or.inl hc)
    rw [hc] at hcompleted
    constructor
    case awake => exact fun _ c hmem => ⟨blocked_of_mem_signal h.one c hmem, rfl⟩
    case one => exact (signal_length s.calls).symm ▸ h.one
    all_goals simp_all [Completer.past, Completer.completed, h.canceled]
  | woken =>
    have hst := h.stored (by simp [hc])
    have hcompleted := h.completed
    have hon := h.swapped (Or.inr (by rw [hc]; rfl))
    have hawake := h.awake (by rw [hc]; rfl)
    constructor
    case awake => exact fun _ => hawake
    all_goals simp_all [Completer.past, Completer.completed, h.canceled, h.one, State.touches]
  | done => exact h

/-- A step of the user that leaves the completing thread's part of the request alone. -/
theorem user {on_suspend suspended polled freed : Bool} {calls : List Call}
    (hon : s.request.on_suspend = true → on_suspend = true) (hfresh : on_suspend = false → calls = [])
    (hone : calls.length ≤ 1)
    (hawake : s.completer.past = true → ∀ c ∈ calls, c.blocked = false ∧ s.request.signaled = true)
    (hsuspended : suspended = true → s.completer.past = true)
    (hpolled : polled = true → s.completer.completed = true) (hfreed : freed = true → s.touches = false) :
    Inv { s with
      request := { s.request with on_suspend := on_suspend }, calls := calls, suspended := suspended, polled := polled
      freed := freed } where
  canceled := h.canceled
  stored := h.stored
  completed := h.completed
  swapped hc := hon (h.swapped hc)
  fresh := hfresh
  one := hone
  signaled := h.signaled
  awake := hawake
  suspended := hsuspended
  polled := hpolled
  freed := hfreed

theorem calls_eq {i : Nat} {c : Call} (hi : s.calls[i]? = some c) : i = 0 ∧ s.calls = [c] := by
  have hlt : i < s.calls.length := (List.getElem?_eq_some_iff.1 hi).1
  have hone := h.one
  obtain rfl : i = 0 := by omega
  match hcalls : s.calls with
  | [] => simp [hcalls] at hlt
  | [d] => simp_all
  | _ :: _ :: _ => simp [hcalls] at hone

theorem step (ha : Careful s a) : Inv (step s a) := by
  unfold CApi.step perform
  cases a with
  | complete => exact h.complete
  | ovs_aio_error =>
    dsimp only
    split
    · exact h
    · refine h.user id h.fresh h.one h.awake h.suspended (fun hp => ?_) h.freed
      rcases Bool.or_eq_true _ _ ▸ hp with hp | hp
      · exact h.polled hp
      · -- the call has seen `_completed`
        by_contra hc
        simp [Request.ovs_aio_error, h.canceled, h.completed, hc] at hp
  | ovs_aio_suspend timeout =>
    unfold Careful State.careful at ha
    dsimp only
    split
    · exact h
    · split
      · next hon =>
        have hpast : s.completer.past = true := by simpa [hon] using ha
        exact h.user id h.fresh h.one h.awake (fun _ => hpast) h.polled h.freed
      · next hon =>
        have hfree : s.request.on_suspend = false := by simpa using hon
        have hcalls := h.fresh hfree
        refine h.user (fun _ => rfl) nofun ?_ (fun hp => ?_) h.suspended h.polled h.freed
        · simp [hcalls]
        · rw [h.not_past_of_fresh hfree] at hp
          cases hp
  | check i =>
    dsimp only
    split
    · next timeout hi =>
      obtain ⟨rfl, hcalls⟩ := h.calls_eq hi
      have hon : s.request.on_suspend = true := by
        by_contra hf
        simp [h.fresh (by simpa using hf)] at hcalls
      split
      · next hs =>
        refine h.user id (by simp [hon]) ?_ ?_ (fun _ => h.signaled hs) h.polled h.freed
        all_goals simp [hcalls]
      · next hs =>
        refine h.user id (by simp [hon]) ?_ (fun hp => ?_) h.suspended h.polled h.freed
        · simp [hcalls]
        · -- after the wake-up the signal is there
          exact absurd (h.awake hp _ (hcalls ▸ List.mem_singleton_self _)).2 hs
    · exact h
  | wake i =>
    dsimp only
    split
    · next timeout hi =>
      obtain ⟨rfl, hcalls⟩ := h.calls_eq hi
      refine h.user id (fun hf => ?_) ?_ (fun hp => ?_) h.suspended h.polled h.freed
      · simp [h.fresh hf] at hcalls
      · simp [hcalls]
      · have := (h.awake hp _ (hcalls ▸ List.mem_singleton_self _)).1
        cases this
    · exact h
  | expire i r =>
    dsimp only
    split
    · next hi =>
      obtain ⟨rfl, hcalls⟩ := h.calls_eq hi
      split
      · exact h
      · refine h.user id ?_ ?_ ?_ h.suspended h.polled h.freed
        all_goals simp [hcalls]
    · exact h
  | ovs_aio_return =>
    dsimp only
    split <;> exact h
  | ovs_aio_finish =>
    unfold Careful State.careful at ha
    dsimp only
    split
    · refine h.user id h.fresh h.one h.awake h.suspended h.polled fun _ => ?_
      rcases Bool.or_eq_true _ _ ▸ ha with hs | ht
      · rw [Bool.and_eq_true, Bool.not_eq_true'] at hs
        have hpast := h.suspended hs.1
        cases hc : s.completer <;> simp_all [Completer.past, State.touches]
      · simpa using ht
    · exact h

theorem wakes (hc : s.request.completed = true) : s.complete.complete.Awake := by
  refine h.complete.complete.awake ?_
  rw [h.completed] at hc
  unfold State.complete
  cases hs : s.completer with
  | idle | stored =>
    rw [hs] at hc
    cases hc
  | marked =>
    by_cases hon : s.request.on_suspend = true <;> simp [hon, Completer.past]
  | losing | woken | done => simp [Completer.past, hs]

theorem posix (ha : Careful s a) : Posix s a := by
  constructor
  · intro hr
    rw [h.completed]
    apply Completer.completed_of_past
    rcases perform_suspend_zero hr with ⟨timeout, rfl, hon⟩ | hs
    · simpa [Careful, State.careful, hon] using ha
    · exact h.signaled hs
  · exact h.wakes
  · intro r errno hr
    obtain ⟨rfl, ht, rfl, rfl⟩ := perform_ret hr
    obtain ⟨herrno, hrv, hfailed⟩ := h.stored (Completer.ne_idle_of_completed (h.told_completed ht))
    unfold Careful State.careful at ha
    rw [Bool.and_eq_true, decide_eq_true_eq, decide_eq_true_eq] at ha
    constructor
    · show int32 (if s.request.failed then -1 else s.request.rv) = _
      rw [hfailed, hrv]
      exact int32_eq_self ha.1 ha.2
    · exact herrno
  · exact fun _ hf => h.freed hf

end Inv

/-! ## Runs -/

theorem Inv.init (delivery : Delivery) (completion : Bool) :
    Inv { delivery := delivery, completion := completion } := by
  constructor <;> simp [Completer.completed, Completer.past]

/-- In every interleaving of the completion of a request with the calls of a careful user, every step
keeps to the pattern of the POSIX calls. -/
theorem careful_use_posix (delivery : Delivery) (completion : Bool) (as : List Action)
    (has : Each step Careful { delivery := delivery, completion := completion } as) :
    Each step Posix { delivery := delivery, completion := completion } as :=
  each_imp Inv (fun _ _ h ha => ⟨h.posix ha, h.step ha⟩) (Inv.init delivery completion) has

/-- A user waits, is woken up, asks for the result and frees the request, while the completing thread has
not left its handler yet. -/
theorem suspended_then_finished :
    Each step Posix { delivery := .xio 4096 0, completion := false }
      [.ovs_aio_error, .ovs_aio_suspend true, .check 0, .complete, .complete, .complete, .wake 0, .check 0, .complete,
        .wake 0, .check 0, .ovs_aio_return, .ovs_aio_finish, .complete] :=
  careful_use_posix _ _ _ (by decide +kernel)

/-- The first call times out before the request is complete; the second one returns 0 at once, and the
user takes the initial value of `_rv` for the result. -/
theorem second_suspend_returns_zero :
    let s := runs step { delivery := .xio 4096 0, completion := false }
      [.ovs_aio_suspend true, .check 0, .expire 0 ETIMEDOUT]
    let s' := step s (.ovs_aio_suspend true)
    (perform s (.ovs_aio_suspend true)).2 = some (.suspend 0) ∧ s.request.completed = false ∧
      (perform s' .ovs_aio_return).2 = some (.ret 0 0) ∧ s.delivery.result = 4096 := by
  decide +kernel

/-- A user that polls may free the request before the completing thread's compare-and-swap. -/
example :
    let s := runs step { delivery := .xio 4096 0, completion := false }
      [.complete, .complete, .ovs_aio_error, .ovs_aio_return, .ovs_aio_finish]
    s.freed = true ∧ s.touches = true := by
  decide +kernel

/-- A result of 2 GiB comes out negative. -/
example :
    let s := runs step { delivery := .xio (2 ^ 31) 0, completion := false }
      [.complete, .complete, .complete, .complete, .ovs_aio_suspend false]
    (perform s .ovs_aio_return).2 = some (.ret (-2 ^ 31) 0) := by
  decide +kernel

end VolumeDriver.CApi
