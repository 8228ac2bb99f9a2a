/-
Reading the DTL back: `FailOverCacheProtocol::getEntries_` and `getSCO_` on the server, which
stream the entries and end the stream with a null location from a scope guard, and
`FailOverCacheProxy::getObject_` on the client, which reads entries up to that location. Corks
only say which bytes are sent together; they carry no data and are left out.
-/
import VolumeDriver.Dtl.Backend
import VolumeDriver.Dtl.Stream
import Mathlib.Data.List.TakeWhile

namespace VolumeDriver

open Lib Read

namespace Transfer

/-! ## The server -/

/-- What was sent to the client, and how many more entries the backend reads before it fails. -/
structure Conn where
  stream_ : Bytes := []
  budget : Option Nat := none
  deriving DecidableEq, Repr

/-- Calls of the server. -/
abbrev S := EStateM Exn Conn

/-- Sends bytes to the client. -/
def send (bs : Bytes) : S Unit := modify fun c => { c with stream_ := c.stream_ ++ bs }

/-- What is sent of an entry: location, address, and the data with their length. -/
def putEntry (e : CacheEntry) : Bytes :=
  Put.clusterLocation e.cli_ ++ (toLE 8 e.lba_ ++ (toLE 8 e.data.length ++ e.data))

/-- `ClusterLocation end_cli`. -/
def end_cli : ClusterLocation := ⟨⟨0, 0, 0⟩, 0⟩

/-- The backend throws here if its time has come. -/
def backendFails : S Unit := do
  if (← get).budget = some 0 then
    throw (.ioException "Backend")

/-- The backend hands an entry to `processFailOverCacheEntry_`. -/
def processFailOverCacheEntry_ (e : CacheEntry) : S Unit := do
  send (putEntry e)
  modify fun c => { c with budget := c.budget.map (· - 1) }
  backendFails

/-- The scope guard: the null location is sent whether the streaming returned or threw. -/
def withEof (body : S Unit) : S Unit := do
  try
    body
  catch e =>
    send (Put.clusterLocation end_cli)
    throw e
  send (Put.clusterLocation end_cli)

/-- The two requests for entries. -/
inductive Request
  | getEntries
  | getSCO (sconame : SCO)
  deriving DecidableEq, Repr

variable (b : Backend)

/-- How a request is served. -/
def handle : Request → S Unit
  | .getEntries => withEof (b.getEntries backendFails processFailOverCacheEntry_)
  | .getSCO sconame => withEof (b.getSCO backendFails processFailOverCacheEntry_ sconame)

/-- `NotOk` of the protocol's answers. -/
def NotOk : Nat := 8

/-- `FailOverCacheProtocol::run`: an exception of a command ends the thread with a last answer. -/
def run (r : Request) : S Unit := do
  try
    handle b r
  catch _ =>
    send (toLE 4 NotOk)

/-! ## The client -/

/-- What the server sent and was not read yet, and the entries the processor was called with. -/
structure Client where
  stream_ : Bytes
  processed : List CacheEntry := []
  deriving DecidableEq, Repr

/-- Calls of the client. -/
abbrev C := EStateM Exn Client

/-- Reads from the answer. -/
def recv {α : Type} (m : Read α) : C α := fun c =>
  match m c.stream_ with
  | .ok (a, rest) => .ok a { c with stream_ := rest }
  | .error e => .error e c

/-- An entry after its location. -/
def readEntry (cli : ClusterLocation) : Read CacheEntry := do
  let lba ← unsigned 8
  let bal ← long
  let data ← bytes (uint64 bal % 2 ^ 32)
  pure ⟨cli, lba, data⟩

/-- The loop of `getObject_`, for at most as many entries as `fuel` says. -/
def entriesUpToNull : Nat → Nat → C Nat
  | 0, _ => throw (.ioException "Socket::read")
  | fuel + 1, ret => do
    let cli ← recv clusterLocation
    if cli.isNull then
      pure ret
    else
      let e ← recv (readEntry cli)
      modify fun c => { c with processed := c.processed ++ [e] }
      entriesUpToNull fuel (ret + e.data.length)

/-- `FailOverCacheProxy::getObject_`. Each turn of its loop reads at least 8 bytes, so there are
fewer turns than bytes. -/
def getObject_ : C Nat := do
  let c ← get
  entriesUpToNull (c.stream_.length + 1) 0

/-! ## What the server sends -/

variable (es : List CacheEntry)

/-- The entries as they are sent. -/
def putEntries : Bytes := es.flatMap putEntry

/-- The entries that get through before the backend fails. -/
def cut : Option Nat → List CacheEntry → List CacheEntry
  | none, es => es
  | some k, es => es.take k

/-- How streaming `es` ends: the budget is used up on the way, or what is left of it is kept. -/
def outcome (c : Conn) : EStateM.Result Exn Conn Unit :=
  match c.budget with
  | none => .ok () { c with stream_ := c.stream_ ++ putEntries es }
  | some k =>
    if k ≤ es.length then .error (.ioException "Backend") ⟨c.stream_ ++ putEntries (es.take k), some 0⟩
    else .ok () ⟨c.stream_ ++ putEntries es, some (k - es.length)⟩

/-- The program streams `es`, unless the backend has failed before. -/
def Streams (m : S Unit) : Prop := ∀ c, c.budget ≠ some 0 → m c = outcome es c

theorem streams_nil : Streams [] (pure ()) := by
  rintro ⟨out, _ | k⟩ hc
  · show EStateM.Result.ok () _ = EStateM.Result.ok () _
    simp [putEntries]
  · have hk : ¬ k ≤ 0 := by rintro h; exact hc (by simp at h; rw [h])
    show EStateM.Result.ok () _ = ite (k ≤ 0) _ _
    rw [if_neg hk]
    simp [putEntries]

theorem streams_entry (e : CacheEntry) : Streams [e] (processFailOverCacheEntry_ e) := by
  rintro ⟨out, _ | k⟩ hc
  · show EStateM.Result.ok () _ = EStateM.Result.ok () _
    simp [putEntries]
  · obtain _ | _ | k := k
    · exact absurd rfl hc
    · show EStateM.Result.error _ _ = EStateM.Result.error _ _
      simp [putEntries]
    · show EStateM.Result.ok () _ = outcome [e] _
      simp [outcome, putEntries]

theorem Streams.append {es es' : List CacheEntry} {m m' : S Unit} (hm : Streams es m) (hm' : Streams es' m') :
    Streams (es ++ es') (m >>= fun _ => m') := by
  rintro ⟨out, _ | k⟩ hc
  · rw [run_bind (hm _ hc), hm' _ (by simp)]
    simp [outcome, putEntries]
  · have h := hm _ hc
    by_cases hk : k ≤ es.length
    · -- the first program already throws
      simp only [outcome, if_pos hk] at h
      show EStateM.bind m _ _ = _
      unfold EStateM.bind
      rw [h]
      have hk' : k ≤ (es ++ es').length := by rw [List.length_append]; omega
      simp only [outcome, if_pos hk', List.take_append_of_le_length hk]
    · simp only [outcome, if_neg hk] at h
      rw [run_bind h, hm' _ (by simp; omega)]
      simp only [outcome, List.length_append]
      by_cases hk' : k - es.length ≤ es'.length
      · have hes : es.take k = es := List.take_of_length_le (by omega)
        rw [if_pos hk', if_pos (by omega), List.take_append, hes]
        simp [putEntries]
      · rw [if_neg hk', if_neg (by omega), Nat.sub_sub]
        simp [putEntries]

theorem streams_forM {α : Type} {f : α → S Unit} {g : α → List CacheEntry} (h : ∀ a, Streams (g a) (f a)) :
    ∀ l : List α, Streams (l.flatMap g) (l.forM f)
  | [] => streams_nil
  | a :: l => by
    rw [List.flatMap_cons]
    exact (h a).append (streams_forM h l)

theorem streams_get_entries : Streams es (Backend.get_entries processFailOverCacheEntry_ es) := by
  have h := streams_forM streams_entry es
  rwa [List.flatMap_singleton'] at h

/-- The entries a request asks for. -/
def requested : Request → List CacheEntry
  | .getEntries => b.entries
  | .getSCO sconame => ((b.scos.find? (·.1 = sconame)).map (·.2)).getD []

/-- However the program ends, it has sent the entries the backend could read. -/
def Serves (m : S Unit) : Prop :=
  ∀ budget, (after m ⟨[], budget⟩).stream_ = putEntries (cut budget es)

theorem Streams.serves {es : List CacheEntry} {m : S Unit} (h : Streams es m) :
    Serves es (backendFails >>= fun _ => m) := by
  rintro (_ | _ | k)
  · show (after m ⟨[], none⟩).stream_ = _
    unfold after
    rw [h _ (by simp)]
    rfl
  · rfl
  · show (after m ⟨[], some (k + 1)⟩).stream_ = _
    unfold after
    rw [h _ (by simp)]
    by_cases hk : k + 1 ≤ es.length
    · simp only [outcome, if_pos hk]; rfl
    · simp only [outcome, if_neg hk, cut]
      rw [List.take_of_length_le (by omega)]
      rfl

theorem serves_getEntries : Serves (requested b .getEntries) (b.getEntries backendFails processFailOverCacheEntry_) :=
  (streams_forM (fun p : SCO × List CacheEntry => streams_get_entries p.2) b.scos).serves

theorem serves_getSCO (sconame : SCO) :
    Serves (requested b (.getSCO sconame)) (b.getSCO backendFails processFailOverCacheEntry_ sconame) := by
  unfold Backend.getSCO
  simp only [requested]
  cases b.scos.find? (·.1 = sconame) with
  | none =>
    rintro (_ | k)
    · rfl
    · show [] = putEntries (List.take k [])
      rw [List.take_nil]; rfl
  | some p => exact (streams_get_entries p.2).serves

section
variable {m : S Unit} {c c' : Conn}

theorem withEof_ok {a : Unit} (h : m c = .ok a c') : withEof m c = send (Put.clusterLocation end_cli) c' :=
  run_bind (run_tryCatch h)

theorem withEof_error {e : Exn} (h : m c = .error e c') :
    withEof m c = .error e { c' with stream_ := c'.stream_ ++ Put.clusterLocation end_cli } :=
  run_bind_error (run_tryCatch_error h)

end

/-- The null location follows what was sent, whether the streaming returned or threw. What comes
after it is the last answer of a thread that ends with an exception. -/
theorem run_stream (r : Request) (budget : Option Nat) : ∃ tail, (after (run b r) ⟨[], budget⟩).stream_ =
      putEntries (cut budget (requested b r)) ++ (Put.clusterLocation end_cli ++ tail) := by
  have guarded : ∀ m : S Unit, Serves (requested b r) m → handle b r = withEof m →
      ∃ tail, (after (run b r) ⟨[], budget⟩).stream_ =
        putEntries (cut budget (requested b r)) ++ (Put.clusterLocation end_cli ++ tail) := by
    intro m hm hr
    rw [← hm budget]
    unfold run after
    rw [hr]
    cases h : m ⟨[], budget⟩ with
    | ok a c =>
      refine ⟨[], ?_⟩
      rw [run_tryCatch (withEof_ok h)]
      simp
    | error e c =>
      refine ⟨toLE 4 NotOk, ?_⟩
      rw [run_tryCatch_error (withEof_error h)]
      show c.stream_ ++ _ ++ _ = _
      rw [List.append_assoc]
  cases r with
  | getEntries => exact guarded _ (serves_getEntries b) rfl
  | getSCO sconame => exact guarded _ (serves_getSCO b sconame) rfl

/-! ## What the client reads -/

/-- The fields of the entry fit into the integers they are sent as. -/
structure Fits (e : CacheEntry) : Prop where
  cli : e.cli_.Fits
  lba : e.lba_ < 2 ^ 64
  size : e.data.length < 2 ^ 31

theorem readEntry_put {e : CacheEntry} (h : Fits e) (rest : Bytes) :
    readEntry e.cli_ (toLE 8 e.lba_ ++ (toLE 8 e.data.length ++ (e.data ++ rest))) = .ok (e, rest) := by
  have hsize := h.size
  have hlen : uint64 (int64 e.data.length) % 2 ^ 32 = e.data.length := by
    rw [uint64_int64 (by omega), Nat.mod_eq_of_lt (by omega)]
  unfold readEntry
  rw [bind_of (unsigned_toLE _ h.lba), bind_of (long_toLE _ (by omega)), bind_of (bytes_append _ _ hlen.symm)]
  rfl

theorem recv_of {α : Type} {m : Read α} {c : Client} {a : α} {rest : Bytes} (h : m c.stream_ = .ok (a, rest)) :
    recv m c = .ok a { c with stream_ := rest } := by
  unfold recv
  rw [h]

theorem end_cli_fits : end_cli.Fits := ⟨by decide, by decide, by decide, by decide⟩

section
variable {fuel ret : Nat} {c : Client} {cli : ClusterLocation} {rest rest' : Bytes} {e : CacheEntry}

theorem entriesUpToNull_null (hr : clusterLocation c.stream_ = .ok (cli, rest)) (hn : cli.isNull = true) :
    entriesUpToNull (fuel + 1) ret c = .ok ret { c with stream_ := rest } := by
  rw [entriesUpToNull]
  refine (run_bind (recv_of hr)).trans ?_
  simp only [hn]
  rfl

theorem entriesUpToNull_entry (hr : clusterLocation c.stream_ = .ok (cli, rest)) (hn : cli.isNull = false)
    (he : readEntry cli rest = .ok (e, rest')) :
    entriesUpToNull (fuel + 1) ret c = entriesUpToNull fuel (ret + e.data.length) ⟨rest', c.processed ++ [e]⟩ := by
  refine (run_bind (recv_of hr)).trans ?_
  simp only [hn, Bool.false_eq_true, if_false]
  have hrecv : recv (readEntry cli) { c with stream_ := rest } = .ok e { c with stream_ := rest' } := recv_of he
  exact (run_bind hrecv).trans rfl

end

theorem entriesUpToNull_run (tail : Bytes) :
    ∀ (es : List CacheEntry) (fuel ret : Nat) (c : Client), (∀ e ∈ es, Fits e) → es.length < fuel →
      c.stream_ = putEntries es ++ (Put.clusterLocation end_cli ++ tail) →
      ∃ ret' c', entriesUpToNull fuel ret c = .ok ret' c' ∧
        c'.processed = c.processed ++ es.takeWhile fun e => !e.cli_.isNull
  | [], fuel + 1, ret, c, _, _, hc => by
    have hread : clusterLocation c.stream_ = .ok (end_cli, tail) := by
      rw [hc]; exact clusterLocation_put end_cli_fits tail
    exact ⟨ret, _, entriesUpToNull_null hread rfl, by simp⟩
  | e :: es, fuel + 1, ret, c, hfit, hfuel, hc => by
    obtain ⟨he, hes⟩ := List.forall_mem_cons.mp hfit
    have hread : clusterLocation c.stream_ = .ok (e.cli_, toLE 8 e.lba_ ++ (toLE 8 e.data.length ++
        (e.data ++ (putEntries es ++ (Put.clusterLocation end_cli ++ tail))))) := by
      rw [hc, ← clusterLocation_put he.cli]
      simp [putEntries, putEntry]
    cases hn : e.cli_.isNull with
    | true => exact ⟨ret, _, entriesUpToNull_null hread hn, by simp [hn]⟩
    | false =>
      obtain ⟨ret', c', hrun, hp⟩ := entriesUpToNull_run tail es fuel (ret + e.data.length)
        ⟨putEntries es ++ (Put.clusterLocation end_cli ++ tail), c.processed ++ [e]⟩ hes
        (by simp at hfuel; omega) rfl
      refine ⟨ret', c', (entriesUpToNull_entry hread hn (readEntry_put he _)).trans hrun, ?_⟩
      rw [hp]
      simp [hn]

theorem length_putEntries_ge : ∀ es : List CacheEntry, es.length ≤ (putEntries es).length
  | [] => Nat.le_refl _
  | e :: es => by
    have ih := length_putEntries_ge es
    simp only [putEntries, List.flatMap_cons, List.length_append, putEntry, Put.length_clusterLocation,
      List.length_cons] at ih ⊢
    omega

/-! ## All or nothing -/

/-- A cache whose entries have the source's integer types. -/
structure Content where
  backend : Backend
  fits : ∀ e ∈ backend.entries, Fits e

/-- The client before it reads the answer to its request. -/
def asked (r : Request) (budget : Option Nat) : Client :=
  { stream_ := (after (run b r) ⟨[], budget⟩).stream_ }

theorem mem_entries_of_requested {b : Backend} {r : Request} {e : CacheEntry} (h : e ∈ requested b r) :
    e ∈ b.entries := by
  cases r with
  | getEntries => exact h
  | getSCO sconame =>
    simp only [requested] at h
    cases hf : b.scos.find? (·.1 = sconame) with
    | none => rw [hf] at h; simp at h
    | some p =>
      rw [hf] at h
      exact List.mem_flatMap.mpr ⟨p, List.mem_of_find?_eq_some hf, h⟩

theorem getObject_run (d : Content) (r : Request) (budget : Option Nat) :
    ∃ ret c', getObject_ (asked d.backend r budget) = .ok ret c' ∧
      c'.processed = (cut budget (requested d.backend r)).takeWhile fun e => !e.cli_.isNull := by
  obtain ⟨tail, hs⟩ := run_stream d.backend r budget
  have hsub : ∀ e ∈ cut budget (requested d.backend r), Fits e := by
    intro e he
    have hreq : e ∈ requested d.backend r := by
      cases budget with
      | none => exact he
      | some k => exact List.mem_of_mem_take he
    exact d.fits e (mem_entries_of_requested hreq)
  refine entriesUpToNull_run tail _ ((asked d.backend r budget).stream_.length + 1) 0 _ hsub ?_ hs
  have := length_putEntries_ge (cut budget (requested d.backend r))
  show _ < (after (run d.backend r) ⟨[], budget⟩).stream_.length + 1
  rw [hs, List.length_append]
  omega

theorem takeWhile_cut_eq_iff {budget : Option Nat} {es : List CacheEntry} {p : CacheEntry → Bool} :
    (cut budget es).takeWhile p = es ↔ (∀ k, budget = some k → es.length ≤ k) ∧ ∀ e ∈ es, p e = true := by
  constructor
  · intro h
    have hlen : ∀ k, budget = some k → es.length ≤ k := by
      rintro k rfl
      have hle := (List.takeWhile_prefix p (l := es.take k)).length_le
      rw [show (es.take k).takeWhile p = es from h, List.length_take] at hle
      omega
    have hcut : cut budget es = es := by
      cases budget with
      | none => rfl
      | some k => exact List.take_of_length_le (hlen k rfl)
    rw [hcut] at h
    exact ⟨hlen, List.takeWhile_eq_self_iff.mp h⟩
  · rintro ⟨hlen, hp⟩
    cases budget with
    | none => exact List.takeWhile_eq_self_iff.mpr hp
    | some k =>
      rw [show cut (some k) es = es from List.take_of_length_le (hlen k rfl)]
      exact List.takeWhile_eq_self_iff.mpr hp

/-- A read that returns delivered all it asked for exactly when the backend did not fail before
the last entry and no entry looks like the end of the stream. -/
theorem read_all_or_nothing_iff (d : Content) (r : Request) (budget : Option Nat) :
    (∀ ret c, getObject_ (asked d.backend r budget) = .ok ret c → c.processed = requested d.backend r) ↔
      (∀ k, budget = some k → (requested d.backend r).length ≤ k) ∧
        ∀ e ∈ requested d.backend r, e.cli_.isNull = false := by
  obtain ⟨ret, c', hrun, hp⟩ := getObject_run d r budget
  have hnull : (∀ e ∈ requested d.backend r, (!e.cli_.isNull) = true) ↔
      ∀ e ∈ requested d.backend r, e.cli_.isNull = false := by
    simp only [Bool.not_eq_true']
  rw [← hnull, ← takeWhile_cut_eq_iff, ← hp]
  constructor
  · intro h
    exact h ret c' hrun
  · intro h ret' c'' hrun'
    rw [hrun] at hrun'
    cases hrun'
    exact h

namespace Sample

/-- Two clusters of one SCO. -/
def backend : Backend :=
  { scos := [(⟨1, 0, 0⟩, [⟨⟨⟨1, 0, 0⟩, 0⟩, 0, [1]⟩, ⟨⟨⟨1, 0, 0⟩, 1⟩, 8, [2]⟩])] }

end Sample

/-- The backend fails after the first of two entries; the client is called with that one and
returns as if it were all. -/
theorem truncated_read_returns :
    returns getObject_ (asked Sample.backend .getEntries (some 1)) = true ∧
      (after getObject_ (asked Sample.backend .getEntries (some 1))).processed =
        [⟨⟨⟨1, 0, 0⟩, 0⟩, 0, [1]⟩] ∧
      requested Sample.backend .getEntries = [⟨⟨⟨1, 0, 0⟩, 0⟩, 0, [1]⟩, ⟨⟨⟨1, 0, 0⟩, 1⟩, 8, [2]⟩] := by
  refine ⟨?_, ?_, ?_⟩ <;> decide +kernel

end Transfer

end VolumeDriver
