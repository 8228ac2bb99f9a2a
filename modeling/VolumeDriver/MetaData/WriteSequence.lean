/-
The write sequence of the Arakoon metadata backend (ArakoonMetaDataBackend.cpp). Pages put to it are
copied into one vector of locations and sent to Arakoon in one sequence, when the cork or the scrub id
is set, a page is discarded or the vector counts as full. The place of a copy is the number of queued
pages, counted in locations, so that copies overlap. Stated is when this goes unnoticed.
-/
import VolumeDriver.MetaData.Page
import VolumeDriver.Lib.Replay
import VolumeDriver.Lib.Steps

namespace VolumeDriver.ArakoonMetaDataBackend

open Lib Function List

/-! ## Arakoon -/

/-- One update of a sequence. -/
inductive Update (page_bits : Nat)
  | set_page (pa : PageAddress) (data : PageData page_bits)
  | delete_page (pa : PageAddress)
  | set_cork (cork : UUID)
  | set_scrub_id (id : ScrubId)
  | set_used_clusters (used : Int)

/-- The keys of one namespace. `sent` is no key: it lists the pages that were ever set. -/
structure Arakoon (page_bits : Nat) where
  pages : PageAddress → Option (PageData page_bits) := fun _ => none
  cork : Option UUID := none
  scrub_id : Option ScrubId := none
  used_clusters : Option Int := none
  sent : List (PageAddress × PageData page_bits) := []

variable {page_bits : Nat}

/-- `none` if the key to delete does not exist. -/
def Arakoon.update (k : Arakoon page_bits) : Update page_bits → Option (Arakoon page_bits)
  | .set_page pa data =>
    some { k with pages := Function.update k.pages pa (some data), sent := k.sent ++ [(pa, data)] }
  | .delete_page pa =>
    match k.pages pa with
    | some _ => some { k with pages := Function.update k.pages pa none }
    | none => none
  | .set_cork cork => some { k with cork := some cork }
  | .set_scrub_id id => some { k with scrub_id := some id }
  | .set_used_clusters used => some { k with used_clusters := some used }

/-- All updates or none of them. -/
def Arakoon.sequence (k : Arakoon page_bits) (seq : List (Update page_bits)) : Option (Arakoon page_bits) :=
  seq.foldlM Arakoon.update k

/-! ## The backend -/

/-- `write_sequence_data_` has `data_size` locations; what lies behind them is other memory. The pages
of `write_sequence_` are an address and the index of their copy. -/
structure State (page_bits : Nat) where
  cluster_ : Arakoon page_bits
  used_clusters_ : Int
  write_sequence_data_ : Nat → ClusterLocationAndHash
  data_size : Nat
  write_sequence_ : List (PageAddress × Nat) := []

open State

/-- The number of locations is a product of 32-bit numbers. -/
def create (cluster : Arakoon page_bits) (arakoon_metadata_sequence_size : Nat)
    (memory : Nat → ClusterLocationAndHash) : State page_bits where
  cluster_ := cluster
  used_clusters_ := cluster.used_clusters.getD 0
  write_sequence_data_ := memory
  data_size := arakoon_metadata_sequence_size * CachePage.capacity page_bits % 2 ^ 32

namespace State

variable (s : State page_bits)

/-- The page copied to index `k`. -/
def copy (k : Nat) : PageData page_bits := fun i => s.write_sequence_data_ (k + i)

/-- Memory after a page was copied to `m`; what is written behind the vector does not stay. -/
def copied (m : Nat) (data : PageData page_bits) (x : Nat) : ClusterLocationAndHash :=
  if h : (m ≤ x ∧ x < s.data_size) ∧ x - m < 2 ^ page_bits then data ⟨x - m, h.2⟩
  else s.write_sequence_data_ x

/-- `write_sequence_.emplace_back(p, &write_sequence_data_[write_sequence_.size()])`. -/
def emplace_back (p : CachePage page_bits) : State page_bits :=
  { s with
    write_sequence_data_ := s.copied s.write_sequence_.length p.data
    write_sequence_ := s.write_sequence_ ++ [(p.page_address, s.write_sequence_.length)] }

/-- The queued pages as they are in memory. -/
def queued : List (PageAddress × PageData page_bits) :=
  s.write_sequence_.map fun e => (e.1, s.copy e.2)

/-- Takes the queued pages as updates. -/
def build_write_sequence_ : State page_bits × List (Update page_bits) :=
  ({ s with write_sequence_ := [] }, s.queued.map fun e => .set_page e.1 e.2)

/-- `flush_write_sequence_` with a sequence. -/
def run_sequence (seq : List (Update page_bits)) : Except Exn (State page_bits) :=
  match s.cluster_.sequence (seq ++ [.set_used_clusters s.used_clusters_]) with
  | some k => .ok { s with cluster_ := k }
  | none => .error .backendObjectDoesNotExist

/-- Sends the queued pages. -/
def flush_write_sequence_ : Except Exn (State page_bits) :=
  let (s, seq) := s.build_write_sequence_
  s.run_sequence seq

/-- Sends them if the vector counts as full. -/
def maybe_flush_write_sequence_ : Except Exn (State page_bits) :=
  if s.write_sequence_.length = s.data_size then s.flush_write_sequence_ else .ok s

/-- Queues a page. -/
def putPage (p : CachePage page_bits) (used_clusters_delta : Int) :
    Except Exn (State page_bits) :=
  let used := s.used_clusters_ + used_clusters_delta
  if s.write_sequence_.length = s.data_size then .error (.ioException "arakoon write sequence is filled up")
  else do
    let s ← (s.emplace_back p).maybe_flush_write_sequence_
    pure { s with used_clusters_ := used }

/-- A page that Arakoon does not have is no error. -/
def discardPage (p : CachePage page_bits) (used_clusters_delta : Int) :
    Except Exn (State page_bits) := do
  let s ← s.flush_write_sequence_
  let used := s.used_clusters_ + used_clusters_delta
  match s.cluster_.sequence [.delete_page p.page_address, .set_used_clusters used] with
  | some k => pure { s with cluster_ := k, used_clusters_ := used }
  | none => pure s

/-- Sends the queued pages and the cork. -/
def setCork (cork_uuid : UUID) : Except Exn (State page_bits) :=
  let (s, seq) := s.build_write_sequence_
  s.run_sequence (seq ++ [.set_cork cork_uuid])

/-- Sends the queued pages and the scrub id. -/
def set_scrub_id (s : State page_bits) (id : ScrubId) : Except Exn (State page_bits) :=
  let (s, seq) := s.build_write_sequence_
  s.run_sequence (seq ++ [.set_scrub_id id])

/-- The newest queued page of the address. -/
def get_page_from_write_sequence_ (pa : PageAddress) : Option (PageData page_bits) :=
  (s.write_sequence_.reverse.find? fun e => e.1 = pa).map fun e => s.copy e.2

/-- Volumes have no parent cluster here: it is set up with CHEAP_CLONING only. -/
def getPage (s : State page_bits) (pa : PageAddress) : Option (PageData page_bits) :=
  match s.get_page_from_write_sequence_ pa with
  | some data => some data
  | none => s.cluster_.pages pa

end State

/-! ## Runs -/

/-- The calls of a store. -/
inductive Action (page_bits : Nat)
  | putPage (p : CachePage page_bits) (used_clusters_delta : Int)
  | discardPage (p : CachePage page_bits) (used_clusters_delta : Int)
  | getPage (pa : PageAddress)
  | setCork (cork_uuid : UUID)
  | set_scrub_id (id : ScrubId)
  /-- `sync`, `lastCorkUUID` and `scrub_id` send the queued pages. -/
  | flush

/-- What a call does. -/
def perform (s : State page_bits) : Action page_bits → Except Exn (State page_bits)
  | .putPage p delta => s.putPage p delta
  | .discardPage p delta => s.discardPage p delta
  | .getPage _ => .ok s
  | .setCork cork_uuid => s.setCork cork_uuid
  | .set_scrub_id id => s.set_scrub_id id
  | .flush => s.flush_write_sequence_

/-- The backend, what each address was last given and the pages put so far, oldest first. -/
structure Run (page_bits : Nat) where
  backend : State page_bits
  last : PageAddress → Option (PageData page_bits)
  puts : List (PageAddress × PageData page_bits)

/-- What the calls say, whatever the backend does with it. -/
def Run.note (r : Run page_bits) (s : State page_bits) : Action page_bits → Run page_bits
  | .putPage p _ =>
    ⟨s, update r.last p.page_address (some p.data), r.puts ++ [(p.page_address, p.data)]⟩
  | .discardPage p _ => ⟨s, update r.last p.page_address none, r.puts⟩
  | _ => ⟨s, r.last, r.puts⟩

/-- A call that throws is no call. -/
def step (r : Run page_bits) (a : Action page_bits) : Run page_bits :=
  match perform r.backend a with
  | .ok s => r.note s a
  | .error _ => r

variable {r : Run page_bits} {s : State page_bits} {p : CachePage page_bits}

theorem step_of_ok {a : Action page_bits} (h : perform r.backend a = .ok s) : step r a = r.note s a := by
  unfold step
  rw [h]

/-- Nothing was put yet, and Arakoon has what it has. -/
def start (cluster : Arakoon page_bits) (arakoon_metadata_sequence_size : Nat)
    (memory : Nat → ClusterLocationAndHash) : Run page_bits :=
  ⟨create { cluster with sent := [] } arakoon_metadata_sequence_size memory, cluster.pages, []⟩

/-- Every page is found as it was last given, and Arakoon was sent the pages that were put. -/
structure Transparent (r : Run page_bits) : Prop where
  found : ∀ pa, r.backend.getPage pa = r.last pa
  sent : r.backend.cluster_.sent <+: r.puts

/-- The copy of a page fits into the vector and agrees with the queued copies that it overlaps. -/
structure Fits (s : State page_bits) (p : CachePage page_bits) : Prop where
  room : s.write_sequence_.length + 2 ^ page_bits ≤ s.data_size
  agrees : ∀ e ∈ s.write_sequence_, ∀ i j : Fin (2 ^ page_bits),
    e.2 + i = s.write_sequence_.length + j → s.copy e.2 i = p.data j

/-- Every page that is put fits. -/
def Careful (r : Run page_bits) : Action page_bits → Prop
  | .putPage p _ => r.backend.write_sequence_.length ≠ r.backend.data_size → Fits r.backend p
  | _ => True

/-! ## Sequences -/

/-- The pages of a sequence are set one after the other, so that the last of an address stays. -/
theorem sequence_pages : ∀ (l : List (PageAddress × PageData page_bits)) (k : Arakoon page_bits)
    (rest : List (Update page_bits)), k.sequence ((l.map fun e => .set_page e.1 e.2) ++ rest) =
      Arakoon.sequence
        { k with pages := fun pa => (lastBinding l pa).or (k.pages pa), sent := k.sent ++ l } rest
  | [], k, rest => by simp
  | e :: l, k, rest => by
    have hpages : (fun pa => (lastBinding l pa).or (Function.update k.pages e.1 (some e.2) pa)) =
        fun pa => (lastBinding (e :: l) pa).or (k.pages pa) := by
      funext pa
      rw [lastBinding, Option.or_assoc]
      by_cases hpa : e.1 = pa
      · subst hpa; simp
      · simp [hpa, Function.update_of_ne (Ne.symm hpa)]
    have hnext := sequence_pages l
      { k with pages := Function.update k.pages e.1 (some e.2), sent := k.sent ++ [e] } rest
    rw [hpages, append_assoc] at hnext
    exact hnext

theorem find_lastBinding {α : Type} (f : PageAddress × Nat → α) (pa : PageAddress) :
    ∀ l : List (PageAddress × Nat), (l.reverse.find? fun e => e.1 = pa).map f =
      lastBinding (l.map fun e => (e.1, f e)) pa
  | [] => rfl
  | e :: l => by
    rw [reverse_cons, find?_append, map_cons, lastBinding, ← find_lastBinding f pa l]
    cases l.reverse.find? fun e => e.1 = pa with
    | some x => simp
    | none => by_cases h : e.1 = pa <;> simp [h]

/-- A page is looked up among the queued ones first, the newest before the others. -/
theorem getPage_eq (s : State page_bits) (pa : PageAddress) :
    s.getPage pa = (lastBinding s.queued pa).or (s.cluster_.pages pa) := by
  unfold getPage get_page_from_write_sequence_ queued
  rw [find_lastBinding (fun e => s.copy e.2)]
  cases lastBinding (s.write_sequence_.map fun e => (e.1, s.copy e.2)) pa <;> rfl

/-- What sending the queued pages does. -/
structure Flushed (s s' : State page_bits) : Prop where
  empty : s'.write_sequence_ = []
  pages : ∀ pa, s'.cluster_.pages pa = s.getPage pa
  sent : s'.cluster_.sent = s.cluster_.sent ++ s.queued

theorem getPage_of_empty (h : s.write_sequence_ = []) (pa : PageAddress) : s.getPage pa = s.cluster_.pages pa := by
  rw [getPage_eq, queued, h]
  simp

theorem Flushed.getPage {s' : State page_bits} (h : Flushed s s') (pa : PageAddress) :
    s'.getPage pa = s.getPage pa := by
  rw [getPage_of_empty h.empty, h.pages]

theorem Flushed.queued {s' : State page_bits} (h : Flushed s s') : s'.queued = [] := by
  rw [State.queued, h.empty]; rfl

theorem run_sequence_flushed (s : State page_bits) (rest : List (Update page_bits))
    (hrest : ∀ k : Arakoon page_bits, ∃ k', k.sequence (rest ++ [.set_used_clusters s.used_clusters_]) = some k' ∧
      k'.pages = k.pages ∧ k'.sent = k.sent) :
    ∃ s', s.build_write_sequence_.1.run_sequence (s.build_write_sequence_.2 ++ rest) = .ok s' ∧ Flushed s s' := by
  obtain ⟨k', hk, hpages, hsent⟩ := hrest { s.cluster_ with
      pages := fun pa => (lastBinding s.queued pa).or (s.cluster_.pages pa), sent := s.cluster_.sent ++ s.queued }
  refine ⟨{ s with write_sequence_ := [], cluster_ := k' }, ?_, ?_⟩
  · unfold run_sequence build_write_sequence_
    rw [append_assoc, sequence_pages]
    simp only [hk]
  · constructor
    case empty => rfl
    case pages =>
      intro pa
      rw [getPage_eq]
      exact congrFun hpages pa
    case sent => exact hsent

theorem flush_flushed (s : State page_bits) : ∃ s', s.flush_write_sequence_ = .ok s' ∧ Flushed s s' := by
  obtain ⟨s', hrun, h⟩ := run_sequence_flushed s [] fun _ => ⟨_, rfl, rfl, rfl⟩
  rw [append_nil] at hrun
  exact ⟨s', hrun, h⟩

theorem setCork_flushed (s : State page_bits) (cork_uuid : UUID) : ∃ s', s.setCork cork_uuid = .ok s' ∧ Flushed s s' :=
  run_sequence_flushed s [.set_cork cork_uuid] fun _ => ⟨_, rfl, rfl, rfl⟩

theorem set_scrub_id_flushed (s : State page_bits) (id : ScrubId) : ∃ s', s.set_scrub_id id = .ok s' ∧ Flushed s s' :=
  run_sequence_flushed s [.set_scrub_id id] fun _ => ⟨_, rfl, rfl, rfl⟩

/-! ## Copies -/

/-- A copy that fits leaves the queued ones as they were and is the page that was put. -/
theorem emplace_back_queued (h : Fits s p) : (s.emplace_back p).queued = s.queued ++ [(p.page_address, p.data)] := by
  have hold : ∀ e ∈ s.write_sequence_, (s.emplace_back p).copy e.2 = s.copy e.2 := by
    intro e he
    funext i
    change s.copied s.write_sequence_.length p.data (e.2 + i) = s.copy e.2 i
    unfold copied
    split
    · rename_i hx
      exact (h.agrees e he i ⟨e.2 + i - s.write_sequence_.length, hx.2⟩ (by simp only; omega)).symm
    · rfl
  have hnew : (s.emplace_back p).copy s.write_sequence_.length = p.data := by
    funext i
    change s.copied s.write_sequence_.length p.data (s.write_sequence_.length + i) = p.data i
    have hroom := h.room
    have hx : (s.write_sequence_.length ≤ s.write_sequence_.length + i ∧
        s.write_sequence_.length + i < s.data_size) ∧
        s.write_sequence_.length + i - s.write_sequence_.length < 2 ^ page_bits := by
      omega
    unfold copied
    rw [dif_pos hx]
    congr 1
    exact Fin.ext (by simp)
  unfold queued
  rw [show (s.emplace_back p).write_sequence_ = s.write_sequence_ ++ [(p.page_address, s.write_sequence_.length)]
    from rfl, map_append, map_singleton, hnew]
  congr 1
  exact map_congr_left fun e he => by rw [hold e he]

/-! ## Runs keep the pages -/

/-- What was sent and what is queued make up what was put. -/
structure Inv (r : Run page_bits) : Prop where
  found : ∀ pa, r.backend.getPage pa = r.last pa
  puts : r.backend.cluster_.sent ++ r.backend.queued = r.puts

theorem Inv.transparent (h : Inv r) : Transparent r :=
  ⟨h.found, ⟨_, h.puts⟩⟩

theorem Inv.flushed (h : Inv r) (hf : Flushed r.backend s) : Inv ⟨s, r.last, r.puts⟩ := by
  constructor
  case found => intro pa; rw [hf.getPage]; exact h.found pa
  case puts => rw [hf.sent, hf.queued, append_nil]; exact h.puts

theorem Inv.emplace_back (h : Inv r) (hp : Fits r.backend p) :
    Inv ⟨r.backend.emplace_back p, update r.last p.page_address (some p.data),
      r.puts ++ [(p.page_address, p.data)]⟩ := by
  constructor
  case found =>
    intro pa
    change (r.backend.emplace_back p).getPage pa = update r.last p.page_address (some p.data) pa
    rw [getPage_eq, emplace_back_queued hp, lastBinding_append, Option.or_assoc]
    change (lastBinding [(p.page_address, p.data)] pa).or
      ((lastBinding r.backend.queued pa).or (r.backend.cluster_.pages pa)) = _
    rw [← getPage_eq, h.found]
    by_cases hpa : p.page_address = pa
    · subst hpa; simp [lastBinding]
    · simp [lastBinding, hpa, update_of_ne (Ne.symm hpa)]
  case puts =>
    change r.backend.cluster_.sent ++ (r.backend.emplace_back p).queued = _
    rw [emplace_back_queued hp, ← append_assoc, h.puts]

theorem Inv.used_clusters (h : Inv r) (used : Int) : Inv ⟨{ r.backend with used_clusters_ := used }, r.last, r.puts⟩ :=
  ⟨h.found, h.puts⟩

theorem Inv.putPage (h : Inv r) (delta : Int)
    (hp : r.backend.write_sequence_.length ≠ r.backend.data_size → Fits r.backend p) :
    Inv (step r (.putPage p delta)) := by
  by_cases hfull : r.backend.write_sequence_.length = r.backend.data_size
  · have hput : r.backend.putPage p delta = .error (.ioException "arakoon write sequence is filled up") :=
      if_pos hfull
    unfold step perform
    simp only [hput]
    exact h
  · have hput : r.backend.putPage p delta = (do
        let s ← (r.backend.emplace_back p).maybe_flush_write_sequence_
        pure { s with used_clusters_ := r.backend.used_clusters_ + delta }) := if_neg hfull
    have hnew := h.emplace_back (hp hfull)
    unfold maybe_flush_write_sequence_ at hput
    split at hput
    · -- the sequence is full now
      obtain ⟨s', hrun, hf⟩ := flush_flushed (r.backend.emplace_back p)
      rw [hrun, ok_bind] at hput
      rw [step_of_ok (a := .putPage p delta) hput]
      exact (hnew.flushed hf).used_clusters _
    · rw [step_of_ok (a := .putPage p delta) hput]
      exact hnew.used_clusters _

theorem delete_sequence (k : Arakoon page_bits) (pa : PageAddress) (used : Int) :
    k.sequence [.delete_page pa, .set_used_clusters used] = (k.pages pa).map fun _ =>
      { k with pages := Function.update k.pages pa none, used_clusters := some used } := by
  cases h : k.pages pa <;> simp [Arakoon.sequence, Arakoon.update, h]

theorem Inv.discardPage (h : Inv r) (p : CachePage page_bits) (delta : Int) : Inv (step r (.discardPage p delta)) := by
  obtain ⟨s, hrun, hf⟩ := flush_flushed r.backend
  have hlast : ∀ pa, s.cluster_.pages pa = r.last pa := fun pa => by rw [hf.pages, h.found]
  have hdiscard : perform r.backend (.discardPage p delta) =
      (match s.cluster_.sequence [.delete_page p.page_address, .set_used_clusters (s.used_clusters_ + delta)] with
      | some k => pure { s with cluster_ := k, used_clusters_ := s.used_clusters_ + delta }
      | none => pure s) := by
    change r.backend.discardPage p delta = _
    unfold State.discardPage
    rw [hrun]
    rfl
  rw [delete_sequence] at hdiscard
  cases hpage : s.cluster_.pages p.page_address with
  | some data =>
    rw [hpage] at hdiscard
    rw [step_of_ok hdiscard]
    constructor
    case found =>
      intro pa
      rw [getPage_of_empty]
      · change update s.cluster_.pages p.page_address none pa = update r.last p.page_address none pa
        rw [funext hlast]
      · exact hf.empty
    case puts => exact (h.flushed hf).puts
  | none =>
    -- nothing to delete: the sequence is not applied, and the address has no page
    rw [hpage] at hdiscard
    rw [step_of_ok hdiscard]
    constructor
    case found =>
      intro pa
      change s.getPage pa = update r.last p.page_address none pa
      rw [getPage_of_empty hf.empty, hlast]
      by_cases hpa : pa = p.page_address
      · subst hpa
        rw [update_self, ← hlast, hpage]
      · rw [update_of_ne hpa]
    case puts => exact (h.flushed hf).puts

theorem Inv.step (h : Inv r) (a : Action page_bits) (hc : Careful r a) : Inv (ArakoonMetaDataBackend.step r a) := by
  cases a with
  | putPage p delta => exact h.putPage delta hc
  | discardPage p delta => exact h.discardPage p delta
  | getPage pa => exact h
  | setCork cork_uuid =>
    obtain ⟨s, hrun, hf⟩ := setCork_flushed r.backend cork_uuid
    rw [step_of_ok (a := .setCork cork_uuid) hrun]
    exact h.flushed hf
  | set_scrub_id id =>
    obtain ⟨s, hrun, hf⟩ := set_scrub_id_flushed r.backend id
    rw [step_of_ok (a := .set_scrub_id id) hrun]
    exact h.flushed hf
  | flush =>
    obtain ⟨s, hrun, hf⟩ := flush_flushed r.backend
    rw [step_of_ok (a := .flush) hrun]
    exact h.flushed hf

theorem inv_start (cluster : Arakoon page_bits) (n : Nat) (memory : Nat → ClusterLocationAndHash) :
    Inv (start cluster n memory) :=
  ⟨fun pa => getPage_of_empty rfl pa, rfl⟩

/-- The write sequence does not show in a run in which every page that is put fits: each page is found
as it was last put, and not after it was discarded, and Arakoon is sent the pages that were put. -/
theorem write_sequence_transparent (cluster : Arakoon page_bits) (arakoon_metadata_sequence_size : Nat)
    (memory : Nat → ClusterLocationAndHash) (as : List (Action page_bits))
    (h : Each step Careful (start cluster arakoon_metadata_sequence_size memory) as) :
    Each step (fun r a => Transparent (step r a)) (start cluster arakoon_metadata_sequence_size memory) as :=
  each_imp Inv (fun _ a hr hc => ⟨(hr.step a hc).transparent, hr.step a hc⟩) (inv_start cluster _ memory) h

/-! ## Pages of two locations -/

/-- A page whose locations are in SCO `number`. -/
def page (pa : PageAddress) (number : Nat) : CachePage 1 :=
  { page_address := pa, data := fun i => ⟨⟨⟨number, 0, 0⟩, i⟩, 0⟩ }

/-- A backend for pages of two locations. -/
def fresh : Run 1 := start {} 4 fun _ => .zero

instance (s : State page_bits) (p : CachePage page_bits) : Decidable (Fits s p) :=
  decidable_of_iff (s.write_sequence_.length + 2 ^ page_bits ≤ s.data_size ∧
    ∀ e ∈ s.write_sequence_, ∀ i j : Fin (2 ^ page_bits),
      e.2 + i = s.write_sequence_.length + j → s.copy e.2 i = p.data j)
    ⟨fun h => ⟨h.1, h.2⟩, fun h => ⟨h.room, h.agrees⟩⟩

/-- A page at a time: the cork between the pages sends the first before the second is copied. -/
theorem page_at_a_time_transparent :
    Each step (fun r a => Transparent (step r a)) fresh
      [.putPage (page 0 1) 2, .setCork 1, .putPage (page 1 2) 2, .discardPage (page 0 0) (-2), .getPage 1] := by
  refine write_sequence_transparent {} 4 (fun _ => .zero) _
    ⟨fun _ => ?_, trivial, fun _ => ?_, trivial, trivial, trivial⟩
  · decide
  · decide

/-- The second page is copied over the second location of the first one, which is then found, and sent
to Arakoon, with a location of the second page. -/
theorem queued_copies_overlap :
    ¬Transparent (runs step fresh [.putPage (page 0 1) 2, .putPage (page 1 2) 2]) ∧
      ¬(runs step fresh [.putPage (page 0 1) 2, .putPage (page 1 2) 2, .setCork 1]).backend.cluster_.sent <+:
        (runs step fresh [.putPage (page 0 1) 2, .putPage (page 1 2) 2, .setCork 1]).puts := by
  constructor
  · intro h
    have hfound := h.found 0
    revert hfound
    decide
  · decide

end VolumeDriver.ArakoonMetaDataBackend
